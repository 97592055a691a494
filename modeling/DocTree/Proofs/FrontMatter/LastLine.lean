import Mathlib
import DocTree.Proofs.FrontMatter
import DocTree.Proofs.Text.Blank

/-!
# The last line of a text with front matter

Only a delimiter that a line end closes ends the front matter. So a line end that is put behind a
text changes what is read of it, and does so just where the last line is the delimiter that then ends
the header (`agrees_append_newline_iff`). Everywhere else the header is the same, and the body but for
blanks.
-/

namespace DocTree

namespace FrontMatter
variable {s : List Char} {ls : List (List Char)}

/-! ### Lines and blanks -/

theorem lines_append_newline (s : List Char) : lines (s ++ ['\n']) = lines s ++ [[]] :=
  Text.splitAt_append_cons s []

theorem join_concat_nil (hne : ls ≠ []) : join (ls ++ [[]]) = join ls ++ ['\n'] := by
  induction ls with
  | nil => exact absurd rfl hne
  | cons l ls ih =>
    rw [List.cons_append, join_cons l (by simp)]
    cases ls with
    | nil => rfl
    | cons m ls => rw [ih (by simp), join_cons l (by simp), List.append_assoc, List.cons_append]

theorem trim_join_dropBlankLines (ls : List (List Char)) :
    Text.trim (join (dropBlankLines ls)) = Text.trim (join ls) := by
  fun_induction dropBlankLines ls with
  | case1 l m ls hblank ih =>
    have hclosed : (l ++ ['\n']).all Text.isBlank = true := by
      rw [List.all_append, Bool.and_eq_true]
      exact ⟨hblank, by decide⟩
    rw [ih, join_cons l (by simp), List.append_cons, Text.trim_blank_append hclosed]
  | case2 l m ls hblank => rfl
  | case3 ls h => rfl

theorem trim_body_concat_nil (hne : ls ≠ []) :
    Text.trim (join (dropBlankLines (ls ++ [[]]))) = Text.trim (join (dropBlankLines ls)) := by
  rw [trim_join_dropBlankLines, trim_join_dropBlankLines, join_concat_nil hne,
    Text.trim_append_blank _ (by decide)]

theorem mem_join {l : List Char} {c : Char} (hl : l ∈ ls) (hc : c ∈ l) : c ∈ join ls := by
  induction ls with
  | nil => cases hl
  | cons m ls ih =>
    by_cases hne : ls = []
    · subst hne
      rwa [← List.mem_singleton.1 hl]
    · rw [join_cons m hne, List.mem_append, List.mem_cons]
      rcases List.mem_cons.1 hl with rfl | hl
      · exact .inl hc
      · exact .inr (.inr (ih hl))

/-- A text with a line that is not blank is not blank. -/
theorem trim_join_ne_nil {l : List Char} (hl : l ∈ ls) (hb : isBlankLine l = false) :
    Text.trim (join ls) ≠ [] := by
  rw [Ne, Text.trim_eq_nil_iff, List.all_eq_true]
  intro hall
  have hblank : isBlankLine l = true := List.all_eq_true.2 fun c hc => hall c (mem_join hl hc)
  rw [hblank] at hb
  cases hb

/-! ### Texts without a closed delimiter -/

theorem exists_of_mem_afterLineEnds {l x : List Char} (hn : ∀ m ∈ l :: ls, '\n' ∉ m)
    (hx : x ∈ afterLineEnds (join (l :: ls))) : ∃ m ms, m :: ms <:+ ls ∧ x = join (m :: ms) := by
  induction ls generalizing l with
  | nil =>
    rw [afterLineEnds_singleton (hn l (List.mem_cons_self ..))] at hx
    cases hx
  | cons m ms ih =>
    obtain ⟨hl, hms⟩ := List.forall_mem_cons.1 hn
    cases hb : isBlankLine l with
    | false =>
      rw [afterLineEnds_join_of_not_blank hl hb] at hx
      cases hx
    | true =>
      rw [afterLineEnds_join_cons hl hb (by simp)] at hx
      rcases List.mem_append.1 hx with hx | hx
      · obtain ⟨k, ks, hks, rfl⟩ := ih hms hx
        exact ⟨k, ks, hks.trans (List.suffix_cons ..), rfl⟩
      · exact ⟨m, ms, List.suffix_rfl, List.mem_singleton.1 hx⟩

/-- A text whose first line is no delimiter has no front matter. -/
theorem header?_of_not_opened (h : ∀ l, (lines s).head? = some l → isDelimiter l = false) :
    header? s = none := by
  obtain ⟨l, ls, hls⟩ := Text.exists_splitAt_eq_cons '\n' s
  have hlines : lines s = l :: ls := hls
  have hl : '\n' ∉ l := not_mem_of_mem_lines (hlines ▸ List.mem_cons_self ..)
  rw [header?, ← join_lines s, hlines, afterDelimiter_of_not_isDelimiter hl (h l (by rw [hlines]; rfl))]
  rfl

/-- A text without a closed delimiter behind its first line has no front matter. -/
theorem header?_of_not_closed (h : ∀ l ∈ (lines s).tail.dropLast, isDelimiter l = false) :
    header? s = none := by
  obtain ⟨l, ls, hls⟩ := Text.exists_splitAt_eq_cons '\n' s
  have hlines : lines s = l :: ls := hls
  have hn : ∀ m ∈ l :: ls, '\n' ∉ m := fun m hm => not_mem_of_mem_lines (hlines ▸ hm)
  cases hd : isDelimiter l with
  | false =>
    refine header?_of_not_opened fun m hm => ?_
    rw [hlines] at hm
    cases hm
    exact hd
  | true =>
    obtain ⟨r, rfl, -⟩ := isDelimiter_iff.1 hd
    rw [header?, ← join_lines s, hlines, afterDelimiter_join, List.findSome?_eq_none_iff]
    intro x hx
    have hnr : ∀ m ∈ r :: ls, '\n' ∉ m := List.forall_mem_cons.2
      ⟨fun hr => hn _ (List.mem_cons_self ..) (List.mem_append_right _ hr),
        (List.forall_mem_cons.1 hn).2⟩
    obtain ⟨m, ms, hms, rfl⟩ := exists_of_mem_afterLineEnds hnr hx
    have hmem : ∀ k ∈ m :: ms, '\n' ∉ k := fun k hk => hnr k (List.mem_cons_of_mem _ (hms.mem hk))
    refine cut?_eq_none (hmem m (List.mem_cons_self ..))
      (fun k hk => hmem k (List.mem_cons_of_mem _ hk)) fun k hk => h k ?_
    rw [hlines, List.tail_cons]
    obtain ⟨before, rfl⟩ := hms
    have hne : ms ≠ [] := by rintro rfl; cases hk
    rw [List.dropLast_append_of_ne_nil (by simp), List.dropLast_cons_of_ne_nil hne]
    exact List.mem_append_right _ (List.mem_cons_of_mem _ hk)

/-! ### A line end put behind -/

/-- That the last line of a text ends the header as soon as a line end closes it. It is a delimiter,
and so is the first line. It is the next one of these, but not the next line; or it is the next but
one, with nothing but blank lines in front of the next. -/
structure EndsHeader (s : List Char) : Prop where
  opened : ∃ l, (lines s).head? = some l ∧ isDelimiter l = true
  last : ∃ c, isDelimiter c = true ∧
    (headerLines s ≠ [] ∧ (lines s).tail = headerLines s ++ [c] ∨
      (∀ b ∈ headerLines s, isBlankLine b = true) ∧
        ∃ more, bodyLines s = more ++ [c] ∧ ∀ m ∈ more, isDelimiter m = false)

/-- That two texts are cut alike: they have the same header, and the same body but for the blanks
around it. -/
def CutAlike (s t : List Char) : Prop :=
  Option.Rel (fun x y => x.1 = y.1 ∧ Text.trim x.2 = Text.trim y.2) (header? s) (header? t)

/-- That a text is cut behind its last line once that is closed. If it is cut before, it is so that a
body is left. -/
structure CutLate (s : List Char) : Prop where
  late : ∃ header, header? (s ++ ['\n']) = some (header, [])
  early : ∀ header body, header? s = some (header, body) → Text.trim body ≠ []

theorem exists_not_blank (h : ¬ ∀ b ∈ ls, isBlankLine b = true) : ∃ l bs more,
    ls = bs ++ l :: more ∧ (∀ b ∈ bs, isBlankLine b = true) ∧ isBlankLine l = false := by
  have hsome : (ls.find? (!isBlankLine ·)).isSome = true := List.find?_isSome.2 (by simpa using h)
  obtain ⟨l, hl⟩ := Option.isSome_iff_exists.1 hsome
  obtain ⟨hbl, bs, more, hls, hbs⟩ := List.find?_eq_some_iff_append.1 hl
  exact ⟨l, bs, more, hls, by simpa using hbs, by simpa using hbl⟩

section
variable {r c : List Char} {mid after : List (List Char)}
  (h : lines s = (['-', '-', '-'] ++ r) :: (mid ++ c :: after)) (hc : isDelimiter c = true)
include h

theorem lines_append_newline_of_lines_eq : lines (s ++ ['\n']) =
    (['-', '-', '-'] ++ r) :: (mid ++ c :: (after ++ [[]])) := by
  rw [lines_append_newline, h, List.cons_append, List.append_assoc, List.cons_append (a := c)]

include hc

/-- Between the first two delimiter lines is a line that is not blank, and the latter is closed. -/
theorem cutAlike_of_not_blank (hr : isBlankLine r = true) (hd : ∀ m ∈ mid, isDelimiter m = false)
    {bs more : List (List Char)} {l : List Char} (hmid : mid = bs ++ l :: more)
    (hb : ∀ b ∈ bs, isBlankLine b = true) (hl : isBlankLine l = false) (ha : after ≠ []) :
    CutAlike s (s ++ ['\n']) := by
  rw [CutAlike, header?_of_not_blank h hr hc hmid hd ha hb hl,
    header?_of_not_blank (lines_append_newline_of_lines_eq h) hr hc hmid hd (by simp) hb hl]
  exact .some ⟨rfl, (trim_body_concat_nil ha).symm⟩

/-- Between the first two delimiter lines are blank lines only, and a third one is closed. -/
theorem cutAlike_of_third (hr : isBlankLine r = true) (hb : ∀ b ∈ mid, isBlankLine b = true)
    {more after' : List (List Char)} {c' : List Char} (hafter : after = more ++ c' :: after')
    (hm : ∀ m ∈ more, isDelimiter m = false) (hc' : isDelimiter c' = true) (ha : after' ≠ []) :
    CutAlike s (s ++ ['\n']) := by
  have hafter' : after ++ [[]] = more ++ c' :: (after' ++ [[]]) := by
    rw [hafter, List.append_assoc, List.cons_append]
  rw [CutAlike, header?_of_blank_of_closed h hr hc hafter hb hm hc' ha,
    header?_of_blank_of_closed (lines_append_newline_of_lines_eq h) hr hc hafter' hb hm hc' (by simp)]
  exact .some ⟨rfl, (trim_body_concat_nil ha).symm⟩

/-- Between the first two delimiter lines are blank lines only, and there is no third one. -/
theorem cutAlike_of_no_third (hr : isBlankLine r = true) (hb : ∀ b ∈ mid, isBlankLine b = true)
    (hm : ∀ m ∈ after, isDelimiter m = false) (ha : mid ≠ [] → after ≠ []) :
    CutAlike s (s ++ ['\n']) := by
  have h' := lines_append_newline_of_lines_eq h
  have hopen : ∀ m ∈ after.dropLast, isDelimiter m = false := fun m hmem =>
    hm m (List.dropLast_subset _ hmem)
  have hopen' : ∀ m ∈ (after ++ [[]]).dropLast, isDelimiter m = false := by
    rwa [List.dropLast_concat]
  rcases mid.eq_nil_or_concat with hnil | ⟨bs, l, hmid⟩
  · rw [CutAlike, header?_of_nil h hr hc hnil hopen, header?_of_nil h' hr hc hnil hopen']
    exact .none
  · rw [List.concat_eq_append] at hmid
    have hne : after ≠ [] := ha (by simp [hmid])
    rw [CutAlike, header?_of_blank h hr hc hmid hb hopen hne,
      header?_of_blank h' hr hc hmid hb hopen' (by simp)]
    exact .some ⟨rfl, (trim_body_concat_nil hne).symm⟩

/-- The second delimiter line is the last line, and not directly behind the first. -/
theorem cutLate_of_second (hr : isBlankLine r = true) (hd : ∀ m ∈ mid, isDelimiter m = false)
    (hne : mid ≠ []) (hafter : after = []) : CutLate s := by
  have h' := lines_append_newline_of_lines_eq h
  subst hafter
  have hnone : header? s = none := by
    refine header?_of_not_closed ?_
    rw [h, List.tail_cons, List.dropLast_concat]
    exact hd
  refine ⟨?_, fun header body hs => by rw [hnone] at hs; cases hs⟩
  by_cases hb : ∀ b ∈ mid, isBlankLine b = true
  · obtain ⟨bs, l, hmid⟩ := mid.eq_nil_or_concat.resolve_left hne
    rw [List.concat_eq_append] at hmid
    exact ⟨_, header?_of_blank h' hr hc hmid hb (by simp) (by simp)⟩
  · obtain ⟨l, bs, more, hmid, hbs, hl⟩ := exists_not_blank hb
    exact ⟨_, header?_of_not_blank h' hr hc hmid hd (by simp) hbs hl⟩

/-- The third delimiter line is the last line, and between the first two are blank lines only. -/
theorem cutLate_of_third (hr : isBlankLine r = true) (hb : ∀ b ∈ mid, isBlankLine b = true)
    {more : List (List Char)} {c' : List Char} (hafter : after = more ++ [c'])
    (hm : ∀ m ∈ more, isDelimiter m = false) (hc' : isDelimiter c' = true) : CutLate s := by
  have hafter' : after ++ [[]] = more ++ c' :: [[]] := by
    rw [hafter, List.append_assoc, List.singleton_append]
  have hopen : ∀ m ∈ after.dropLast, isDelimiter m = false := by
    rwa [hafter, List.dropLast_concat]
  refine ⟨⟨_, header?_of_blank_of_closed (lines_append_newline_of_lines_eq h) hr hc hafter' hb hm
    hc' (by simp)⟩, fun header body hs => ?_⟩
  rcases mid.eq_nil_or_concat with hnil | ⟨bs, l, hmid⟩
  · rw [header?_of_nil h hr hc hnil hopen] at hs
    cases hs
  · rw [List.concat_eq_append] at hmid
    rw [header?_of_blank h hr hc hmid hb hopen (by simp [hafter])] at hs
    cases hs
    rw [trim_join_dropBlankLines]
    exact trim_join_ne_nil (l := c') (by simp [hafter]) (isBlankLine_of_isDelimiter hc')

end

theorem isDelimiter_of_dropWhile {c : List Char} {after : List (List Char)}
    (h : ls.dropWhile (!isDelimiter ·) = c :: after) : isDelimiter c = true := by
  have hhead := List.head_dropWhile_not (!isDelimiter ·) (l := ls) (by simp [h])
  simpa [h] using hhead

theorem exists_lines_eq_cons (s : List Char) : ∃ l ls, lines s = l :: ls :=
  Text.exists_splitAt_eq_cons '\n' s

/-- Behind a first line that is a delimiter there is no other one, or the lines are cut there. -/
theorem exists_lines_eq (hopened : ∃ l, (lines s).head? = some l ∧ isDelimiter l = true) :
    (∀ l ∈ (lines s).tail, isDelimiter l = false) ∨
      ∃ r c, lines s = (['-', '-', '-'] ++ r) :: (headerLines s ++ c :: bodyLines s) ∧
        isBlankLine r = true ∧ isDelimiter c = true := by
  obtain ⟨l, hl, hdl⟩ := hopened
  obtain ⟨r, rfl, hr⟩ := isDelimiter_iff.1 hdl
  obtain ⟨ls, hls⟩ := List.head?_eq_some_iff.1 hl
  rcases hdrop : (lines s).tail.dropWhile (!isDelimiter ·) with _ | ⟨c, after⟩
  · exact .inl (by simpa using List.dropWhile_eq_nil_iff.1 hdrop)
  · refine .inr ⟨r, c, ?_, hr, isDelimiter_of_dropWhile hdrop⟩
    rw [bodyLines, hdrop, List.tail_cons, ← hdrop, headerLines, List.takeWhile_append_dropWhile,
      hls, List.tail_cons]

theorem EndsHeader.cutLate (h : EndsHeader s) : CutLate s := by
  have hd : ∀ m ∈ headerLines s, isDelimiter m = false := fun m => not_isDelimiter_of_mem_takeWhile
  obtain ⟨c, hc, ⟨hne, htail⟩ | ⟨hb, more, hbody, hm⟩⟩ := h.last
  · obtain ⟨l, hl, hdl⟩ := h.opened
    obtain ⟨r, rfl, hr⟩ := isDelimiter_iff.1 hdl
    obtain ⟨ls, hls⟩ := List.head?_eq_some_iff.1 hl
    have hlines : lines s = (['-', '-', '-'] ++ r) :: (headerLines s ++ c :: []) := by
      rw [← htail, hls, List.tail_cons]
    exact cutLate_of_second hlines hc hr hd hne rfl
  · rcases exists_lines_eq h.opened with hnone | ⟨r, d, hlines, hr, hdelimiter⟩
    · have hdrop : (lines s).tail.dropWhile (!isDelimiter ·) = [] :=
        List.dropWhile_eq_nil_iff.2 (by simpa using hnone)
      rw [bodyLines, hdrop] at hbody
      simp at hbody
    · exact cutLate_of_third hlines hdelimiter hr hb hbody hm hc

theorem cutAlike_of_not_endsHeader (h : ¬ EndsHeader s) : CutAlike s (s ++ ['\n']) := by
  obtain ⟨l, ls, hls⟩ := exists_lines_eq_cons s
  have hlines' : lines (s ++ ['\n']) = l :: (ls ++ [[]]) := by rw [lines_append_newline, hls]; rfl
  by_cases hopened : ∃ l, (lines s).head? = some l ∧ isDelimiter l = true
  · rcases exists_lines_eq hopened with hnone | ⟨r, c, hlines, hr, hc⟩
    · rw [hls, List.tail_cons] at hnone
      rw [CutAlike, header?_of_not_closed, header?_of_not_closed]
      · exact .none
      · rwa [hlines', List.tail_cons, List.dropLast_concat]
      · rw [hls, List.tail_cons]
        exact fun m hm => hnone m (List.dropLast_subset _ hm)
    · have hd : ∀ m ∈ headerLines s, isDelimiter m = false := fun m =>
        not_isDelimiter_of_mem_takeWhile
      have hne : headerLines s ≠ [] → bodyLines s ≠ [] := by
        refine fun hne hnil => h ⟨hopened, c, hc, .inl ⟨hne, ?_⟩⟩
        rw [hlines, List.tail_cons, hnil]
      by_cases hb : ∀ b ∈ headerLines s, isBlankLine b = true
      · rcases hdrop : (bodyLines s).dropWhile (!isDelimiter ·) with _ | ⟨c', after⟩
        · exact cutAlike_of_no_third hlines hc hr hb (by simpa using hdrop) hne
        · have hm : ∀ m ∈ (bodyLines s).takeWhile (!isDelimiter ·), isDelimiter m = false := fun m =>
            not_isDelimiter_of_mem_takeWhile
          have hbody := List.takeWhile_append_dropWhile (p := (!isDelimiter ·)) (l := bodyLines s)
          rw [hdrop] at hbody
          have hc' : isDelimiter c' = true := isDelimiter_of_dropWhile hdrop
          refine cutAlike_of_third hlines hc hr hb hbody.symm hm hc' ?_
          rintro rfl
          exact h ⟨hopened, c', hc', .inr ⟨hb, _, hbody.symm, hm⟩⟩
      · obtain ⟨l, bs, more, hmid, hbs, hl⟩ := exists_not_blank hb
        exact cutAlike_of_not_blank hlines hc hr hd hmid hbs hl (hne (by simp [hmid]))
  · have hfirst : isDelimiter l = false := by
      rw [Bool.eq_false_iff]
      exact fun hl => hopened ⟨l, by rw [hls]; rfl, hl⟩
    rw [CutAlike, header?_of_not_opened, header?_of_not_opened]
    · exact .none
    · rw [hlines']
      rintro m ⟨⟩
      exact hfirst
    · rw [hls]
      rintro m ⟨⟩
      exact hfirst

/-! ### What is read -/

/-- That front matter is read alike: the same entries with bodies that differ in blanks around them
only, or none in either case. -/
inductive Agrees : Except Fault (List (Value × Value) × String) →
    Except Fault (List (Value × Value) × String) → Prop
  | read (es : List (Value × Value)) {body body' : String} (h : body.trimBlank = body'.trimBlank) :
      Agrees (.ok (es, body)) (.ok (es, body'))
  | refused (f f' : Fault) : Agrees (.error f) (.error f')

theorem read_cases (header : List Char) : (∃ f, ∀ body, read header body = .error f) ∨
    ∃ es, ∀ body, read header body = .ok (es, .ofList body) := by
  unfold read
  cases Yaml.load header with
  | error e => exact .inl ⟨_, fun body => rfl⟩
  | ok v =>
    dsimp only
    split
    · exact .inr ⟨_, fun body => rfl⟩
    · split
      · exact .inr ⟨_, fun body => rfl⟩
      · exact .inl ⟨_, fun body => rfl⟩

theorem toList_append_newline (text : String) : (text ++ "\n").toList = text.toList ++ ['\n'] :=
  String.toList_append

variable {text : String}

theorem split_of_cutAlike (h : CutAlike text.toList (text ++ "\n").toList) :
    Agrees (split text) (split (text ++ "\n")) ∧
      ∀ f, split text = .error f ↔ split (text ++ "\n") = .error f := by
  unfold split
  rw [CutAlike] at h
  rcases hs : header? text.toList with _ | ⟨header, body⟩ <;>
    rcases hs' : header? (text ++ "\n").toList with _ | ⟨header', body'⟩ <;> rw [hs, hs'] at h
  · refine ⟨.read _ ?_, fun f => by simp⟩
    rw [String.trimBlank, String.trimBlank, toList_append_newline,
      Text.trim_append_blank _ (by decide)]
  · cases h
  · cases h
  · obtain ⟨rfl, htrim⟩ : header = header' ∧ Text.trim body = Text.trim body' := by
      cases h
      assumption
    dsimp only
    rcases read_cases header with ⟨f, hf⟩ | ⟨es, hes⟩
    · rw [hf, hf]
      exact ⟨.refused f f, fun g => Iff.rfl⟩
    · rw [hes, hes]
      exact ⟨.read es (by rw [Text.trimBlank_ofList, Text.trimBlank_ofList, htrim]), fun g => by simp⟩

/-- The body of a text is all of it, or what stands behind the header. -/
theorem body_of_split {es : List (Value × Value)} {body : String} (h : split text = .ok (es, body)) :
    header? text.toList = none ∧ body = text ∨
      ∃ header rest, header? text.toList = some (header, rest) ∧ body = .ofList rest := by
  unfold split at h
  rcases hs : header? text.toList with _ | ⟨header, rest⟩ <;> rw [hs] at h
  · cases h
    exact .inl ⟨rfl, rfl⟩
  · dsimp only at h
    rcases read_cases header with ⟨f, hf⟩ | ⟨es', hes'⟩
    · rw [hf] at h
      cases h
    · rw [hes'] at h
      cases h
      exact .inr ⟨header, rest, rfl, rfl⟩

/-- A body that was not empty is gone once the last line ends the header. -/
theorem refused_of_cutLate (h : CutLate text.toList) (hne : Text.trim text.toList ≠ [])
    (hagrees : Agrees (split text) (split (text ++ "\n"))) :
    ∃ f f', split text = .error f ∧ split (text ++ "\n") = .error f' := by
  obtain ⟨header', hs'⟩ := h.late
  have hlate : split (text ++ "\n") = read header' [] := by
    rw [split, toList_append_newline, hs']
  rcases hsplit : split text with f | ⟨es, body⟩ <;>
    rcases read_cases header' with ⟨f', hf'⟩ | ⟨es', hes'⟩
  · exact ⟨f, f', rfl, hlate.trans (hf' [])⟩
  · rw [hsplit, hlate, hes'] at hagrees
    cases hagrees
  · rw [hsplit, hlate, hf'] at hagrees
    cases hagrees
  · exfalso
    rw [hsplit, hlate, hes'] at hagrees
    have hempty : body.trimBlank = "" := by
      cases hagrees
      assumption
    rcases body_of_split hsplit with ⟨-, rfl⟩ | ⟨header, rest, hs, rfl⟩
    · exact hne (String.ofList_eq_empty_iff.1 hempty)
    · rw [Text.trimBlank_ofList] at hempty
      exact h.early header rest hs (String.ofList_eq_empty_iff.1 hempty)

theorem EndsHeader.trim_ne_nil (h : EndsHeader s) : Text.trim s ≠ [] := by
  obtain ⟨l, hl, hd⟩ := h.opened
  rw [← join_lines s]
  exact trim_join_ne_nil (List.mem_of_mem_head? hl) (isBlankLine_of_isDelimiter hd)

/-- A line end behind a text changes nothing in the front matter, and only blanks around the body, just
if the last line is not the one that then ends the header, or nothing can be read either way. -/
theorem agrees_append_newline_iff (text : String) :
    (Agrees (split text) (split (text ++ "\n")) ↔ ¬ EndsHeader text.toList ∨
      ∃ f f', split text = .error f ∧ split (text ++ "\n") = .error f') ∧
    (¬ EndsHeader text.toList → ∀ f, split text = .error f ↔ split (text ++ "\n") = .error f) := by
  have hsame (h : ¬ EndsHeader text.toList) : CutAlike text.toList (text ++ "\n").toList :=
    toList_append_newline text ▸ cutAlike_of_not_endsHeader h
  refine ⟨⟨fun hagrees => ?_, ?_⟩, fun h => (split_of_cutAlike (hsame h)).2⟩
  · by_cases h : EndsHeader text.toList
    · exact .inr (refused_of_cutLate h.cutLate h.trim_ne_nil hagrees)
    · exact .inl h
  · rintro (h | ⟨f, f', hf, hf'⟩)
    · exact (split_of_cutAlike (hsame h)).1
    · rw [hf, hf']
      exact .refused f f'

/-- Front matter up to the end of a text, with no line end behind it, is not seen. -/
theorem not_forall_agrees_append_newline :
    ¬ ∀ text : String, Agrees (split text) (split (text ++ "\n")) := by
  intro h
  have hopen : split "---\ntitle: x\n---" = .ok ([], "---\ntitle: x\n---") := by
    have hnone : header? "---\ntitle: x\n---".toList = none := by decide +kernel
    rw [split, hnone]
  have hclosed : split ("---\ntitle: x\n---" ++ "\n") = read "title: x".toList [] := by
    have hheader : header? ("---\ntitle: x\n---" ++ "\n").toList =
        some ("title: x".toList, []) := by decide +kernel
    rw [split, hheader]
  have hagrees := h "---\ntitle: x\n---"
  rw [hopen, hclosed] at hagrees
  rcases read_cases "title: x".toList with ⟨f, hf⟩ | ⟨es, hes⟩
  · rw [hf] at hagrees
    cases hagrees
  · rw [hes] at hagrees
    cases hagrees
    rename_i hbody
    exact absurd hbody (by decide +kernel)

end FrontMatter
end DocTree
