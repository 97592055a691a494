import Mathlib
import DocTree.FrontMatter
import DocTree.Proofs.Text

/-!
# The lines of front matter

Where front matter ends, told by lines. A text has a header between its first two delimiter lines
(`between`), and a body behind them (`behind`). The cut is made there only if the header begins with
a line that is not blank, or is one blank line and no further delimiter follows
(`split_of_hasHeader`): blank lines at the front of a header are passed over together with the first
delimiter, and if nothing else is in it, the closing delimiter is taken for the header's first line.
-/

namespace DocTree.FrontMatter

/-- The lines of a text. All but the last are closed by a line end. -/
def lines (s : List Char) : List (List Char) := Text.splitAt '\n' s

/-- The text of lines. -/
def join (ls : List (List Char)) : List Char := Text.joinWith ['\n'] ls

/-- Whether a line is a delimiter: three hyphens with nothing but blanks behind them. -/
def isDelimiter (l : List Char) : Bool :=
  match Text.stripStart? ['-', '-', '-'] l with
  | some rest => rest.all Text.isBlank
  | none => false

/-- Whether a line holds nothing but blanks. -/
def isBlankLine (l : List Char) : Bool := l.all Text.isBlank

/-- The lines without the blank ones at the front, as far as a line end closes them. -/
def dropBlankLines : List (List Char) → List (List Char)
  | l :: m :: ls => if isBlankLine l then dropBlankLines (m :: ls) else l :: m :: ls
  | ls => ls

/-! ### Line ends in leading blanks -/

section
variable {l : List Char} {ls : List (List Char)}

theorem join_cons (l : List Char) (h : ls ≠ []) : join (l :: ls) = l ++ '\n' :: join ls :=
  Text.joinWith_cons l h

theorem afterLineEnds_blank (hl : '\n' ∉ l) (hb : isBlankLine l = true) (s : List Char) :
    afterLineEnds (l ++ s) = afterLineEnds s := by
  induction l with
  | nil => rfl
  | cons c l ih =>
    rw [List.mem_cons, not_or] at hl
    rw [isBlankLine, List.all_cons, Bool.and_eq_true] at hb
    rw [List.cons_append, afterLineEnds, hb.1, if_neg (by decide), if_neg (Ne.symm hl.1)]
    exact ih hl.2 hb.2

theorem afterLineEnds_not_blank (hl : '\n' ∉ l) (hb : isBlankLine l = false) (s : List Char) :
    afterLineEnds (l ++ s) = [] := by
  induction l with
  | nil => cases hb
  | cons c l ih =>
    rw [List.mem_cons, not_or] at hl
    rw [List.cons_append, afterLineEnds]
    cases hc : Text.isBlank c with
    | false => rfl
    | true =>
      rw [isBlankLine, List.all_cons, hc, Bool.true_and] at hb
      rw [if_neg (by decide), if_neg (Ne.symm hl.1)]
      exact ih hl.2 hb

theorem isBlank_newline : Text.isBlank '\n' = true := by decide

theorem afterLineEnds_join_cons (hl : '\n' ∉ l) (hb : isBlankLine l = true) (hne : ls ≠ []) :
    afterLineEnds (join (l :: ls)) = afterLineEnds (join ls) ++ [join ls] := by
  rw [join_cons l hne, afterLineEnds_blank hl hb, afterLineEnds, isBlank_newline, if_neg (by decide),
    if_pos rfl]

theorem afterLineEnds_join_of_not_blank (hl : '\n' ∉ l) (hb : isBlankLine l = false) :
    afterLineEnds (join (l :: ls)) = [] := by
  cases ls with
  | nil => simpa [join, Text.joinWith] using afterLineEnds_not_blank hl hb []
  | cons m ls => rw [join_cons l (by simp), afterLineEnds_not_blank hl hb]

theorem afterLineEnds_singleton (hl : '\n' ∉ l) : afterLineEnds (join [l]) = [] := by
  cases hb : isBlankLine l with
  | false => exact afterLineEnds_join_of_not_blank hl hb
  | true => simpa [join, Text.joinWith, afterLineEnds] using afterLineEnds_blank hl hb []

theorem head?_afterLineEnds (hl : '\n' ∉ l) (hb : isBlankLine l = true) (hne : ls ≠ [])
    (hls : ∀ m ∈ ls, '\n' ∉ m) :
    (afterLineEnds (join (l :: ls))).head? = some (join (dropBlankLines ls)) := by
  induction ls generalizing l with
  | nil => exact absurd rfl hne
  | cons m ls ih =>
    have hm := hls m (List.mem_cons_self ..)
    have hls' : ∀ k ∈ ls, '\n' ∉ k := fun k hk => hls k (List.mem_cons_of_mem _ hk)
    rw [afterLineEnds_join_cons hl hb hne]
    cases ls with
    | nil => rw [afterLineEnds_singleton hm]; rfl
    | cons k ls =>
      rw [dropBlankLines]
      cases hbm : isBlankLine m with
      | false => rw [afterLineEnds_join_of_not_blank hm hbm]; rfl
      | true => rw [List.head?_append, ih hm hbm (by simp) hls', if_pos rfl]; rfl

end

/-! ### Delimiters -/

section
variable {l c : List Char} {ls between after : List (List Char)}

theorem isDelimiter_iff : isDelimiter l = true ↔
    ∃ r, l = ['-', '-', '-'] ++ r ∧ isBlankLine r = true := by
  rw [isDelimiter]
  constructor
  · intro h
    split at h
    · rename_i r hr
      exact ⟨r, Text.stripStart?_eq_some.1 hr, h⟩
    · cases h
  · rintro ⟨r, hr, hb⟩
    rw [Text.stripStart?_eq_some.2 hr]
    exact hb

theorem isBlankLine_of_isDelimiter (h : isDelimiter l = true) : isBlankLine l = false := by
  obtain ⟨r, rfl, -⟩ := isDelimiter_iff.1 h
  rfl

theorem afterDelimiter_join {r : List Char} (ls : List (List Char)) :
    afterDelimiter (join ((['-', '-', '-'] ++ r) :: ls)) = afterLineEnds (join (r :: ls)) := by
  have hjoin : join ((['-', '-', '-'] ++ r) :: ls) = ['-', '-', '-'] ++ join (r :: ls) := by
    cases ls with
    | nil => rfl
    | cons m ls => rw [join_cons _ (by simp), join_cons r (by simp), List.append_assoc]
  rw [hjoin, afterDelimiter, Text.stripStart?_eq_some.2 rfl]

theorem exists_eq_append_of_join (h : join (l :: ls) = ['-', '-', '-'] ++ c) :
    ∃ r, l = ['-', '-', '-'] ++ r := by
  cases ls with
  | nil => exact ⟨c, h⟩
  | cons m ls =>
    rw [join_cons l (by simp)] at h
    rcases List.append_eq_append_iff.1 h with ⟨a, ha, hs⟩ | ⟨r, hr, -⟩
    · cases a with
      | nil => exact ⟨[], by simpa using ha.symm⟩
      | cons d a =>
        have hd : d ∈ ['-', '-', '-'] := ha ▸ List.mem_append_right _ (List.mem_cons_self ..)
        rw [List.cons_append, List.cons.injEq] at hs
        simp [← hs.1] at hd
    · exact ⟨r, hr⟩

theorem afterDelimiter_of_not_isDelimiter (hl : '\n' ∉ l) (h : isDelimiter l = false) :
    afterDelimiter (join (l :: ls)) = [] := by
  rw [afterDelimiter]
  split
  · rename_i c hc
    obtain ⟨r, rfl⟩ := exists_eq_append_of_join (Text.stripStart?_eq_some.1 hc)
    have hr : isBlankLine r = false := by
      cases hb : isBlankLine r with
      | false => rfl
      | true => rw [isDelimiter_iff.2 ⟨r, rfl, hb⟩] at h; cases h
    have hjoin := afterDelimiter_join (r := r) ls
    rw [afterDelimiter, hc] at hjoin
    rw [List.mem_append, not_or] at hl
    exact hjoin.trans (afterLineEnds_join_of_not_blank hl.2 hr)
  · rfl

/-- Behind a line that is closed the text goes on, if it is a delimiter, without blank lines. -/
theorem head?_afterDelimiter (hl : '\n' ∉ l) (hls : ∀ m ∈ ls, '\n' ∉ m) :
    (afterDelimiter (join (l :: ls))).head? =
      if isDelimiter l = true ∧ ls ≠ [] then some (join (dropBlankLines ls)) else none := by
  cases hd : isDelimiter l with
  | false => rw [afterDelimiter_of_not_isDelimiter hl hd, if_neg (by simp)]; rfl
  | true =>
    obtain ⟨r, rfl, hb⟩ := isDelimiter_iff.1 hd
    rw [List.mem_append, not_or] at hl
    rw [afterDelimiter_join]
    by_cases hne : ls = []
    · rw [hne, afterLineEnds_singleton hl.2, if_neg (by simp)]; rfl
    · rw [head?_afterLineEnds hl.2 hb hne hls, if_pos ⟨rfl, hne⟩]

/-! ### Cutting at a delimiter -/

theorem cut?_append (hl : '\n' ∉ l) (s : List Char) :
    cut? (l ++ '\n' :: s) = match (afterDelimiter s).head? with
      | some body => some (l, body)
      | none => (cut? s).map fun (header, body) => (l ++ '\n' :: header, body) := by
  induction l with
  | nil =>
    rw [List.nil_append, cut?, if_pos rfl]
    rfl
  | cons c l ih =>
    rw [List.mem_cons, not_or] at hl
    rw [List.cons_append, cut?, if_neg (Ne.symm hl.1), ih hl.2]
    cases (afterDelimiter s).head? with
    | some body => rfl
    | none => cases cut? s <;> rfl

theorem cut?_line (hl : '\n' ∉ l) : cut? l = none := by
  induction l with
  | nil => rfl
  | cons c l ih =>
    rw [List.mem_cons, not_or] at hl
    rw [cut?, if_neg (Ne.symm hl.1), ih hl.2]
    rfl

/-- A text is cut at its first delimiter line behind the first line, if it is closed. -/
theorem cut?_join (hl : '\n' ∉ l) (hlines : ∀ m ∈ between ++ c :: after, '\n' ∉ m)
    (hb : ∀ m ∈ between, isDelimiter m = false) (hc : isDelimiter c = true) (ha : after ≠ []) :
    cut? (join (l :: (between ++ c :: after))) =
      some (join (l :: between), join (dropBlankLines after)) := by
  induction between generalizing l with
  | nil =>
    have hlines' : ∀ m ∈ after, '\n' ∉ m := fun m hm => hlines m (List.mem_cons_of_mem _ hm)
    rw [List.nil_append, join_cons l (by simp), cut?_append hl,
      head?_afterDelimiter (hlines c (List.mem_cons_self ..)) hlines', if_pos ⟨hc, ha⟩]
    rfl
  | cons m between ih =>
    have hm := hlines m (List.mem_cons_self ..)
    have hlines' : ∀ k ∈ between ++ c :: after, '\n' ∉ k :=
      fun k hk => hlines k (List.mem_cons_of_mem _ hk)
    rw [List.cons_append, join_cons l (by simp), cut?_append hl, head?_afterDelimiter hm hlines',
      hb m (List.mem_cons_self ..), if_neg (by simp),
      ih hm hlines' fun k hk => hb k (List.mem_cons_of_mem _ hk), join_cons l (by simp)]
    rfl

theorem cut?_eq_none (hl : '\n' ∉ l) (hlines : ∀ m ∈ ls, '\n' ∉ m)
    (h : ∀ m ∈ ls.dropLast, isDelimiter m = false) : cut? (join (l :: ls)) = none := by
  induction ls generalizing l with
  | nil => exact cut?_line hl
  | cons m ls ih =>
    have hm := hlines m (List.mem_cons_self ..)
    have hlines' : ∀ k ∈ ls, '\n' ∉ k := fun k hk => hlines k (List.mem_cons_of_mem _ hk)
    have hnot : ¬ (isDelimiter m = true ∧ ls ≠ []) := by
      rintro ⟨hd, hne⟩
      rw [h m (by rw [List.dropLast_cons_of_ne_nil hne]; exact List.mem_cons_self ..)] at hd
      cases hd
    have h' : ∀ k ∈ ls.dropLast, isDelimiter k = false := by
      intro k hk
      have hne : ls ≠ [] := by rintro rfl; cases hk
      exact h k (by rw [List.dropLast_cons_of_ne_nil hne]; exact List.mem_cons_of_mem _ hk)
    rw [join_cons l (by simp), cut?_append hl, head?_afterDelimiter hm hlines', if_neg hnot,
      ih hm hlines' h']
    rfl

end

/-! ### Where a cut is tried -/

section
variable {l m : List Char} {bs ls : List (List Char)} {v : List Char × List Char}

/-- Where the text may go on is looked for from the last of the blank lines backwards. -/
theorem afterLineEnds_prefix (bs : List (List Char)) (hn : ∀ b ∈ bs, '\n' ∉ b)
    (hb : ∀ b ∈ bs, isBlankLine b = true) (hne : ls ≠ []) :
    afterLineEnds (join ls) <+: afterLineEnds (join (bs ++ ls)) := by
  induction bs with
  | nil => exact List.prefix_rfl
  | cons b bs ih =>
    have ih' := ih (fun c hc => hn c (List.mem_cons_of_mem _ hc))
      fun c hc => hb c (List.mem_cons_of_mem _ hc)
    rw [List.cons_append, afterLineEnds_join_cons (hn b (List.mem_cons_self ..))
      (hb b (List.mem_cons_self ..)) (by simp [hne])]
    exact ih'.trans (List.prefix_append ..)

theorem afterLineEnds_cons_not_blank (hm : '\n' ∉ m) (hl : '\n' ∉ l) (hbm : isBlankLine m = true)
    (hbl : isBlankLine l = false) : afterLineEnds (join (m :: l :: ls)) = [join (l :: ls)] := by
  rw [afterLineEnds_join_cons hm hbm (by simp), afterLineEnds_join_of_not_blank hl hbl]
  rfl

/-- The cut is first tried from the first line on that is not blank, then from the line in front. -/
theorem findSome?_cut? (hn : ∀ b ∈ bs ++ l :: ls, '\n' ∉ b)
    (hb : ∀ b ∈ bs, isBlankLine b = true) (hne : bs ≠ []) (hl : isBlankLine l = false)
    (hv : cut? (join (l :: ls)) = some v) :
    (afterLineEnds (join (bs ++ l :: ls))).findSome? cut? = some v := by
  obtain ⟨cs, m, rfl⟩ := (List.eq_nil_or_concat bs).resolve_left hne
  simp only [List.concat_eq_append, List.append_assoc, List.mem_append] at hn hb ⊢
  have hpre : afterLineEnds (join (m :: l :: ls)) <+: _ :=
    afterLineEnds_prefix cs (fun b h => hn b (.inl h)) (fun b h => hb b (.inl h)) (by simp)
  rw [afterLineEnds_cons_not_blank (hn m (by simp)) (hn l (by simp)) (hb m (by simp)) hl] at hpre
  exact hpre.findSome?_eq_some (f := cut?) (by simp [hv])

theorem findSome?_cut?_blank (hn : ∀ b ∈ bs ++ m :: l :: ls, '\n' ∉ b)
    (hb : ∀ b ∈ bs, isBlankLine b = true) (hne : bs ≠ []) (hm : isBlankLine m = true)
    (hl : isBlankLine l = false) (hnone : cut? (join (l :: ls)) = none)
    (hv : cut? (join (m :: l :: ls)) = some v) :
    (afterLineEnds (join (bs ++ m :: l :: ls))).findSome? cut? = some v := by
  obtain ⟨cs, k, rfl⟩ := (List.eq_nil_or_concat bs).resolve_left hne
  simp only [List.concat_eq_append, List.append_assoc, List.mem_append] at hn hb ⊢
  have hpre : afterLineEnds (join (k :: m :: l :: ls)) <+: _ :=
    afterLineEnds_prefix cs (fun b h => hn b (.inl h)) (fun b h => hb b (.inl h)) (by simp)
  rw [afterLineEnds_join_cons (hn k (by simp)) (hb k (by simp)) (by simp),
    afterLineEnds_cons_not_blank (hn m (by simp)) (hn l (by simp)) hm hl] at hpre
  exact hpre.findSome?_eq_some (f := cut?) (by simp [hnone, hv])

end

/-! ### Where front matter ends -/

/-- The lines between the first line and the next delimiter line. -/
def headerLines (s : List Char) : List (List Char) := (lines s).tail.takeWhile (!isDelimiter ·)

/-- The lines behind the first delimiter line that follows the first line. -/
def bodyLines (s : List Char) : List (List Char) :=
  ((lines s).tail.dropWhile (!isDelimiter ·)).tail

/-- That the first line of a text is a delimiter, and so is a later one that a line end closes. -/
structure HasHeader (s : List Char) : Prop where
  opened : ∃ l, (lines s).head? = some l ∧ isDelimiter l = true
  closed : ∃ l ∈ (lines s).tail.dropLast, isDelimiter l = true

/-- That the header does not begin with a blank line, or is one with no closed delimiter line behind
the one that ends it. -/
def IsCutThere (s : List Char) : Prop :=
  (∃ l, (headerLines s).head? = some l ∧ isBlankLine l = false) ∨
    (headerLines s).length = 1 ∧ ∀ l ∈ (bodyLines s).dropLast, isDelimiter l = false

section
variable {s : List Char}

theorem not_mem_of_mem_lines {l : List Char} (h : l ∈ lines s) : '\n' ∉ l :=
  Text.not_mem_of_mem_splitAt h

theorem join_lines (s : List Char) : join (lines s) = s := Text.joinWith_splitAt s

theorem join_inj {ls ms : List (List Char)} (hl : ∀ l ∈ ls, '\n' ∉ l) (hm : ∀ l ∈ ms, '\n' ∉ l)
    (hls : ls ≠ []) (hms : ms ≠ []) (h : join ls = join ms) : ls = ms := by
  rw [← Text.splitAt_joinWith hl hls, ← Text.splitAt_joinWith hm hms]
  exact congrArg lines h

theorem exists_dropWhile_eq_cons {ls : List (List Char)}
    (h : ∃ l ∈ ls.dropLast, isDelimiter l = true) : ∃ c after,
      ls.dropWhile (!isDelimiter ·) = c :: after ∧ isDelimiter c = true ∧ after ≠ [] := by
  obtain ⟨l, hl, hd⟩ := h
  induction ls with
  | nil => cases hl
  | cons m ls ih =>
    have hne : ls ≠ [] := by rintro rfl; cases hl
    cases hm : isDelimiter m with
    | true => exact ⟨m, ls, by rw [List.dropWhile_cons_of_neg (by simp [hm])], hm, hne⟩
    | false =>
      rw [List.dropLast_cons_of_ne_nil hne] at hl
      rcases List.mem_cons.1 hl with rfl | hl
      · rw [hm] at hd; cases hd
      · rw [List.dropWhile_cons_of_pos (by simp [hm])]
        exact ih hl

theorem not_isDelimiter_of_mem_takeWhile {l : List Char} {ls : List (List Char)}
    (h : l ∈ ls.takeWhile (!isDelimiter ·)) : isDelimiter l = false := by
  simpa using List.all_eq_true.1 List.all_takeWhile l h

theorem HasHeader.lines_eq (h : HasHeader s) : ∃ r c,
    lines s = (['-', '-', '-'] ++ r) :: (headerLines s ++ c :: bodyLines s) ∧
      isBlankLine r = true ∧ isDelimiter c = true ∧ bodyLines s ≠ [] := by
  obtain ⟨l, hl, hd⟩ := h.opened
  obtain ⟨r, rfl, hr⟩ := isDelimiter_iff.1 hd
  obtain ⟨c, after, hdrop, hc, ha⟩ := exists_dropWhile_eq_cons h.closed
  have hbody : bodyLines s = after := by rw [bodyLines, hdrop, List.tail_cons]
  refine ⟨r, c, ?_, hr, hc, hbody ▸ ha⟩
  rw [hbody, ← hdrop, headerLines, List.takeWhile_append_dropWhile]
  obtain ⟨ls, hls⟩ := List.head?_eq_some_iff.1 hl
  rw [hls, List.tail_cons]

section
variable {r c : List Char} {mid after : List (List Char)}
  (h : lines s = (['-', '-', '-'] ++ r) :: (mid ++ c :: after)) (hr : isBlankLine r = true)
include h

theorem not_mem_of_lines_eq : ∀ l ∈ r :: (mid ++ c :: after), '\n' ∉ l := by
  intro l hl hn
  rcases List.mem_cons.1 hl with rfl | hl
  · exact not_mem_of_mem_lines (h ▸ List.mem_cons_self ..) (List.mem_append_right _ hn)
  · exact not_mem_of_mem_lines (h ▸ List.mem_cons_of_mem _ hl) hn

theorem header?_eq_findSome? :
    header? s = (afterLineEnds (join (r :: (mid ++ c :: after)))).findSome? cut? := by
  rw [header?, ← join_lines s, h, afterDelimiter_join]

variable (hc : isDelimiter c = true)
include hr hc

/-- The header begins with its first line that is not blank. -/
theorem header?_of_not_blank {bs more : List (List Char)} {l : List Char}
    (hmid : mid = bs ++ l :: more) (hd : ∀ m ∈ mid, isDelimiter m = false) (ha : after ≠ [])
    (hb : ∀ b ∈ bs, isBlankLine b = true) (hl : isBlankLine l = false) :
    header? s = some (join (l :: more), join (dropBlankLines after)) := by
  have hn := not_mem_of_lines_eq h
  subst hmid
  rw [List.append_assoc, List.cons_append] at hn
  rw [header?_eq_findSome? h, List.append_assoc, List.cons_append, ← List.cons_append]
  refine findSome?_cut? hn ?_ (by simp) hl (cut?_join (hn l (by simp)) ?_ ?_ hc ha)
  · exact List.forall_mem_cons.2 ⟨hr, hb⟩
  · exact fun m hm => hn m (by simp at hm ⊢; exact .inr (.inr (.inr hm)))
  · exact fun m hm => hd m (by simp [hm])

/-- If only blank lines are between two delimiter lines, the latter is the first of the header that a
third one ends. -/
theorem header?_of_blank_of_closed {more after' : List (List Char)} {c' : List Char}
    (hafter : after = more ++ c' :: after') (hb : ∀ b ∈ mid, isBlankLine b = true)
    (hd : ∀ m ∈ more, isDelimiter m = false) (hc' : isDelimiter c' = true) (ha : after' ≠ []) :
    header? s = some (join (c :: more), join (dropBlankLines after')) := by
  have hn := not_mem_of_lines_eq h
  subst hafter
  rw [header?_eq_findSome? h, ← List.cons_append]
  refine findSome?_cut? hn ?_ (by simp) (isBlankLine_of_isDelimiter hc)
    (cut?_join (hn c (by simp)) ?_ hd hc' ha)
  · exact List.forall_mem_cons.2 ⟨hr, hb⟩
  · exact fun m hm => hn m (by simp at hm ⊢; exact .inr (.inr (.inr hm)))

/-- If there is no third one, the last of the blank lines is the header. -/
theorem header?_of_blank {bs : List (List Char)} {l : List Char} (hmid : mid = bs ++ [l])
    (hb : ∀ b ∈ mid, isBlankLine b = true) (hd : ∀ m ∈ after.dropLast, isDelimiter m = false)
    (ha : after ≠ []) : header? s = some (l, join (dropBlankLines after)) := by
  have hn := not_mem_of_lines_eq h
  subst hmid
  rw [List.append_assoc, List.singleton_append, ← List.cons_append] at hn
  rw [header?_eq_findSome? h, List.append_assoc, List.singleton_append, ← List.cons_append]
  have hlines : ∀ m ∈ after, '\n' ∉ m := fun m hm => hn m (by simp [hm])
  refine findSome?_cut?_blank hn ?_ (by simp) (hb l (by simp)) (isBlankLine_of_isDelimiter hc)
    (cut?_eq_none (hn c (by simp)) hlines hd) ?_
  · exact List.forall_mem_cons.2 ⟨hr, fun b hb' => hb b (by simp [hb'])⟩
  · show cut? (join (l :: ([] ++ c :: after))) = _
    refine cut?_join (hn l (by simp)) (fun m hm => ?_) (by simp) hc ha
    exact hn m (by simp at hm; simp [hm])

/-- If nothing is between the first two delimiter lines and there is no third one, the text has no
front matter. -/
theorem header?_of_nil (hmid : mid = []) (hd : ∀ m ∈ after.dropLast, isDelimiter m = false) :
    header? s = none := by
  have hn := not_mem_of_lines_eq h
  subst hmid
  rw [List.nil_append] at hn
  rw [header?_eq_findSome? h, List.nil_append, afterLineEnds_cons_not_blank (hn r (by simp))
    (hn c (by simp)) hr (isBlankLine_of_isDelimiter hc), List.findSome?_singleton]
  exact cut?_eq_none (hn c (by simp)) (fun m hm => hn m (by simp [hm])) hd

end

theorem not_mem_of_mem_headerLines {l : List Char} (h : l ∈ headerLines s) : '\n' ∉ l :=
  not_mem_of_mem_lines (List.mem_of_mem_tail ((List.takeWhile_sublist _).mem h))

/-- If the text is cut so that the header is that of the lines, the lines are the same. -/
theorem eq_headerLines {ls : List (List Char)} {body body' : List Char}
    (h : header? s = some (join ls, body)) (hcut : header? s = some (join (headerLines s), body'))
    (hls : ∀ l ∈ ls, '\n' ∉ l) (hne : ls ≠ []) (hne' : headerLines s ≠ []) :
    ls = headerLines s := by
  rw [h, Option.some.injEq, Prod.mk.injEq] at hcut
  exact join_inj hls (fun l => not_mem_of_mem_headerLines) hne hne' hcut.1

/-- A header that is cut from its closing delimiter on is not that of the lines. -/
theorem not_cut_from_delimiter {c : List Char} {ls : List (List Char)} {body body' : List Char}
    (h : header? s = some (join (c :: ls), body)) (hc : isDelimiter c = true)
    (hls : ∀ l ∈ c :: ls, '\n' ∉ l) : header? s ≠ some (join (headerLines s), body') := by
  intro hcut
  by_cases hnil : headerLines s = []
  · rw [h, hnil, Option.some.injEq, Prod.mk.injEq] at hcut
    have hlines : c :: ls = [[]] := join_inj hls (by simp) (by simp) (by simp) hcut.1
    rw [List.cons.injEq] at hlines
    rw [hlines.1] at hc
    cases hc
  · have hmem : c ∈ headerLines s :=
      eq_headerLines h hcut hls (by simp) hnil ▸ List.mem_cons_self ..
    rw [not_isDelimiter_of_mem_takeWhile hmem] at hc
    cases hc

theorem isCutThere_of_header?_eq (h : HasHeader s)
    (hcut : header? s = some (join (headerLines s), join (dropBlankLines (bodyLines s)))) :
    IsCutThere s := by
  obtain ⟨r, c, hs, hr, hc, hne⟩ := h.lines_eq
  have hd : ∀ m ∈ headerLines s, isDelimiter m = false := fun m => not_isDelimiter_of_mem_takeWhile
  by_cases hb : ∀ b ∈ headerLines s, isBlankLine b = true
  · by_cases hclosed : ∃ l ∈ (bodyLines s).dropLast, isDelimiter l = true
    · obtain ⟨c', after, hdrop, hc', ha⟩ := exists_dropWhile_eq_cons hclosed
      have hbody := List.takeWhile_append_dropWhile (p := (!isDelimiter ·)) (l := bodyLines s)
      rw [hdrop] at hbody
      have hheader := header?_of_blank_of_closed hs hr hc hbody.symm hb
        (fun m => not_isDelimiter_of_mem_takeWhile) hc' ha
      refine absurd hcut (not_cut_from_delimiter hheader hc fun l hl => ?_)
      refine not_mem_of_lines_eq hs l (List.mem_cons_of_mem _ (List.mem_append_right _ ?_))
      exact ((List.takeWhile_sublist _).cons_cons c).mem hl
    · have hopen : ∀ l ∈ (bodyLines s).dropLast, isDelimiter l = false := by simpa using hclosed
      rcases (headerLines s).eq_nil_or_concat with hnil | ⟨bs, l, hl⟩
      · rw [header?_of_nil hs hr hc hnil hopen] at hcut
        cases hcut
      · rw [List.concat_eq_append] at hl
        have hheader := header?_of_blank hs hr hc hl hb hopen hne
        have hn := not_mem_of_mem_headerLines (hl ▸ List.mem_append_right _ (List.mem_singleton_self l))
        have hlines : [l] = headerLines s :=
          eq_headerLines hheader hcut (by simpa using hn) (by simp) (by simp [hl])
        exact .inr ⟨by rw [← hlines]; rfl, hopen⟩
  · have hsome : ((headerLines s).find? (!isBlankLine ·)).isSome = true :=
      List.find?_isSome.2 (by simpa using hb)
    obtain ⟨l, hl⟩ := Option.isSome_iff_exists.1 hsome
    obtain ⟨hbl, bs, more, hmid, hbs⟩ := List.find?_eq_some_iff_append.1 hl
    have hheader := header?_of_not_blank hs hr hc hmid hd hne (by simpa using hbs)
      (by simpa using hbl)
    have hn : ∀ m ∈ l :: more, '\n' ∉ m := fun m hm =>
      not_mem_of_mem_headerLines (hmid ▸ List.mem_append_right _ hm)
    have hlines := eq_headerLines hheader hcut hn (by simp) (by simp [hmid])
    exact .inl ⟨l, by rw [← hlines]; rfl, by simpa using hbl⟩

theorem header?_eq_of_isCutThere (h : HasHeader s) (hcut : IsCutThere s) :
    header? s = some (join (headerLines s), join (dropBlankLines (bodyLines s))) := by
  obtain ⟨r, c, hs, hr, hc, hne⟩ := h.lines_eq
  have hd : ∀ m ∈ headerLines s, isDelimiter m = false := fun m => not_isDelimiter_of_mem_takeWhile
  rcases hcut with ⟨l, hl, hbl⟩ | ⟨hlen, hopen⟩
  · obtain ⟨more, hmore⟩ := List.head?_eq_some_iff.1 hl
    have hmid : headerLines s = [] ++ l :: more := hmore
    rw [header?_of_not_blank hs hr hc hmid hd hne (by simp) hbl, hmore]
  · obtain ⟨l, hl⟩ := List.length_eq_one_iff.1 hlen
    have hmid : headerLines s = [] ++ [l] := hl
    cases hbl : isBlankLine l with
    | false => rw [header?_of_not_blank hs hr hc hmid hd hne (by simp) hbl, hl]
    | true =>
      rw [header?_of_blank hs hr hc hmid (by simpa [hl] using hbl) hopen hne, hl]
      rfl

end

/-- A text with a header is cut at the delimiter line that ends it, so that its lines and no others
are read, just if it does not begin with a blank line, or is one and no closed delimiter follows. -/
theorem split_of_hasHeader {text : String} (h : HasHeader text.toList) :
    (header? text.toList = some (join (headerLines text.toList),
        join (dropBlankLines (bodyLines text.toList))) ↔ IsCutThere text.toList) ∧
      (IsCutThere text.toList →
        split text = read (join (headerLines text.toList))
            (join (dropBlankLines (bodyLines text.toList))) ∧
          ∀ l ∈ lines (join (headerLines text.toList)), isDelimiter l = false) := by
  refine ⟨⟨isCutThere_of_header?_eq h, header?_eq_of_isCutThere h⟩,
    fun hcut => ⟨?_, fun l hl => ?_⟩⟩
  · rw [split, header?_eq_of_isCutThere h hcut]
  · have hne : headerLines text.toList ≠ [] := by
      rintro hnil
      rcases hcut with ⟨l, hl, -⟩ | ⟨hlen, -⟩
      · simp [hnil] at hl
      · simp [hnil] at hlen
    obtain ⟨r, c, hs, -⟩ := h.lines_eq
    rw [lines, join, Text.splitAt_joinWith (fun m hm => not_mem_of_mem_lines (s := text.toList)
      (hs ▸ List.mem_cons_of_mem _ (List.mem_append_left _ hm))) hne] at hl
    exact not_isDelimiter_of_mem_takeWhile hl

theorem split_of_hasHeader_title : split "---\ntitle: x\n---\n\nbody\n" =
    read "title: x".toList "body\n".toList := by
  have h : HasHeader "---\ntitle: x\n---\n\nbody\n".toList :=
    ⟨⟨_, rfl, by decide +kernel⟩, ['-', '-', '-'], by decide +kernel, by decide +kernel⟩
  refine ((split_of_hasHeader h).2 (.inl ⟨"title: x".toList, ?_, ?_⟩)).1.trans ?_
  · decide +kernel
  · decide +kernel
  · have hheader : join (headerLines "---\ntitle: x\n---\n\nbody\n".toList) =
        "title: x".toList := by decide +kernel
    have hbody : join (dropBlankLines (bodyLines "---\ntitle: x\n---\n\nbody\n".toList)) =
        "body\n".toList := by decide +kernel
    rw [hheader, hbody]

/-- An empty header is not seen: its end is taken for its beginning, and the body is read up to the
next delimiter. -/
theorem not_forall_header?_eq : ¬ ∀ s, HasHeader s →
    header? s = some (join (headerLines s), join (dropBlankLines (bodyLines s))) := by
  intro h
  have hs : HasHeader "---\n---\nbody\n---\nrest\n".toList :=
    ⟨⟨_, rfl, by decide +kernel⟩, ['-', '-', '-'], by decide +kernel, by decide +kernel⟩
  have hcut : header? "---\n---\nbody\n---\nrest\n".toList =
      some ("---\nbody".toList, "rest\n".toList) := by decide +kernel
  have hheader : headerLines "---\n---\nbody\n---\nrest\n".toList = [] := by decide +kernel
  have heq := hcut.symm.trans (h _ hs)
  rw [hheader, Option.some.injEq, Prod.mk.injEq] at heq
  exact absurd heq.1 (by decide +kernel)

end DocTree.FrontMatter
