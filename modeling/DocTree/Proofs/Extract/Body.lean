import Mathlib
import DocTree.Proofs.Extract
import DocTree.Proofs.FrontMatter.LastLine
import DocTree.Proofs.Markdown.Outline
import DocTree.Proofs.Text.Blank

/-!
# Title and description of a body

Without front matter title and description are those of the body (`extract_of_header?_eq_none`). If
it opens with a heading and a paragraph, it is these, whatever follows (`extract_opening`). What
stands in a quotation is never one of them, whatever it is (`extract_quoted`).
-/

namespace DocTree

namespace Markdown
variable {m : Preset} {c : Char} {s : List Char} {t q rest : String}

theorem isBlank_of_isSpace (hc : isSpace c = true) : Text.isBlank c = true := by
  simp only [isSpace, Bool.or_eq_true, beq_iff_eq] at hc
  rcases hc with rfl | rfl <;> decide

/-- The text behind a number sign and a space is a heading. -/
theorem heading?_of_not_mem (h : '#' ∉ s) : heading? ('#' :: ' ' :: s) = some (Text.trim s) := by
  -- there is no number sign at the end that could be cut off
  have hcut : Text.dropEndWhile (· == '#') (Text.dropEndWhile isSpace (' ' :: s)) =
      Text.dropEndWhile isSpace (' ' :: s) := by
    refine Text.dropEndWhile_of_forall fun c hc => beq_eq_false_iff_ne.2 ?_
    have hmem : c ∈ ' ' :: s := (List.rdropWhile_prefix isSpace (' ' :: s)).subset hc
    rintro rfl
    simp [h] at hmem
  have htrim : Text.trim (Text.dropEndWhile isSpace (' ' :: s)) = Text.trim s :=
    (Text.trim_dropEndWhile (fun _ => isBlank_of_isSpace) _).trans
      (Text.trim_blank_append (b := [' ']) (by decide) s)
  have hspace : isSpace ' ' = true := by decide
  simp [heading?, hcut, htrim, hspace]

theorem plainBlock_heading (h : '#' ∉ s) :
    plainBlock ('#' :: ' ' :: s) = .heading (.ofList (Text.trim s)) := by
  rw [plainBlock, heading?_of_not_mem h]

theorem plainBlock_paragraph (hc : c ≠ '#') (s : List Char) :
    plainBlock (c :: s) = .paragraph (.ofList (Text.trim (c :: s))) := by
  simp [plainBlock, heading?, hc]

/-! ### What opens a text -/

/-- A text that opens with a heading and a paragraph. -/
def opening (t q rest : String) : String := "# " ++ t ++ "\n\n" ++ q ++ "\n\n" ++ rest

/-- A text of one line that begins with a letter. -/
structure IsPhrase (t : String) : Prop where
  letter : ∃ c s, t.toList = c :: s ∧ Html.isLetter c = true
  line : ∀ c ∈ ['\n', '\r', '\x00'], c ∉ t.toList

theorem linesOf_opening (ht : IsPhrase t) (hq : IsPhrase q) (rest : String) :
    linesOf (opening t q rest).toList = .ofChars ('#' :: ' ' :: t.toList) :: .ofChars [] ::
      .ofChars q.toList :: .ofChars [] :: linesOf rest.toList := by
  have hlist : (opening t q rest).toList = ('#' :: ' ' :: t.toList) ++ '\n' :: ([] ++ '\n' ::
      (q.toList ++ '\n' :: ([] ++ '\n' :: rest.toList))) := by
    simp [opening, String.toList_append]
  have hline {u : String} (hu : IsPhrase u) :
      '\n' ∉ u.toList ∧ '\r' ∉ u.toList ∧ u.toList.map visible = u.toList := by
    exact ⟨hu.line _ (by simp), hu.line _ (by simp), map_visible_eq_self (hu.line _ (by simp))⟩
  obtain ⟨htn, htr, htv⟩ := hline ht
  obtain ⟨hqn, hqr, hqv⟩ := hline hq
  rw [hlist, linesOf_append (by simp [htr]) (by simp [htn]), linesOf_append (by simp) (by simp),
    linesOf_append hqr hqn, linesOf_append (by simp) (by simp), List.map_cons, List.map_cons, htv,
    hqv]
  rfl

theorem blocks_of_ne_zero (hm : m ≠ .zero) : m.options.blocks = true := by
  cases m <;> first | rfl | exact absurd rfl hm

/-- The heading and the paragraph are blocks of their own, in front of those of the rest. -/
theorem blocksOf_opening (hm : m ≠ .zero) (ht : IsPhrase t) (hq : IsPhrase q)
    (hsign : '#' ∉ t.toList) (rest : String) : blocksOf m (opening t q rest) =
      .heading t.trimBlank :: .paragraph q.trimBlank :: blocksOf m rest := by
  obtain ⟨c, s, hqs, hc⟩ := hq.letter
  have ho := blocks_of_ne_zero hm
  have hplain : isPlain c = true := by simp [isPlain, hc]
  have hne : c ≠ '#' := by
    rintro rfl
    cases hc
  rw [blocksOf, linesOf_opening ht hq, hqs]
  dsimp only
  rw [blocksFrom_plain ho (by decide) rfl, blocksFrom_plain ho hplain rfl, plainBlock_heading hsign,
    plainBlock_paragraph hne, ← hqs]
  rfl

/-! ### Quotations -/

/-- A text with the mark of a quotation in front of each line. -/
def quoted (t : String) : String :=
  .ofList (Text.joinWith ['\n'] ((Text.splitAt '\n' t.toList).map (['>', ' '] ++ ·)))

theorem isMarked_ofChars (s : List Char) : IsMarked (.ofChars ('>' :: s)) := by
  rw [ofChars_cons (by decide)]
  exact ⟨rfl, rfl⟩

theorem linesOf_quoted (ht : '\r' ∉ t.toList) : linesOf (quoted t).toList =
    (Text.splitAt '\n' t.toList).map fun p => .ofChars ('>' :: ' ' :: p.map visible) := by
  rw [quoted, String.toList_ofList, linesOf_joinWith, List.map_map]
  · rfl
  · intro p hp
    obtain ⟨r, hr, rfl⟩ := List.mem_map.1 hp
    have hreturn : '\r' ∉ r := fun hmem =>
      ht ((Text.mem_iff_mem_splitAt (by decide)).2 ⟨r, hr, hmem⟩)
    simp [hreturn, Text.not_mem_of_mem_splitAt hr]
  · intro p hp
    obtain ⟨r, -, rfl⟩ := List.mem_map.1 hp
    exact (isMarked_ofChars _).isEmpty_eq
  · simpa using Text.splitAt_ne_nil t.toList

/-- The quotation is the only block, whatever is quoted. -/
theorem blocksOf_quoted (hm : m ≠ .zero) (ht : '\r' ∉ t.toList) :
    blocksOf m (quoted t) = [.other] := by
  rw [blocksOf, linesOf_quoted ht]
  refine blocksFrom_marked (blocks_of_ne_zero hm) _ ?_ ?_
  · simpa using Text.splitAt_ne_nil t.toList
  · intro l hl
    obtain ⟨p, -, rfl⟩ := List.mem_map.1 hl
    exact isMarked_ofChars _

end Markdown

namespace FrontMatter

/-- Front matter begins with a hyphen. -/
theorem header?_of_head?_ne {s : List Char} (h : s.head? ≠ some '-') : header? s = none := by
  have hnone : afterDelimiter s = [] := by
    cases s with
    | nil => rfl
    | cons c s =>
      have hc : '-' ≠ c := by simpa [eq_comm] using h
      simp [afterDelimiter, Text.stripStart?, hc]
  simp [header?, hnone]

end FrontMatter

namespace Extract
variable {m : Markdown.Preset} {t q rest text : String}

theorem ofName?_name (m : Markdown.Preset) : Markdown.Preset.ofName? m.name = some m := by
  cases m <;> decide +kernel

theorem extract_of_header?_eq_none (h : FrontMatter.header? text.toList = none)
    (m : Markdown.Preset) : extract text m.name =
      .ok [("title", Markdown.firstHeading (Markdown.blocksOf m text)),
        ("description", Markdown.firstParagraph (Markdown.blocksOf m text)),
        ("content", text.trimBlank)] := by
  have hsplit : FrontMatter.split text = .ok ([], text) := by rw [FrontMatter.split, h]
  have hassemble : assemble [] text m.name = .ok _ :=
    assemble_eq_ok.2 ⟨[], m, _, _, rfl, ofName?_name m, rfl, rfl, rfl⟩
  exact extract_eq_ok.2 ⟨_, (named_of_split hsplit m.name).trans hassemble, rfl⟩

/-- The heading and the paragraph that open a text are its title and description. -/
theorem extract_opening (hm : m ≠ .zero) (ht : Markdown.IsPhrase t) (hq : Markdown.IsPhrase q)
    (hsign : '#' ∉ t.toList) (rest : String) : extract (Markdown.opening t q rest) m.name =
      .ok [("title", t.trimBlank), ("description", q.trimBlank),
        ("content", (Markdown.opening t q rest).trimBlank)] := by
  have hhead : (Markdown.opening t q rest).toList.head? ≠ some '-' := by
    simp [Markdown.opening, String.toList_append]
  rw [extract_of_header?_eq_none (FrontMatter.header?_of_head?_ne hhead),
    Markdown.blocksOf_opening hm ht hq hsign]
  rfl

theorem extract_opening_sample :
    extract "# T |\n\nP # ~\n\n# U\n===\n- a\n---\n" "commonmark" =
      .ok [("title", "T |"), ("description", "P # ~"),
        ("content", "# T |\n\nP # ~\n\n# U\n===\n- a\n---")] := by
  have ht : Markdown.IsPhrase "T |" := ⟨⟨'T', [' ', '|'], rfl, rfl⟩, by simp⟩
  have hq : Markdown.IsPhrase "P # ~" := ⟨⟨'P', [' ', '#', ' ', '~'], rfl, rfl⟩, by simp⟩
  exact extract_opening (m := .commonmark) (by decide) ht hq (by decide) "# U\n===\n- a\n---\n"

/-- What stands in a quotation is neither title nor description. -/
theorem extract_quoted (hm : m ≠ .zero) (ht : '\r' ∉ t.toList) :
    extract (Markdown.quoted t) m.name =
      .ok [("title", ""), ("description", ""), ("content", (Markdown.quoted t).trimBlank)] := by
  have hhead : (Markdown.quoted t).toList.head? ≠ some '-' := by
    obtain ⟨p, ps, hparts⟩ := Text.exists_splitAt_eq_cons '\n' t.toList
    rw [Markdown.quoted, hparts, String.toList_ofList]
    cases ps <;> simp [Text.joinWith]
  rw [extract_of_header?_eq_none (FrontMatter.header?_of_head?_ne hhead),
    Markdown.blocksOf_quoted hm ht]
  rfl

theorem extract_quoted_sample :
    extract (Markdown.quoted "---\ntitle: x\n---\n# T\n\nP\n") "js-default" =
      .ok [("title", ""), ("description", ""),
        ("content", "> ---\n> title: x\n> ---\n> # T\n> \n> P\n>")] :=
  extract_quoted (m := .jsDefault) (by decide) (by decide)

end Extract
end DocTree
