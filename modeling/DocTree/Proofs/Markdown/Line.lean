import Mathlib
import DocTree.Markdown.Line
import DocTree.Proofs.Text

/-!
# Lines of a text

Without carriage returns a text is cut at its line feeds, and each line is seen as it stands but for
its null characters (`linesOf_append`, `linesOf_joinWith`).
-/

namespace DocTree.Markdown
variable {s a b : List Char} {c : Char}

/-- What is seen of a character. -/
def visible (c : Char) : Char := if c = '\x00' then '\ufffd' else c

theorem normalise_append (ha : '\r' ∉ a) (b : List Char) :
    normalise (a ++ b) = a.map visible ++ normalise b := by
  induction a with
  | nil => rfl
  | cons c a ih =>
    obtain ⟨hc, ha⟩ := by simpa using ha
    have ih := ih ha
    by_cases hnull : c = '\x00'
    · subst hnull
      rw [List.cons_append, normalise, ih]
      rfl
    · rw [List.cons_append, normalise, ih, List.map_cons, visible, if_neg hnull]
      · rfl
      all_goals intros; simp_all

theorem normalise_eq_map (ha : '\r' ∉ a) : normalise a = a.map visible := by
  simpa [normalise] using normalise_append ha []

theorem visible_eq_newline_iff : visible c = '\n' ↔ c = '\n' := by
  rw [visible]
  split
  · simp_all
  · rfl

theorem not_mem_map_visible (ha : '\n' ∉ a) : '\n' ∉ a.map visible := by
  simpa [visible_eq_newline_iff] using ha

theorem map_visible_eq_self (ha : '\x00' ∉ a) : a.map visible = a := by
  refine (List.map_congr_left fun c hc => ?_).trans (List.map_id a)
  have hne : c ≠ '\x00' := by
    rintro rfl
    exact ha hc
  simp [visible, hne]

theorem dropLastEmpty_cons (l : Line) {ls : List Line} (h : ls ≠ []) :
    dropLastEmpty (l :: ls) = l :: dropLastEmpty ls := by
  cases ls with
  | nil => exact absurd rfl h
  | cons m ls => rfl

/-- A line that is closed is one line more. -/
theorem linesOf_append (hr : '\r' ∉ a) (hn : '\n' ∉ a) (b : List Char) :
    linesOf (a ++ '\n' :: b) = Line.ofChars (a.map visible) :: linesOf b := by
  have hnormal : normalise (a ++ '\n' :: b) = a.map visible ++ '\n' :: normalise b :=
    normalise_append hr ('\n' :: b)
  rw [linesOf, hnormal, Text.splitAt_append_cons, Text.splitAt_of_not_mem (not_mem_map_visible hn),
    List.singleton_append, List.map_cons, dropLastEmpty_cons]
  · rfl
  · simpa using Text.splitAt_ne_nil _

/-- The last line is seen if there is something in it. -/
theorem linesOf_line (hr : '\r' ∉ a) (hn : '\n' ∉ a)
    (hshown : (Line.ofChars (a.map visible)).isEmpty = false) :
    linesOf a = [Line.ofChars (a.map visible)] := by
  rw [linesOf, normalise_eq_map hr, Text.splitAt_of_not_mem (not_mem_map_visible hn)]
  simp [dropLastEmpty, hshown]

theorem linesOf_joinWith {ps : List (List Char)} (h : ∀ p ∈ ps, '\r' ∉ p ∧ '\n' ∉ p)
    (hshown : ∀ p ∈ ps, (Line.ofChars (p.map visible)).isEmpty = false) (hne : ps ≠ []) :
    linesOf (Text.joinWith ['\n'] ps) = ps.map fun p => Line.ofChars (p.map visible) := by
  induction ps with
  | nil => exact absurd rfl hne
  | cons p ps ih =>
    obtain ⟨⟨hr, hn⟩, h⟩ := List.forall_mem_cons.1 h
    obtain ⟨hp, hshown⟩ := List.forall_mem_cons.1 hshown
    cases ps with
    | nil => exact linesOf_line hr hn hp
    | cons q ps =>
      rw [Text.joinWith_cons _ (by simp), linesOf_append hr hn, ih h hshown (by simp)]
      rfl

/-- A line without indentation. -/
theorem ofChars_cons (hc : isSpace c = false) (s : List Char) :
    Line.ofChars (c :: s) = ⟨c :: s, c :: s, 0, 0⟩ := by
  simp [Line.ofChars, hc, advanceAll]

end DocTree.Markdown
