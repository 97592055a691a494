import Mathlib
import DocTree.Text.Blank
import DocTree.Text.Case
import DocTree.Text.Search

/-!
# Parts of a text

Cutting a text at a separator and joining the parts again: no part holds the separator, and the cuts
on the two sides of a separator are made independently. What is not the separator is in one of the
parts (`mem_iff_mem_splitAt`). No letter is lost in lower case (`lowerAt_ne_nil`).
-/

namespace DocTree.Text
variable {sep : Char}

theorem splitAt_cons_self (s : List Char) : splitAt sep (sep :: s) = [] :: splitAt sep s := by
  rw [splitAt, if_pos rfl]

theorem splitAt_cons_of_ne {c : Char} (hc : c ≠ sep) {s p : List Char} {ps : List (List Char)}
    (h : splitAt sep s = p :: ps) : splitAt sep (c :: s) = (c :: p) :: ps := by
  rw [splitAt, if_neg hc, h]

theorem exists_splitAt_eq_cons (sep : Char) (s : List Char) : ∃ p ps, splitAt sep s = p :: ps := by
  induction s with
  | nil => exact ⟨[], [], rfl⟩
  | cons c s ih =>
    obtain ⟨p, ps, h⟩ := ih
    by_cases hc : c = sep
    · exact ⟨[], splitAt sep s, by rw [splitAt, if_pos hc]⟩
    · exact ⟨c :: p, ps, splitAt_cons_of_ne hc h⟩

theorem splitAt_ne_nil (s : List Char) : splitAt sep s ≠ [] := by
  obtain ⟨p, ps, h⟩ := exists_splitAt_eq_cons sep s
  simp [h]

theorem splitAt_append_cons (a b : List Char) :
    splitAt sep (a ++ sep :: b) = splitAt sep a ++ splitAt sep b := by
  induction a with
  | nil => rw [List.nil_append, splitAt_cons_self]; rfl
  | cons c a ih =>
    by_cases hc : c = sep
    · subst hc
      rw [List.cons_append, splitAt_cons_self, splitAt_cons_self, ih]
      rfl
    · obtain ⟨p, ps, h⟩ := exists_splitAt_eq_cons sep a
      rw [h] at ih
      rw [List.cons_append, splitAt_cons_of_ne hc ih, splitAt_cons_of_ne hc h]
      rfl

theorem splitAt_of_not_mem {s : List Char} (h : sep ∉ s) : splitAt sep s = [s] := by
  induction s with
  | nil => rfl
  | cons c s ih =>
    rw [List.mem_cons, not_or] at h
    rw [splitAt_cons_of_ne (Ne.symm h.1) (ih h.2)]

theorem not_mem_of_mem_splitAt {s p : List Char} (h : p ∈ splitAt sep s) : sep ∉ p := by
  induction s generalizing p with
  | nil =>
    rw [splitAt, List.mem_singleton] at h
    simp [h]
  | cons c s ih =>
    by_cases hc : c = sep
    · rw [splitAt, if_pos hc] at h
      rcases List.mem_cons.1 h with rfl | h
      · simp
      · exact ih h
    · obtain ⟨q, qs, hs⟩ := exists_splitAt_eq_cons sep s
      rw [splitAt_cons_of_ne hc hs] at h
      rcases List.mem_cons.1 h with rfl | h
      · rw [List.mem_cons, not_or]
        exact ⟨Ne.symm hc, ih (hs ▸ List.mem_cons_self ..)⟩
      · exact ih (hs ▸ List.mem_cons_of_mem _ h)

theorem mem_iff_mem_splitAt {c : Char} (hc : c ≠ sep) {s : List Char} :
    c ∈ s ↔ ∃ p ∈ splitAt sep s, c ∈ p := by
  induction s with
  | nil => simp [splitAt]
  | cons d s ih =>
    by_cases hd : d = sep
    · subst hd
      rw [splitAt_cons_self, List.mem_cons, or_iff_right hc, ih]
      simp
    · obtain ⟨p, ps, h⟩ := exists_splitAt_eq_cons sep s
      rw [splitAt_cons_of_ne hd h, List.mem_cons, ih, h]
      simp [or_assoc]

theorem joinWith_cons (p : List Char) {ps : List (List Char)} (h : ps ≠ []) :
    joinWith [sep] (p :: ps) = p ++ sep :: joinWith [sep] ps := by
  cases ps with
  | nil => exact absurd rfl h
  | cons q qs => simp [joinWith]

theorem joinWith_splitAt (s : List Char) : joinWith [sep] (splitAt sep s) = s := by
  induction s with
  | nil => rfl
  | cons c s ih =>
    by_cases hc : c = sep
    · subst hc
      rw [splitAt_cons_self, joinWith_cons _ (splitAt_ne_nil s), ih]
      rfl
    · obtain ⟨p, ps, h⟩ := exists_splitAt_eq_cons sep s
      rw [h] at ih
      rw [splitAt_cons_of_ne hc h, ← ih]
      cases ps with
      | nil => rfl
      | cons q qs => rfl

theorem splitAt_joinWith {ps : List (List Char)} (h : ∀ p ∈ ps, sep ∉ p) (hne : ps ≠ []) :
    splitAt sep (joinWith [sep] ps) = ps := by
  induction ps with
  | nil => exact absurd rfl hne
  | cons p ps ih =>
    have hp : splitAt sep p = [p] := splitAt_of_not_mem (h p (List.mem_cons_self ..))
    cases ps with
    | nil => exact hp
    | cons q qs =>
      rw [joinWith_cons p (by simp), splitAt_append_cons, hp,
        ih (fun r hr => h r (List.mem_cons_of_mem _ hr)) (by simp)]
      rfl

theorem forall_mem_intercalate {P : Char → Prop} {s : List Char} {ps : List (List Char)}
    (hs : ∀ c ∈ s, P c) (hps : ∀ p ∈ ps, ∀ c ∈ p, P c) : ∀ c ∈ List.intercalate s ps, P c := by
  induction ps with
  | nil =>
    intro c hc
    rw [List.intercalate_nil] at hc
    cases hc
  | cons p ps ih =>
    obtain ⟨hp, hps⟩ := List.forall_mem_cons.1 hps
    cases ps with
    | nil => rwa [List.intercalate_singleton]
    | cons q qs =>
      rw [List.intercalate_cons_cons]
      exact List.forall_mem_append.2 ⟨List.forall_mem_append.2 ⟨hp, hs⟩, ih hps⟩

theorem stripStart?_eq_some {p s r : List Char} : stripStart? p s = some r ↔ s = p ++ r := by
  induction p generalizing s with
  | nil => simp [stripStart?]
  | cons a p ih =>
    cases s with
    | nil => simp [stripStart?]
    | cons b s =>
      rw [stripStart?, List.cons_append, List.cons.injEq]
      split
      · rename_i h
        rw [ih, and_iff_right h.symm]
      · rename_i h
        exact iff_of_false (by simp) fun h' => h h'.1.symm

theorem replaceFirst_append (part new s : List Char) :
    replaceFirst part new (part ++ s) = new ++ s := by
  unfold replaceFirst
  rw [stripStart?_eq_some.2 rfl]

theorem lowerAt_ne_nil (before : List Char) (c : Char) (after : List Char) :
    lowerAt before c after ≠ [] := by
  unfold lowerAt
  split
  · exact List.cons_ne_nil _ _
  · split
    · exact List.cons_ne_nil _ _
    · exact List.cons_ne_nil _ _

end DocTree.Text
