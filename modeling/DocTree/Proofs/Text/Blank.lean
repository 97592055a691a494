import Mathlib
import DocTree.Text.Blank

/-!
# Trimming a text

Trimming cuts off blanks and nothing else (`exists_eq_append_trim`), and leaves none at the ends. Blanks
at the ends of a text do not count.
-/

namespace DocTree.Text
variable {p : Char → Bool} {s a b : List Char} {c : Char}

theorem dropEndWhile_append_of_all (h : ∀ c ∈ b, p c = true) :
    dropEndWhile p (a ++ b) = dropEndWhile p a := by
  rw [dropEndWhile, List.reverse_append,
    List.dropWhile_append_of_pos fun c hc => h c (List.mem_reverse.1 hc)]
  rfl

theorem dropEndWhile_append_of_none (hne : b ≠ []) (h : ∀ c ∈ b, p c = false) :
    dropEndWhile p (a ++ b) = a ++ b := by
  refine List.rdropWhile_eq_self_iff.2 fun _ => ?_
  rw [List.getLast_append_of_ne_nil _ hne, h _ (List.getLast_mem hne)]
  decide

theorem dropEndWhile_of_forall (h : ∀ c ∈ s, p c = false) : dropEndWhile p s = s := by
  refine List.rdropWhile_eq_self_iff.2 fun hne => ?_
  simp [h _ (List.getLast_mem hne)]

theorem trim_eq_nil_iff : trim s = [] ↔ s.all isBlank = true := by
  rw [trim, dropEndWhile, List.reverse_eq_nil_iff, List.dropWhile_eq_nil_iff, List.all_eq_true]
  constructor
  · intro h
    have hnil : s.dropWhile isBlank = [] := by
      by_contra hne
      have hhead := List.head_dropWhile_not isBlank hne
      rw [h _ (List.mem_reverse.2 (List.head_mem hne))] at hhead
      cases hhead
    exact List.dropWhile_eq_nil_iff.1 hnil
  · intro h c hc
    exact h c ((List.dropWhile_sublist _).mem (List.mem_reverse.1 hc))

/-- Blanks in front of a text do not count. -/
theorem trim_blank_append (hb : b.all isBlank = true) (s : List Char) : trim (b ++ s) = trim s := by
  rw [trim, trim, List.dropWhile_append_of_pos (List.all_eq_true.1 hb)]

/-- Blanks behind a text do not count. -/
theorem trim_append_blank (s : List Char) (hb : b.all isBlank = true) : trim (s ++ b) = trim s := by
  by_cases hs : s.dropWhile isBlank = []
  · have hall : s.all isBlank = true := List.all_eq_true.2 (List.dropWhile_eq_nil_iff.1 hs)
    rw [trim_blank_append hall, trim_eq_nil_iff.2 hb, trim_eq_nil_iff.2 hall]
  · rw [trim, trim, List.dropWhile_append, if_neg (by simpa using hs),
      dropEndWhile_append_of_all (List.all_eq_true.1 hb)]

theorem exists_eq_dropEndWhile_append (p : Char → Bool) (s : List Char) :
    ∃ b, s = dropEndWhile p s ++ b ∧ ∀ c ∈ b, p c = true := by
  refine ⟨(s.reverse.takeWhile p).reverse, ?_, fun c hc => ?_⟩
  · rw [dropEndWhile, ← List.reverse_append, List.takeWhile_append_dropWhile, List.reverse_reverse]
  · exact List.mem_takeWhile_imp (List.mem_reverse.1 hc)

/-- Blanks that are cut off the end do not count. -/
theorem trim_dropEndWhile (hp : ∀ c, p c = true → isBlank c = true) (s : List Char) :
    trim (dropEndWhile p s) = trim s := by
  obtain ⟨b, hcut, hb⟩ := exists_eq_dropEndWhile_append p s
  have hblank : b.all isBlank = true := List.all_eq_true.2 fun c hc => hp c (hb c hc)
  conv => rhs; rw [hcut, trim_append_blank _ hblank]

theorem exists_eq_append_trim (s : List Char) : ∃ a b, s = a ++ trim s ++ b ∧
    (∀ c ∈ a, isBlank c = true) ∧ ∀ c ∈ b, isBlank c = true := by
  obtain ⟨b, hcut, hb⟩ := exists_eq_dropEndWhile_append isBlank (s.dropWhile isBlank)
  refine ⟨s.takeWhile isBlank, b, ?_, fun c hc => List.mem_takeWhile_imp hc, hb⟩
  rw [List.append_assoc, trim, ← hcut, List.takeWhile_append_dropWhile]

theorem mem_of_mem_trim (h : c ∈ trim s) : c ∈ s := by
  obtain ⟨a, b, hcut, -, -⟩ := exists_eq_append_trim s
  rw [hcut]
  simp [h]

theorem eq_false_of_mem_head?_dropWhile (h : c ∈ (s.dropWhile p).head?) : p c = false := by
  have hhead := List.head?_dropWhile_not p s
  rwa [Option.mem_def.1 h] at hhead

theorem isBlank_of_mem_getLast?_trim (h : c ∈ (trim s).getLast?) : isBlank c = false := by
  rw [trim, dropEndWhile, List.getLast?_reverse] at h
  exact eq_false_of_mem_head?_dropWhile h

theorem isBlank_of_mem_head?_trim (h : c ∈ (trim s).head?) : isBlank c = false := by
  obtain ⟨b, hcut, -⟩ := exists_eq_dropEndWhile_append isBlank (s.dropWhile isBlank)
  refine eq_false_of_mem_head?_dropWhile (s := s) ?_
  rw [hcut, List.head?_append, ← trim, Option.mem_def.1 h]
  rfl

/-- A text without blanks at its ends stays as it is. -/
theorem trim_eq_self (hhead : ∀ c ∈ s.head?, isBlank c = false)
    (hlast : ∀ c ∈ s.getLast?, isBlank c = false) : trim s = s := by
  have hfront : s.dropWhile isBlank = s := by
    cases s with
    | nil => rfl
    | cons c s => rw [List.dropWhile_cons, hhead c rfl]; rfl
  rw [trim, hfront]
  refine List.rdropWhile_eq_self_iff.2 fun hne => ?_
  simp [hlast _ (List.getLast_mem_getLast? hne)]

theorem trimBlank_ofList (s : List Char) : (String.ofList s).trimBlank = .ofList (trim s) := by
  rw [String.trimBlank, String.toList_ofList]

end DocTree.Text
