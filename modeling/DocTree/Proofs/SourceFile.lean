import Mathlib
import DocTree.SourceFile
import DocTree.Proofs.Path

/-!
# The choice of a source

What is chosen as the source of an item is one of the files there are. A rendered page is never
chosen, whatever case its name is in: the last letter of a name tells pages and Markdown files apart,
also where the lower case of a letter is more than one letter. So the choice does not depend on the
pages that are there (`choose?_filter`).
-/

namespace DocTree

namespace Text
variable {before before' s : List Char} {c d : Char}

theorem getLast?_lowerFrom (before s : List Char) (c : Char) :
    (lowerFrom before (s ++ [c])).getLast? = (lowerAt (s.reverse ++ before) c []).getLast? := by
  induction s generalizing before with
  | nil => simp [lowerFrom]
  | cons a s ih =>
    have hne : lowerFrom (a :: before) (s ++ [c]) ≠ [] := by
      cases s <;> simp [lowerFrom, lowerAt_ne_nil]
    rw [List.cons_append, lowerFrom, List.getLast?_append_of_ne_nil _ hne, ih]
    simp

/-- The last letter of a lower case, if it is plain, is that of the last letter. -/
theorem lowerChar_of_getLast? (hd : d.toNat < 128)
    (h : (lowerAt before c []).getLast? = some d) : lowerChar c = d := by
  unfold lowerAt at h
  split at h
  · cases h
    exact absurd hd (by decide)
  · split at h
    · have hsigma : ∀ b : Bool, ¬ (if b then 'ς' else 'σ').toNat < 128 := by decide
      cases h
      exact absurd hd (hsigma _)
    · cases h
      rfl

/-- Texts that end in one letter have lower cases that end in one letter, as far as it is plain. -/
theorem eq_of_getLast?_lower {t : List Char} {e : Char} (hd : d.toNat < 128) (he : e.toNat < 128)
    (hs : (lower (s ++ [c])).getLast? = some d) (ht : (lower (t ++ [c])).getLast? = some e) :
    d = e := by
  rw [lower, getLast?_lowerFrom] at hs ht
  rw [← lowerChar_of_getLast? hd hs, lowerChar_of_getLast? he ht]

end Text

/-- Whether a name is that of a rendered page, in any case of letters. -/
def isPage (n : String) : Bool := n.lowerCase == renderedName

namespace SourceFile
variable {ps : List Path} {p : Path} {n : String}

theorem mem_of_marker? (h : marker? ps = some p) : p ∈ ps := by
  obtain ⟨m, -, hm⟩ := List.exists_of_findSome?_eq_some h
  exact List.mem_reverse.1 (List.mem_of_find?_eq_some hm)

theorem mem_of_least? (h : least? ps = some p) : p ∈ ps := by
  induction ps generalizing p with
  | nil => cases h
  | cons q ps ih =>
    rw [least?] at h
    split at h
    · cases h
      exact List.mem_cons_self ..
    · rename_i r hr
      cases h
      split
      · exact List.mem_cons_self ..
      · exact List.mem_cons_of_mem _ (ih hr)

theorem mem_of_choose? (h : choose? ps = some p) : p ∈ ps := by
  rcases Option.or_eq_some_iff.1 h with h | ⟨-, h⟩
  · exact mem_of_marker? h
  · exact (List.mem_filter.1 (mem_of_least? h)).1

/-! ### Rendered pages -/

theorem exists_name_eq_append_suffix (h : p.suffix ≠ "") :
    ∃ cs, p.name.toList = cs ++ p.suffix.toList := by
  unfold Path.suffix at h ⊢
  dsimp only at h ⊢
  split at h
  · rename_i hlen
    rw [if_pos hlen, String.toList_ofList]
    -- behind the tail stands a character that ends `takeWhile`, and that is the dot
    set rs := p.name.toList.reverse with hrs
    have hname : p.name.toList =
        (rs.dropWhile (· != '.')).reverse ++ (rs.takeWhile (· != '.')).reverse := by
      rw [← List.reverse_append, List.takeWhile_append_dropWhile, hrs, List.reverse_reverse]
    cases hrest : rs.dropWhile (· != '.') with
    | nil =>
      have hsize := congrArg List.length hname
      rw [hrest] at hsize
      simp only [Bool.and_eq_true, decide_eq_true_eq] at hlen
      simp only [List.reverse_nil, List.nil_append, List.length_reverse] at hsize hlen
      omega
    | cons c cs =>
      have hdot : c = '.' := by
        have hhead := List.head?_dropWhile_not (· != '.') rs
        rw [hrest] at hhead
        simpa using hhead
      refine ⟨cs.reverse, ?_⟩
      rw [hname, hrest, hdot]
      simp
  · exact absurd rfl h

/-- A page is no Markdown file. -/
theorem isMarkdown_of_isPage (h : isPage p.name = true) : isMarkdown p = false := by
  rw [← Bool.not_eq_true]
  intro hmd
  have hpage : Text.lower p.name.toList = renderedName.toList := by
    rw [← eq_of_beq h, String.lowerCase, String.toList_ofList]
  have hsuffix : Text.lower p.suffix.toList = ".md".toList := by
    rw [← eq_of_beq hmd, String.lowerCase, String.toList_ofList]
  have hne : p.suffix.toList ≠ [] := by
    intro hnil
    rw [hnil] at hsuffix
    exact absurd hsuffix (by decide)
  obtain ⟨cs, hcs⟩ := exists_name_eq_append_suffix fun hempty => hne (by rw [hempty]; rfl)
  obtain ⟨t, c, hc⟩ := (List.eq_nil_or_concat _).resolve_left hne
  rw [List.concat_eq_append] at hc
  rw [hcs, hc, ← List.append_assoc] at hpage
  rw [hc] at hsuffix
  have heq : 'l' = 'd' := Text.eq_of_getLast?_lower (by decide) (by decide)
    (by rw [hpage]; decide) (by rw [hsuffix]; decide)
  exact absurd heq (by decide)

theorem ne_renderedName_of_marker {m : String × ItemType} (hm : m ∈ ItemType.markers) :
    m.1 ≠ renderedName := by
  revert m
  decide

section
variable {keep : Path → Bool} (hkeep : ∀ p, isPage p.name = false → keep p = true)
include hkeep

theorem named?_filter (hn : n ≠ renderedName) (ps : List Path) :
    named? (ps.filter keep) n = named? ps n := by
  rw [named?, named?, ← List.filter_reverse, List.find?_filter]
  congr 1
  funext p
  rw [Bool.decide_and, Bool.decide_eq_true, Bool.decide_eq_true, Bool.and_eq_right_iff_imp]
  intro hp
  refine hkeep p ?_
  rw [isPage, beq_eq_false_iff_ne, eq_of_beq hp]
  exact hn

theorem findSome?_named?_filter {ms : List (String × ItemType)} (hms : ∀ m ∈ ms, m.1 ≠ renderedName)
    (ps : List Path) : (ms.findSome? fun m => named? (ps.filter keep) m.1) =
      ms.findSome? fun m => named? ps m.1 := by
  induction ms with
  | nil => rfl
  | cons m ms ih =>
    rw [List.forall_mem_cons] at hms
    rw [List.findSome?_cons, List.findSome?_cons, named?_filter hkeep hms.1, ih hms.2]

/-- The source that is chosen does not depend on the pages among the files. -/
theorem choose?_filter (ps : List Path) : choose? (ps.filter keep) = choose? ps := by
  have hmarker : marker? (ps.filter keep) = marker? ps :=
    findSome?_named?_filter hkeep (fun _ => ne_renderedName_of_marker) ps
  have hmd : (ps.filter keep).filter isMarkdown = ps.filter isMarkdown := by
    rw [List.filter_filter]
    refine List.filter_congr fun p _ => ?_
    rw [Bool.and_eq_left_iff_imp]
    intro hp
    refine hkeep p ?_
    rw [← Bool.not_eq_true]
    intro hpage
    rw [isMarkdown_of_isPage hpage] at hp
    cases hp
  rw [choose?, choose?, hmarker, hmd]

end

theorem isPage_of_choose? (h : choose? ps = some p) : isPage p.name = false := by
  have hkeep : ∀ q : Path, isPage q.name = false → (!isPage q.name) = true := by
    intro q hq
    rw [hq, Bool.not_false]
  rw [← choose?_filter hkeep ps] at h
  simpa using (List.mem_filter.1 (mem_of_choose? h)).2

end SourceFile
end DocTree
