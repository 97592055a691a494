import Mathlib
import DocTree.Proofs.FileSystem.Resolve
import DocTree.Proofs.Index.Survey
import DocTree.Proofs.Index.Contents
import DocTree.Proofs.RenderedPath
import DocTree.Proofs.Text

/-!
# Characters in names

A character that is in no name of a file system is in none of the paths that an index of it goes
through.
-/

namespace DocTree
variable {c : Char}

namespace Path

/-- That a character is in no name of a path. -/
def Lacks (p : Path) (c : Char) : Prop := ∀ n ∈ p.parts, c ∉ n.toList

theorem Lacks.child {p : Path} (h : p.Lacks c) {n : String} (hn : c ∉ n.toList) :
    (p.child n).Lacks c := by
  intro m hm
  rcases List.mem_append.1 hm with hm | hm
  · exact h m hm
  · rwa [List.mem_singleton.1 hm]

theorem Lacks.not_mem_stem {p : Path} (h : p.Lacks c) (hc : c ≠ '/') : c ∉ p.stem.toList := by
  have hroot : c ∉ p.root.text.toList := by
    cases p.root <;> simp [Root.text, hc]
  have hnames : ∀ d ∈ ("/".intercalate p.parts).toList, d ≠ c := by
    rw [String.toList_intercalate]
    refine Text.forall_mem_intercalate (by simpa using hc.symm) fun s hs d hd heq => ?_
    obtain ⟨n, hn, rfl⟩ := List.mem_map.1 hs
    exact h n hn (heq ▸ hd)
  unfold stem
  split
  · exact List.not_mem_nil
  · rename_i hne
    rw [text, if_neg (by simp [hne]), String.toList_append, List.mem_append, not_or]
    exact ⟨hroot, fun hmem => hnames c hmem rfl⟩

end Path

theorem Entry.exists_of_at?_cons {e d : Entry} {n : String} {l : Location}
    (h : e.at? (n :: l) = some d) : ∃ m, (n, m) ∈ e.children ∧ m.at? l = some d := by
  rw [Entry.at?] at h
  split at h
  · rename_i m hm
    exact ⟨m, Entry.mem_of_lookup hm, h⟩
  · cases h

namespace FileSystem
variable {fs : FileSystem}

/-- That a character is in no name of a file system. -/
def Lacks (fs : FileSystem) (c : Char) : Prop :=
  ∀ l n e, fs.entryAt? (l ++ [n]) = some e → c ∉ n.toList

/-- Names that are followed are dots, or names of entries. -/
theorem exists_entryAt?_of_follow {links : Nat} {here : Location} {ns : List String}
    {r : Location × Entry} (h : fs.follow links here ns = .ok r) :
    ∀ n ∈ ns, n = "." ∨ n = ".." ∨ ∃ l e, fs.entryAt? (l ++ [n]) = some e := by
  fun_induction fs.follow links here ns with
  | case1 => exact fun n hn => absurd hn List.not_mem_nil
  | case2 => cases h
  | case3 _ _ _ ih => exact List.forall_mem_cons.2 ⟨.inl rfl, ih h⟩
  | case4 _ _ _ _ ih => exact List.forall_mem_cons.2 ⟨.inr (.inl rfl), ih h⟩
  | case5 => cases h
  | case6 => cases h
  | case7 _ here n ns _ _ _ es he ih =>
    exact List.forall_mem_cons.2 ⟨.inr (.inr ⟨here, _, he⟩), ih h⟩
  | case8 _ here n ns _ _ _ bs he hlast =>
    rw [List.isEmpty_iff] at hlast
    subst hlast
    exact List.forall_mem_cons.2 ⟨.inr (.inr ⟨here, _, he⟩), fun m hm => absurd hm List.not_mem_nil⟩
  | case9 => cases h
  | case10 => cases h
  | case11 here n ns _ _ _ target he links ih =>
    exact List.forall_mem_cons.2 ⟨.inr (.inr ⟨here, _, he⟩), fun m hm =>
      ih h m (List.mem_append_right _ hm)⟩

/-- A path without dots that leads somewhere has names of entries. -/
theorem Lacks.of_lookup (h : fs.Lacks c) {p : Path} (hp : p.IsProper) (hdots : ".." ∉ p.parts)
    {r : Location × Entry} (hr : fs.lookup p = .ok r) : p.Lacks c := by
  intro n hn
  have hfollow := follow_of_lookup hr
  rcases exists_entryAt?_of_follow hfollow n hn with rfl | rfl | ⟨l, e, he⟩
  · exact absurd (hp _ hn).1 (by decide)
  · exact absurd hn hdots
  · exact h l n e he

end FileSystem

namespace Index
variable {fs : FileSystem} {ignore : List String} {root d : Path}

theorem Reached.lacks (h : Reached fs ignore root d) (hfs : fs.isProper = true) (hc : fs.Lacks c)
    (hroot : root.Lacks c) : d.Lacks c := by
  induction h with
  | root => exact hroot
  | child _ hn ih =>
    obtain ⟨es, hmem, -⟩ := hn
    obtain ⟨l, _, -, he⟩ := (FileSystem.mem_entriesAt hfs).1 hmem
    exact ih.child (hc l _ _ he)

end Index
end DocTree
