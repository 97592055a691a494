import Mathlib
import DocTree.Proofs.FileSystem
import DocTree.Proofs.Path

/-!
# Resolved paths

A path that was resolved begins at the root and is made of names alone: whatever links are followed
on the way, their targets add names and double dots, and the double dots are resolved at the end
(`resolve_eq_ok`).
-/

namespace DocTree

namespace Path
variable {p : Path}

theorem isProper_foldl_child {ns : List String} (hp : p.IsProper)
    (hns : ∀ n ∈ ns, isName n = true ∧ '/' ∉ n.toList) : (ns.foldl Path.child p).IsProper := by
  induction ns generalizing p with
  | nil => exact hp
  | cons n ns ih =>
    obtain ⟨hn, hslash⟩ := hns n (List.mem_cons_self ..)
    exact ih (hp.child hn hslash) fun m hm => hns m (List.mem_cons_of_mem _ hm)

/-- From the root on, double dots are all resolved, and the names that stay were there before. -/
theorem mem_resolveDots {before ns : List String} (h : ".." ∉ before) {n : String}
    (hn : n ∈ resolveDots .single before ns) : n ≠ ".." ∧ (n ∈ before ∨ n ∈ ns) := by
  generalize hr : Root.single = r at hn
  fun_induction resolveDots r before ns with
  | case1 before =>
    rw [List.mem_reverse] at hn
    exact ⟨fun hdots => h (hdots ▸ hn), .inl hn⟩
  | case2 ns hroot =>
    cases hr.trans hroot
  | case3 ns _ ih =>
    obtain ⟨hdots, hn⟩ := ih h hn
    exact ⟨hdots, hn.imp_right (List.mem_cons_of_mem _)⟩
  | case4 =>
    exact absurd (List.mem_cons_self ..) h
  | case5 ns m up _ ih =>
    obtain ⟨hdots, hn⟩ := ih (fun hup => h (List.mem_cons_of_mem _ hup)) hn
    exact ⟨hdots, hn.imp (List.mem_cons_of_mem _) (List.mem_cons_of_mem _)⟩
  | case6 before m ns hm ih =>
    have hbefore : ".." ∉ m :: before := by
      rw [List.mem_cons, not_or]
      exact ⟨fun hm' => hm hm'.symm, h⟩
    obtain ⟨hdots, hn | hn⟩ := ih hbefore hn
    · rcases List.mem_cons.1 hn with rfl | hn
      · exact ⟨hdots, .inr (List.mem_cons_self ..)⟩
      · exact ⟨hdots, .inl hn⟩
    · exact ⟨hdots, .inr (List.mem_cons_of_mem _ hn)⟩

end Path

namespace FileSystem
variable {fs : FileSystem} {p q : Path}

theorem isProper_stepUp (hp : p.IsProper) : (stepUp p).IsProper := by
  unfold stepUp
  split
  · exact hp.child (by decide) (by decide)
  · exact fun n hn => hp n (List.mem_of_mem_dropLast hn)

theorem isProper_start (hp : p.IsProper) (t : Path) :
    (if _ : t.root = .relative then p else ⟨.single, []⟩ : Path).IsProper := by
  split
  · exact hp
  · exact fun n hn => absurd hn (List.not_mem_nil)

theorem isProper_unlink (depth : Nat) (seen : List Path) (here : Path) (ns : List String)
    (hhere : here.IsProper) (hns : ∀ n ∈ ns, Path.isName n = true ∧ '/' ∉ n.toList) :
    (fs.unlink depth seen here ns).1.IsProper := by
  fun_induction fs.unlink depth seen here ns with
  | case1 => exact hhere
  | case2 depth seen here ns ih =>
    exact ih (isProper_stepUp hhere) fun n hn => hns n (List.mem_cons_of_mem _ hn)
  -- a link that is under way, or one too many: the names that are left stay as they are
  | case3 depth seen here n ns _ there target _ _ =>
    exact Path.isProper_foldl_child (p := here) hhere hns
  | case4 seen here n ns _ there target _ _ =>
    exact Path.isProper_foldl_child (p := here) hhere hns
  -- a link that is followed: its target is proper, as any parsed path is
  | case5 seen here n ns _ there target _ _ depth t start q hq ihTarget ih =>
    have hrest := fun m hm => hns m (List.mem_cons_of_mem _ hm)
    have hstart : start.IsProper := isProper_start hhere t
    have htarget := ihTarget hstart (Path.isProper_parse target)
    rw [hq] at htarget
    exact ih htarget hrest
  | case6 seen here n ns _ there target _ _ depth t start q ok hq _ ihTarget =>
    have hrest := fun m hm => hns m (List.mem_cons_of_mem _ hm)
    have hstart : start.IsProper := isProper_start hhere t
    have htarget := ihTarget hstart (Path.isProper_parse target)
    rw [hq] at htarget
    exact Path.isProper_foldl_child htarget hrest
  | case7 depth seen here n ns _ there _ ih =>
    obtain ⟨hn, hslash⟩ := hns n (List.mem_cons_self ..)
    exact ih (hhere.child hn hslash) fun m hm => hns m (List.mem_cons_of_mem _ hm)

theorem mem_locate (hw : ∀ n ∈ fs.working, isEntryName n = true) (hp : p.IsProper) {n : String}
    (hn : n ∈ fs.locate p) : n ≠ ".." ∧ Path.isName n = true ∧ '/' ∉ n.toList := by
  have hbase : ∀ m ∈ (fs.base p).reverse, isEntryName m = true := by
    intro m hm
    rw [List.mem_reverse, base] at hm
    split at hm
    · exact hw m hm
    · cases hm
  have hdots : ".." ∉ (fs.base p).reverse := fun h => absurd (hbase _ h) (by decide +kernel)
  obtain ⟨hn', hn⟩ := Path.mem_resolveDots hdots hn
  refine ⟨hn', ?_⟩
  rcases hn with hn | hn
  · obtain ⟨hname, -, hslash, -⟩ := isEntryName_iff.1 (hbase n hn)
    exact ⟨hname, hslash⟩
  · exact hp n hn

/-- What resolving a path gives is absolute and proper, and holds no double dots. -/
theorem resolve_eq_ok (hw : ∀ n ∈ fs.working, isEntryName n = true) (hp : p.IsProper)
    (h : fs.resolve p = .ok q) : q.root = .single ∧ q.IsProper ∧ ".." ∉ q.parts := by
  have hq : q = ⟨.single, fs.resolved p⟩ := by
    unfold resolve at h
    split at h
    · cases h
    · dsimp only at h
      split at h
      · cases h
      · cases h
        rfl
  have hstart : (⟨if p.root = .relative then .relative else .single, []⟩ : Path).IsProper :=
    fun n hn => absurd hn List.not_mem_nil
  have hnames : ∀ n ∈ q.parts, n ≠ ".." ∧ Path.isName n = true ∧ '/' ∉ n.toList := by
    rw [hq]
    exact fun n hn => mem_locate hw (isProper_unlink _ _ _ _ hstart hp) hn
  exact ⟨by rw [hq], fun n hn => (hnames n hn).2, fun hdots => (hnames _ hdots).1 rfl⟩

/-- A dot is resolved to the working directory, if this is there. -/
theorem resolve_dot {r : Location × Entry} (h : fs.lookup ⟨.single, fs.working⟩ = .ok r) :
    fs.resolve (Path.parse ".") = .ok ⟨.single, fs.working⟩ := by
  have hparse : Path.parse "." = ⟨.relative, []⟩ := by decide +kernel
  have hresolved : fs.resolved ⟨.relative, []⟩ = fs.working := by
    rw [resolved, unlinked, unlink]
    exact List.reverse_reverse fs.working
  simp only [resolve, hparse, hresolved, h]
  rfl

end FileSystem
end DocTree
