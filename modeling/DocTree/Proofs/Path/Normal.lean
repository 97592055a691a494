import Mathlib
import DocTree.Proofs.Path

/-!
# Normal paths

A path is normal if double dots stand only in front of the names, and nowhere behind a root. Resolving
double dots gives a normal path (`isNormal_normal`) and lets one be as it is (`normal_eq_self_iff`). The
names resolved so far are a stack, which is normal after each name. Names without double dots at the end
of a path stay at its end (`normal_append`).
-/

namespace DocTree.Path
variable {root : Root} {before ns ms : List String} {p : Path} {n : String}

/-- That only double dots stand in front of double dots, and none behind a root. -/
structure DotsLead (root : Root) (ns : List String) : Prop where
  leading : ns.Pairwise fun m n => n = ".." → m = ".."
  rooted : root ≠ .relative → ".." ∉ ns

/-- That nothing is left in the path that could be resolved. -/
def IsNormal (p : Path) : Prop := DotsLead p.root p.parts

/-- The text of the path without what could be resolved in it. -/
def normalText (s : String) : String := (parse s).normal.text

/-- That a text is the slashes of a root and names between single slashes, with double dots only in
front of the names and none behind a root. -/
def IsNormalText (s : String) : Prop := ∃ (root : Root) (ns : List String),
  s = root.text ++ "/".intercalate ns ∧ (∀ n ∈ ns, isName n = true ∧ '/' ∉ n.toList) ∧ DotsLead root ns

theorem DotsLead.nil (root : Root) : DotsLead root [] := ⟨.nil, fun _ => List.not_mem_nil⟩

/-! ### The stack of names -/

/-- A name that is no double dots may always follow. -/
theorem DotsLead.push (h : DotsLead root before.reverse) (hn : n ≠ "..") :
    DotsLead root (n :: before).reverse := by
  rw [List.reverse_cons]
  constructor
  · refine List.pairwise_append.2 ⟨h.leading, List.pairwise_singleton .., fun _ _ m hm hdots => ?_⟩
    exact absurd (List.mem_singleton.1 hm ▸ hdots) hn
  · intro hroot hmem
    rcases List.mem_append.1 hmem with hmem | hmem
    · exact h.rooted hroot hmem
    · exact hn (List.mem_singleton.1 hmem).symm

theorem DotsLead.pop (h : DotsLead root (n :: before).reverse) : DotsLead root before.reverse := by
  rw [List.reverse_cons] at h
  exact ⟨(List.pairwise_append.1 h.leading).1,
    fun hroot hmem => h.rooted hroot (List.mem_append_left _ hmem)⟩

/-- Double dots may follow where nothing but double dots is in front of them. -/
theorem DotsLead.push_dots (hroot : root = .relative) (h : ∀ m ∈ before, m = "..") :
    DotsLead root (".." :: before).reverse := by
  rw [List.reverse_cons]
  refine ⟨List.pairwise_append.2 ⟨?_, List.pairwise_singleton .., ?_⟩, fun hne => absurd hroot hne⟩
  · exact List.pairwise_of_forall_mem_list fun m hm _ _ _ => h m (List.mem_reverse.1 hm)
  · exact fun m hm _ _ _ => h m (List.mem_reverse.1 hm)

theorem DotsLead.of_dots (h : DotsLead root (".." :: before).reverse) :
    root = .relative ∧ ∀ m ∈ before, m = ".." := by
  rw [List.reverse_cons] at h
  constructor
  · by_contra hroot
    exact h.rooted hroot (List.mem_append_right _ (List.mem_singleton_self _))
  · intro m hm
    have hlast := (List.pairwise_append.1 h.leading).2.2 m (List.mem_reverse.2 hm)
    exact hlast ".." (List.mem_singleton_self _) rfl

/-- Each name that is read leaves the stack normal. -/
theorem dotsLead_resolveDots (h : DotsLead root before.reverse) :
    DotsLead root (resolveDots root before ns) := by
  fun_induction resolveDots root before ns with
  | case1 => exact h
  | case2 ns hroot ih => exact ih (DotsLead.push_dots hroot fun m hm => absurd hm List.not_mem_nil)
  | case3 ns _ ih => exact ih h
  | case4 ns up ih =>
    obtain ⟨hroot, hup⟩ := h.of_dots
    exact ih (DotsLead.push_dots hroot (List.forall_mem_cons.2 ⟨rfl, hup⟩))
  | case5 ns m up _ ih => exact ih h.pop
  | case6 before n ns hn ih => exact ih (h.push hn)

/-- The names that are left were there before. -/
theorem mem_of_mem_resolveDots (h : n ∈ resolveDots root before ns) : n ∈ before ∨ n ∈ ns := by
  fun_induction resolveDots root before ns with
  | case1 => exact .inl (List.mem_reverse.1 h)
  | case2 ns _ ih =>
    rcases ih h with h | h
    · exact .inr (List.mem_singleton.1 h ▸ List.mem_cons_self ..)
    · exact .inr (List.mem_cons_of_mem _ h)
  | case3 ns _ ih => exact (ih h).imp_right (List.mem_cons_of_mem _)
  | case4 ns up ih =>
    rcases ih h with h | h
    · rcases List.mem_cons.1 h with rfl | h
      · exact .inl (List.mem_cons_self ..)
      · exact .inl h
    · exact .inr (List.mem_cons_of_mem _ h)
  | case5 ns m up _ ih => exact (ih h).imp (List.mem_cons_of_mem _) (List.mem_cons_of_mem _)
  | case6 before m ns _ ih =>
    rcases ih h with h | h
    · rcases List.mem_cons.1 h with rfl | h
      · exact .inr (List.mem_cons_self ..)
      · exact .inl h
    · exact .inr (List.mem_cons_of_mem _ h)

/-- Where double dots lead already, all names stay. -/
theorem resolveDots_of_dotsLead (h : DotsLead root (before.reverse ++ ns)) :
    resolveDots root before ns = before.reverse ++ ns := by
  fun_induction resolveDots root before ns with
  | case1 before => exact (List.append_nil _).symm
  | case2 ns _ ih => exact ih h
  | case3 ns hroot => exact absurd (List.mem_cons_self ..) (h.rooted hroot)
  | case4 ns up ih =>
    simp only [List.reverse_cons, List.append_assoc, List.singleton_append] at h ih ⊢
    exact ih h
  | case5 ns m up hm =>
    -- a name cannot stand in front of double dots
    have hdots := (List.pairwise_append.1 h.leading).2.2 m (by simp) ".." (List.mem_cons_self ..) rfl
    exact absurd hdots hm
  | case6 before m ns _ ih =>
    simp only [List.reverse_cons, List.append_assoc, List.singleton_append] at h ih ⊢
    exact ih h

theorem resolveDots_eq (root : Root) {ns : List String} (h : ".." ∉ ns) (before : List String) :
    resolveDots root before ns = before.reverse ++ ns := by
  induction ns generalizing before with
  | nil => simp [resolveDots]
  | cons n ns ih =>
    rw [List.mem_cons, not_or] at h
    rw [resolveDots, ih h.2]
    · simp
    · exact fun hn => h.1 hn.symm

theorem resolveDots_append (h : ".." ∉ ms) :
    resolveDots root before (ns ++ ms) = resolveDots root before ns ++ ms := by
  fun_induction resolveDots root before ns with
  | case1 before => exact resolveDots_eq root h before
  | case2 ns hroot ih => rw [List.cons_append, resolveDots, if_pos hroot, ih]
  | case3 ns hroot ih => rw [List.cons_append, resolveDots, if_neg hroot, ih]
  | case4 ns up ih => rw [List.cons_append, resolveDots, ih]
  | case5 ns m up hm ih => rw [List.cons_append, resolveDots, ih]; exact hm
  | case6 before m ns hm ih => rw [List.cons_append, resolveDots, ih]; exact hm

/-! ### The normal path -/

theorem text_of_ne_nil (h : p.parts ≠ []) : p.text = p.root.text ++ "/".intercalate p.parts := by
  simp [text, h]

theorem isNormal_normal (p : Path) : p.normal.IsNormal := dotsLead_resolveDots (DotsLead.nil p.root)

theorem normal_eq_self_iff : p.normal = p ↔ p.IsNormal := by
  constructor
  · exact fun h => h ▸ isNormal_normal p
  · intro h
    have hparts : resolveDots p.root [] p.parts = p.parts := resolveDots_of_dotsLead h
    rw [normal, hparts]

theorem normal_normal (p : Path) : p.normal.normal = p.normal :=
  normal_eq_self_iff.2 (isNormal_normal p)

theorem normal_append (h : ".." ∉ ms) :
    (⟨p.root, p.parts ++ ms⟩ : Path).normal = ⟨p.root, p.normal.parts ++ ms⟩ := by
  rw [normal, resolveDots_append h]
  rfl

theorem normal_child (hn : n ≠ "..") : (p.child n).normal = p.normal.child n :=
  normal_append fun h => hn (List.mem_singleton.1 h).symm

theorem IsProper.normal (hp : p.IsProper) : p.normal.IsProper := by
  intro n hn
  rcases mem_of_mem_resolveDots hn with hn | hn
  · cases hn
  · exact hp n hn

end DocTree.Path
