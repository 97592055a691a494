import Mathlib
import DocTree.Proofs.FileSystem

/-!
# Kinds of entries

What is at a location, the contents of files left out. A lookup asks for no more than that
(`lookup_kind`), so it ends alike in two file systems that are `Alike`: at the same location, at an
entry of the same kind, or with the same fault.
-/

namespace DocTree

/-- What an entry is, but for the bytes of a file and the entries of a directory. -/
inductive Entry.Kind
  | file
  | link (target : String)
  | directory
  deriving DecidableEq, Repr

namespace Entry

def kind : Entry → Kind
  | .file _ => .file
  | .link t => .link t
  | .directory _ => .directory

theorem kind_eq_file {e : Entry} : e.kind = .file ↔ ∃ bs, e = .file bs := by
  cases e <;> simp [kind]

theorem kind_eq_directory {e : Entry} : e.kind = .directory ↔ ∃ es, e = .directory es := by
  cases e <;> simp [kind]

theorem kind_eq_link {e : Entry} {t : String} : e.kind = .link t ↔ e = .link t := by
  cases e <;> simp [kind]

theorem isFile_eq_of_kind_eq {e d : Entry} (h : e.kind = d.kind) : e.isFile = d.isFile := by
  cases e <;> cases d <;> cases h <;> rfl

end Entry

namespace FileSystem

/-- That two file systems have the same directories, links and files, whatever the files hold. -/
structure Alike (fs fs' : FileSystem) : Prop where
  working : fs.working = fs'.working
  kind : ∀ l, (fs.entryAt? l).map Entry.kind = (fs'.entryAt? l).map Entry.kind

/-- Where a lookup ends, with the kind of the entry there. -/
def kindOf (r : Except LookupFault (Location × Entry)) : Except LookupFault (Location × Entry.Kind) :=
  r.map fun (l, e) => (l, e.kind)

namespace Alike
variable {fs fs' : FileSystem}

theorem symm (h : Alike fs fs') : Alike fs' fs := ⟨h.working.symm, fun l => (h.kind l).symm⟩

theorem entryAt?_eq_none (h : Alike fs fs') {l : Location} (hl : fs.entryAt? l = none) :
    fs'.entryAt? l = none := by
  have hk := h.kind l
  rw [hl] at hk
  exact Option.map_eq_none_iff.1 hk.symm

theorem exists_entryAt? (h : Alike fs fs') {l : Location} {e : Entry} (hl : fs.entryAt? l = some e) :
    ∃ e', fs'.entryAt? l = some e' ∧ e'.kind = e.kind := by
  have hk := h.kind l
  rw [hl] at hk
  exact Option.map_eq_some_iff.1 hk.symm

theorem follow_kind (h : Alike fs fs') (k : Nat) (here : Location) (ns : List String) :
    kindOf (fs.follow k here ns) = kindOf (fs'.follow k here ns) := by
  fun_induction fs.follow k here ns with
  -- the path ends here
  | case1 k here e he =>
    obtain ⟨e', he', hk⟩ := h.exists_entryAt? he
    rw [follow, he']
    simp [kindOf, Except.map, hk]
  | case2 k here he =>
    rw [follow, h.entryAt?_eq_none he]
  -- a dot, a double dot
  | case3 k here ns ih => rw [ih, follow.eq_2 fs' k here, if_pos rfl]
  | case4 k here ns hdot ih => rw [ih, follow.eq_2 fs' k here, if_neg hdot, if_pos rfl]
  | case5 k here n ns h1 h2 h3 => rw [follow, if_neg h1, if_neg h2, if_pos h3]
  | case6 k here n ns h1 h2 h3 he =>
    rw [follow, if_neg h1, if_neg h2, if_neg h3, h.entryAt?_eq_none he]
  | case7 k here n ns h1 h2 h3 es he ih =>
    obtain ⟨e', he', hk⟩ := h.exists_entryAt? he
    obtain ⟨es', rfl⟩ := Entry.kind_eq_directory.1 hk
    rw [ih, follow.eq_2 fs' k here, if_neg h1, if_neg h2, if_neg h3, he']
  -- a file, which only ends a path
  | case8 k here n ns h1 h2 h3 bs he hns =>
    obtain ⟨e', he', hk⟩ := h.exists_entryAt? he
    obtain ⟨bs', rfl⟩ := Entry.kind_eq_file.1 hk
    rw [follow, if_neg h1, if_neg h2, if_neg h3, he']
    simp only [if_pos hns]
    rfl
  | case9 k here n ns h1 h2 h3 bs he hns =>
    obtain ⟨e', he', hk⟩ := h.exists_entryAt? he
    obtain ⟨bs', rfl⟩ := Entry.kind_eq_file.1 hk
    rw [follow, if_neg h1, if_neg h2, if_neg h3, he']
    simp only [if_neg hns]
  -- a link, whose target is the same in both
  | case10 here n ns h1 h2 h3 t he =>
    obtain ⟨e', he', hk⟩ := h.exists_entryAt? he
    obtain rfl := Entry.kind_eq_link.1 hk
    rw [follow, if_neg h1, if_neg h2, if_neg h3, he']
  | case11 here n ns h1 h2 h3 t he k ih =>
    obtain ⟨e', he', hk⟩ := h.exists_entryAt? he
    obtain rfl := Entry.kind_eq_link.1 hk
    simp only [dite_eq_ite] at ih
    rw [ih, follow.eq_2 fs' (k + 1) here, if_neg h1, if_neg h2, if_neg h3, he']

theorem base_eq (h : Alike fs fs') (p : Path) : fs.base p = fs'.base p := by
  rw [base, base, h.working]

theorem lookup_kind (h : Alike fs fs') (p : Path) : kindOf (fs.lookup p) = kindOf (fs'.lookup p) := by
  unfold lookup
  split
  · rfl
  · split
    · rfl
    · rw [h.base_eq p]
      exact h.follow_kind _ _ _

theorem lookup_ok (h : Alike fs fs') {p : Path} {l : Location} {e : Entry}
    (hp : fs.lookup p = .ok (l, e)) : ∃ e', fs'.lookup p = .ok (l, e') ∧ e'.kind = e.kind := by
  have hk := h.lookup_kind p
  rw [hp] at hk
  cases hp' : fs'.lookup p with
  | error f =>
    rw [hp'] at hk
    cases hk
  | ok r =>
    rw [hp'] at hk
    obtain ⟨l', e'⟩ := r
    simp only [kindOf, Except.map, Except.ok.injEq, Prod.mk.injEq] at hk
    exact ⟨e', by rw [hk.1], hk.2.symm⟩

theorem lookup_error (h : Alike fs fs') {p : Path} {f : LookupFault}
    (hp : fs.lookup p = .error f) : fs'.lookup p = .error f := by
  have hk := h.lookup_kind p
  rw [hp] at hk
  cases hp' : fs'.lookup p with
  | error g =>
    rw [hp'] at hk
    cases hk
    rfl
  | ok r =>
    rw [hp'] at hk
    cases hk

end Alike
end FileSystem
end DocTree
