import Mathlib
import DocTree.Item

/-!
# Trees of items

The items of a forest in pre-order, and taking items out of a forest: an item that is taken out
leaves its children in its place. `preorder_spliceAll`: what stays keeps its place in the order and
all its fields but the children.
-/

namespace DocTree.ItemTree

/-- What holds of an item if it holds of its children holds of all items. -/
@[elab_as_elim, induction_eliminator]
theorem induct {motive : ItemTree → Prop}
    (node : ∀ p fs bs ts, (∀ t ∈ ts, motive t) → motive (.node p fs bs ts)) : ∀ t, motive t
  | .node p fs bs ts => node p fs bs ts fun t _ => induct node t

/-! ### Pre-order -/

mutual

/-- The items of a tree, each in front of those below it. -/
def preorder : ItemTree → List ItemTree
  | .node p fs bs ts => .node p fs bs ts :: preorderAll ts

/-- The items of a forest, each in front of those below it. -/
def preorderAll : List ItemTree → List ItemTree
  | [] => []
  | t :: ts => t.preorder ++ preorderAll ts

end

theorem preorderAll_eq_flatMap (ts : List ItemTree) : preorderAll ts = ts.flatMap preorder := by
  induction ts with
  | nil => rfl
  | cons t ts ih => rw [preorderAll, ih, List.flatMap_cons]

theorem preorder_eq (t : ItemTree) : t.preorder = t :: preorderAll t.children := by
  cases t; rfl

@[simp] theorem preorderAll_nil : preorderAll [] = [] := rfl

@[simp] theorem preorderAll_singleton (t : ItemTree) : preorderAll [t] = t.preorder := by
  simp [preorderAll]

@[simp] theorem preorderAll_append (ts us : List ItemTree) :
    preorderAll (ts ++ us) = preorderAll ts ++ preorderAll us := by
  simp only [preorderAll_eq_flatMap, List.flatMap_append]

theorem mem_preorderAll {t : ItemTree} {ts : List ItemTree} :
    t ∈ preorderAll ts ↔ ∃ u ∈ ts, t ∈ u.preorder := by
  rw [preorderAll_eq_flatMap, List.mem_flatMap]

theorem mem_preorderAll_of_mem {t : ItemTree} {ts : List ItemTree} (h : t ∈ ts) :
    t ∈ preorderAll ts :=
  mem_preorderAll.2 ⟨t, h, by rw [preorder_eq]; exact List.mem_cons_self ..⟩

theorem mem_preorder_of_mem_children {t u v : ItemTree} (hu : u ∈ t.preorder)
    (hv : v ∈ u.children) : v ∈ t.preorder := by
  induction t with
  | node p fs bs ts ih =>
    rcases List.mem_cons.1 hu with rfl | hu
    · exact List.mem_cons_of_mem _ (mem_preorderAll_of_mem hv)
    · obtain ⟨t, ht, hu⟩ := mem_preorderAll.1 hu
      exact List.mem_cons_of_mem _ (mem_preorderAll.2 ⟨t, ht, ih t ht hu⟩)

theorem mem_preorderAll_of_mem_children {ts : List ItemTree} {u v : ItemTree}
    (hu : u ∈ preorderAll ts) (hv : v ∈ u.children) : v ∈ preorderAll ts := by
  obtain ⟨t, ht, hu⟩ := mem_preorderAll.1 hu
  exact mem_preorderAll.2 ⟨t, ht, mem_preorder_of_mem_children hu hv⟩

/-! ### Taking items out -/

mutual

/-- The tree without the items in `p`, the children of each in its place. -/
def splice (p : ItemTree → Bool) : ItemTree → List ItemTree
  | .node q fs bs ts =>
    if p (.node q fs bs ts) then spliceAll p ts else [.node q fs bs (spliceAll p ts)]

/-- The forest without the items in `p`, the children of each in its place. -/
def spliceAll (p : ItemTree → Bool) : List ItemTree → List ItemTree
  | [] => []
  | t :: ts => t.splice p ++ spliceAll p ts

end

@[simp] theorem spliceAll_nil (p : ItemTree → Bool) : spliceAll p [] = [] := rfl

@[simp] theorem spliceAll_singleton (p : ItemTree → Bool) (t : ItemTree) :
    spliceAll p [t] = t.splice p := by
  simp [spliceAll]

@[simp] theorem spliceAll_append (p : ItemTree → Bool) (ts us : List ItemTree) :
    spliceAll p (ts ++ us) = spliceAll p ts ++ spliceAll p us := by
  induction ts with
  | nil => rfl
  | cons t ts ih => simp only [List.cons_append, spliceAll, ih, List.append_assoc]

/-- The fields of an item but the children. -/
def fields (t : ItemTree) : String × ItemType × String × List String × List Block :=
  (t.path, t.type, t.renderedPath, t.files, t.blocks)

mutual

theorem preorder_splice (p : ItemTree → Bool) : ∀ t : ItemTree,
    (preorderAll (t.splice p)).map fields = (t.preorder.filter (!p ·)).map fields
  | .node q fs bs ts => by
    have ih := preorder_spliceAll p ts
    by_cases h : p (.node q fs bs ts)
    · simp [splice, preorder, h, ih]
    · simp [splice, preorder, h, ih, fields, type, renderedPath, path, files, blocks]

/-- What stays is what is not in `p`, in the same order and with the same fields. -/
theorem preorder_spliceAll (p : ItemTree → Bool) : ∀ ts : List ItemTree,
    (preorderAll (spliceAll p ts)).map fields = ((preorderAll ts).filter (!p ·)).map fields
  | [] => rfl
  | t :: ts => by
    simp only [spliceAll, preorderAll, preorderAll_append, List.map_append, List.filter_append,
      preorder_splice p t, preorder_spliceAll p ts]

end

end DocTree.ItemTree
