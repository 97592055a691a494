import Mathlib
import DocTree.Proofs.Derived
import DocTree.Proofs.Index.Contents
import DocTree.Proofs.Report

/-!
# Reports on a tree that is planted

A report on a tree does not depend on the numbers that its items get in the store, nor on their blocks:
what it tells follows from the paths in the tree and how deep they lie (`outline_plant`). So the rows
and the lines of trees that are equal without blocks are told of the same items, one by one
(`treeLines_plant`).
-/

namespace DocTree

namespace ItemTree

mutual

/-- The paths of the items, as they lie. -/
def paths : ItemTree → Rose String
  | .node p _ _ ts => .node p (pathsAll ts)

def pathsAll : List ItemTree → List (Rose String)
  | [] => []
  | t :: ts => t.paths :: pathsAll ts

end

mutual

theorem paths_withoutBlocks : ∀ t : ItemTree, t.withoutBlocks.paths = t.paths
  | .node p _ _ ts => by rw [withoutBlocks, paths, paths, pathsAll_withoutBlocksAll ts]

theorem pathsAll_withoutBlocksAll : ∀ ts : List ItemTree,
    pathsAll (withoutBlocksAll ts) = pathsAll ts
  | [] => rfl
  | t :: ts => by
    rw [withoutBlocksAll, pathsAll, pathsAll, paths_withoutBlocks t, pathsAll_withoutBlocksAll ts]

end

end ItemTree

namespace Store
variable {s : Store}

mutual

/-- The tree of numbers that a tree of items has in the store has the same paths. -/
theorem map_path?_of_holds : ∀ (u : Rose Nat) (t : ItemTree), s.IsTree u → s.Holds u.root t →
    u.map s.path? = t.paths.map some
  | .node id us, .node p fs bs ts, ⟨⟨it, hit, hchildren⟩, hus⟩, ⟨ids, hid, hids⟩ => by
    rw [Rose.root] at hid
    cases hit.symm.trans hid
    have hroots := congrArg Slot.owned hchildren
    rw [Item.ofPath, Slot.owned_ofList, Slot.owned_ofList] at hroots
    rw [hroots] at hids
    rw [Rose.map, ItemTree.paths, Rose.map, mapAll_path?_of_holdsAll us ts hus hids, path?, hit]
    rfl

theorem mapAll_path?_of_holdsAll : ∀ (us : List (Rose Nat)) (ts : List ItemTree), s.AreTrees us →
    s.HoldsAll (us.map Rose.root) ts →
      Rose.mapAll s.path? us = Rose.mapAll some (ItemTree.pathsAll ts)
  | [], [], _, _ => rfl
  | u :: us, t :: ts, ⟨hu, hus⟩, ⟨ht, hts⟩ => by
    rw [Rose.mapAll, ItemTree.pathsAll, Rose.mapAll, map_path?_of_holds u t hu ht,
      mapAll_path?_of_holdsAll us ts hus hts]
  | [], _ :: _, _, h => h.elim
  | _ :: _, [], _, h => h.elim

end

theorem derived_plant (t : ItemTree) : (Store.empty.plant t).1.1.Derived :=
  derived_plantData _ _ derived_empty (ItemData.derived_ofTree t)

end Store

namespace Report
variable {fs : FileSystem} {base : String}

theorem derived_of_outline {s : Store} (hs : s.Derived) {xs : List (List Nat × Nat)}
    {items : List (Nat × Item)}
    (h : List.Forall₂ (fun x y => s.get? x.2 = some y.2 ∧ y.1 = x.1.length) xs items) :
    ∀ y ∈ items, y.2.Derived := by
  induction h with
  | nil => exact fun y hy => absurd hy List.not_mem_nil
  | cons hx _ ih => exact List.forall_mem_cons.2 ⟨hs _ _ hx.1, ih⟩

/-- The outline of a tree that is planted tells its paths, each with its depth. -/
theorem outline_plant (t : ItemTree) : ∃ items,
    outline (Store.empty.plant t).1.1 (Store.empty.plant t).1.2 = .ok items ∧
      items.map (fun y => (y.1, y.2.path)) = t.paths.levels 0 ∧ ∀ y ∈ items, y.2.Derived := by
  obtain ⟨-, hholds⟩ := Store.holds_plant Store.empty t
  obtain ⟨-, u, hroot, hu, hnodup, -⟩ := Store.exists_isTree_plantData Store.empty (.ofTree t)
  have hroot : u.root = (Store.empty.plant t).1.2 := hroot
  obtain ⟨items, hitems, hall⟩ := outline_of_isTree hu hnodup
  rw [← hroot] at hholds
  refine ⟨items, by rwa [hroot] at hitems, ?_, derived_of_outline (Store.derived_plant t) hall⟩
  have hsome : items.map (fun y => (y.1, some y.2.path)) =
      (t.paths.levels 0).map fun x => (x.1, some x.2) := by
    rw [map_outline hall, ← Rose.levels_map, ← Store.map_path?_of_holds u t hu hholds,
      Rose.levels_map, Rose.levels_eq_outline, List.map_map]
    rfl
  have hinj : Function.Injective fun x : Nat × String => (x.1, some x.2) := by
    rintro ⟨m, p⟩ ⟨n, q⟩ heq
    simpa using heq
  refine List.map_injective_iff.2 hinj ?_
  rw [List.map_map]
  exact hsome

/-- The rows of a tree that is planted tell its paths, each with its depth. -/
theorem map_of_rows_plant {t : ItemTree} {rs : List Row}
    (h : rows (Store.empty.plant t).1.1 fs (Store.empty.plant t).1.2 base = .ok rs) :
    rs.map (fun r => (r.depth, r.path)) = t.paths.levels 0 := by
  obtain ⟨items, hitems, hlevels, -⟩ := outline_plant t
  have hall := mapM_eq_ok.1 ((rows_eq_ok hitems).1 h)
  rw [← hlevels]
  clear hlevels hitems h
  induction hall with
  | nil => rfl
  | cons hr _ ih =>
    obtain ⟨hdepth, hpath⟩ := depth_path_of_row hr
    rw [List.map_cons, List.map_cons, ih, hdepth, hpath]

/-! ### Lines and rows -/

def blanks (n : Nat) : String := .ofList (List.replicate n ' ')

/-- The row as a line of an indented tree, with a star if the page is there. -/
def Row.indented (r : Row) : String :=
  blanks (2 * r.depth) ++ r.type.name ++ "  " ++ r.relativePath ++ (if r.rendered then " *" else "")

theorem paddedTo_eq (s : String) (n : Nat) : s.paddedTo n = s ++ blanks (n - s.length) := by
  rw [String.paddedTo, Text.padEnd, String.ofList_append, String.ofList_toList, String.length_toList]
  rfl

/-- What is told of items with the same path is the same. -/
theorem treeLine_eq_indented {it it' : Item} (h : it.Derived) (h' : it'.Derived)
    (hpath : it.path = it'.path) {n : Nat} {r : Row} (hr : row fs base n it' = .ok r) :
    treeLine fs base n it = r.indented := by
  obtain ⟨hash, -, ⟨⟩⟩ := bind_eq_ok.1 hr
  have htype : it.type = it'.type := by rw [h.type, h'.type, hpath]
  have hrendered : it.renderedPath = it'.renderedPath := by
    rw [h.renderedPath, h'.renderedPath, hpath]
  have hrelative : it.relativePath base = it'.relativePath base := by
    rw [Item.relativePath, Item.relativePath, hrendered]
  have hpage : it.isRendered fs = it'.isRendered fs := by
    rw [Item.isRendered, Item.isRendered, hrendered]
  have hblanks : "".paddedTo (2 * n) = blanks (2 * n) := by
    rw [paddedTo_eq, String.empty_append]
    rfl
  rw [treeLine, Row.indented, htype, hrelative, hpage, hblanks]

theorem map_treeLine {xs ys : List (Nat × Item)} (hxs : ∀ x ∈ xs, x.2.Derived)
    (hys : ∀ y ∈ ys, y.2.Derived)
    (h : xs.map (fun x => (x.1, x.2.path)) = ys.map fun y => (y.1, y.2.path)) {rs : List Row}
    (hrs : List.Forall₂ (fun y r => row fs base y.1 y.2 = .ok r) ys rs) :
    xs.map (fun x => treeLine fs base x.1 x.2) = rs.map Row.indented := by
  induction hrs generalizing xs with
  | nil =>
    rw [List.map_nil, List.map_eq_nil_iff] at h
    rw [h]
    rfl
  | @cons y r ys rs hr _ ih =>
    cases xs with
    | nil => cases h
    | cons x xs =>
      rw [List.map_cons, List.map_cons, List.cons.injEq, Prod.mk.injEq] at h
      obtain ⟨⟨hdepth, hpath⟩, htail⟩ := h
      obtain ⟨hx, hxs⟩ := List.forall_mem_cons.1 hxs
      obtain ⟨hy, hys⟩ := List.forall_mem_cons.1 hys
      rw [List.map_cons, List.map_cons, ih hxs hys htail, hdepth, treeLine_eq_indented hx hy hpath hr]

/-- The lines of one tree are those of the rows of another one, if both are equal without blocks. -/
theorem treeLines_plant {t t' : ItemTree} (h : t.withoutBlocks = t'.withoutBlocks) {rs : List Row}
    (hrs : rows (Store.empty.plant t').1.1 fs (Store.empty.plant t').1.2 base = .ok rs) :
    treeLines (Store.empty.plant t).1.1 fs (Store.empty.plant t).1.2 base =
      .ok (rs.map Row.indented) := by
  obtain ⟨items, hitems, hlevels, hderived⟩ := outline_plant t
  obtain ⟨items', hitems', hlevels', hderived'⟩ := outline_plant t'
  have hpaths : t.paths = t'.paths := by
    rw [← ItemTree.paths_withoutBlocks, h, ItemTree.paths_withoutBlocks]
  rw [hpaths] at hlevels
  have hall := mapM_eq_ok.1 ((rows_eq_ok hitems').1 hrs)
  have hlines := map_treeLine hderived hderived' (hlevels.trans hlevels'.symm) hall
  exact bind_eq_ok.2 ⟨items, hitems, congrArg Except.ok hlines⟩

end Report
end DocTree
