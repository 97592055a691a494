import Mathlib
import DocTree.Proofs.Except
import DocTree.Proofs.ItemTree
import DocTree.Proofs.Rose
import DocTree.Report

/-!
# Trees in the store

A tree that is planted is found in the store again (`holds_plant`), and what is planted later does
not change it (`Holds.mono`). No item stands twice in it (`exists_isTree_plantAll`). A walk from its
root meets its items in pre-order (`walk_of_isTree`), and so does an outline (`outline_of_holds`).
-/

namespace DocTree.Store
variable {s s' : Store}

/-- That a store has all items of another one. -/
def Extends (s s' : Store) : Prop := ∀ i it, s.get? i = some it → s'.get? i = some it

theorem Extends.refl (s : Store) : Extends s s := fun _ _ h => h

theorem Extends.trans {r : Store} (h : Extends r s) (h' : Extends s s') : Extends r s' :=
  fun i it hi => h' i it (h i it hi)

theorem extends_addItem (s : Store) (it h) : Extends s (s.addItem it h) := by
  intro i it hi
  obtain ⟨hlt, -⟩ := Array.getElem?_eq_some_iff.1 hi
  unfold get? addItem at *
  rw [Array.getElem?_push_lt hlt, ← hi, Array.getElem?_eq_getElem hlt]

theorem get?_addItem (s : Store) (it h) : (s.addItem it h).get? s.size = some it := by
  unfold get? addItem size
  exact Array.getElem?_push_size

mutual

/-- That the items from a number on down are a tree. -/
def Holds (s : Store) (id : Nat) : ItemTree → Prop
  | .node path files blocks ts => ∃ ids,
    s.get? id = some (.ofPath path files blocks ids) ∧ s.HoldsAll ids ts

/-- That the items from these numbers on down are the trees of a forest. -/
def HoldsAll (s : Store) : List Nat → List ItemTree → Prop
  | [], [] => True
  | id :: ids, t :: ts => s.Holds id t ∧ s.HoldsAll ids ts
  | _, _ => False

end

mutual

theorem Holds.mono (h : Extends s s') : ∀ {id : Nat} (t : ItemTree), s.Holds id t → s'.Holds id t
  | _, .node _ _ _ ts => fun ⟨ids, hid, hids⟩ => ⟨ids, h _ _ hid, HoldsAll.mono h ids ts hids⟩

theorem HoldsAll.mono (h : Extends s s') : ∀ (ids : List Nat) (ts : List ItemTree),
    s.HoldsAll ids ts → s'.HoldsAll ids ts
  | [], [] => fun _ => trivial
  | _ :: ids, t :: ts => fun ⟨ht, hts⟩ => ⟨Holds.mono h t ht, HoldsAll.mono h ids ts hts⟩
  | [], _ :: _ => False.elim
  | _ :: _, [] => False.elim

end

/-- The item under the number of a tree has the path of the tree, and the page that follows from it. -/
theorem Holds.path_eq {id : Nat} {t : ItemTree} {it : Item} (h : s.Holds id t)
    (hit : s.get? id = some it) : it.path = t.path ∧ it.renderedPath = renderedPath it.path := by
  obtain ⟨path, files, blocks, ts⟩ := t
  obtain ⟨ids, hid, -⟩ := h
  rw [hid, Option.some.injEq] at hit
  simp only [← hit, Item.ofPath, ItemTree.path, true_and]

/-! ### Planting -/

mutual

/-- A planted tree is in the store, with all that was there before. -/
theorem holds_plant : ∀ (s : Store) (t : ItemTree),
    Extends s (s.plant t).1.1 ∧ (s.plant t).1.1.Holds (s.plant t).1.2 t
  | s, .node path files blocks ts => by
    obtain ⟨hext, hall⟩ := holds_plantAll s ts
    rw [plant, ItemData.ofTree, plantData]
    rw [plantAll] at hext hall
    generalize s.plantAllData (ItemData.ofTrees ts) = r at *
    obtain ⟨⟨s₁, ids⟩, hsize, hids⟩ := r
    have hbelow : ∀ c ∈ (Item.ofPath path files blocks ids).children.owned, c < s₁.size := by
      rw [Item.ofPath, Slot.owned_ofList]
      exact hids
    have hadd := extends_addItem s₁ (.ofPath path files blocks ids) hbelow
    exact ⟨hext.trans hadd, ids, get?_addItem s₁ _ hbelow, HoldsAll.mono hadd ids ts hall⟩

theorem holds_plantAll : ∀ (s : Store) (ts : List ItemTree),
    Extends s (s.plantAll ts).1.1 ∧ (s.plantAll ts).1.1.HoldsAll (s.plantAll ts).1.2 ts
  | s, [] => by
    rw [plantAll, ItemData.ofTrees, plantAllData]
    exact ⟨Extends.refl s, trivial⟩
  | s, t :: ts => by
    obtain ⟨hext, ht⟩ := holds_plant s t
    obtain ⟨hext', hts⟩ := holds_plantAll (s.plant t).1.1 ts
    rw [plantAll, ItemData.ofTrees, plantAllData]
    rw [plant] at hext ht hext' hts
    rw [plantAll] at hext' hts
    generalize s.plantData (.ofTree t) = r at *
    obtain ⟨⟨s₁, id⟩, hsize, hid⟩ := r
    dsimp only at *
    generalize s₁.plantAllData (ItemData.ofTrees ts) = r at *
    obtain ⟨⟨s₂, ids⟩, hsize', hids⟩ := r
    exact ⟨hext.trans hext', Holds.mono hext' t ht, hts⟩

end

/-! ### Walks -/

mutual

/-- That the items of a tree of numbers have the children that it gives them. -/
def IsTree (s : Store) : Rose Nat → Prop
  | .node id ts =>
    (∃ it, s.get? id = some it ∧ it.children = .ofList (ts.map Rose.root)) ∧ s.AreTrees ts

/-- That the items of a forest of numbers have the children that it gives them. -/
def AreTrees (s : Store) : List (Rose Nat) → Prop
  | [] => True
  | t :: ts => s.IsTree t ∧ s.AreTrees ts

end

theorem children_of_ofList {id : Nat} {it : Item} {ids : List Nat} (hid : s.get? id = some it)
    (hids : it.children = .ofList ids) :
    ∃ cs : List (Fin id), cs.map (·.val) = ids ∧ s.children id = .ok (cs.map .own) := by
  have hlt : ∀ i ∈ ids, i < id := by
    intro i hi
    refine s.older id it hid i ?_
    rwa [hids, Slot.owned_ofList]
  refine ⟨ids.attach.map fun i => ⟨i.1, hlt i.1 i.2⟩, by simp, ?_⟩
  unfold get? at hid
  unfold children
  split
  · rename_i hnone
    rw [hid] at hnone
    cases hnone
  · rename_i it' hit'
    cases hid.symm.trans hit'
    split
    · rename_i ms hms
      cases hids.symm.trans hms
      simp only [List.attach_map, List.map_map]
      rfl
    · rename_i v hv
      cases hids.symm.trans hv

mutual

/-- A walk from the root of a tree meets its items in pre-order. -/
theorem walk_of_isTree (asked : String) : ∀ t : Rose Nat, s.IsTree t →
    s.walk asked t.root = .ok t.preorder
  | .node id ts, ⟨⟨it, hit, hchildren⟩, hts⟩ => by
    obtain ⟨cs, hcs, hown⟩ := children_of_ofList hit hchildren
    obtain ⟨below, hbelow, hflatten⟩ := walk_of_areTrees asked cs ts hcs hts
    rw [Rose.root, walk, hown, Rose.preorder, ← hflatten]
    exact bind_eq_ok.2 ⟨_, rfl, bind_eq_ok.2 ⟨below, hbelow, rfl⟩⟩

theorem walk_of_areTrees (asked : String) {n : Nat} : ∀ (cs : List (Fin n)) (ts : List (Rose Nat)),
    cs.map (·.val) = ts.map Rose.root → s.AreTrees ts → ∃ below,
      (cs.map Member.own).mapM (fun m => do
        let c : Fin n ← m.own? asked
        s.walk asked c.val) = .ok below ∧ below.flatten = Rose.preorderAll ts
  | [], [], _, _ => ⟨[], rfl, rfl⟩
  | c :: cs, t :: ts, hcs, ⟨ht, hts⟩ => by
    obtain ⟨hc, hcs⟩ := List.cons.inj hcs
    have hvisits := walk_of_isTree asked t ht
    obtain ⟨below, hbelow, hflatten⟩ := walk_of_areTrees asked cs ts hcs hts
    refine ⟨t.preorder :: below, ?_, by rw [List.flatten_cons, hflatten, Rose.preorderAll]⟩
    rw [List.map_cons, List.mapM_cons]
    rw [← hc] at hvisits
    exact bind_eq_ok.2 ⟨_, hvisits, bind_eq_ok.2 ⟨below, hbelow, rfl⟩⟩
  | [], _ :: _, h, _ => nomatch h
  | _ :: _, [], h, _ => nomatch h

end

mutual

theorem exists_isTree_of_holds : ∀ {id : Nat} (t : ItemTree), s.Holds id t →
    ∃ u : Rose Nat, u.root = id ∧ s.IsTree u ∧ List.Forall₂ s.Holds u.preorder t.preorder
  | id, .node _ _ _ ts, ⟨ids, hid, hids⟩ => by
    obtain ⟨us, hroots, hus, hall⟩ := exists_areTrees_of_holdsAll ids ts hids
    have hchildren : s.get? id = some (.ofPath _ _ _ (us.map Rose.root)) := hroots ▸ hid
    exact ⟨.node id us, rfl, ⟨⟨_, hchildren, rfl⟩, hus⟩, .cons ⟨ids, hid, hids⟩ hall⟩

theorem exists_areTrees_of_holdsAll : ∀ (ids : List Nat) (ts : List ItemTree), s.HoldsAll ids ts →
    ∃ us : List (Rose Nat), us.map Rose.root = ids ∧ s.AreTrees us ∧
      List.Forall₂ s.Holds (Rose.preorderAll us) (ItemTree.preorderAll ts)
  | [], [], _ => ⟨[], rfl, trivial, .nil⟩
  | id :: ids, t :: ts, ⟨ht, hts⟩ => by
    obtain ⟨u, rfl, hu, hall⟩ := exists_isTree_of_holds t ht
    obtain ⟨us, rfl, hus, hall'⟩ := exists_areTrees_of_holdsAll ids ts hts
    exact ⟨u :: us, rfl, ⟨hu, hus⟩, List.rel_append hall hall'⟩
  | [], _ :: _, h => h.elim
  | _ :: _, [], h => h.elim

end

theorem walk_of_holds (asked : String) {id : Nat} {t : ItemTree} (h : s.Holds id t) :
    ∃ visits, s.walk asked id = .ok visits ∧ List.Forall₂ s.Holds visits t.preorder := by
  obtain ⟨u, rfl, hu, hall⟩ := exists_isTree_of_holds t h
  exact ⟨u.preorder, walk_of_isTree asked u hu, hall⟩

/-- An outline of a tree has its items in pre-order. -/
theorem outline_of_holds {id : Nat} {t : ItemTree} (h : s.Holds id t) : ∃ items,
    Report.outline s id = .ok items ∧ items.map (·.2.path) = t.preorder.map ItemTree.path ∧
      ∀ x ∈ items, x.2.renderedPath = renderedPath x.2.path := by
  obtain ⟨visits, hvisits, hall⟩ := walk_of_holds "walk" h
  refine ⟨_, bind_eq_ok.2 ⟨visits, hvisits, rfl⟩, ?_⟩
  generalize Report.depths s visits = d
  clear hvisits
  generalize t.preorder = us at hall ⊢
  induction hall with
  | nil => exact ⟨rfl, fun x hx => absurd hx List.not_mem_nil⟩
  | @cons i u visits us hu _ ih =>
    obtain ⟨path, files, blocks, ts⟩ := u
    obtain ⟨ids, hi, -⟩ := hu
    rw [List.filterMap_cons, hi]
    refine ⟨congrArg (path :: ·) ih.1, fun x hx => ?_⟩
    rcases List.mem_cons.1 hx with rfl | hx
    · simp only [Item.ofPath]
    · exact ih.2 x hx

/-! ### No item twice -/

mutual

theorem IsTree.mono (h : Extends s s') : ∀ t : Rose Nat, s.IsTree t → s'.IsTree t
  | .node _ ts, ⟨⟨it, hit, hchildren⟩, hts⟩ => ⟨⟨it, h _ _ hit, hchildren⟩, AreTrees.mono h ts hts⟩

theorem AreTrees.mono (h : Extends s s') : ∀ ts : List (Rose Nat), s.AreTrees ts → s'.AreTrees ts
  | [], _ => trivial
  | t :: ts, ⟨ht, hts⟩ => ⟨IsTree.mono h t ht, AreTrees.mono h ts hts⟩

end

/-- That the numbers of some items are distinct, and new in `s'`. -/
def AreNew (s s' : Store) (ids : List Nat) : Prop :=
  ids.Nodup ∧ ∀ i ∈ ids, s.size ≤ i ∧ i < s'.size

mutual

/-- In a tree made of data no item stands twice. Each is made after those below it. -/
theorem exists_isTree_plantData : ∀ (s : Store) (d : ItemData), Extends s (s.plantData d).1.1 ∧
    ∃ t : Rose Nat, t.root = (s.plantData d).1.2 ∧ (s.plantData d).1.1.IsTree t ∧
      AreNew s (s.plantData d).1.1 t.preorder
  | s, .node path rendered type files blocks ds => by
    obtain ⟨hext, ts, hroots, hts, hnodup, hnew⟩ := exists_areTrees_plantAllData s ds
    rw [plantData]
    generalize s.plantAllData ds = r at *
    obtain ⟨⟨s₁, ids⟩, hsize, hids⟩ := r
    let it : Item := ⟨path, rendered, type, .ofList files, .ofList ids, .ofList blocks⟩
    have hbelow : ∀ c ∈ it.children.owned, c < s₁.size := by
      rw [Slot.owned_ofList]
      exact hids
    have hadd := extends_addItem s₁ it hbelow
    refine ⟨hext.trans hadd, .node s₁.size ts, rfl,
      ⟨⟨it, get?_addItem s₁ it hbelow, congrArg Slot.ofList hroots.symm⟩,
        AreTrees.mono hadd ts hts⟩, ?_, ?_⟩
    · exact List.nodup_cons.2 ⟨fun h => Nat.lt_irrefl _ (hnew _ h).2, hnodup⟩
    · intro i hi
      rw [size_addItem]
      rcases List.mem_cons.1 hi with rfl | hi
      · exact ⟨hsize, Nat.lt_succ_self _⟩
      · exact ⟨(hnew i hi).1, Nat.lt_succ_of_lt (hnew i hi).2⟩

theorem exists_areTrees_plantAllData : ∀ (s : Store) (ds : List ItemData),
    Extends s (s.plantAllData ds).1.1 ∧ ∃ ts : List (Rose Nat),
      ts.map Rose.root = (s.plantAllData ds).1.2 ∧ (s.plantAllData ds).1.1.AreTrees ts ∧
        AreNew s (s.plantAllData ds).1.1 (Rose.preorderAll ts)
  | s, [] => ⟨Extends.refl s, [], rfl, trivial, List.nodup_nil, fun _ hi => nomatch hi⟩
  | s, d :: ds => by
    obtain ⟨hext, t, hroot, ht, hnodup, hnew⟩ := exists_isTree_plantData s d
    obtain ⟨hext', ts, hroots, hts, hnodup', hnew'⟩ :=
      exists_areTrees_plantAllData (s.plantData d).1.1 ds
    rw [plantAllData]
    generalize s.plantData d = r at *
    obtain ⟨⟨s₁, id⟩, hsize, hid⟩ := r
    dsimp only at *
    generalize s₁.plantAllData ds = r at *
    obtain ⟨⟨s₂, ids⟩, hsize', hids⟩ := r
    refine ⟨hext.trans hext', t :: ts, congrArg₂ List.cons hroot hroots,
      ⟨IsTree.mono hext' t ht, hts⟩, List.nodup_append'.2 ⟨hnodup, hnodup', ?_⟩, ?_⟩
    · -- the items of the next trees are newer
      intro i hi hi'
      exact absurd (hnew i hi).2 (Nat.not_lt.2 (hnew' i hi').1)
    · intro i hi
      rcases List.mem_append.1 hi with hi | hi
      · exact ⟨(hnew i hi).1, Nat.lt_of_lt_of_le (hnew i hi).2 hsize'⟩
      · exact ⟨Nat.le_trans hsize (hnew' i hi).1, (hnew' i hi).2⟩

end

theorem isTree_of_mem {ts : List (Rose Nat)} (h : s.AreTrees ts)
    (hnodup : (Rose.preorderAll ts).Nodup) : ∀ t ∈ ts, s.IsTree t ∧ t.preorder.Nodup := by
  induction ts with
  | nil => exact fun t ht => absurd ht List.not_mem_nil
  | cons u ts ih =>
    obtain ⟨hu, hts⟩ := h
    obtain ⟨hfirst, hrest, -⟩ := List.nodup_append'.1 hnodup
    exact List.forall_mem_cons.2 ⟨⟨hu, hfirst⟩, ih hts hrest⟩

/-- In the trees of an index no item stands twice. -/
theorem exists_isTree_plantAll (s : Store) (ts : List ItemTree) : ∃ us : List (Rose Nat),
    us.map Rose.root = (s.plantAll ts).1.2 ∧
      ∀ t ∈ us, (s.plantAll ts).1.1.IsTree t ∧ t.preorder.Nodup := by
  obtain ⟨-, us, hroots, hus, hnodup, -⟩ := exists_areTrees_plantAllData s (ItemData.ofTrees ts)
  exact ⟨us, hroots, isTree_of_mem hus hnodup⟩

end DocTree.Store
