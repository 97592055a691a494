import Mathlib
import DocTree.Population
import DocTree.Proofs.Population

/-!
# Blocks of items in the store

What adds blocks to an item leaves all else in the store as it is (`Rewrites`). If the item has a
list of blocks, the new ones are put behind it (`addBlock_of_list`, `populate_of_list`).
-/

namespace DocTree.Store
variable {s t : Store} {id : Nat} {it : Item} {bs : List Block}

theorem get?_setBlocks (s : Store) (id : Nat) (bs : Slot Block) (j : Nat) :
    (s.setBlocks id bs).get? j =
      if id = j then (s.get? j).map fun it => { it with blocks := bs } else s.get? j := by
  rw [get?, setBlocks, modify, Array.getElem?_modify]
  rfl

theorem size_setBlocks (s : Store) (id : Nat) (bs : Slot Block) :
    (s.setBlocks id bs).size = s.size := Array.size_modify ..

theorem eq_of_get? {s t : Store} (h : ∀ j, s.get? j = t.get? j) : s = t := by
  obtain ⟨xs, hxs⟩ := s
  obtain ⟨ys, hys⟩ := t
  obtain rfl : xs = ys := Array.ext_getElem? h
  rfl

theorem setBlocks_setBlocks (s : Store) (id : Nat) (bs cs : Slot Block) :
    (s.setBlocks id bs).setBlocks id cs = s.setBlocks id cs := by
  refine eq_of_get? fun j => ?_
  simp only [get?_setBlocks]
  split
  · rw [Option.map_map]
    rfl
  · rfl

theorem setBlocks_self (hit : s.get? id = some it) : s.setBlocks id it.blocks = s := by
  refine eq_of_get? fun j => ?_
  rw [get?_setBlocks]
  split
  · rename_i hj
    subst hj
    rw [hit]
    rfl
  · rfl

theorem addBlock_of_list {ms : List (Member Block)} (hit : s.get? id = some it)
    (hms : it.blocks = .list ms) (name value : Value) : s.addBlock id name value =
      ((Block.make name value).mapError .block).map fun b =>
        s.setBlocks id (.list (ms ++ [.own b])) := by
  unfold get? at hit
  unfold addBlock
  simp only [hit, hms]
  cases Block.make name value <;> rfl

theorem addBlock_of_ofList (hit : s.get? id = some it) (hbs : it.blocks = .ofList bs)
    (name value : Value) : s.addBlock id name value =
      ((Block.make name value).mapError .block).map fun b =>
        s.setBlocks id (.ofList (bs ++ [b])) := by
  simp only [addBlock_of_list hit hbs, Slot.ofList, List.map_append, List.map_cons, List.map_nil]

theorem addBlock_of_other {v : Value} (hit : s.get? id = some it) (hv : it.blocks = .other v)
    (name value : Value) :
    s.addBlock id name value = .error (.misuse (.noAttribute v.kindName "append")) := by
  unfold get? at hit
  unfold addBlock
  simp only [hit, hv]
  rfl

/-- The named texts are added up to one that is refused. -/
theorem addEach_of_list {ms : List (Member Block)} (hit : s.get? id = some it)
    (hms : it.blocks = .list ms) (ns : List (Text.Raw × Text.Raw)) : s.addEach id ns =
      (s.setBlocks id (.list (ms ++ (Population.makeEach ns).1.map .own)),
        (Population.makeEach ns).2.mapError .block) := by
  -- each block finds those before it in the item, so the item changes with the store
  induction ns generalizing s it ms with
  | nil =>
    rw [Population.makeEach, List.map_nil, List.append_nil, ← hms, setBlocks_self hit]
    rfl
  | cons n ns ih =>
    obtain ⟨name, text⟩ := n
    rw [addEach, addBlock_of_list hit hms, Population.makeEach]
    cases Block.make (.ofRaw name) (.ofRaw text) with
    | error f =>
      dsimp only [Except.mapError, Except.map]
      rw [List.map_nil, List.append_nil, ← hms, setBlocks_self hit]
    | ok b =>
      have hstep : (s.setBlocks id (.list (ms ++ [.own b]))).get? id =
          some { it with blocks := .list (ms ++ [.own b]) } := by
        rw [get?_setBlocks, if_pos rfl, hit]
        rfl
      dsimp only [Except.mapError, Except.map]
      rw [ih hstep rfl, setBlocks_setBlocks, List.append_assoc]
      rfl

/-- The fault of `populate` that a fault with the blocks of a source is. -/
def PopulateFault.ofBlocks : Population.Fault → PopulateFault
  | .refused _ f => .add (.block f)
  | f => .source f

/-- An item gets the blocks of its source that are made. -/
theorem populate_of_list {ms : List (Member Block)} (hit : s.get? id = some it)
    (hms : it.blocks = .list ms) (fs : FileSystem) (preset : String) : s.populate fs id preset =
      (s.setBlocks id (.list (ms ++
          (Population.madeBlocks preset (fs.read (Path.parse it.path))).map .own)),
        ((Population.blocks preset (fs.read (Path.parse it.path))).mapError .ofBlocks).map fun cs =>
          [Population.addedRecord it.path (ms ++ cs.map .own).length]) := by
  have hself : s.setBlocks id (.list (ms ++ ([] : List Block).map .own)) = s := by
    rw [List.map_nil, List.append_nil, ← hms, setBlocks_self hit]
  have hget (ms : List (Member Block)) : (s.setBlocks id (.list ms)).get? id =
      some { it with blocks := .list ms } := by
    rw [get?_setBlocks, if_pos rfl, hit]
    rfl
  rw [populate, hit, Population.madeBlocks, Population.blocks]
  dsimp only
  cases hns : Population.named preset (fs.read (Path.parse it.path)) with
  | error f =>
    have hne := Population.ne_refused_of_named hns
    cases f with
    | refused made g => exact absurd rfl (hne made g)
    | _ => exact Prod.ext hself.symm rfl
  | ok ns =>
    dsimp only [bind, Except.bind]
    rw [addEach_of_list hit hms]
    obtain ⟨cs, r⟩ := Population.makeEach ns
    cases r with
    | error f => rfl
    | ok u =>
      dsimp only [Except.mapError, Except.map]
      rw [hget]
      rfl

theorem populate_of_ofList (hit : s.get? id = some it) (hbs : it.blocks = .ofList bs)
    (fs : FileSystem) (preset : String) : s.populate fs id preset =
      (s.setBlocks id (.ofList (bs ++ Population.madeBlocks preset (fs.read (Path.parse it.path)))),
        ((Population.blocks preset (fs.read (Path.parse it.path))).mapError .ofBlocks).map fun cs =>
          [Population.addedRecord it.path (bs ++ cs).length]) := by
  rw [populate_of_list hit hbs]
  simp only [Slot.ofList, List.map_append, List.length_append, List.length_map]

/-! ### All else as it is -/

/-- What `s` is after a call about the blocks of an item: it is as before but for these. -/
def Rewrites (s : Store) (id : Nat) (t : Store) : Prop := t = s ∨ ∃ bs, t = s.setBlocks id bs

theorem Rewrites.size_eq (h : s.Rewrites id t) : t.size = s.size := by
  rcases h with rfl | ⟨bs, rfl⟩
  · rfl
  · exact size_setBlocks s id bs

theorem Rewrites.get?_of_ne (h : s.Rewrites id t) {j : Nat} (hj : id ≠ j) :
    t.get? j = s.get? j := by
  rcases h with rfl | ⟨bs, rfl⟩
  · rfl
  · rw [get?_setBlocks, if_neg hj]

theorem rewrites_addBlock {name value : Value} (h : s.addBlock id name value = .ok t) :
    s.Rewrites id t := by
  unfold addBlock at h
  split at h
  · split at h
    · cases h
    · obtain ⟨b, -, h⟩ := bind_eq_ok.1 h
      cases h
      exact .inr ⟨_, rfl⟩
  · cases h
    exact .inl rfl

theorem Rewrites.trans {u : Store} (h : s.Rewrites id t) (h' : t.Rewrites id u) :
    s.Rewrites id u := by
  rcases h with rfl | ⟨bs, rfl⟩
  · exact h'
  · rcases h' with rfl | ⟨cs, rfl⟩
    · exact .inr ⟨bs, rfl⟩
    · exact .inr ⟨cs, setBlocks_setBlocks s id bs cs⟩

theorem rewrites_addEach (s : Store) (id : Nat) (ns : List (Text.Raw × Text.Raw)) :
    s.Rewrites id (s.addEach id ns).1 := by
  induction ns generalizing s with
  | nil => exact .inl rfl
  | cons n ns ih =>
    rw [addEach]
    split
    · exact (rewrites_addBlock ‹_›).trans (ih _)
    · exact .inl rfl

theorem rewrites_populate (s : Store) (fs : FileSystem) (id : Nat) (preset : String) :
    s.Rewrites id (s.populate fs id preset).1 := by
  unfold populate
  split
  · exact .inl rfl
  · split
    · exact .inl rfl
    · exact rewrites_addEach s id _

end DocTree.Store
