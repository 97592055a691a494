import DocTree.Item

/-!
# The store of items

Items that share their children: an item is known by its number, and its children are older than it.
So every walk down the tree ends. The lists of an item may be overwritten with any value; what uses
them then can fail.
-/

namespace DocTree

/-- A member of a list: what belongs there, or a value that was put there. -/
inductive Member (α : Type)
  | own (a : α)
  | foreign (v : Value)
  deriving Repr

/-- What belongs there, if the member does. -/
def Member.kept? {α : Type} : Member α → Option α
  | .own a => some a
  | .foreign _ => none

/-- What a field for a list holds: a list, or any other value. -/
inductive Slot (α : Type)
  | list (ms : List (Member α))
  | other (v : Value)
  deriving Repr

/-- A use that a value does not allow. -/
inductive Misuse
  | noAttribute (kind asked : String)
  | notIterable (kind : String)
  | notIndexed (kind : String)
  | outOfRange (kind : String)
  | noKey (place : Int)
  deriving DecidableEq, Repr

def Misuse.message : Misuse → String
  | .noAttribute k a => "'" ++ k ++ "' object has no attribute '" ++ a ++ "'"
  | .notIterable k => "'" ++ k ++ "' object is not iterable"
  | .notIndexed k => "'" ++ k ++ "' object is not subscriptable"
  | .outOfRange k => k ++ " index out of range"
  | .noKey i => Number.intText i

namespace Slot

variable {α : Type}

def ofList (xs : List α) : Slot α := .list (xs.map .own)

/-- A value put in place of the list. -/
def ofValue (v : Value) : Slot α :=
  match v with
  | .list vs => .list (vs.map .foreign)
  | v => .other v

/-- What an iteration over the field meets. -/
def members : Slot α → Except Misuse (List (Member α))
  | .list ms => .ok ms
  | .other v => match v with
    | .str s => .ok (s.toList.map fun c => .foreign (.str (String.singleton c)))
    | .unpaired us => .ok (us.map fun u => .foreign (.unpaired [u]))
    | .map es => .ok (es.map fun e => .foreign e.1)
    | .tuple xs => .ok (xs.map .foreign)
    | .set xs => .ok (xs.map .foreign)
    | v => .error (.notIterable v.kindName)

/-- How many members a list has. -/
def length : Slot α → Nat
  | .list ms => ms.length
  | .other _ => 0

/-- What belongs in the field. -/
def owned : Slot α → List α
  | .list ms => ms.filterMap Member.kept?
  | .other _ => []

@[simp] theorem owned_ofList (xs : List α) : (ofList xs).owned = xs := by
  induction xs with
  | nil => rfl
  | cons x xs ih => simp_all [owned, ofList, Member.kept?]

@[simp] theorem owned_ofValue (v : Value) : (ofValue v : Slot α).owned = [] := by
  unfold ofValue
  split
  · rename_i vs
    induction vs with
    | nil => rfl
    | cons v vs ih => simp_all [owned, Member.kept?]
  · rfl

end Slot

/-- What belongs in the list; `asked` is what it is looked at for. -/
def Member.own? {α : Type} (asked : String) : Member α → Except Misuse α
  | .own a => .ok a
  | .foreign v => .error (.noAttribute v.kindName asked)

/-- An item: the path of its source file, the path of its rendered page and its type as they were
when it was made, further files, the numbers of its children, and blocks. -/
structure Item where
  path : String
  renderedPath : String
  type : ItemType
  files : Slot String
  children : Slot Nat
  blocks : Slot Block
  deriving Repr

namespace Item

/-- An item with the fields that follow from its path. -/
def ofPath (path : String) (files : List String) (blocks : List Block) (children : List Nat) :
    Item :=
  ⟨path, DocTree.renderedPath path, ItemType.ofPath path, .ofList files, .ofList children,
    .ofList blocks⟩

/-- The path of the rendered page below a base path, with one slash in front: the first occurrence
of the base is taken out. -/
def relativePath (it : Item) (base : String) : String :=
  .ofList ('/' :: (it.renderedPath.removeFirst base).toList.dropWhile (· == '/'))

end Item

/-- Items by their numbers, each younger than its children. -/
structure Store where
  items : Array Item
  older : ∀ (i : Nat) (it : Item), items[i]? = some it → ∀ c ∈ it.children.owned, c < i

namespace Store

def empty : Store := ⟨#[], by simp⟩

/-- How many items there are; the next item has this number. -/
def size (s : Store) : Nat := s.items.size

def get? (s : Store) (id : Nat) : Option Item := s.items[id]?

/-- The store with a new item whose children are there. -/
def addItem (s : Store) (it : Item) (h : ∀ c ∈ it.children.owned, c < s.size) : Store where
  items := s.items.push it
  older := by
    intro i it' h' c hc
    rw [Array.getElem?_push] at h'
    split at h'
    · subst_vars
      simp only [Option.some.injEq] at h'
      subst h'
      exact h c hc
    · exact s.older i it' h' c hc

@[simp] theorem size_addItem (s : Store) (it h) : (s.addItem it h).size = s.size + 1 := by
  simp [addItem, size]

/-- The store with a new item of which the path is given. -/
def add (s : Store) (path : String) (files : List String) (blocks : List Block)
    (children : List (Fin s.size)) : Store :=
  s.addItem (.ofPath path files blocks (children.map (·.val))) (by
    intro c hc
    simp only [Item.ofPath, Slot.owned_ofList, List.mem_map] at hc
    obtain ⟨k, _, rfl⟩ := hc
    exact k.isLt)

/-- The store with an item changed in a way that gives it no new children. -/
def modify (s : Store) (id : Nat) (f : Item → Item)
    (keeps : ∀ it : Item, (f it).children.owned ⊆ it.children.owned) : Store where
  items := s.items.modify id f
  older := by
    intro i it h c hc
    rw [Array.getElem?_modify] at h
    split at h
    · subst_vars
      obtain ⟨it', h', rfl⟩ := Option.map_eq_some_iff.1 h
      exact s.older _ it' h' c (keeps it' hc)
    · exact s.older i it h c hc

def setBlocks (s : Store) (id : Nat) (bs : Slot Block) : Store :=
  s.modify id (fun it => { it with blocks := bs }) fun _ => List.Subset.refl _

/-! ## Making items -/

mutual

/-- The store with an item made of data and all below it, and the number of the item. -/
def plantData (s : Store) : ItemData → { r : Store × Nat // s.size ≤ r.1.size ∧ r.2 < r.1.size }
  | .node path renderedPath type files blocks children =>
    let ⟨(t, ids), h, below⟩ := plantAllData s children
    ⟨(t.addItem ⟨path, renderedPath, type, .ofList files, .ofList ids, .ofList blocks⟩ (by
      intro c hc
      rw [Slot.owned_ofList] at hc
      exact below c hc), t.size), by
      have : s.size ≤ t.size := h
      simp only [size_addItem]
      omega, by simp⟩

/-- The store with items made of data, and their numbers. -/
def plantAllData (s : Store) : (ds : List ItemData) →
    { r : Store × List Nat // s.size ≤ r.1.size ∧ ∀ i ∈ r.2, i < r.1.size }
  | [] => ⟨(s, []), Nat.le_refl _, by simp⟩
  | d :: ds =>
    let ⟨(s₁, id), h₁, hid⟩ := plantData s d
    let ⟨(s₂, ids), h₂, hids⟩ := plantAllData s₁ ds
    ⟨(s₂, id :: ids), by simp only at *; omega, by
      intro i hi
      simp only at *
      rcases List.mem_cons.1 hi with rfl | hi
      · omega
      · exact hids i hi⟩

end

/-- The store with a tree of new items, and the number of its root. -/
def plant (s : Store) (t : ItemTree) : { r : Store × Nat // s.size ≤ r.1.size ∧ r.2 < r.1.size } :=
  s.plantData (.ofTree t)

/-- The store with trees of new items, and the numbers of their roots. -/
def plantAll (s : Store) (ts : List ItemTree) :
    { r : Store × List Nat // s.size ≤ r.1.size ∧ ∀ i ∈ r.2, i < r.1.size } :=
  s.plantAllData (ItemData.ofTrees ts)

/-- The store with an item made of untyped data, and the number of the item. -/
def construct (s : Store) (data : Value) : Validation.Checked (Store × Nat) :=
  (ItemData.ofValue data).map fun d => (s.plantData d).1

/-- What comes of a new item: the item, or a fault that the item is attached to. -/
inductive Made
  | returned (id : Nat)
  | raised (id : Nat)
  deriving DecidableEq, Repr

/-- The number of the item, also if it is attached to a fault. -/
def Made.id : Made → Nat
  | .returned id => id
  | .raised id => id

/-- The store with a new item, which is refused if its type is not known. -/
def newItem (s : Store) (path : String) (files : List String) (children : List (Fin s.size)) :
    Store × Made :=
  let it := Item.ofPath path files [] (children.map (·.val))
  (s.add path files [] children, if it.type == .unknown then .raised s.size else .returned s.size)

/-! ## Trees -/

/-- What an iteration over the children of an item meets. -/
def children (s : Store) (id : Nat) : Except Misuse (List (Member (Fin id))) :=
  match h : s.items[id]? with
  | none => .ok []
  | some it => match hs : it.children with
    | .list ms => .ok (ms.attach.map fun ⟨m, hm⟩ => match m, hm with
      | .own c, hm => .own ⟨c, s.older id it h c (by
          rw [hs]
          exact List.mem_filterMap.2 ⟨.own c, hm, rfl⟩)⟩
      | .foreign v, _ => .foreign v)
    | .other v => (Slot.other v : Slot (Fin id)).members

/-- The numbers of an item and of all below it, each before what is below it. `asked` is what is
asked of a child. -/
def walk (s : Store) (asked : String) (id : Nat) : Except Misuse (List Nat) := do
  let ms ← s.children id
  let below ← ms.mapM fun m => do
    let c : Fin id ← m.own? asked
    s.walk asked c.val
  return id :: below.flatten
termination_by id
decreasing_by exact c.isLt

/-- An item with all that is below it, as it is kept. -/
def data (s : Store) (id : Nat) : Except Misuse ItemData := do
  let some it := s.items[id]? | return default
  let files ← (← it.files.members).mapM (Member.own? "path")
  let children ← (← s.children id).mapM fun m => do
    let c : Fin id ← m.own? "path"
    s.data c.val
  let blocks ← (← it.blocks.members).mapM (Member.own? "name")
  return .node it.path it.renderedPath it.type files blocks children
termination_by id
decreasing_by exact c.isLt

def tree (s : Store) (id : Nat) : Except Misuse ItemTree := (s.data id).map ItemData.toTree

/-- The place among `n` that a number names, counted from the end if negative. -/
def placeAmong? (n : Nat) (place : Int) : Option Nat :=
  let i := if place < 0 then place + n else place
  if 0 ≤ i && i < n then some i.toNat else none

def child (s : Store) (id : Nat) (place : Int) : Except Misuse Nat := do
  let some it := s.items[id]? | throw (.outOfRange "list")
  match it.children with
  | .list ms => match (placeAmong? ms.length place).bind (ms[·]?) with
    | some m => m.own? "path"
    | none => throw (.outOfRange "list")
  | .other v => match v.raw? with
    | some t =>
      if (placeAmong? t.points.length place).isSome then throw (.noAttribute v.kindName "path")
      else throw (.outOfRange "string")
    | none => match v with
      | .map _ => throw (.noKey place)
      | v => throw (.notIndexed v.kindName)

/-! ## Blocks -/

/-- The value of the first block with that name in any case of letters, if there is one. -/
def blockValue (it : Item) (name : String) : Except Misuse Text.Raw := do
  let wanted := name.lowerCase
  let rec find : List (Member Block) → Except Misuse Text.Raw
    | [] => .ok ""
    | m :: ms => do
      let b ← m.own? "name"
      if b.name.lowerCase == wanted then .ok b.value else find ms
  find (← it.blocks.members)

/-- Why a block is not added. -/
inductive AddFault
  | block (f : BlockFault)
  | misuse (m : Misuse)
  deriving BEq, Repr

/-- The store with one more block in an item. -/
def addBlock (s : Store) (id : Nat) (name value : Value) : Except AddFault Store := do
  let some it := s.items[id]? | return s
  match it.blocks with
  | .other v => throw (.misuse (.noAttribute v.kindName "append"))
  | .list ms =>
    let b ← (Block.make name value).mapError .block
    return s.setBlocks id (.list (ms ++ [.own b]))

/-- The fields of an item that follow from its path, and the path; they cannot be assigned. -/
def frozenFields : List String := ["path", "rendered_path", "type"]

/-- Why a field is not assigned. -/
inductive AssignFault
  | frozen (issue : Validation.Issue)
  | noField (name : String)
  deriving BEq, Repr

/-- Whether a name is free for any use: it begins with an underscore, and no field does. -/
def isPrivate (name : String) : Bool := name.toList.head? == some '_'

/-- The store with a value assigned to a field of an item. What has a private name does not show. -/
def assign (s : Store) (id : Nat) (field : String) (v : Value) : Except AssignFault Store :=
  if frozenFields.contains field then
    .error (.frozen ⟨.frozen, [.field field], v⟩)
  else if field == "files" then
    .ok (s.modify id (fun it => { it with files := .ofValue v }) fun _ => List.Subset.refl _)
  else if field == "child_items" then
    .ok (s.modify id (fun it => { it with children := .ofValue v }) fun _ => by simp)
  else if field == "blocks" then .ok (s.setBlocks id (.ofValue v))
  else if isPrivate field then .ok s
  else .error (.noField field)

def noFieldMessage (name : String) : String :=
  "\"Item\" object has no field \"" ++ name ++ "\""

end Store
end DocTree
