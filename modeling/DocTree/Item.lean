import DocTree.Validation

/-!
# Items

A tree of items: each has the path of its source file, further files, child items, and named texts
called blocks. What kind of item it is and where its rendered page lies follows from its path.
-/

namespace DocTree

/-- A named text. -/
structure Block where
  name : String
  value : Text.Raw
  deriving DecidableEq, Repr, Inhabited

/-- An item with all that is below it. -/
inductive ItemTree
  | node (path : String) (files : List String) (blocks : List Block) (children : List ItemTree)
  deriving Repr, Inhabited

/-- An item with all that is below it, and with the fields that follow from its path as it keeps
them. -/
inductive ItemData
  | node (path renderedPath : String) (type : ItemType) (files : List String) (blocks : List Block)
      (children : List ItemData)
  deriving Repr, Inhabited

/-- Why a block is not made. -/
inductive BlockFault
  | noName
  | invalid (issues : List Validation.Issue)
  deriving BEq, Repr

namespace Block

def noNameMessage : String := "Cannot add a block without a name"

/-- The name of a block: a text that is not empty. -/
def checkName (v : Value) : Validation.Checked String :=
  match Validation.encodedText v with
  | .ok s => if s.isEmpty then Validation.issue .tooShort v else .ok s
  | .error is => .error is

def ofEntries (es : List (Value × Value)) : Validation.Checked Block :=
  Validation.both Block.mk (Validation.required es "name" checkName)
    (Validation.optional es "value" "" Validation.raw)

def ofValue (v : Value) : Validation.Checked Block :=
  match v.bare with
  | .map es => ofEntries es
  | _ => Validation.issue (.noModel "Block") v

/-- A block with this name and value. A name that counts as absent is refused first. -/
def make (name value : Value) : Except BlockFault Block :=
  if name.isFalsy then .error .noName
  else (ofEntries [(.str "name", name), (.str "value", value)]).mapError .invalid

end Block

def BlockFault.message : BlockFault → String
  | .noName => Block.noNameMessage
  | .invalid issues => Validation.report "Block" issues

def fileOfValue (v : Value) : Validation.Checked String :=
  match v.bare with
  | .map es => Validation.required es "path" Validation.text
  | _ => Validation.issue (.noModel "File") v

def ItemType.ofValue (v : Value) : Validation.Checked ItemType :=
  match v with
  | .str s => match ItemType.all.find? fun t => t.name == s with
    | some t => .ok t
    | none => Validation.issue .noType v
  | _ => Validation.issue .noType v

namespace ItemTree

def path : ItemTree → String
  | .node p _ _ _ => p

def files : ItemTree → List String
  | .node _ fs _ _ => fs

def blocks : ItemTree → List Block
  | .node _ _ bs _ => bs

def children : ItemTree → List ItemTree
  | .node _ _ _ ts => ts

def type (t : ItemTree) : ItemType := ItemType.ofPath t.path

def renderedPath (t : ItemTree) : String := DocTree.renderedPath t.path

/-- What is wrong with a path that no kind of item is known for. -/
def unknownMessage (path : String) : String :=
  "The item " ++ path.quotedText ++ " does not match any of the known item types."

end ItemTree

namespace ItemData

def path : ItemData → String
  | .node p _ _ _ _ _ => p

def renderedPath : ItemData → String
  | .node _ r _ _ _ _ => r

def type : ItemData → ItemType
  | .node _ _ t _ _ _ => t

def files : ItemData → List String
  | .node _ _ _ fs _ _ => fs

def blocks : ItemData → List Block
  | .node _ _ _ _ bs _ => bs

def children : ItemData → List ItemData
  | .node _ _ _ _ _ ds => ds

mutual

def toTree : ItemData → ItemTree
  | .node p _ _ fs bs ds => .node p fs bs (toTrees ds)

def toTrees : List ItemData → List ItemTree
  | [] => []
  | d :: ds => d.toTree :: toTrees ds

end

mutual

/-- The tree with the fields that follow from the paths. -/
def ofTree : ItemTree → ItemData
  | .node p fs bs ts => .node p (DocTree.renderedPath p) (ItemType.ofPath p) fs bs (ofTrees ts)

def ofTrees : List ItemTree → List ItemData
  | [] => []
  | t :: ts => ofTree t :: ofTrees ts

end

/-! ## From untyped data -/

/-- The entries with those that follow from the path, if there is a path that is a text. What was
given for them is replaced. -/
def derive (es : List (Value × Value)) : List (Value × Value) :=
  match (Value.lookup (.str "path") es).bind Value.raw? with
  | some p => Value.insertEntry (.str "type") (.str (ItemType.ofPath p.shown).name)
      (Value.insertEntry (.str "rendered_path") (.str (DocTree.renderedPath p.shown)) es)
  | none => es

/-- An item from its fields, the child items given as checked. -/
def ofFields (es : List (Value × Value)) (children : Validation.Checked (List ItemData)) :
    Validation.Checked ItemData :=
  let path := Validation.required es "path" Validation.text
  let rendered := Validation.optional es "rendered_path" "" Validation.text
  let type := Validation.optional es "type" .unknown ItemType.ofValue
  let files := Validation.optional es "files" [] (Validation.list fileOfValue)
  let blocks := Validation.optional es "blocks" [] (Validation.list Block.ofValue)
  let own := Validation.both Prod.mk (Validation.both Prod.mk path rendered) type
  Validation.both (fun (((p, r), t), fs) (ds, bs) => .node p r t fs bs ds)
    (Validation.both Prod.mk own files) (Validation.both Prod.mk children blocks)

mutual

/-- An item from untyped data, with the child items in it. -/
def ofValue : Value → Validation.Checked ItemData
  | .map es => ofFields (derive es) (childrenIn es)
  | v => Validation.issue (.noModel "Item") v

/-- The child items under their key. -/
def childrenIn : List (Value × Value) → Validation.Checked (List ItemData)
  | [] => .ok []
  | (k, v) :: es =>
    if k.key? == some (.str "child_items") then
      Validation.within (.field "child_items") <| match v with
        | .list vs => childrenFrom 0 vs
        | v => Validation.issue .noList v
    else childrenIn es

/-- The items in a list, of which the first is the `i`-th. -/
def childrenFrom (i : Nat) : List Value → Validation.Checked (List ItemData)
  | [] => .ok []
  | v :: vs =>
    Validation.both List.cons (Validation.within (.index i) (ofValue v)) (childrenFrom (i + 1) vs)

end

end ItemData

/-- The tree that an item from untyped data is. -/
def ItemTree.ofValue (v : Value) : Validation.Checked ItemTree := (ItemData.ofValue v).map ItemData.toTree

end DocTree
