import DocTree.Yaml.Event
import DocTree.Yaml.Tag

/-!
# Nodes

The tree that the events of a document build. Aliases are replaced by what they name. Only an alias
of a collection that it stands in remains: that collection is then also kept in a table.
-/

namespace DocTree.Yaml

/-- What a node is, its tag apart. -/
inductive NodeKind
  | scalar
  | sequence
  | mapping
  deriving DecidableEq, Repr

def NodeKind.name : NodeKind → String
  | .scalar => "scalar"
  | .sequence => "sequence"
  | .mapping => "mapping"

/-- A node. An `unpaired` scalar holds halves of surrogate pairs. Collections are numbered in the
order in which they start; `enclosing` stands for a collection that it is in. -/
inductive Node
  | scalar (tag : String) (text : String) (start : Mark)
  | unpaired (tag : String) (us : List Text.CodePoint) (start : Mark)
  | sequence (id : Nat) (tag : String) (items : List Node) (start : Mark)
  | mapping (id : Nat) (tag : String) (entries : List (Node × Node)) (start : Mark)
  | enclosing (id : Nat) (tag : String) (kind : NodeKind) (start : Mark)
  deriving Repr, Inhabited

namespace Node

def kind : Node → NodeKind
  | .scalar .. => .scalar
  | .unpaired .. => .scalar
  | .sequence .. => .sequence
  | .mapping .. => .mapping
  | .enclosing _ _ k _ => k

def tag : Node → String
  | .scalar t _ _ => t
  | .unpaired t _ _ => t
  | .sequence _ t _ _ => t
  | .mapping _ t _ _ => t
  | .enclosing _ t _ _ => t

def start : Node → Mark
  | .scalar _ _ m => m
  | .unpaired _ _ m => m
  | .sequence _ _ _ m => m
  | .mapping _ _ _ m => m
  | .enclosing _ _ _ m => m

mutual

/-- Whether an alias of an enclosing collection remains in the node. -/
def isOpen : Node → Bool
  | .scalar .. => false
  | .unpaired .. => false
  | .sequence _ _ items _ => anyOpen items
  | .mapping _ _ entries _ => anyEntryOpen entries
  | .enclosing .. => true

def anyOpen : List Node → Bool
  | [] => false
  | n :: ns => n.isOpen || anyOpen ns

def anyEntryOpen : List (Node × Node) → Bool
  | [] => false
  | (k, v) :: es => k.isOpen || v.isOpen || anyEntryOpen es

end
end Node

/-- The root of a document, and the collections that hold themselves. -/
structure Document where
  root : Node
  knots : List (Nat × Node)
  deriving Repr, Inhabited

/-- What has been read of a collection: its items, or its entries and a key without value. -/
inductive Contents
  | items (read : List Node)
  | entries (read : List (Node × Node)) (key : Option Node)
  deriving Repr

/-- A collection that has started and not ended. -/
structure Frame where
  id : Nat
  anchor : Option String
  tag : String
  start : Mark
  contents : Contents
  deriving Repr

/-- What an anchor names: a finished node, or a collection that has not ended. -/
inductive Anchored
  | node (n : Node)
  | frame (id : Nat) (tag : String) (kind : NodeKind)
  deriving Repr

/-- A document under way: the open collections from the inside, the anchors with their places, how
many collections there were, and the collections that hold themselves. -/
structure Builder where
  root : Option Node
  open' : List Frame
  anchors : List (String × Mark × Anchored)
  collections : Nat
  selfHolding : List Nat
  knots : List (Nat × Node)

namespace Builder

def start : Builder := ⟨none, [], [], 0, [], []⟩

def Contents.add (n : Node) : Contents → Contents
  | .items ns => .items (ns ++ [n])
  | .entries es none => .entries es (some n)
  | .entries es (some k) => .entries (es ++ [(k, n)]) none

/-- Puts a finished node in its place. -/
def place (b : Builder) (n : Node) : Builder :=
  match b.open' with
  | [] => { b with root := some n }
  | f :: fs => { b with open' := { f with contents := Contents.add n f.contents } :: fs }

/-- Notes that the open collections hold themselves, if the node refers to one around it. -/
def noteOpen (b : Builder) (n : Node) : Builder :=
  if n.isOpen then { b with selfHolding := b.open'.map (·.id) ++ b.selfHolding } else b

/-- Looks whether an anchor is new. -/
def checkAnchor (b : Builder) (m : Mark) : Option String → Except Error Unit
  | none => .ok ()
  | some a => match b.anchors.lookup a with
    | none => .ok ()
    | some (first, _) => .error (.marked
        (some ("found duplicate anchor " ++ a.quotedText ++ "; first occurrence", some first))
        "second occurrence" m)

/-- Gives an anchor its meaning; the newest counts. -/
def name (b : Builder) (anchor : Option String) (m : Mark) (x : Anchored) : Builder :=
  match anchor with
  | none => b
  | some a => { b with anchors := (a, m, x) :: b.anchors }

def enter (b : Builder) (anchor : Option String) (tag : String) (kind : NodeKind) (m : Mark)
    (contents : Contents) : Except Error Builder := do
  b.checkAnchor m anchor
  let id := b.collections
  let b := b.name anchor m (.frame id tag kind)
  return { b with open' := ⟨id, anchor, tag, m, contents⟩ :: b.open', collections := id + 1 }

def leave (b : Builder) : Builder :=
  match b.open' with
  | [] => b
  | f :: fs =>
    let n : Node := match f.contents with
      | .items ns => .sequence f.id f.tag ns f.start
      | .entries es _ => .mapping f.id f.tag es f.start
    let b := { b with open' := fs }.name f.anchor f.start (.node n)
    let b := if f.id ∈ b.selfHolding then { b with knots := b.knots ++ [(f.id, n)] } else b
    b.place n

/-- The tag in full, given the tag that stands for none. -/
def tagOr (own : Option String) (usual : String) : String :=
  match own with
  | some t => if t == "!" then usual else t
  | none => usual

def add (b : Builder) (e : Event) : Except Error Builder :=
  match e.kind with
  | .alias a => match b.anchors.lookup a with
    | none => .error (.marked none ("found undefined alias " ++ a.quotedText) e.start)
    | some (_, .node n) => .ok ((b.noteOpen n).place n)
    | some (m, .frame id tag kind) =>
      let n := Node.enclosing id tag kind m
      .ok ((b.noteOpen n).place n)
  | .scalar anchor tag form text => do
    b.checkAnchor e.start anchor
    let usual := if form = .plain then Tag.ofPlain text.toList else Tag.str
    let n := Node.scalar (tagOr tag usual) text e.start
    return (b.name anchor e.start (.node n)).place n
  | .unpaired anchor tag us => do
    b.checkAnchor e.start anchor
    let n := Node.unpaired (tagOr tag Tag.str) us e.start
    return (b.name anchor e.start (.node n)).place n
  | .sequenceStart anchor tag => b.enter anchor (tagOr tag Tag.seq) .sequence e.start (.items [])
  | .mappingStart anchor tag =>
    b.enter anchor (tagOr tag Tag.map) .mapping e.start (.entries [] none)
  | .sequenceEnd | .mappingEnd => .ok b.leave
  | _ => .ok b

/-- Takes in the events of a document, up to its end. -/
def addAll (b : Builder) (fault : Option Error) :
    List Event → Except Error (Builder × List Event)
  | [] => match fault with
    | some e => .error e
    | none => .ok (b, [])
  | e :: es =>
    if e.kind = .documentEnd then .ok (b, es)
    else do
      let b ← b.add e
      b.addAll fault es

end Builder

/-- The document that the events build, if there is one; a second document is a fault. -/
def Document.ofEvents (s : EventStream) : Except Error (Option Document) :=
  match s.events, s.fault with
  | [], some e => .error e
  | [], none => .ok none
  | e :: es, fault =>
    if e.kind = .streamEnd then .ok none
    else do
      let (b, rest) ← Builder.start.addAll fault es
      let doc : Document := ⟨b.root.getD default, b.knots⟩
      match rest, fault with
      | [], some e => .error e
      | [], none => return some doc
      | e :: _, _ =>
        if e.kind = .streamEnd then return some doc
        else .error (.marked
          (some ("expected a single document in the stream", some doc.root.start))
          "but found another document" e.start)

end DocTree.Yaml
