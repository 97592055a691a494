import DocTree.Yaml.Merge
import DocTree.Yaml.Scalar

/-!
# Loading

The value of a YAML text. Of several faults in the values of a document the one told is the first in
the order of rounds: the scalars in a collection are read with it, the collections in it one round
later.
-/

namespace DocTree.Yaml

/-- The kinds of collection by their tags. -/
inductive Collection
  | list
  | map
  | set
  | ordered
  | pairs
  deriving DecidableEq, Repr

/-- The kind of collection a tag asks for. -/
def Collection.ofTag? (tag : String) : Option Collection :=
  if tag == Tag.seq then some .list
  else if tag == Tag.map then some .map
  else if tag == Tag.core "set" then some .set
  else if tag == Tag.core "omap" then some .ordered
  else if tag == Tag.core "pairs" then some .pairs
  else none

namespace Node

/-- A node of another kind than its tag asks for. -/
def wrongKind {α : Type} (expected : String) (n : Node) : Except Error α :=
  .error (.marked none ("expected a " ++ expected ++ " node, but found " ++ n.kind.name) n.start)

mutual

/-- The text of a scalar, or of the scalar that a mapping may stand for. -/
def text : Node → Except Error String
  | .scalar _ s _ => .ok s
  | .unpaired _ us _ => .ok (Text.shownText us)
  | .mapping id t es m => textAmong (.mapping id t es m) es
  | n => wrongKind "scalar" n

/-- The text under the value key among the entries of `n`. -/
def textAmong (n : Node) : List (Node × Node) → Except Error String
  | [] => wrongKind "scalar" n
  | (k, v) :: es => if k.tag == Tag.value then v.text else textAmong n es

end

mutual

/-- The code points that the text of the node is shown for, if there are halves among them. -/
def halves? : Node → Option (List Text.CodePoint)
  | .unpaired _ us _ => some us
  | .mapping _ _ es _ => halvesAmong? es
  | _ => none

def halvesAmong? : List (Node × Node) → Option (List Text.CodePoint)
  | [] => none
  | (k, v) :: es => if k.tag == Tag.value then v.halves? else halvesAmong? es

end

/-- The value that was read of the text of the node, with the halves that its text is shown for. -/
def withHalves (n : Node) (v : Value) : Value :=
  match n.halves? with
  | none => v
  | some us => match v with
    | .str _ => .unpaired us
    | v => v

/-- The value of a node with a scalar's tag; none if its tag is that of a collection. -/
def scalar? (n : Node) : Except Error (Option Value) :=
  match Scalar.reader? n.tag (n.kind = .scalar) n.start with
  | some read => do
    let s ← n.text
    (some ∘ n.withHalves) <$> read s
  | none =>
    if (Collection.ofTag? n.tag).isSome then .ok none
    else .error (.marked none
      ("could not determine a constructor for the tag " ++ n.tag.quotedText) n.start)

/-- A key that is a collection. -/
def unhashable {α : Type} (start : Mark) (key : Node) : Except Error α :=
  .error (.marked (some ("while constructing a mapping", some start)) "found unhashable key" key.start)

/-- What a list of pairs is called in messages. -/
def Collection.context : Collection → String
  | .ordered => "while constructing an ordered map"
  | _ => "while constructing pairs"

/-- The only entry of an item in a list of pairs. -/
def soleEntry (c : Collection) (start : Mark) (n : Node) : Except Error (Node × Node) :=
  let refuse := fun s => Except.error (.marked (some (Collection.context c, some start)) s n.start)
  match n with
  | .mapping _ _ [e] _ => .ok e
  | .mapping _ _ es _ => refuse
      ("expected a single mapping item, but found " ++ Number.natText es.length ++ " items")
  | n => refuse ("expected a mapping of length 1, but found " ++ n.kind.name)

/-- A list of pairs that is no list. -/
def noPairs {α : Type} (c : Collection) (n : Node) : Except Error α :=
  .error (.marked (some (Collection.context c, some n.start))
    ("expected a sequence, but found " ++ n.kind.name) n.start)

/-! ## The order of faults -/

/-- The scalars among the nodes are read; the collections are left. -/
def readScalars : List Node → Except Error (List Node)
  | [] => .ok []
  | n :: ns => do
    let v ← n.scalar?
    let rest ← readScalars ns
    return if v.isNone then n :: rest else rest

/-- The same for the entries of a mapping, whose keys must be scalars. -/
def readEntries (start : Mark) : List (Node × Node) → Except Error (List Node)
  | [] => .ok []
  | (k, v) :: es => do
    if (← k.scalar?).isNone then unhashable start k
    let c ← v.scalar?
    let rest ← readEntries start es
    return if c.isNone then v :: rest else rest

/-- The same for the items of a list of pairs. -/
def readPairs (c : Collection) (start : Mark) : List Node → Except Error (List Node)
  | [] => .ok []
  | n :: ns => do
    let (k, v) ← soleEntry c start n
    let here ← readScalars [k, v]
    let rest ← readPairs c start ns
    return here ++ rest

/-- What is in a collection is read; the collections in it are left. -/
def readContents (knots : Knots) (n : Node) : Except Error (List Node) :=
  match Collection.ofTag? n.tag with
  | none => .ok []
  | some .list => match n with
    | .sequence _ _ items _ => readScalars items
    | n => wrongKind "sequence" n
  | some .map | some .set => match n with
    | .mapping id t es m => do
      let es ← entriesOf knots (knots.map (·.1)) (.mapping id t es m)
      readEntries m es
    | n => wrongKind "mapping" n
  | some c => match n with
    | .sequence _ _ items m => readPairs c m items
    | n => noPairs c n

/-- The first fault in reading the nodes round by round. `done` holds the numbers of the collections
already read. -/
def faultIn (knots : Knots) : (rounds : Nat) → (done : List Nat) → List Node → Except Error Unit
  | 0, _, _ => .ok ()
  | rounds + 1, done, ns => do
    if ns.isEmpty then return
    let step := fun (acc : List Nat × List Node) n => do
      let (id?, n) := match n with
        | .sequence id .. => (some id, n)
        | .mapping id .. => (some id, n)
        | .enclosing id .. => (some id, (knots.lookup id).getD n)
        | n => (none, n)
      let seen := match id? with
        | some id => acc.1.contains id
        | none => false
      if seen then return acc
      else
        let next ← readContents knots n
        return (id?.toList ++ acc.1, acc.2 ++ next)
    let (done, next) ← ns.foldlM step (done, [])
    faultIn knots rounds done next

mutual

def count : Node → Nat
  | .scalar .. => 1
  | .unpaired .. => 1
  | .sequence _ _ items _ => 1 + countAll items
  | .mapping _ _ es _ => 1 + countEntries es
  | .enclosing .. => 1

def countAll : List Node → Nat
  | [] => 0
  | n :: ns => n.count + countAll ns

def countEntries : List (Node × Node) → Nat
  | [] => 0
  | (k, v) :: es => k.count + v.count + countEntries es

end
end Node

/-! ## Values -/

namespace Node

/-- The entries of a mapping put together: of equal keys the first is kept with the last value. -/
def mappingOf (es : List (Value × Value)) : List (Value × Value) :=
  es.foldl (fun acc e => Value.insertEntry e.1 e.2 acc) []

def bracketsOf (n : Node) : Brackets := if n.tag == Tag.map then .map else .list

/-- The value of a node. `free` holds the numbers of the self-holding collections, as often as each
may still be unfolded; `depth` bounds the nesting. -/
def value (knots : Knots) : (depth : Nat) → (free : List Nat) → Node → Except Error Value
  | 0, _, _ => .ok .null
  | depth + 1, free, n => do
    match ← n.scalar? with
    | some v => return v
    | none =>
      match n with
      | .enclosing id .. =>
        if id ∈ free then
          match knots.lookup id with
          | some n => .knot id <$> inside depth (free.erase id) n
          | none => return .again id (bracketsOf n)
        else return .again id (bracketsOf n)
      | .sequence id .. | .mapping id .. =>
        if (knots.lookup id).isNone then inside depth free n
        else if id ∈ free then .knot id <$> inside depth (free.erase id) n
        else return .again id (bracketsOf n)
      | n => inside depth free n
where
  inside (depth : Nat) (free : List Nat) (n : Node) : Except Error Value := do
    let pair := fun (e : Node × Node) => do
      return (← value knots depth free e.1, ← value knots depth free e.2)
    match Collection.ofTag? n.tag with
    | none => return .null
    | some .list => match n with
      | .sequence _ _ items _ => .list <$> items.mapM (value knots depth free)
      | n => wrongKind "sequence" n
    | some .map => do
      return .map (mappingOf (← (← mapEntries n).mapM pair))
    | some .set => do
      return .set ((mappingOf (← (← mapEntries n).mapM pair)).map (·.1))
    | some c => match n with
      | .sequence _ _ items m => do
        let es ← items.mapM (soleEntry c m)
        return .list (← es.mapM fun e => do
          let (k, v) ← pair e
          return .tuple [k, v])
      | n => noPairs c n
  mapEntries (n : Node) : Except Error (List (Node × Node)) :=
    match n with
    | .mapping _ _ _ m => do
      let es ← entriesOf knots (knots.map (·.1)) n
      for e in es do
        if (← e.1.scalar?).isNone then unhashable m e.1
      return es
    | n => wrongKind "mapping" n

end Node

namespace Document

/-- The first fault in the values of the document, in the order of rounds. -/
def firstFault (d : Document) : Option Error :=
  let rounds := d.root.count + Node.countAll (d.knots.map (·.2)) + 1
  let r := do
    let first ← Node.readScalars [d.root]
    Node.faultIn d.knots rounds [] first
  match r with
  | .error e => some e
  | .ok () => none

def value (d : Document) : Except Error Value :=
  let ids := d.knots.map (·.1)
  let size := d.root.count + Node.countAll (d.knots.map (·.2)) + 1
  match d.root.value d.knots ((2 * ids.length + 1) * size) (ids ++ ids) with
  | .ok v => .ok v
  | .error e => .error (d.firstFault.getD e)

end Document

/-- Whether a character may stand in a YAML text. -/
def isAllowed (c : Char) : Bool :=
  let n := c.toNat
  c == '\t' || c == '\n' || c == '\r' || (0x20 ≤ n && n ≤ 0x7e) || n == 0x85
    || (0xa0 ≤ n && n ≤ 0xd7ff) || (0xe000 ≤ n && n ≤ 0xfffd) || 0x10000 ≤ n

/-- The value of a YAML text; an empty text has none. -/
def load (s : List Char) : Except Error Value := do
  match s.findIdx? (!isAllowed ·) with
  | some i => throw (.unprintable (s.getD i ' ') i)
  | none => pure ()
  match ← Document.ofEvents (.ofTokens (.ofText s)) with
  | none => return .null
  | some d => d.value

end DocTree.Yaml
