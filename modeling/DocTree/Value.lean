import DocTree.Calendar
import DocTree.Number.Reading
import DocTree.Text.Raw

/-!
# Values

The untyped data that front matter, configuration files and callers hand in: scalars, lists,
mappings in the order of their entries, and sets. A string that holds halves of surrogate pairs is
`unpaired`. A container that holds itself is a `knot`; inside it, `again` stands for it where the
unfolding was cut.
-/

namespace DocTree
open Calendar

/-- The brackets a container is written in. -/
inductive Brackets
  | list
  | map
  deriving DecidableEq, Repr

/-- The mark left where a container would be written inside itself. -/
def Brackets.mark : Brackets → String
  | .list => "[...]"
  | .map => "\x7b...\x7d"

/-- Untyped data. -/
inductive Value
  | null
  | bool (b : Bool)
  | int (i : Int)
  | float (x : Float)
  | str (s : String)
  | unpaired (us : List Text.CodePoint)
  | bytes (bs : List UInt8)
  | date (d : Date)
  | datetime (t : DateTime)
  | list (xs : List Value)
  | tuple (xs : List Value)
  | map (entries : List (Value × Value))
  | set (xs : List Value)
  | knot (id : Nat) (v : Value)
  | again (id : Nat) (brackets : Brackets)
  deriving BEq, Repr, Inhabited

/-- What makes two mapping keys one. Numbers count by value, so `1`, `1.0` and `true` are one key. -/
inductive Key
  | null
  | int (i : Int)
  | float (bits : UInt64)
  | str (s : String)
  | unpaired (us : List Text.CodePoint)
  | bytes (bs : List UInt8)
  | date (d : Date)
  | unplaced (t : DateTime)
  | instant (micros : Int)
  deriving DecidableEq, Repr

namespace Number

/-- The whole number a floating-point number is equal to, if there is one. -/
def wholeOf? (x : Float) : Option Int :=
  match unpack x with
  | (_, .zero) => some 0
  | (neg, .finite d) =>
    let n? := if 0 ≤ d.q then some (d.m <<< d.q.toNat)
      else if d.m % (1 <<< (-d.q).toNat) == 0 then some (d.m >>> (-d.q).toNat) else none
    n?.map fun n => if neg then -(n : Int) else n
  | _ => none

end Number

namespace Value

/-- The key a scalar is; containers are none. -/
def key? : Value → Option Key
  | .null => some .null
  | .bool b => some (.int (if b then 1 else 0))
  | .int i => some (.int i)
  | .float x => some (((Number.wholeOf? x).map .int).getD (.float x.toBits))
  | .str s => some (.str s)
  | .unpaired us => some (.unpaired us)
  | .bytes bs => some (.bytes bs)
  | .date d => some (.date d)
  | .datetime t => some (if t.offset.isSome then .instant t.instant else .unplaced t)
  | _ => none

/-- The entries with `v` under the key `k`: in the place of an equal key, or at the end. -/
def insertEntry (k v : Value) : List (Value × Value) → List (Value × Value)
  | [] => [(k, v)]
  | (k', v') :: es =>
    if k'.key? == k.key? then (k', v) :: es else (k', v') :: insertEntry k v es

def lookup (k : Key) (es : List (Value × Value)) : Option Value :=
  (es.find? fun e => e.1.key? == some k).map (·.2)

/-- A text as a value. -/
def ofRaw : Text.Raw → Value
  | .text s => .str s
  | .unpaired us => .unpaired us

/-- The text that the value is, if it is one. -/
def raw? : Value → Option Text.Raw
  | .str s => some (.text s)
  | .unpaired us => some (.unpaired us)
  | _ => none

/-- What the value is, knots seen through. -/
def bare : Value → Value
  | .knot _ v => v.bare
  | v => v

/-- Whether the value counts as absent: null, false, zero, or something empty. -/
def isFalsy (v : Value) : Bool :=
  match v.bare with
  | .null => true
  | .bool b => !b
  | .int i => i == 0
  | .float x => x == 0
  | .str s => s.isEmpty
  | .bytes bs => bs.isEmpty
  | .list xs => xs.isEmpty
  | .tuple xs => xs.isEmpty
  | .map es => es.isEmpty
  | .set xs => xs.isEmpty
  | _ => false

def kindName : Value → String
  | .null => "NoneType"
  | .bool _ => "bool"
  | .int _ => "int"
  | .float _ => "float"
  | .str _ => "str"
  | .unpaired _ => "str"
  | .bytes _ => "bytes"
  | .date _ => "date"
  | .datetime _ => "datetime"
  | .list _ => "list"
  | .tuple _ => "tuple"
  | .map _ => "dict"
  | .set _ => "set"
  | .knot _ v => v.kindName
  | .again _ .list => "list"
  | .again _ .map => "dict"

def brackets : Value → Brackets
  | .map _ => .map
  | .again _ b => b
  | .knot _ v => v.brackets
  | _ => .list

/-- A whole number in decimal, unless it has more digits than may be written. -/
def intText? (i : Int) : Option String :=
  let s := Number.intText i
  if Number.digitLimit < (Nat.toDigits 10 i.natAbs).length then none else some s

mutual

/-- The value as it is written inside a container; `within` are the knots it stands in. -/
def expression? (within : List Nat) : Value → Option String
  | .null => some "None"
  | .bool b => some (if b then "True" else "False")
  | .int i => intText? i
  | .float x => some (Number.floatText x)
  | .str s => some s.quotedText
  | .unpaired us => some (.ofList (Text.quotedPoints us))
  | .bytes bs => some (.ofList (Text.quotedBytes bs))
  | .date d => some d.expression
  | .datetime t => some t.expression
  | .list xs => do
    let parts ← expressions? within xs
    return "[" ++ ", ".intercalate parts ++ "]"
  | .tuple xs => do
    let parts ← expressions? within xs
    return "(" ++ ", ".intercalate parts ++ (if parts.length == 1 then ",)" else ")")
  | .map es => do
    let parts ← entryExpressions? within es
    return "\x7b" ++ ", ".intercalate parts ++ "\x7d"
  | .set xs => do
    let parts ← expressions? within xs
    return if parts.isEmpty then "set()" else "\x7b" ++ ", ".intercalate parts ++ "\x7d"
  | .knot id v => if id ∈ within then some v.brackets.mark else expression? (id :: within) v
  | .again _ b => some b.mark

def expressions? (within : List Nat) : List Value → Option (List String)
  | [] => some []
  | v :: vs => do
    let s ← expression? within v
    let ss ← expressions? within vs
    return s :: ss

/-- The entries of a mapping as they are written. -/
def entryExpressions? (within : List Nat) : List (Value × Value) → Option (List String)
  | [] => some []
  | (k, v) :: es => do
    let s ← expression? within k
    let t ← expression? within v
    let ss ← entryExpressions? within es
    return (s ++ ": " ++ t) :: ss

end

/-- The value as text: a string as it is shown, a date or time in its plain form, all else as it is
written inside a container. None if a whole number in it is too long to be written. -/
def text? : Value → Option String
  | .str s => some s
  | .unpaired us => some (Text.shownText us)
  | .date d => some d.text
  | .datetime t => some t.text
  | v => v.expression? []

end Value
end DocTree
