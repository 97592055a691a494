import DocTree.Text.Base64
import DocTree.Text.Case
import DocTree.Value
import DocTree.Yaml.Node

/-!
# Scalars

The value of a scalar: its tag says how its text is read.
-/

namespace DocTree.Yaml.Scalar

/-- The text without underscores. -/
def dropGaps (s : List Char) : List Char := s.filter (· != '_')

/-- Parts in base sixty put together, the last one first. -/
def sixtieths (parts : List Int) : Int := parts.foldl (fun n d => n * 60 + d) 0

def bool (text : String) : Except ScalarFault Bool :=
  let s := text.lowerCase
  if ["yes", "true", "on"].contains s then .ok true
  else if ["no", "false", "off"].contains s then .ok false
  else .error (.bool s)

/-- A whole number in decimal, or in another base. -/
def intIn (base : Nat) (s : List Char) : Except ScalarFault Int :=
  (Number.readInt base s).mapError (.int base (.ofList s))

/-- A whole number without sign. A leading zero makes it octal. -/
def naturalPart (s : List Char) : Except ScalarFault Int :=
  match s with
  | [] => .error .empty
  | ['0'] => .ok 0
  | '0' :: 'b' :: ds => intIn 2 ds
  | '0' :: 'x' :: ds => intIn 16 ds
  | '0' :: _ => intIn 8 s
  | _ =>
    if s.contains ':' then sixtieths <$> (Text.splitAt ':' s).mapM (intIn 10)
    else intIn 10 s

def int (text : String) : Except ScalarFault Int :=
  match dropGaps text.toList with
  | '-' :: s => Int.neg <$> naturalPart s
  | '+' :: s => naturalPart s
  | s => naturalPart s

def floatOf (s : List Char) : Except ScalarFault Float :=
  match Number.readFloat? s with
  | some x => .ok x
  | none => .error (.float (.ofList s))

/-- Parts in base sixty added up, the last one first. -/
def addSixtieths (parts : List Float) : Float :=
  (parts.reverse.foldl (fun (sum, base) d => (sum + d * .ofNat base, base * 60))
    ((0 : Float), (1 : Nat))).1

/-- A floating-point number without sign. -/
def floatPart (s : List Char) : Except ScalarFault Float :=
  if s == ".inf".toList then .ok Number.infinity
  else if s == ".nan".toList then .ok Number.notANumber
  else if s.contains ':' then addSixtieths <$> (Text.splitAt ':' s).mapM floatOf
  else floatOf s

def float (text : String) : Except ScalarFault Float :=
  match Text.lower (dropGaps text.toList) with
  | [] => .error .empty
  | '-' :: s => (fun x => -1 * x) <$> floatPart s
  | '+' :: s => floatPart s
  | s => floatPart s

def timestamp (text : String) : Except ScalarFault Value :=
  match Timestamp.parse? (Tag.dropLineEnd text.toList) with
  | none => .error .notTimestamp
  | some t => match t.resolve with
    | .error f => .error (.calendar f)
    | .ok (.inl d) => .ok (.date d)
    | .ok (.inr t) => .ok (.datetime t)

/-- The characters in front of the first one beyond ASCII, and the run of those that starts there. -/
def beyondAscii (s : List Char) : Nat × List Char :=
  let isAscii := fun c : Char => c.toNat < 0x80
  ((s.takeWhile isAscii).length, (s.dropWhile isAscii).takeWhile (!isAscii ·))

def binary (text : String) (start : Mark) : Except Error (List UInt8) :=
  let refuse := fun s => Except.error (.marked none s start)
  let ascii := fun what => refuse
    ("failed to convert base64 data into ascii: 'ascii' codec can't encode " ++ what
      ++ ": ordinal not in range(128)")
  match beyondAscii text.toList with
  | (_, []) => match Base64.decode text.toList with
    | .ok bs => .ok bs
    | .error f => refuse ("failed to decode base64 data: " ++ f.message)
  | (n, [c]) =>
    let code := if c.toNat < 0x100 then 'x' :: Text.hexDigits 2 c.toNat
      else if c.toNat < 0x10000 then 'u' :: Text.hexDigits 4 c.toNat
      else 'U' :: Text.hexDigits 8 c.toNat
    ascii ("character '\\" ++ .ofList code ++ "' in position " ++ Number.natText n)
  | (n, run) => ascii ("characters in position " ++ Number.natText n ++ "-"
      ++ Number.natText (n + run.length - 1))

/-- How the common tags of scalars read a text; none for another tag. `isText` tells that the text is
the node's own. -/
def reader? (tag : String) (isText : Bool) (start : Mark) :
    Option (String → Except Error Value) :=
  let plain := fun {α : Type} (f : α → Value) (r : Except ScalarFault α) =>
    (r.mapError Error.scalar).map f
  if tag == Tag.str then some fun s => .ok (.str s)
  else if tag == Tag.core "null" then some fun _ => .ok .null
  else if tag == Tag.core "bool" then some fun s => plain .bool (bool s)
  else if tag == Tag.core "int" then some fun s => plain .int (int s)
  else if tag == Tag.core "float" then some fun s => plain .float (float s)
  else if tag == Tag.core "binary" then some fun s => (binary s start).map .bytes
  else if tag == Tag.core "timestamp" then
    some fun s => if isText then plain id (timestamp s) else .error (.scalar .notText)
  else none

end DocTree.Yaml.Scalar
