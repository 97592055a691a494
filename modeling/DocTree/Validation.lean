import DocTree.ItemType
import DocTree.Text.Utf8
import DocTree.Value

/-!
# Validation

Checking untyped data against what a field asks for. All issues are reported, each with its place.
-/

namespace DocTree.Validation

/-- A step to a place in data: the name of a field, or the place in a list. -/
inductive Step
  | field (name : String)
  | index (i : Nat)
  deriving DecidableEq, Repr

inductive Kind
  | missing
  | noText
  | noUnicode
  | tooShort
  | noMatch
  | unclearBool
  | noBool
  | noList
  | noModel (name : String)
  | frozen
  | noType
  deriving DecidableEq, Repr

/-- Something wrong at a place; `input` is the value found there. -/
structure Issue where
  kind : Kind
  place : List Step
  input : Value
  deriving BEq, Repr

def Kind.name : Kind → String
  | .missing => "missing"
  | .noText => "string_type"
  | .noUnicode => "string_unicode"
  | .tooShort => "string_too_short"
  | .noMatch => "string_pattern_mismatch"
  | .unclearBool => "bool_parsing"
  | .noBool => "bool_type"
  | .noList => "list_type"
  | .noModel _ => "model_type"
  | .frozen => "frozen_field"
  | .noType => "enum"

/-- Words in quotes with commas between them, and a last one behind `or`. -/
def alternatives (words : List String) : String :=
  let quoted := words.map fun w => "'" ++ w ++ "'"
  match quoted.getLast? with
  | some last =>
    if quoted.length == 1 then last else ", ".intercalate quoted.dropLast ++ " or " ++ last
  | none => ""

def Kind.message : Kind → String
  | .missing => "Field required"
  | .noText => "Input should be a valid string"
  | .noUnicode => "Input should be a valid string, unable to parse raw data as a unicode string"
  | .tooShort => "String should have at least 1 character"
  | .noMatch => "String should match pattern '^(debug|info|warning|error)$'"
  | .unclearBool => "Input should be a valid boolean, unable to interpret input"
  | .noBool => "Input should be a valid boolean"
  | .noList => "Input should be a valid list"
  | .noModel name => "Input should be a valid dictionary or instance of " ++ name
  | .frozen => "Field is frozen"
  | .noType => "Input should be " ++ alternatives (ItemType.all.map ItemType.name)

/-- A checked value, or the issues with it. -/
abbrev Checked := Except (List Issue)

/-- One issue with the value itself. -/
def issue {α : Type} (k : Kind) (v : Value) : Checked α := .error [⟨k, [], v⟩]

/-- The same with its issues one step further in. -/
def within {α : Type} (s : Step) (x : Checked α) : Checked α :=
  x.mapError fun is => is.map fun i => { i with place := s :: i.place }

/-- Two checked values together, with the issues of both. -/
def both {α β γ : Type} (f : α → β → γ) (x : Checked α) (y : Checked β) : Checked γ :=
  match x, y with
  | .ok a, .ok b => .ok (f a b)
  | .ok _, .error js => .error js
  | .error is, .ok _ => .error is
  | .error is, .error js => .error (is ++ js)

/-- Checked values in a list, with the issues of all. -/
def all {α : Type} : List (Checked α) → Checked (List α)
  | [] => .ok []
  | x :: xs => both List.cons x (all xs)

/-- A text; bytes are read as one. One with halves of surrogate pairs is taken as it is shown. -/
def text (v : Value) : Checked String :=
  match v with
  | .str s => .ok s
  | .unpaired us => .ok (Text.shownText us)
  | .bytes bs => match Utf8.decode bs with
    | .ok s => .ok (.ofList s)
    | .error _ => issue .noUnicode v
  | _ => issue .noText v

/-- A text that is kept as it is, halves of surrogate pairs among the rest. -/
def raw (v : Value) : Checked Text.Raw :=
  match v with
  | .unpaired us => .ok (.unpaired us)
  | v => (text v).map .text

def yesWords : List String := ["1", "on", "t", "true", "y", "yes"]

def noWords : List String := ["0", "off", "f", "false", "n", "no"]

/-- A word for yes or no, in any case of ASCII letters. -/
def boolWord (s : String) : Option Bool :=
  let w := String.ofList (s.toList.map Char.toLower)
  if yesWords.contains w then some true else if noWords.contains w then some false else none

/-- Whether a whole number has 64 bits at most. -/
def isShort (i : Int) : Bool := -0x8000000000000000 ≤ i && i < 0x8000000000000000

/-- A text that is looked into, so it must be possible to encode it. -/
def encodedText (v : Value) : Checked String :=
  match v with
  | .unpaired _ => issue .noUnicode v
  | v => text v

/-- A truth value: one itself, the numbers zero and one, or a word for one. -/
def bool (v : Value) : Checked Bool :=
  let ofNumber := fun i : Int =>
    if i == 0 then .ok false
    else if i == 1 then .ok true
    else issue (if isShort i then .unclearBool else .noBool) v
  match v with
  | .bool b => .ok b
  | .int i => ofNumber i
  | .float x => match Number.wholeOf? x with
    | some i => ofNumber i
    | none => issue .noBool v
  | .str s => match boolWord s with
    | some b => .ok b
    | none => issue .unclearBool v
  | .unpaired _ => issue .noUnicode v
  | .bytes bs => match Utf8.decode bs with
    | .ok s => match boolWord (.ofList s) with
      | some b => .ok b
      | none => issue .unclearBool v
    | .error _ => issue .unclearBool v
  | _ => issue .noBool v

/-- The elements of a list, tuple or set. -/
def elements? (v : Value) : Option (List Value) :=
  match v.bare with
  | .list xs => some xs
  | .tuple xs => some xs
  | .set xs => some xs
  | _ => none

/-- A list whose elements are checked by `f`. -/
def list {α : Type} (f : Value → Checked α) (v : Value) : Checked (List α) :=
  match elements? v with
  | some xs => all (xs.mapIdx fun i x => within (.index i) (f x))
  | none => issue .noList v

/-- A field of a mapping that must be there. -/
def required {α : Type} (entries : List (Value × Value)) (name : String) (f : Value → Checked α) :
    Checked α :=
  within (.field name) <| match Value.lookup (.str name) entries with
    | some v => f v
    | none => issue .missing (.map entries)

/-- A field of a mapping with a default. -/
def optional {α : Type} (entries : List (Value × Value)) (name : String) (default : α)
    (f : Value → Checked α) : Checked α :=
  match Value.lookup (.str name) entries with
  | some v => within (.field name) (f v)
  | none => .ok default

/-! ## Reports -/

/-- A place with dots between its steps. -/
def placeText (p : List Step) : String :=
  ".".intercalate (p.map fun s => match s with
    | .field n => n
    | .index i => Number.natText i)

/-- The first characters of a text that have at most `n` bytes together. -/
def takeBytes (n : Nat) : List Char → List Char
  | [] => []
  | c :: cs => if c.utf8Size ≤ n then c :: takeBytes (n - c.utf8Size) cs else []

/-- A text of more than fifty bytes cut in the middle. -/
def shortened (s : String) : String :=
  if s.utf8ByteSize ≤ 50 then s
  else
    .ofList (takeBytes 25 s.toList) ++ "..." ++ .ofList (takeBytes 24 s.toList.reverse).reverse

/-- The value that was found, as it is shown with an issue. -/
def inputText (v : Value) : String :=
  match v.expression? [] with
  | some s => shortened s
  | none => "<unprintable " ++ v.kindName ++ " object>"

def Issue.text (i : Issue) : String :=
  placeText i.place ++ "\n  " ++ i.kind.message ++ " [type=" ++ i.kind.name ++ ", input_value="
    ++ inputText i.input ++ ", input_type=" ++ i.input.kindName ++ "]"

/-- The issues with the data for a model. -/
def report (model : String) (is : List Issue) : String :=
  Number.natText is.length ++ (if is.length == 1 then " validation error for " else
    " validation errors for ") ++ model ++ .join (is.map fun i => "\n" ++ i.text)

end DocTree.Validation
