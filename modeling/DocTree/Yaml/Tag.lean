import DocTree.Text.Search
import DocTree.Yaml.Timestamp

/-!
# Tags

The kinds of node, and the kind that a plain scalar has by its text.
-/

namespace DocTree.Yaml.Tag

/-- A tag of the common kinds. -/
def core (name : String) : String := "tag:yaml.org,2002:" ++ name

def str : String := core "str"

def seq : String := core "seq"

def map : String := core "map"

/-- The key under which other mappings are merged into one. -/
def merge : String := core "merge"

/-- The key under which a mapping has the scalar that it may stand for. -/
def value : String := core "value"

/-- Whether all of `s` is in `p`, the first character in `first`. -/
def isWord (first p : Char → Bool) : List Char → Bool
  | [] => false
  | c :: cs => first c && cs.all p

def isDigitOrGap (c : Char) : Bool := c.isDigit || c == '_'

def isLeadingDigit (c : Char) : Bool := c.isDigit && c != '0'

/-- The text without a sign in front. -/
def unsigned : List Char → List Char
  | c :: cs => if c == '-' || c == '+' then cs else c :: cs
  | [] => []

/-- A part of a number in base sixty. -/
def isSixtieth : List Char → Bool
  | [a] => a.isDigit
  | [a, b] => '0' ≤ a && a ≤ '5' && b.isDigit
  | _ => false

/-- A number in base sixty, whose first part begins with a character in `first`. -/
def isSexagesimal (first : Char → Bool) (s : List Char) : Bool :=
  match Text.splitAt ':' s with
  | p :: q :: rest => isWord first isDigitOrGap p && (q :: rest).all isSixtieth
  | _ => false

def isBool (s : List Char) : Bool :=
  ["yes", "Yes", "YES", "no", "No", "NO", "true", "True", "TRUE", "false", "False", "FALSE", "on",
    "On", "ON", "off", "Off", "OFF"].contains (String.ofList s)

/-- Nothing, or a word for it. -/
def isNull (s : List Char) : Bool :=
  ["~", "null", "Null", "NULL", ""].contains (String.ofList s)

def isInt (s : List Char) : Bool :=
  let s := unsigned s
  match s with
  | ['0'] => true
  | '0' :: 'b' :: ds => !ds.isEmpty && ds.all fun c => c == '0' || c == '1' || c == '_'
  | '0' :: 'x' :: ds => !ds.isEmpty && ds.all fun c =>
      isDigitOrGap c || ('a' ≤ c && c ≤ 'f') || ('A' ≤ c && c ≤ 'F')
  | '0' :: ds => ds.all fun c => ('0' ≤ c && c ≤ '7') || c == '_'
  | s => isWord isLeadingDigit isDigitOrGap s || isSexagesimal isLeadingDigit s

/-- Nothing, or an exponent of ten with its sign. -/
def isExponent : List Char → Bool
  | [] => true
  | e :: sign :: ds =>
    (e == 'e' || e == 'E') && (sign == '-' || sign == '+') && !ds.isEmpty && ds.all Char.isDigit
  | _ => false

def isFloat (s : List Char) : Bool :=
  let u := unsigned s
  let whole := u.takeWhile (· != '.')
  let part := (u.dropWhile (· != '.')).drop 1
  if !u.contains '.' then false
  else if whole.isEmpty then
    ["inf", "Inf", "INF"].contains (String.ofList part)
      || (u == s && (["nan", "NaN", "NAN"].contains (String.ofList part)
        || (isWord Char.isDigit (fun _ => true) part && isExponent (part.dropWhile isDigitOrGap))))
  else if whole.contains ':' then isSexagesimal Char.isDigit whole && part.all isDigitOrGap
  else isWord Char.isDigit isDigitOrGap whole && isExponent (part.dropWhile isDigitOrGap)

/-- A date with two digits for month and day, or a date with a time. -/
def isTimestamp (s : List Char) : Bool :=
  match Timestamp.parse? s with
  | some t => t.full || t.time.isSome
  | none => false

/-- The text without a line end behind it. -/
def dropLineEnd (s : List Char) : List Char :=
  if s.getLast? == some '\n' then s.dropLast else s

/-- The tag of a plain scalar. A single line end behind the text does not count, but a text that is
only a line end is no empty text. -/
def ofPlain (text : List Char) : String :=
  if text == ['\n'] then str
  else
    let s := dropLineEnd text
    if isBool s then core "bool"
    else if isFloat s then core "float"
    else if isInt s then core "int"
    else if s == ['<', '<'] then merge
    else if isNull s then core "null"
    else if isTimestamp s then core "timestamp"
    else if s == ['='] then value
    else if s == ['!'] || s == ['&'] || s == ['*'] then core "yaml"
    else str

end DocTree.Yaml.Tag
