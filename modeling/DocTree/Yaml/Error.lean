import DocTree.Calendar
import DocTree.Number.Reading
import DocTree.Text.Quoted

/-!
# Faults of a YAML text

Where a text is not YAML, or a scalar is not what its tag says. A fault of form is told with marks:
line, column, and a cut of the line with a caret below the place.
-/

namespace DocTree.Yaml

structure Mark where
  index : Nat
  line : Nat
  column : Nat
  deriving DecidableEq, Repr, Inhabited

/-- A scalar that its tag does not fit. -/
inductive ScalarFault
  | calendar (f : Calendar.Fault)
  | int (base : Nat) (text : String) (f : Number.IntFault)
  | float (text : String)
  | bool (text : String)
  | notTimestamp
  | notText
  | empty
  | charTooLarge
  | charOverflow
  deriving DecidableEq, Repr

/-- Whether one who reads many texts goes on after the fault. A fault of the value does not stop the
others; a scalar that its tag can make nothing of at all does. -/
def ScalarFault.isPassedOver : ScalarFault → Bool
  | .calendar _ => true
  | .int .. => true
  | .float _ => true
  | .charTooLarge => true
  | .bool _ => false
  | .notTimestamp => false
  | .notText => false
  | .empty => false
  | .charOverflow => false

/-- Why a text cannot be loaded. -/
inductive Error
  | unprintable (c : Char) (position : Nat)
  | marked (context : Option (String × Option Mark)) (problem : String) (mark : Mark)
  | scalar (f : ScalarFault)
  deriving DecidableEq, Repr

def isBreak (c : Char) : Bool :=
  c == '\n' || c == '\r' || c == '\x85' || c == '\u2028' || c == '\u2029'

/-- Up to `most` characters from the front that end no line, and whether there were more. -/
def lineReach (most : Nat) (s : List Char) : List Char × Bool :=
  let line := s.takeWhile fun c => !isBreak c && c != '\x00'
  (line.take most, most < line.length)

/-- The line around a place: at most 37 characters to each side, the caret below. A side that is
longer loses five of them to an ellipsis. -/
def snippet (text : List Char) (m : Mark) : String :=
  let (back, longer) := lineReach 36 (text.take m.index).reverse
  let before := if longer then " ... ".toList ++ (back.take 32).reverse else back.reverse
  let (ahead, longer) := lineReach 36 (text.drop m.index)
  let after := if longer then ahead.take 32 ++ " ... ".toList else ahead
  "    " ++ .ofList before ++ .ofList after ++ "\n" ++ "    "
    ++ .ofList (List.replicate before.length ' ') ++ "^"

/-- The place with its line. -/
def Mark.text (source : List Char) (m : Mark) : String :=
  "  in \"<unicode string>\", line " ++ Number.natText (m.line + 1) ++ ", column "
    ++ Number.natText (m.column + 1) ++ ":\n" ++ snippet source m

/-- What is wrong with a whole number; of a long text only the beginning is shown. -/
def intMessage (base : Nat) (text : String) : Number.IntFault → String
  | .malformed => "invalid literal for int() with base " ++ Number.natText base ++ ": "
      ++ .ofList ((Text.quoted text.toList).take 200)
  | .tooLong n => "Exceeds the limit (4300 digits) for integer string conversion: value has "
      ++ Number.natText n ++ " digits; use sys.set_int_max_str_digits() to increase the limit"

def ScalarFault.message : ScalarFault → String
  | .calendar f => f.message
  | .int base text f => intMessage base text f
  | .float text => "could not convert string to float: " ++ text.quotedText
  | .bool text => text.quotedText
  | .notTimestamp => "'NoneType' object has no attribute 'groupdict'"
  | .notText => "expected string or bytes-like object, got 'list'"
  | .empty => "string index out of range"
  | .charTooLarge => "chr() arg not in range(0x110000)"
  | .charOverflow => "Python int too large to convert to C int"

/-- What is wrong with the text. A context's place is left out where it is that of the problem. -/
def Error.message (source : List Char) : Error → String
  | .unprintable c position =>
    "unacceptable character #x"
      ++ .ofList (Text.hexDigits 4 c.toNat)
      ++ ": special characters are not allowed\n  in \"<unicode string>\", position "
      ++ Number.natText position
  | .marked context problem mark =>
    let head := match context with
      | none => []
      | some (c, none) => [c]
      | some (c, some m) =>
        if m.line == mark.line && m.column == mark.column then [c] else [c, m.text source]
    "\n".intercalate (head ++ [problem, mark.text source])
  | .scalar f => f.message

end DocTree.Yaml
