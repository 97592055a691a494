import DocTree.Text.Blank
import DocTree.Text.Digit

/-!
# Reading numbers

Whole numbers in a base and decimal fractions, as they are written in texts. White space around a
number is passed over, single underscores may separate digits, and digits may be of any script.
-/

namespace DocTree.Number

/-- The value of a digit, letters standing for ten and more. -/
def digitValue? (c : Char) : Option Nat :=
  if '0' ≤ c && c ≤ '9' then some (c.toNat - '0'.toNat)
  else if 'a' ≤ c && c ≤ 'z' then some (c.toNat - 'a'.toNat + 10)
  else if 'A' ≤ c && c ≤ 'Z' then some (c.toNat - 'A'.toNat + 10)
  else none

/-- The digits of `base` that make up all of a text; an underscore may stand between two. -/
def digitsOf? (base : Nat) : List Char → Option (List Nat)
  | [] => none
  | [c] => do
    let d ← digitValue? c
    if d < base then some [d] else none
  | c :: '_' :: cs => do
    let d ← digitValue? c
    if d < base then (d :: ·) <$> digitsOf? base cs else none
  | c :: cs => do
    let d ← digitValue? c
    if d < base then (d :: ·) <$> digitsOf? base cs else none

def ofDigits (base : Nat) (ds : List Nat) : Nat := ds.foldl (fun n d => n * base + d) 0

/-- A sign, if there is one, and the rest. -/
def splitSign : List Char → Bool × List Char
  | '-' :: cs => (true, cs)
  | '+' :: cs => (false, cs)
  | cs => (false, cs)

/-- The letter that may stand after a zero in front of a number of that base. -/
def baseLetter : Nat → Option Char
  | 2 => some 'b'
  | 8 => some 'o'
  | 16 => some 'x'
  | _ => none

/-- The digits behind a base mark such as `0x`. -/
def dropBaseMark (base : Nat) (s : List Char) : List Char :=
  match s with
  | '0' :: c :: rest =>
    if some c.toLower = baseLetter base then
      match rest with
      | '_' :: rest => rest
      | rest => rest
    else s
  | s => s

/-- How many decimal digits a whole number may have when it is read or written. -/
def digitLimit : Nat := 4300

/-- Why a text is no whole number. -/
inductive IntFault
  | tooLong (digits : Nat)
  | malformed
  deriving DecidableEq, Repr

/-- The whole number a text stands for. -/
def readInt (base : Nat) (s : List Char) : Except IntFault Int :=
  let (neg, ds) := splitSign ((Text.trim s).map Text.plainDigit)
  match digitsOf? base (dropBaseMark base ds) with
  | none => .error .malformed
  | some ds =>
    if base == 10 && digitLimit < ds.length then .error (.tooLong ds.length)
    else .ok (if neg then -(ofDigits base ds : Int) else ofDigits base ds)

/-- Digits before and after a decimal point, and the exponent of ten. -/
structure Fraction where
  digits : List Nat
  exponent : Int

/-- The nearest floating-point number. Exponents so large that the result is infinite, or so small
that it is zero, are cut off first. -/
def Fraction.toFloat (x : Fraction) : Float :=
  let m := ofDigits 10 x.digits
  if m == 0 then 0
  else
    let size : Int := (Nat.toDigits 10 m).length + x.exponent
    if 400 < size then Float.ofScientific 1 false 400
    else if size < -400 then 0
    else Float.ofScientific m (x.exponent < 0) x.exponent.natAbs

/-- Digits that may be absent. -/
def optionalDigits? (s : List Char) : Option (List Nat) :=
  if s.isEmpty then some [] else digitsOf? 10 s

/-- The exponent after its letter. -/
def exponent? (s : List Char) : Option Int :=
  let (neg, ds) := splitSign s
  (digitsOf? 10 ds).map fun ds => if neg then -(ofDigits 10 ds : Int) else ofDigits 10 ds

/-- A decimal fraction without sign. -/
def fraction? (s : List Char) : Option Fraction := do
  let isE := fun c : Char => c == 'e' || c == 'E'
  let mantissa := s.takeWhile (!isE ·)
  let e ← match s.dropWhile (!isE ·) with
    | [] => some 0
    | _ :: rest => exponent? rest
  let whole ← optionalDigits? (mantissa.takeWhile (· != '.'))
  let part ← optionalDigits? ((mantissa.dropWhile (· != '.')).drop 1)
  if whole.isEmpty && part.isEmpty then none
  else some ⟨whole ++ part, e - part.length⟩

def infinity : Float := 1.0 / 0.0

def notANumber : Float := 0.0 / 0.0

/-- The floating-point number a text stands for. -/
def readFloat? (s : List Char) : Option Float :=
  let (neg, ds) := splitSign ((Text.trim s).map Text.plainDigit)
  let x : Option Float := match String.ofList (ds.map Char.toLower) with
    | "inf" | "infinity" => some infinity
    | "nan" => some notANumber
    | _ => (fraction? ds).map Fraction.toFloat
  x.map fun x => if neg then -x else x

end DocTree.Number
