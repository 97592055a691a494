import DocTree.Text.Printable

/-!
# Quoted text

A text between quotes, as messages show it. Single quotes are used unless the text holds single
quotes and no double ones; what is not printable is escaped.
-/

namespace DocTree.Text

def hexDigit (n : Nat) : Char :=
  if n < 10 then .ofNat ('0'.toNat + n) else .ofNat ('a'.toNat + (n - 10))

/-- The last `width` hexadecimal digits of a number. -/
def hexDigits : (width : Nat) → Nat → List Char
  | 0, _ => []
  | k + 1, n => hexDigits k (n / 16) ++ [hexDigit (n % 16)]

def quoteFor (s : List Char) : Char :=
  if '\'' ∈ s ∧ '"' ∉ s then '"' else '\''

/-- One character inside quotes `q`. -/
def escapeChar (q c : Char) : List Char :=
  if c = q ∨ c = '\\' then ['\\', c]
  else if c = '\n' then ['\\', 'n']
  else if c = '\r' then ['\\', 'r']
  else if c = '\t' then ['\\', 't']
  else if isPrintable c then [c]
  else if c.toNat < 0x100 then '\\' :: 'x' :: hexDigits 2 c.toNat
  else if c.toNat < 0x10000 then '\\' :: 'u' :: hexDigits 4 c.toNat
  else '\\' :: 'U' :: hexDigits 8 c.toNat

/-- The text between quotes. -/
def quoted (s : List Char) : List Char :=
  let q := quoteFor s
  q :: s.flatMap (escapeChar q) ++ [q]

/-- One byte inside quotes `q`. -/
def escapeByte (q : Char) (b : UInt8) : List Char :=
  if b < 0x80 then escapeChar q (.ofNat b.toNat) else '\\' :: 'x' :: hexDigits 2 b.toNat

/-- Bytes between quotes, marked by a leading `b`. -/
def quotedBytes (bs : List UInt8) : List Char :=
  let q := quoteFor (bs.map fun b => .ofNat b.toNat)
  'b' :: q :: bs.flatMap (escapeByte q) ++ [q]

def hexOfBytes (bs : List UInt8) : List Char :=
  bs.flatMap fun b => hexDigits 2 b.toNat

end DocTree.Text

namespace String

def quotedText (s : String) : String :=
  .ofList (DocTree.Text.quoted s.toList)

end String
