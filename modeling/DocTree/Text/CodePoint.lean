import DocTree.Text.Quoted

/-!
# Code points

What an escape can stand for: a character, or half of a surrogate pair. A half is no character, and
a text that holds one cannot be encoded. Halves that stand side by side are not put together.
-/

namespace DocTree.Text

inductive CodePoint
  | char (c : Char)
  | half (n : Nat)
  deriving DecidableEq, Repr

namespace CodePoint

/-- The code point of a number below 0x110000. -/
def ofNat (n : Nat) : CodePoint :=
  if 0xd800 ≤ n && n < 0xe000 then .half n else .char (.ofNat n)

def char? : CodePoint → Option Char
  | .char c => some c
  | .half _ => none

/-- The character that is shown for a code point. -/
def shown (u : CodePoint) : Char := u.char?.getD '\ufffd'

/-- One code point inside quotes `q`. -/
def escape (q : Char) : CodePoint → List Char
  | .char c => escapeChar q c
  | .half n => '\\' :: 'u' :: hexDigits 4 n

end CodePoint

/-- The characters, if no half is among the code points. -/
def characters? (us : List CodePoint) : Option (List Char) := us.mapM CodePoint.char?

/-- The text that is shown for code points. -/
def shownText (us : List CodePoint) : String := .ofList (us.map CodePoint.shown)

/-- Code points between quotes. -/
def quotedPoints (us : List CodePoint) : List Char :=
  let q := quoteFor (us.map CodePoint.shown)
  q :: us.flatMap (CodePoint.escape q) ++ [q]

theorem characters?_map_char (s : List Char) : characters? (s.map .char) = some s := by
  induction s with
  | nil => rfl
  | cons c s ih =>
    rw [characters?] at ih ⊢
    simp [ih, CodePoint.char?]

end DocTree.Text
