import DocTree.Number.Shortest
import DocTree.Text.CodePoint

/-!
# Texts with halves

Data gives texts that may hold halves of surrogate pairs. They are kept as they are, but no encoding
has anything for a half. In names of files some of them stand for bytes that are no text.
-/

namespace DocTree.Text

/-- A text as data gives it: of characters, or of code points with halves among them. -/
inductive Raw
  | text (s : String)
  | unpaired (us : List CodePoint)
  deriving DecidableEq, Repr

instance : Inhabited Raw := ⟨.text ""⟩

instance : Coe String Raw := ⟨.text⟩

/-- A code point where what cannot be encoded is escaped. -/
def CodePoint.spelled : CodePoint → List Char
  | .char c => [c]
  | .half n => '\\' :: 'u' :: hexDigits 4 n

def pointsOf (s : String) : List CodePoint := s.toList.map .char

namespace Raw

/-- The text that is shown. -/
def shown : Raw → String
  | .text s => s
  | .unpaired us => shownText us

def points : Raw → List CodePoint
  | .text s => pointsOf s
  | .unpaired us => us

/-- The text with its halves escaped. -/
def escaped (t : Raw) : String := .ofList (t.points.flatMap CodePoint.spelled)

/-- Whether the text is empty. One with halves is not. -/
def isEmpty : Raw → Bool
  | .text s => s.isEmpty
  | .unpaired _ => false

/-- The text, if there are no halves in it. -/
def text? : Raw → Option String
  | .text s => some s
  | .unpaired _ => none

/-- The text with another one in front of it and one behind it. -/
def between (before after : String) : Raw → Raw
  | .text s => .text (before ++ s ++ after)
  | .unpaired us => .unpaired (pointsOf before ++ us ++ pointsOf after)

/-- The texts with `sep` between them. -/
def join (sep : String) (ts : List Raw) : Raw :=
  match ts.mapM text? with
  | some ss => .text (sep.intercalate ss)
  | none => .unpaired ((pointsOf sep).intercalate (ts.map points))

end Raw

/-! ## Encoding -/

/-- Halves in a row that cannot be encoded, and where they stand. -/
structure Unencodable where
  position : Nat
  halves : List Nat
  deriving DecidableEq, Repr

def Unencodable.message (f : Unencodable) : String :=
  let place := match f.halves with
    | [n] => "character '\\u" ++ .ofList (hexDigits 4 n) ++ "' in position "
        ++ Number.natText f.position
    | ns => "characters in position " ++ Number.natText f.position ++ "-"
        ++ Number.natText (f.position + ns.length - 1)
  "'utf-8' codec can't encode " ++ place ++ ": surrogates not allowed"

/-- The halves that code points begin with. -/
def leadingHalves : List CodePoint → List Nat
  | .half n :: us => n :: leadingHalves us
  | _ => []

/-- The first halves that cannot be encoded, if the code points begin at `position`. A row of them
begins with one that `isFree` does not accept. -/
def unencodable? (isFree : Nat → Bool) (position : Nat) : List CodePoint → Option Unencodable
  | [] => none
  | .char _ :: us => unencodable? isFree (position + 1) us
  | .half n :: us =>
    if isFree n then unencodable? isFree (position + 1) us
    else some ⟨position, n :: leadingHalves us⟩

/-- Whether a half stands for a byte in the name of a file. -/
def isByte (n : Nat) : Bool := 0xdc80 ≤ n && n ≤ 0xdcff

/-- The bytes of a name, its halves being bytes. -/
def bytesOf (us : List CodePoint) : List UInt8 :=
  us.flatMap fun u => match u with
    | .char c => String.utf8EncodeChar c
    | .half n => [.ofNat n]

end DocTree.Text
