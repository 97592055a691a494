import DocTree.Number.Shortest
import DocTree.Text.Quoted

/-!
# Reading UTF-8

Decoding bytes into characters. What cannot be decoded is reported with its position, its bytes and
the reason; line ends are brought to one form afterwards.
-/

namespace DocTree.Utf8

/-- Why bytes are no character. -/
inductive Reason
  | badStart
  | badContinuation
  | truncated
  deriving DecidableEq, Repr

/-- Bytes that cannot be decoded, and where they stand. -/
structure Fault where
  position : Nat
  bytes : List UInt8
  reason : Reason
  deriving DecidableEq, Repr

def Fault.message (f : Fault) : String :=
  let place := match f.bytes with
    | [b] => "byte 0x" ++ .ofList (Text.hexDigits 2 b.toNat) ++ " in position "
        ++ Number.natText f.position
    | bs => "bytes in position " ++ Number.natText f.position ++ "-"
        ++ Number.natText (f.position + bs.length - 1)
  "'utf-8' codec can't decode " ++ place ++ ": " ++ match f.reason with
    | .badStart => "invalid start byte"
    | .badContinuation => "invalid continuation byte"
    | .truncated => "unexpected end of data"

/-- Whether a byte continues a character. -/
def isTail (b : UInt8) : Bool := 0x80 ≤ b && b ≤ 0xbf

/-- Whether `b` may follow the first byte `a` of a character of three or four bytes. -/
def isSecond (a b : UInt8) : Bool :=
  isTail b && !(a == 0xe0 && b < 0xa0) && !(a == 0xed && b ≥ 0xa0)
    && !(a == 0xf0 && b < 0x90) && !(a == 0xf4 && b ≥ 0x90)

def char2 (a b : UInt8) : Char :=
  .ofNat ((a.toNat - 0xc0) * 0x40 + (b.toNat - 0x80))

def char3 (a b c : UInt8) : Char :=
  .ofNat ((a.toNat - 0xe0) * 0x1000 + (b.toNat - 0x80) * 0x40 + (c.toNat - 0x80))

def char4 (a b c d : UInt8) : Char :=
  .ofNat ((a.toNat - 0xf0) * 0x40000 + (b.toNat - 0x80) * 0x1000 + (c.toNat - 0x80) * 0x40
    + (d.toNat - 0x80))

/-- The characters of bytes that start at `position`. -/
def decodeFrom (position : Nat) : List UInt8 → Except Fault (List Char)
  | [] => .ok []
  | a :: r =>
    if a < 0x80 then
      (Char.ofNat a.toNat :: ·) <$> decodeFrom (position + 1) r
    else if a < 0xc2 || 0xf4 < a then .error ⟨position, [a], .badStart⟩
    else if a < 0xe0 then match r with
      | [] => .error ⟨position, [a], .truncated⟩
      | b :: r =>
        if isTail b then (char2 a b :: ·) <$> decodeFrom (position + 2) r
        else .error ⟨position, [a], .badContinuation⟩
    else match r with
      | [] => .error ⟨position, [a], .truncated⟩
      | b :: r =>
        if !isSecond a b then .error ⟨position, [a], .badContinuation⟩
        else match r with
          | [] => .error ⟨position, [a, b], .truncated⟩
          | c :: r =>
            if !isTail c then .error ⟨position, [a, b], .badContinuation⟩
            else if a < 0xf0 then (char3 a b c :: ·) <$> decodeFrom (position + 3) r
            else match r with
              | [] => .error ⟨position, [a, b, c], .truncated⟩
              | d :: r =>
                if isTail d then (char4 a b c d :: ·) <$> decodeFrom (position + 4) r
                else .error ⟨position, [a, b, c], .badContinuation⟩

def decode (bs : List UInt8) : Except Fault (List Char) := decodeFrom 0 bs

/-- Every line end, whether a line feed, a carriage return or both, as a line feed. -/
def unifyLineEnds : List Char → List Char
  | '\r' :: '\n' :: cs => '\n' :: unifyLineEnds cs
  | '\r' :: cs => '\n' :: unifyLineEnds cs
  | c :: cs => c :: unifyLineEnds cs
  | [] => []

/-- The text of a file: its bytes decoded, with one form of line end. -/
def readText (bs : List UInt8) : Except Fault (List Char) :=
  unifyLineEnds <$> decode bs

end DocTree.Utf8
