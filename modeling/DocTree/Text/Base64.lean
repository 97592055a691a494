import DocTree.Number.Shortest

/-!
# Base 64

Decoding bytes that are written as letters of an alphabet of 64. Other characters are passed over,
and padding in its place ends the data.
-/

namespace DocTree.Base64

/-- Why a text is not decoded. -/
inductive Fault
  | oneExtra (letters : Nat)
  | padding
  deriving DecidableEq, Repr

def letterValue? (c : Char) : Option Nat :=
  if 'A' ≤ c && c ≤ 'Z' then some (c.toNat - 'A'.toNat)
  else if 'a' ≤ c && c ≤ 'z' then some (c.toNat - 'a'.toNat + 26)
  else if '0' ≤ c && c ≤ '9' then some (c.toNat - '0'.toNat + 52)
  else if c == '+' then some 62
  else if c == '/' then some 63
  else none

/-- The letters in front of the padding that completes a group of four, and whether there is such
padding; `pads` counts the padding since the last letter. -/
def letters (count pads : Nat) : List Char → List Nat × Bool
  | [] => ([], false)
  | c :: cs =>
    if c == '=' then
      if 2 ≤ count % 4 && 4 ≤ count % 4 + pads + 1 then ([], true)
      else letters count (if 2 ≤ count % 4 then pads + 1 else pads) cs
    else match letterValue? c with
      | none => letters count pads cs
      | some v =>
        let (vs, padded) := letters (count + 1) 0 cs
        (v :: vs, padded)

/-- The whole bytes in the bits of the letters. -/
def bytesOf : List Nat → List UInt8
  | a :: b :: c :: d :: rest =>
    .ofNat (a * 4 + b / 16) :: .ofNat (b % 16 * 16 + c / 4) :: .ofNat (c % 4 * 64 + d) :: bytesOf rest
  | [a, b, c] => [.ofNat (a * 4 + b / 16), .ofNat (b % 16 * 16 + c / 4)]
  | [a, b] => [.ofNat (a * 4 + b / 16)]
  | _ => []

def decode (s : List Char) : Except Fault (List UInt8) :=
  let (vs, padded) := letters 0 0 s
  if padded || vs.length % 4 == 0 then .ok (bytesOf vs)
  else if vs.length % 4 == 1 then .error (.oneExtra vs.length)
  else .error .padding

def Fault.message : Fault → String
  | .oneExtra n => "Invalid base64-encoded string: number of data characters ("
      ++ Number.natText n ++ ") cannot be 1 more than a multiple of 4"
  | .padding => "Incorrect padding"

end DocTree.Base64
