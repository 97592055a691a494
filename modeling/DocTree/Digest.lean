import DocTree.Text.Quoted

/-!
# Content fingerprints

The SHA-1 digest of bytes, and the fingerprint: its first six bytes in hexadecimal.
-/

namespace DocTree.Digest

/-- The number in big-endian bytes, `n` of them. -/
def bigEndian : (n : Nat) → Nat → List UInt8
  | 0, _ => []
  | k + 1, x => bigEndian k (x / 256) ++ [.ofNat (x % 256)]

/-- The message, a one bit, zeros, and the length in bits: a multiple of 64 bytes. -/
def pad (bs : List UInt8) : List UInt8 :=
  let n := bs.length
  bs ++ 0x80 :: List.replicate ((119 - n % 64) % 64) 0 ++ bigEndian 8 (8 * n)

/-- Four bytes at a time as big-endian words. -/
def words : List UInt8 → List UInt32
  | a :: b :: c :: d :: r =>
    (a.toUInt32 <<< 24 ||| b.toUInt32 <<< 16 ||| c.toUInt32 <<< 8 ||| d.toUInt32) :: words r
  | _ => []

/-- The bits moved up by `k` places, those pushed out coming in below. -/
def rotl (x : UInt32) (k : UInt32) : UInt32 := x <<< k ||| x >>> (32 - k)

structure State where
  a : UInt32
  b : UInt32
  c : UInt32
  d : UInt32
  e : UInt32

def State.start : State := ⟨0x67452301, 0xefcdab89, 0x98badcfe, 0x10325476, 0xc3d2e1f0⟩

/-- Sixteen words of a block spread to eighty. -/
def schedule (block : List UInt32) : Array UInt32 :=
  (List.range 64).foldl (fun w i =>
    w.push (rotl (w.getD (i + 13) 0 ^^^ w.getD (i + 8) 0 ^^^ w.getD (i + 2) 0 ^^^ w.getD i 0) 1))
    block.toArray

/-- The round function and the constant of round `t`. -/
def mix (t : Nat) (b c d : UInt32) : UInt32 :=
  if t < 20 then (b &&& c ||| ~~~b &&& d) + 0x5a827999
  else if t < 40 then (b ^^^ c ^^^ d) + 0x6ed9eba1
  else if t < 60 then (b &&& c ||| b &&& d ||| c &&& d) + 0x8f1bbcdc
  else (b ^^^ c ^^^ d) + 0xca62c1d6

def State.round (s : State) (t : Nat) (w : UInt32) : State :=
  ⟨rotl s.a 5 + mix t s.b s.c s.d + s.e + w, s.a, rotl s.b 30, s.c, s.d⟩

/-- The state after one block of sixteen words. -/
def State.block (s : State) (ws : List UInt32) : State :=
  let w := schedule ws
  let r := (List.range 80).foldl (fun r t => r.round t (w.getD t 0)) s
  ⟨s.a + r.a, s.b + r.b, s.c + r.c, s.d + r.d, s.e + r.e⟩

def State.blocks (s : State) : (n : Nat) → List UInt32 → State
  | 0, _ => s
  | n + 1, ws => (s.block (ws.take 16)).blocks n (ws.drop 16)

/-- The SHA-1 digest: twenty bytes. -/
def sha1 (bs : List UInt8) : List UInt8 :=
  let ws := words (pad bs)
  let s := State.start.blocks (ws.length / 16) ws
  [s.a, s.b, s.c, s.d, s.e].flatMap fun w => bigEndian 4 w.toNat

/-- How many bytes of the digest a fingerprint shows. -/
def fingerprintBytes : Int := 6

/-- The first `size` of `bs`; a negative `size` leaves that many off at the end. -/
def cut (size : Int) (bs : List UInt8) : List UInt8 :=
  bs.take (if 0 ≤ size then size.toNat else (bs.length + size).toNat)

/-- The first `size` bytes of the digest, in hexadecimal. -/
def fingerprintOf (size : Int) (bs : List UInt8) : String :=
  .ofList (Text.hexOfBytes (cut size (sha1 bs)))

def fingerprint (bs : List UInt8) : String := fingerprintOf fingerprintBytes bs

end DocTree.Digest
