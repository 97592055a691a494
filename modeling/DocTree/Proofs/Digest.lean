import Mathlib
import DocTree.Digest

/-!
# The form of fingerprints

A digest has twenty bytes, and a fingerprint is the first six of them in twelve hexadecimal digits
without capital letters.
-/

namespace DocTree

namespace Text

/-- The hexadecimal digits, with small letters. -/
def hexLetters : List Char := "0123456789abcdef".toList

theorem hexDigit_mem {n : Nat} (h : n < 16) : hexDigit n ∈ hexLetters := by
  have hall : ∀ n ∈ List.range 16, hexDigit n ∈ hexLetters := by decide +kernel
  exact hall n (List.mem_range.2 h)

theorem length_hexDigits (width n : Nat) : (hexDigits width n).length = width := by
  induction width generalizing n with
  | zero => rfl
  | succ k ih => rw [hexDigits, List.length_append, ih, List.length_singleton]

theorem mem_hexDigits {width n : Nat} {c : Char} (h : c ∈ hexDigits width n) : c ∈ hexLetters := by
  induction width generalizing n with
  | zero => cases h
  | succ k ih =>
    rcases List.mem_append.1 h with h | h
    · exact ih h
    · rw [List.mem_singleton.1 h]
      exact hexDigit_mem (Nat.mod_lt n (by omega))

theorem length_hexOfBytes (bs : List UInt8) : (hexOfBytes bs).length = 2 * bs.length := by
  induction bs with
  | nil => rfl
  | cons b bs ih =>
    rw [hexOfBytes, List.flatMap_cons, List.length_append, length_hexDigits, List.length_cons]
    have hrest : (bs.flatMap fun b => hexDigits 2 b.toNat).length = 2 * bs.length := ih
    omega

theorem mem_hexOfBytes {bs : List UInt8} {c : Char} (h : c ∈ hexOfBytes bs) : c ∈ hexLetters := by
  obtain ⟨b, -, hb⟩ := List.mem_flatMap.1 h
  exact mem_hexDigits hb

end Text

namespace Digest

theorem length_bigEndian (n x : Nat) : (bigEndian n x).length = n := by
  induction n generalizing x with
  | zero => rfl
  | succ k ih => rw [bigEndian, List.length_append, ih, List.length_singleton]

theorem length_sha1 (bs : List UInt8) : (sha1 bs).length = 20 := by
  simp only [sha1, List.length_flatMap, length_bigEndian, List.map_const', List.length_cons,
    List.length_nil]
  rfl

theorem fingerprint_eq (bs : List UInt8) :
    fingerprint bs = .ofList (Text.hexOfBytes ((sha1 bs).take 6)) := rfl

theorem length_fingerprint (bs : List UInt8) : (fingerprint bs).length = 12 := by
  have htake : ((sha1 bs).take 6).length = 6 := by
    rw [List.length_take, length_sha1]
    rfl
  rw [fingerprint_eq, String.length_ofList, Text.length_hexOfBytes, htake]

theorem mem_fingerprint {bs : List UInt8} {c : Char} (h : c ∈ (fingerprint bs).toList) :
    c ∈ Text.hexLetters := by
  rw [fingerprint_eq, String.toList_ofList] at h
  exact Text.mem_hexOfBytes h

end Digest
end DocTree
