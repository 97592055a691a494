import Mathlib
import DocTree.Text.Utf8

/-!
# Text that is read as it was written

What is written in UTF-8 is decoded to the same text (`decode_toUTF8`): one character at a time, by
the number of its bytes (`decodeFrom_utf8EncodeChar`).
-/

namespace DocTree.Utf8
variable {a b c d : UInt8} {position : Nat} {r : List UInt8}

/-! ### The bytes of a character -/

theorem isTail_iff : isTail b = true ↔ 0x80 ≤ b.toNat ∧ b.toNat ≤ 0xbf := by
  simp [isTail, UInt8.le_iff_toNat_le]

theorem isSecond_iff : isSecond a b = true ↔ (0x80 ≤ b.toNat ∧ b.toNat ≤ 0xbf) ∧
    (a.toNat = 0xe0 → 0xa0 ≤ b.toNat) ∧ (a.toNat = 0xed → b.toNat < 0xa0) ∧
      (a.toNat = 0xf0 → 0x90 ≤ b.toNat) ∧ (a.toNat = 0xf4 → b.toNat < 0x90) := by
  simp only [isSecond, Bool.and_eq_true, isTail_iff, Bool.not_eq_true', Bool.and_eq_false_imp,
    beq_iff_eq, decide_eq_false_iff_not, UInt8.lt_iff_toNat_lt, UInt8.le_iff_toNat_le,
    ← UInt8.toNat_inj]
  simp [and_assoc]

/-- A byte that begins a character of several bytes. -/
theorem not_refused (ha : 0xc2 ≤ a.toNat) (ha' : a.toNat ≤ 0xf4) :
    ¬ a < 0x80 ∧ ¬ (a < 0xc2 || 0xf4 < a) = true := by
  simp [UInt8.lt_iff_toNat_lt]
  omega

theorem decodeFrom_one (ha : a.toNat < 0x80) :
    decodeFrom position (a :: r) = (Char.ofNat a.toNat :: ·) <$> decodeFrom (position + 1) r := by
  have hascii : a < 0x80 := by simpa [UInt8.lt_iff_toNat_lt] using ha
  rw [decodeFrom.eq_def]
  exact if_pos hascii

theorem decodeFrom_two (ha : 0xc2 ≤ a.toNat) (ha' : a.toNat < 0xe0) (hb : isTail b = true) :
    decodeFrom position (a :: b :: r) = (char2 a b :: ·) <$> decodeFrom (position + 2) r := by
  obtain ⟨hascii, hstart⟩ := not_refused ha (by omega)
  have htwo : a < 0xe0 := by simpa [UInt8.lt_iff_toNat_lt] using ha'
  rw [decodeFrom.eq_def]
  simp only [if_neg hascii, if_neg hstart, if_pos htwo, if_pos hb]

theorem decodeFrom_three (ha : 0xe0 ≤ a.toNat) (ha' : a.toNat < 0xf0) (hb : isSecond a b = true)
    (hc : isTail c = true) :
    decodeFrom position (a :: b :: c :: r) = (char3 a b c :: ·) <$> decodeFrom (position + 3) r := by
  obtain ⟨hascii, hstart⟩ := not_refused (a := a) (by omega) (by omega)
  have htwo : ¬ a < 0xe0 := by simpa [UInt8.lt_iff_toNat_lt] using ha
  have hthree : a < 0xf0 := by simpa [UInt8.lt_iff_toNat_lt] using ha'
  rw [decodeFrom.eq_def]
  simp only [if_neg hascii, if_neg hstart, if_neg htwo, hb, hc, Bool.not_true, Bool.false_eq_true,
    if_false, if_pos hthree]

theorem decodeFrom_four (ha : 0xf0 ≤ a.toNat) (ha' : a.toNat ≤ 0xf4) (hb : isSecond a b = true)
    (hc : isTail c = true) (hd : isTail d = true) :
    decodeFrom position (a :: b :: c :: d :: r) =
      (char4 a b c d :: ·) <$> decodeFrom (position + 4) r := by
  obtain ⟨hascii, hstart⟩ := not_refused (a := a) (by omega) (by omega)
  have htwo : ¬ a < 0xe0 := by simp [UInt8.lt_iff_toNat_lt]; omega
  have hthree : ¬ a < 0xf0 := by simpa [UInt8.lt_iff_toNat_lt] using ha
  rw [decodeFrom.eq_def]
  simp only [if_neg hascii, if_neg hstart, if_neg htwo, hb, hc, hd, Bool.not_true,
    Bool.false_eq_true, if_false, if_neg hthree, if_true]

theorem ofNat_of_toNat_eq {n : Nat} {c : Char} (h : n = c.toNat) : Char.ofNat n = c := by
  rw [h, Char.ofNat_toNat]

/-- A character is decoded from the bytes that encode it. -/
theorem decodeFrom_utf8EncodeChar (c : Char) (position : Nat) (r : List UInt8) :
    decodeFrom position (String.utf8EncodeChar c ++ r) =
      (c :: ·) <$> decodeFrom (position + (String.utf8EncodeChar c).length) r := by
  have hvalid : c.toNat < 0xd800 ∨ 0xdfff < c.toNat ∧ c.toNat < 0x110000 := c.valid
  have hbyte {n : Nat} (h : n < 256) : (UInt8.ofNat n).toNat = n := UInt8.toNat_ofNat_of_lt h
  have htail (n : Nat) : isTail (UInt8.ofNat (n % 64 + 128)) = true := by
    rw [isTail_iff, hbyte (by omega)]
    omega
  unfold String.utf8EncodeChar
  simp only [show c.val.toNat = c.toNat from rfl]
  split
  · have hchar : Char.ofNat (UInt8.ofNat c.toNat).toNat = c :=
      ofNat_of_toNat_eq (by rw [hbyte (by omega)])
    rw [List.singleton_append, decodeFrom_one (by rw [hbyte (by omega)]; omega), hchar]
    rfl
  split
  · have ha := hbyte (n := c.toNat / 64 % 32 + 192) (by omega)
    have hchar : char2 (.ofNat (c.toNat / 64 % 32 + 192)) (.ofNat (c.toNat % 64 + 128)) = c := by
      refine ofNat_of_toNat_eq ?_
      rw [ha, hbyte (by omega)]
      omega
    rw [List.cons_append, List.singleton_append,
      decodeFrom_two (by omega) (by omega) (htail _), hchar]
    rfl
  split
  · have ha := hbyte (n := c.toNat / 4096 % 16 + 224) (by omega)
    have hsecond : isSecond (.ofNat (c.toNat / 4096 % 16 + 224))
        (.ofNat (c.toNat / 64 % 64 + 128)) = true := by
      rw [isSecond_iff, ha, hbyte (by omega)]
      omega
    have hchar : char3 (.ofNat (c.toNat / 4096 % 16 + 224)) (.ofNat (c.toNat / 64 % 64 + 128))
        (.ofNat (c.toNat % 64 + 128)) = c := by
      refine ofNat_of_toNat_eq ?_
      rw [ha, hbyte (by omega), hbyte (by omega)]
      omega
    rw [List.cons_append, List.cons_append, List.singleton_append,
      decodeFrom_three (by omega) (by omega) hsecond (htail _), hchar]
    rfl
  · have ha := hbyte (n := c.toNat / 262144 % 8 + 240) (by omega)
    have hsecond : isSecond (.ofNat (c.toNat / 262144 % 8 + 240))
        (.ofNat (c.toNat / 4096 % 64 + 128)) = true := by
      rw [isSecond_iff, ha, hbyte (by omega)]
      omega
    have hchar : char4 (.ofNat (c.toNat / 262144 % 8 + 240)) (.ofNat (c.toNat / 4096 % 64 + 128))
        (.ofNat (c.toNat / 64 % 64 + 128)) (.ofNat (c.toNat % 64 + 128)) = c := by
      refine ofNat_of_toNat_eq ?_
      rw [ha, hbyte (by omega), hbyte (by omega), hbyte (by omega)]
      omega
    rw [List.cons_append, List.cons_append, List.cons_append, List.singleton_append,
      decodeFrom_four (by omega) (by omega) hsecond (htail _) (htail _), hchar]
    rfl

/-! ### Whole texts -/

/-- The bytes of an array from a place on are put behind those that are gathered. -/
theorem toList_loop_of_drop {bs : ByteArray} {rest : List UInt8} {i : Nat}
    (h : bs.data.toList.drop i = rest) (r : List UInt8) :
    ByteArray.toList.loop bs i r = r.reverse ++ rest := by
  induction rest generalizing i r with
  | nil =>
    have hend : ¬ i < bs.size := by simpa using h
    rw [ByteArray.toList.loop, if_neg hend, List.append_nil]
  | cons b rest ih =>
    have hi : i < bs.data.toList.length := by
      by_contra hend
      simp [List.drop_eq_nil_of_le (Nat.le_of_not_lt hend)] at h
    rw [List.drop_eq_getElem_cons hi, List.cons.injEq] at h
    obtain ⟨hb, hrest⟩ := h
    have hget : bs.get! i = b := by
      rw [← hb]
      exact getElem!_pos bs.data i hi
    have hsize : i < bs.size := hi
    rw [ByteArray.toList.loop, if_pos hsize, ih hrest, hget, List.reverse_cons, List.append_assoc]
    rfl

theorem toList_toUTF8 (t : String) : t.toUTF8.toList = t.toList.flatMap String.utf8EncodeChar := by
  have hbytes : t.toUTF8 = (t.toList.flatMap String.utf8EncodeChar).toByteArray :=
    String.utf8Encode_toList.symm
  rw [hbytes, ByteArray.toList, toList_loop_of_drop rfl, List.toList_data_toByteArray]
  rfl

theorem decodeFrom_flatMap (s : List Char) (position : Nat) :
    decodeFrom position (s.flatMap String.utf8EncodeChar) = .ok s := by
  induction s generalizing position with
  | nil => rfl
  | cons c s ih =>
    rw [List.flatMap_cons, decodeFrom_utf8EncodeChar, ih]
    rfl

/-- What is written in UTF-8 is read back. -/
theorem decode_toUTF8 (t : String) : decode t.toUTF8.toList = .ok t.toList := by
  rw [toList_toUTF8, decode, decodeFrom_flatMap]

end DocTree.Utf8
