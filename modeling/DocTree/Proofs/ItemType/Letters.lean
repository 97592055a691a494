import Mathlib
import DocTree.Proofs.ItemType
import DocTree.Proofs.Text

/-!
# The letters of a marker

In lower case a character outside ASCII stays outside, or leaves one behind that does, with one
exception: the Kelvin sign becomes a `k` (`exists_mem_lowerFrom`). No marker has a `k` in it, so
only ASCII names tell a type, and they do if they are a marker up to the case of their letters
(`ofFileName_ne_unknown_iff`).
-/

namespace DocTree

namespace Text
variable {s before : List Char} {c : Char}

/-- Each run of the table beyond ASCII leads to characters beyond ASCII, or is the Kelvin sign. -/
theorem lowerRuns_beyond : ∀ r ∈ lowerRuns, 0x80 ≤ r.2.1 → r.1 = 0x212a ∧ r.2.1 = 0x212a ∧
    r.2.2.2 = -8383 ∨ 0x80 ≤ (r.1 : Int) + r.2.2.2 ∧
      ((r.2.1 : Int) + r.2.2.2 < 0xd800 ∨
        0xdfff < (r.1 : Int) + r.2.2.2 ∧ (r.2.1 : Int) + r.2.2.2 < 0x110000) := by
  decide +kernel

theorem lowerChar_of_le (hc : 0x80 ≤ c.toNat) : 0x80 ≤ (lowerChar c).toNat ∨ lowerChar c = 'k' := by
  rw [lowerChar, if_neg (by omega)]
  split
  · rename_i a b step d hrun
    have hcond := List.find?_some hrun
    simp only [Bool.and_eq_true, decide_eq_true_eq] at hcond
    obtain ⟨⟨ha, hb⟩, -⟩ := hcond
    rcases lowerRuns_beyond _ (List.mem_of_find?_eq_some hrun) (hc.trans hb) with
      ⟨rfl, rfl, rfl⟩ | ⟨hlow, hhigh⟩
    · have hkelvin : c.toNat = 0x212a := by omega
      rw [hkelvin]
      exact .inr (by decide)
    · simp only at hlow hhigh
      have hvalid : (c.toNat + d).toNat.isValidChar := by
        unfold Nat.isValidChar
        omega
      rw [Char.toNat_ofNat, if_pos hvalid]
      omega
  · exact .inl hc

theorem exists_mem_lowerAt (hc : 0x80 ≤ c.toNat) (before after : List Char) :
    ∃ d ∈ lowerAt before c after, 0x80 ≤ d.toNat ∨ d = 'k' := by
  unfold lowerAt
  split
  · -- the dot above is left behind
    exact ⟨'\u0307', by simp, .inl (by decide)⟩
  · split
    · by_cases hfinal : (startsCased before && !startsCased after) = true
      · exact ⟨'ς', by simp [hfinal], .inl (by decide)⟩
      · exact ⟨'σ', by simp [hfinal], .inl (by decide)⟩
    · exact ⟨lowerChar c, by simp, lowerChar_of_le hc⟩

theorem exists_mem_lowerFrom (hmem : c ∈ s) (hc : 0x80 ≤ c.toNat) (before : List Char) :
    ∃ d ∈ lowerFrom before s, 0x80 ≤ d.toNat ∨ d = 'k' := by
  induction s generalizing before with
  | nil => cases hmem
  | cons a s ih =>
    rw [lowerFrom]
    rcases List.mem_cons.1 hmem with rfl | hmem
    · obtain ⟨d, hd, hbeyond⟩ := exists_mem_lowerAt hc before s
      exact ⟨d, by simp [hd], hbeyond⟩
    · obtain ⟨d, hd, hbeyond⟩ := ih hmem (a :: before)
      exact ⟨d, by simp [hd], hbeyond⟩

theorem lowerFrom_of_ascii (h : ∀ c ∈ s, c.toNat < 0x80) (before : List Char) :
    lowerFrom before s = s.map Char.toLower := by
  induction s generalizing before with
  | nil => rfl
  | cons a s ih =>
    obtain ⟨ha, hs⟩ := List.forall_mem_cons.1 h
    have hdot : a ≠ 'İ' := by
      rintro rfl
      exact absurd ha (by decide)
    have hsigma : a ≠ 'Σ' := by
      rintro rfl
      exact absurd ha (by decide)
    rw [lowerFrom, ih hs, lowerAt, if_neg hdot, if_neg hsigma, lowerChar, if_pos ha]
    rfl

end Text

/-- That all characters of a text are ASCII. -/
def IsAscii (s : String) : Prop := ∀ c ∈ s.toList, c.toNat < 0x80

/-- That two texts are equal up to the case of their ASCII letters. -/
def SameLetters (s t : String) : Prop := s.toList.map Char.toLower = t.toList.map Char.toLower

instance (s : String) : Decidable (IsAscii s) := List.decidableBAll _ _

instance (s t : String) : Decidable (SameLetters s t) := inferInstanceAs (Decidable (_ = _))

/-- Nothing but ASCII has a lower case in ASCII without a `k`. -/
theorem lowerCase_eq_iff {n m : String} (hm : ∀ d ∈ m.toList, d.toNat < 0x80 ∧ d ≠ 'k')
    (hlower : m.toList.map Char.toLower = m.toList) :
    n.lowerCase = m ↔ IsAscii n ∧ SameLetters n m := by
  rw [SameLetters, hlower, ← String.toList_inj, String.lowerCase, String.toList_ofList, Text.lower]
  constructor
  · intro h
    have hascii : IsAscii n := by
      intro c hc
      by_contra hbeyond
      obtain ⟨d, hd, hkelvin⟩ := Text.exists_mem_lowerFrom hc (Nat.le_of_not_lt hbeyond) []
      obtain ⟨hlt, hne⟩ := hm d (h ▸ hd)
      rcases hkelvin with hle | rfl
      · omega
      · exact hne rfl
    exact ⟨hascii, Text.lowerFrom_of_ascii hascii [] ▸ h⟩
  · rintro ⟨hascii, h⟩
    rw [Text.lowerFrom_of_ascii hascii, h]

namespace ItemType

theorem lowerCase_eq_marker_iff {m : String × ItemType} (hm : m ∈ markers) {n : String} :
    n.lowerCase = m.1 ↔ IsAscii n ∧ SameLetters n m.1 := by
  have hplain : ∀ m ∈ markers, (m.1.toList.all fun d => d.toNat < 0x80 && d != 'k') = true := by
    decide +kernel
  have hlower : ∀ m ∈ markers, m.1.toList.map Char.toLower = m.1.toList := by decide +kernel
  exact lowerCase_eq_iff (by simpa using hplain m hm) (hlower m hm)

/-- A name tells a type just if it is ASCII and one of the markers up to the case of its letters,
and then the type is that of the marker. One character beyond ASCII is enough that it tells none. -/
theorem ofFileName_ne_unknown_iff (n : String) :
    (ofFileName n ≠ .unknown ↔ IsAscii n ∧ ∃ m ∈ markers, SameLetters n m.1) ∧
      (∀ m ∈ markers, IsAscii n → SameLetters n m.1 → ofFileName n = m.2) ∧
        ∀ c ∈ n.toList, 0x80 ≤ c.toNat → ofFileName n = .unknown := by
  have hiff : ofFileName n ≠ .unknown ↔ IsAscii n ∧ ∃ m ∈ markers, SameLetters n m.1 := by
    rw [ne_eq, ofFileName_eq_unknown_iff, not_forall]
    constructor
    · rintro ⟨m, h⟩
      obtain ⟨hm, hlower⟩ := by simpa using h
      obtain ⟨hascii, hletters⟩ := (lowerCase_eq_marker_iff hm).1 hlower
      exact ⟨hascii, m, hm, hletters⟩
    · rintro ⟨hascii, m, hm, hletters⟩
      exact ⟨m, fun h => h hm ((lowerCase_eq_marker_iff hm).2 ⟨hascii, hletters⟩)⟩
  refine ⟨hiff, fun m hm hascii hletters => ?_, fun c hc hbeyond => ?_⟩
  · exact ofFileName_of_mem hm ((lowerCase_eq_marker_iff hm).2 ⟨hascii, hletters⟩)
  · by_contra hknown
    exact absurd ((hiff.1 hknown).1 c hc) (Nat.not_lt.2 hbeyond)

theorem ofFileName_ne_unknown_sample :
    ofFileName "ReadMe.MD" = .document ∧ ofFileName "COLLECTİON.md" = .unknown := by
  obtain ⟨-, htype, -⟩ := ofFileName_ne_unknown_iff "ReadMe.MD"
  obtain ⟨-, -, hnone⟩ := ofFileName_ne_unknown_iff "COLLECTİON.md"
  exact ⟨htype ("readme.md", .document) (by decide) (by decide) (by decide),
    hnone 'İ' (by decide) (by decide)⟩

end ItemType
end DocTree
