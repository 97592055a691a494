import Mathlib
import DocTree.ItemType
import DocTree.Proofs.Path

/-!
# What the name of a file tells

A name tells the type of the marker that it is, in any case of letters, and no other name tells a type
(`ofFileName_eq_unknown_iff`). The text of a path tells what its last name tells (`ofPath_text`).
-/

namespace DocTree.ItemType
variable {m : String × ItemType} {n : String}

theorem ofFileName_of_mem (hm : m ∈ markers) (hn : n.lowerCase = m.1) : ofFileName n = m.2 := by
  have hlookup : ∀ m ∈ markers, markers.lookup m.1 = some m.2 := by decide
  rw [ofFileName, hn, hlookup m hm, Option.getD_some]

theorem ofFileName_eq_unknown_iff :
    ofFileName n = .unknown ↔ ∀ m ∈ markers, n.lowerCase ≠ m.1 := by
  constructor
  · intro h m hm hn
    have hknown : ∀ m ∈ markers, m.2 ≠ .unknown := by decide
    exact hknown m hm (ofFileName_of_mem hm hn ▸ h)
  · intro h
    have hnone : markers.lookup n.lowerCase = none := by
      rw [List.lookup_eq_none_iff]
      exact fun m hm => bne_iff_ne.2 (h m hm)
    rw [ofFileName, hnone, Option.getD_none]

theorem ofPath_text {p : Path} (hp : p.IsProper) : ofPath p.text = ofFileName p.name := by
  by_cases hne : p.parts = []
  · obtain ⟨root, ns⟩ := p
    obtain rfl : ns = [] := hne
    cases root <;> decide +kernel
  · rw [ofPath, Path.baseName_text hp hne]

end DocTree.ItemType
