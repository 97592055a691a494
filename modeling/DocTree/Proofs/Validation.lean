import Mathlib
import DocTree.Proofs.Except
import DocTree.Validation

/-!
# Checks that pass

Checks put together pass just if each of them does.
-/

namespace DocTree.Validation
variable {α β γ : Type}

theorem both_eq_ok {f : α → β → γ} {x : Checked α} {y : Checked β} {c : γ} :
    both f x y = .ok c ↔ ∃ a b, x = .ok a ∧ y = .ok b ∧ f a b = c := by
  cases x <;> cases y <;> simp [both]

theorem within_eq_ok {s : Step} {x : Checked α} {a : α} : within s x = .ok a ↔ x = .ok a :=
  mapError_eq_ok

/-- A field with a default is checked as if the default were given, if that passes its own check. -/
theorem optional_eq {es : List (Value × Value)} {name : String} {d : α} {f : Value → Checked α}
    {v : Value} (h : f v = .ok d) : optional es name d f =
      within (.field name) (f ((Value.lookup (.str name) es).getD v)) := by
  unfold optional
  cases Value.lookup (.str name) es with
  | none => rw [Option.getD_none, h]; rfl
  | some w => rfl

end DocTree.Validation
