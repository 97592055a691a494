import Mathlib
import DocTree.Yaml.Load

/-!
# Texts that are one scalar

A text whose root is a scalar has the value of this scalar (`load_eq_ok`). If the scalar cannot be had
it is not loaded, and the fault is that of the scalar (`load_eq_error`).
-/

namespace DocTree.Yaml
variable {e : Error}

theorem Node.value_eq_error {n : Node} (h : n.scalar? = .error e) (knots : Knots) (depth : Nat)
    (free : List Nat) : n.value knots (depth + 1) free = .error e := by
  cases n <;> simp only [Node.value, h] <;> rfl

theorem Node.value_eq_ok {n : Node} {v : Value} (h : n.scalar? = .ok (some v)) (knots : Knots)
    (depth : Nat) (free : List Nat) : n.value knots (depth + 1) free = .ok v := by
  cases n <;> simp only [Node.value, h] <;> rfl

theorem Node.readScalars_eq_error {n : Node} (h : n.scalar? = .error e) (ns : List Node) :
    Node.readScalars (n :: ns) = .error e := by
  simp only [Node.readScalars, h]
  rfl

/-- The root of a document is read at a depth that is not zero. -/
theorem Document.depth_pos (d : Document) : 0 < (2 * (d.knots.map (·.1)).length + 1) *
    (d.root.count + Node.countAll (d.knots.map (·.2)) + 1) :=
  Nat.mul_pos (Nat.succ_pos _) (Nat.succ_pos _)

theorem Document.value_eq_error {d : Document} (h : d.root.scalar? = .error e) :
    d.value = .error e := by
  have hfault : d.firstFault = some e := by
    simp only [Document.firstFault, Node.readScalars_eq_error h]
    rfl
  rw [Document.value, ← Nat.succ_pred_eq_of_pos d.depth_pos, Node.value_eq_error h, hfault]
  rfl

/-- The fault of a text's root, if it is a scalar that cannot be had. -/
def rootFault? (s : List Char) : Option Error :=
  match Document.ofEvents (.ofTokens (.ofText s)) with
  | .ok (some d) => match d.root.scalar? with
    | .error e => some e
    | .ok _ => none
  | _ => none

theorem load_eq_error {s : List Char} (hs : s.all isAllowed = true) (h : rootFault? s = some e) :
    load s = .error e := by
  have hnone : s.findIdx? (!isAllowed ·) = none := by simpa using hs
  unfold rootFault? at h
  split at h
  · rename_i d hd
    split at h
    · rename_i e' he
      cases h
      simp only [load, hnone, hd]
      exact Document.value_eq_error he
    · cases h
  · cases h

theorem Document.value_eq_ok {d : Document} {v : Value} (h : d.root.scalar? = .ok (some v)) :
    d.value = .ok v := by
  rw [Document.value, ← Nat.succ_pred_eq_of_pos d.depth_pos, Node.value_eq_ok h]

/-- The tag and the text of a text's root, if it is a scalar. -/
def rootText? (s : List Char) : Option (String × String) :=
  match Document.ofEvents (.ofTokens (.ofText s)) with
  | .ok (some d) => match d.root with
    | .scalar tag text _ => some (tag, text)
    | _ => none
  | _ => none

theorem load_eq_ok {s : List Char} (hs : s.all isAllowed = true) {tag text : String}
    (h : rootText? s = some (tag, text)) {v : Value}
    (hv : ∀ m, (Node.scalar tag text m).scalar? = .ok (some v)) : load s = .ok v := by
  have hnone : s.findIdx? (!isAllowed ·) = none := by simpa using hs
  unfold rootText? at h
  split at h
  · rename_i d hd
    split at h
    · rename_i hroot
      cases h
      simp only [load, hnone, hd]
      exact Document.value_eq_ok (hroot ▸ hv _)
    · cases h
  · cases h

end DocTree.Yaml
