import Mathlib

/-!
# Where a computation fails

A sequence of steps is done if each of them is. It fails in one of them, once those in front of it
are done.
-/

namespace DocTree
variable {ε δ α β : Type}

theorem bind_eq_ok {x : Except ε α} {f : α → Except ε β} {b : β} :
    (x >>= f) = .ok b ↔ ∃ a, x = .ok a ∧ f a = .ok b := by
  cases x <;> simp [bind, Except.bind]

theorem bind_eq_error {x : Except ε α} {f : α → Except ε β} {e : ε} :
    (x >>= f) = .error e ↔ x = .error e ∨ ∃ a, x = .ok a ∧ f a = .error e := by
  cases x <;> simp [bind, Except.bind]

theorem map_eq_ok {x : Except ε α} {f : α → β} {b : β} :
    x.map f = .ok b ↔ ∃ a, x = .ok a ∧ f a = b := by
  cases x <;> simp [Except.map]

theorem map_eq_error {x : Except ε α} {f : α → β} {e : ε} : x.map f = .error e ↔ x = .error e := by
  cases x <;> simp [Except.map]

theorem mapError_eq_ok {x : Except ε α} {g : ε → δ} {a : α} : x.mapError g = .ok a ↔ x = .ok a := by
  cases x <;> simp [Except.mapError]

theorem mapError_eq_error {x : Except ε α} {g : ε → δ} {d : δ} :
    x.mapError g = .error d ↔ ∃ e, x = .error e ∧ g e = d := by
  cases x <;> simp [Except.mapError]

theorem exists_mem_of_mapM_eq_error {f : α → Except ε β} {xs : List α} {e : ε}
    (h : xs.mapM f = .error e) : ∃ x ∈ xs, f x = .error e := by
  induction xs with
  | nil => cases h
  | cons x xs ih =>
    rw [List.mapM_cons] at h
    rcases bind_eq_error.1 h with h | ⟨b, -, h⟩
    · exact ⟨x, List.mem_cons_self .., h⟩
    · rcases bind_eq_error.1 h with h | ⟨bs, -, ⟨⟩⟩
      obtain ⟨y, hy, h⟩ := ih h
      exact ⟨y, List.mem_cons_of_mem _ hy, h⟩

theorem mapM_eq_ok {f : α → Except ε β} {xs : List α} {ys : List β} :
    xs.mapM f = .ok ys ↔ List.Forall₂ (fun x y => f x = .ok y) xs ys := by
  induction xs generalizing ys with
  | nil =>
    rw [List.forall₂_nil_left_iff]
    exact ⟨fun h => (Except.ok.inj h).symm, fun h => h ▸ rfl⟩
  | cons x xs ih =>
    rw [List.mapM_cons]
    constructor
    · intro h
      obtain ⟨y, hy, h⟩ := bind_eq_ok.1 h
      obtain ⟨zs, hzs, ⟨⟩⟩ := bind_eq_ok.1 h
      exact .cons hy (ih.1 hzs)
    · rintro (_ | ⟨hy, hys⟩)
      exact bind_eq_ok.2 ⟨_, hy, bind_eq_ok.2 ⟨_, ih.2 hys, rfl⟩⟩

theorem exists_mapM_eq_ok {f : α → Except ε β} {P : α → β → Prop} {xs : List α}
    (h : ∀ x ∈ xs, ∃ y, f x = .ok y ∧ P x y) :
    ∃ ys, xs.mapM f = .ok ys ∧ List.Forall₂ P xs ys := by
  induction xs with
  | nil => exact ⟨[], rfl, .nil⟩
  | cons x xs ih =>
    obtain ⟨y, hy, hxy⟩ := h x (List.mem_cons_self ..)
    obtain ⟨ys, hys, hall⟩ := ih fun x hx => h x (List.mem_cons_of_mem _ hx)
    refine ⟨y :: ys, ?_, .cons hxy hall⟩
    rw [List.mapM_cons]
    exact bind_eq_ok.2 ⟨y, hy, bind_eq_ok.2 ⟨ys, hys, rfl⟩⟩

theorem exists_mapM_iff {f : α → Except ε β} {xs : List α} :
    (∃ ys, xs.mapM f = .ok ys) ↔ ∀ x ∈ xs, ∃ y, f x = .ok y := by
  constructor
  · rintro ⟨ys, h⟩
    have hall := mapM_eq_ok.1 h
    clear h
    induction hall with
    | nil => exact fun x hx => absurd hx List.not_mem_nil
    | cons hy _ ih => exact List.forall_mem_cons.2 ⟨⟨_, hy⟩, ih⟩
  · intro h
    obtain ⟨ys, hys, -⟩ := exists_mapM_eq_ok (P := fun _ _ => True) fun x hx =>
      (h x hx).imp fun y hy => ⟨hy, trivial⟩
    exact ⟨ys, hys⟩

/-! ### Filtering -/

theorem filterAuxM_eq_map (f : α → Except ε Bool) (xs acc : List α) :
    xs.filterAuxM f acc = (xs.filterM f).map fun ys => ys.reverse ++ acc := by
  have hacc : ∀ xs acc : List α, xs.filterAuxM f acc = (xs.filterAuxM f []).map (· ++ acc) := by
    intro xs
    induction xs with
    | nil => exact fun acc => rfl
    | cons x xs ih =>
      intro acc
      rw [List.filterAuxM, List.filterAuxM]
      cases f x with
      | error e => rfl
      | ok b =>
        show xs.filterAuxM f (cond b (x :: acc) acc) =
          (xs.filterAuxM f (cond b [x] [])).map (· ++ acc)
        rw [ih, ih (cond b [x] [])]
        cases xs.filterAuxM f [] with
        | error e => rfl
        | ok ys => cases b <;> simp [Except.map]
  rw [hacc, List.filterM]
  cases xs.filterAuxM f [] with
  | error e => rfl
  | ok ys => simp [bind, Except.bind, pure, Except.pure, Except.map]

theorem filterM_cons (f : α → Except ε Bool) (x : α) (xs : List α) :
    (x :: xs).filterM f = do
      let b ← f x
      let ys ← xs.filterM f
      return if b then x :: ys else ys := by
  rw [List.filterM, List.filterAuxM]
  cases f x with
  | error e => rfl
  | ok b =>
    show (xs.filterAuxM f (cond b [x] []) >>= fun ys => pure ys.reverse) = _
    rw [filterAuxM_eq_map]
    cases xs.filterM f with
    | error e => rfl
    | ok ys => cases b <;> simp [bind, Except.bind, pure, Except.pure, Except.map]

theorem filterM_eq_filter {f : α → Except ε Bool} {p : α → Bool} {xs : List α}
    (h : ∀ x ∈ xs, f x = .ok (p x)) : xs.filterM f = .ok (xs.filter p) := by
  induction xs with
  | nil => rfl
  | cons x xs ih =>
    rw [filterM_cons, h x (List.mem_cons_self ..), ih fun y hy => h y (List.mem_cons_of_mem _ hy),
      List.filter_cons]
    rfl

theorem exists_filterM_eq_error {f : α → Except ε Bool} {xs : List α} {x : α} (hx : x ∈ xs) {e : ε}
    (h : f x = .error e) : ∃ e', xs.filterM f = .error e' := by
  induction xs with
  | nil => cases hx
  | cons y xs ih =>
    rw [filterM_cons]
    cases hy : f y with
    | error e' => exact ⟨e', rfl⟩
    | ok b =>
      rcases List.mem_cons.1 hx with rfl | hx
      · rw [h] at hy
        cases hy
      · obtain ⟨e', he'⟩ := ih hx
        exact ⟨e', by rw [he']; rfl⟩

theorem mem_of_filterM {f : α → Except ε Bool} {xs ys : List α} (h : xs.filterM f = .ok ys) {x : α}
    (hx : x ∈ ys) : x ∈ xs := by
  induction xs generalizing ys with
  | nil =>
    cases h
    exact hx
  | cons y xs ih =>
    rw [filterM_cons] at h
    obtain ⟨b, -, h⟩ := bind_eq_ok.1 h
    obtain ⟨zs, hzs, h⟩ := bind_eq_ok.1 h
    cases h
    cases b with
    | false => exact List.mem_cons_of_mem _ (ih hzs hx)
    | true =>
      rcases List.mem_cons.1 hx with rfl | hx
      · exact List.mem_cons_self ..
      · exact List.mem_cons_of_mem _ (ih hzs hx)

theorem filterM_congr {f g : α → Except ε Bool} {xs : List α} (h : ∀ x ∈ xs, f x = g x) :
    xs.filterM f = xs.filterM g := by
  induction xs with
  | nil => rfl
  | cons x xs ih =>
    rw [filterM_cons, filterM_cons, h x (List.mem_cons_self ..),
      ih fun y hy => h y (List.mem_cons_of_mem _ hy)]

/-- Elements where the test does not fail can be left out before or after it. -/
theorem filterM_filter {f : α → Except ε Bool} {keep : α → Bool} {xs : List α}
    (h : ∀ x ∈ xs, keep x = false → ∃ b, f x = .ok b) :
    (xs.filter keep).filterM f = (xs.filterM f).map (List.filter keep) := by
  induction xs with
  | nil => rfl
  | cons x xs ih =>
    have ih' := ih fun y hy => h y (List.mem_cons_of_mem _ hy)
    rw [filterM_cons]
    cases hx : keep x with
    | true =>
      rw [List.filter_cons_of_pos hx, filterM_cons, ih']
      cases f x with
      | error e => rfl
      | ok b =>
        cases xs.filterM f with
        | error e => rfl
        | ok ys => cases b <;> simp [bind, Except.bind, pure, Except.pure, Except.map, hx]
    | false =>
      obtain ⟨b, hb⟩ := h x (List.mem_cons_self ..) hx
      rw [List.filter_cons_of_neg (by simp [hx]), ih', hb]
      cases xs.filterM f with
      | error e => rfl
      | ok ys => cases b <;> simp [bind, Except.bind, pure, Except.pure, Except.map, hx]

end DocTree
