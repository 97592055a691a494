import Mathlib

/-!
# Trees of values

The values of a tree in pre-order, each with how deep it lies (`levels`): as many values are above it
(`levels_eq_outline`). Such a list goes at most one step down at a time (`isChain_levels`), and there
is only one tree that has it (`levels_inj`).
-/

namespace DocTree

/-- A value with trees of values below it. -/
inductive Rose (α : Type)
  | node (a : α) (ts : List (Rose α))

namespace Rose
variable {α β : Type}

def root : Rose α → α
  | .node a _ => a

mutual

def map (f : α → β) : Rose α → Rose β
  | .node a ts => .node (f a) (mapAll f ts)

def mapAll (f : α → β) : List (Rose α) → List (Rose β)
  | [] => []
  | t :: ts => t.map f :: mapAll f ts

end

mutual

/-- The values, each in front of those below it. -/
def preorder : Rose α → List α
  | .node a ts => a :: preorderAll ts

def preorderAll : List (Rose α) → List α
  | [] => []
  | t :: ts => t.preorder ++ preorderAll ts

end

mutual

/-- How many values there are. -/
def count : Rose α → Nat
  | .node _ ts => 1 + countAll ts

def countAll : List (Rose α) → Nat
  | [] => 0
  | t :: ts => t.count + countAll ts

end

mutual

theorem length_preorder : ∀ t : Rose α, t.preorder.length = t.count
  | .node _ ts => by
    rw [preorder, count, List.length_cons, length_preorderAll ts, Nat.add_comm]

theorem length_preorderAll : ∀ ts : List (Rose α), (preorderAll ts).length = countAll ts
  | [] => rfl
  | t :: ts => by
    rw [preorderAll, countAll, List.length_append, length_preorder t, length_preorderAll ts]

end

theorem preorderAll_eq_flatten (ts : List (Rose α)) :
    preorderAll ts = (ts.map preorder).flatten := by
  induction ts with
  | nil => rfl
  | cons t ts ih => rw [preorderAll, ih, List.map_cons, List.flatten_cons]

mutual

/-- The values in pre-order, each with all that are above it; `above` is above the tree. -/
def outline (above : List α) : Rose α → List (List α × α)
  | .node a ts => (above, a) :: outlineAll (above ++ [a]) ts

def outlineAll (above : List α) : List (Rose α) → List (List α × α)
  | [] => []
  | t :: ts => t.outline above ++ outlineAll above ts

end

mutual

/-- The values in pre-order, each with its depth; that of the root is `n`. -/
def levels (n : Nat) : Rose α → List (Nat × α)
  | .node a ts => (n, a) :: levelsAll (n + 1) ts

def levelsAll (n : Nat) : List (Rose α) → List (Nat × α)
  | [] => []
  | t :: ts => t.levels n ++ levelsAll n ts

end

mutual

theorem levels_eq_outline_above : ∀ (above : List α) (t : Rose α),
    t.levels above.length = (t.outline above).map fun x => (x.1.length, x.2)
  | above, .node a ts => by
    have ih := levelsAll_eq_outlineAll (above ++ [a]) ts
    rw [List.length_append, List.length_singleton] at ih
    rw [levels, outline, List.map_cons, ih]

theorem levelsAll_eq_outlineAll : ∀ (above : List α) (ts : List (Rose α)),
    levelsAll above.length ts = (outlineAll above ts).map fun x => (x.1.length, x.2)
  | _, [] => rfl
  | above, t :: ts => by
    rw [levelsAll, outlineAll, List.map_append, levels_eq_outline_above above t,
      levelsAll_eq_outlineAll above ts]

end

/-- As many values are above a value as it lies deep. -/
theorem levels_eq_outline (t : Rose α) :
    t.levels 0 = (t.outline []).map fun x => (x.1.length, x.2) :=
  levels_eq_outline_above [] t

mutual

theorem map_snd_levels : ∀ (n : Nat) (t : Rose α), (t.levels n).map Prod.snd = t.preorder
  | n, .node a ts => by rw [levels, preorder, List.map_cons, map_snd_levelsAll (n + 1) ts]

theorem map_snd_levelsAll : ∀ (n : Nat) (ts : List (Rose α)),
    (levelsAll n ts).map Prod.snd = preorderAll ts
  | _, [] => rfl
  | n, t :: ts => by
    rw [levelsAll, preorderAll, List.map_append, map_snd_levels n t, map_snd_levelsAll n ts]

end

mutual

theorem levels_map (f : α → β) : ∀ (n : Nat) (t : Rose α),
    (t.map f).levels n = (t.levels n).map fun x => (x.1, f x.2)
  | n, .node a ts => by rw [map, levels, levels, List.map_cons, levelsAll_map f (n + 1) ts]

theorem levelsAll_map (f : α → β) : ∀ (n : Nat) (ts : List (Rose α)),
    levelsAll n (mapAll f ts) = (levelsAll n ts).map fun x => (x.1, f x.2)
  | _, [] => rfl
  | n, t :: ts => by
    rw [mapAll, levelsAll, levelsAll, List.map_append, levels_map f n t, levelsAll_map f n ts]

end

theorem map_snd_outline (t : Rose α) : (t.outline []).map Prod.snd = t.preorder := by
  rw [← map_snd_levels 0, levels_eq_outline, List.map_map]
  rfl

theorem root_mem_preorder (t : Rose α) : t.root ∈ t.preorder := by
  obtain ⟨a, ts⟩ := t
  exact List.mem_cons_self ..

theorem root_mem_preorderAll {t : Rose α} {ts : List (Rose α)} (h : t ∈ ts) :
    t.root ∈ preorderAll ts := by
  induction ts with
  | nil => cases h
  | cons u ts ih =>
    rcases List.mem_cons.1 h with rfl | h
    · exact List.mem_append_left _ (root_mem_preorder t)
    · exact List.mem_append_right _ (ih h)

/-! ### The depths -/

theorem head?_levels (n : Nat) (t : Rose α) : (t.levels n).head? = some (n, t.root) := by
  cases t
  rfl

mutual

theorem le_of_mem_levels : ∀ {n : Nat} (t : Rose α), ∀ x ∈ t.levels n, n ≤ x.1
  | n, .node a ts, x, hx => by
    rcases List.mem_cons.1 hx with rfl | hx
    · exact Nat.le_refl n
    · exact Nat.le_of_succ_le (le_of_mem_levelsAll ts x hx)

theorem le_of_mem_levelsAll : ∀ {n : Nat} (ts : List (Rose α)), ∀ x ∈ levelsAll n ts, n ≤ x.1
  | _, [], _, hx => nomatch hx
  | _, t :: ts, x, hx => by
    rcases List.mem_append.1 hx with hx | hx
    · exact le_of_mem_levels t x hx
    · exact le_of_mem_levelsAll ts x hx

end

theorem head?_levelsAll {n : Nat} {ts : List (Rose α)} {x : Nat × α}
    (h : (levelsAll n ts).head? = some x) : x.1 = n := by
  cases ts with
  | nil => cases h
  | cons t ts =>
    rw [levelsAll, List.head?_append, head?_levels, Option.some_or] at h
    cases h
    rfl

mutual

/-- In pre-order the next value lies below the root, and at most one step deeper. -/
theorem isChain_levels : ∀ (n : Nat) (t : Rose α),
    (t.levels n).IsChain fun x y => n + 1 ≤ y.1 ∧ y.1 ≤ x.1 + 1
  | n, .node a ts => by
    refine List.isChain_cons.2 ⟨fun x hx => ?_, isChain_levelsAll (n + 1) ts⟩
    rw [head?_levelsAll hx]
    exact ⟨Nat.le_refl _, Nat.le_refl _⟩

theorem isChain_levelsAll : ∀ (n : Nat) (ts : List (Rose α)),
    (levelsAll n ts).IsChain fun x y => n ≤ y.1 ∧ y.1 ≤ x.1 + 1
  | _, [] => .nil
  | n, t :: ts => by
    have ht : (t.levels n).IsChain fun x y => n ≤ y.1 ∧ y.1 ≤ x.1 + 1 :=
      (isChain_levels n t).imp fun _ _ h => ⟨Nat.le_of_succ_le h.1, h.2⟩
    refine List.isChain_append.2 ⟨ht, isChain_levelsAll n ts, fun x hx y hy => ?_⟩
    -- the next tree begins where this one began, and nothing in this one lies higher
    have hxn : n ≤ x.1 := le_of_mem_levels t x (List.mem_of_getLast? hx)
    rw [head?_levelsAll hy]
    exact ⟨Nat.le_refl n, Nat.le_succ_of_le hxn⟩

end

/-! ### The tree from its levels -/

/-- That a list of levels goes on above `n`, if it goes on. -/
def GoesOnAbove (n : Nat) (xs : List (Nat × α)) : Prop := ∀ x, xs.head? = some x → x.1 < n

theorem goesOnAbove_levelsAll {n : Nat} {ts : List (Rose α)} {xs : List (Nat × α)}
    (h : GoesOnAbove n xs) : GoesOnAbove (n + 1) (levelsAll n ts ++ xs) := by
  intro x hx
  rw [List.head?_append, Option.or_eq_some_iff] at hx
  rcases hx with hx | ⟨-, hx⟩
  · rw [head?_levelsAll hx]
    exact Nat.lt_succ_self n
  · exact Nat.lt_succ_of_lt (h x hx)

mutual

/-- Where a tree ends in a list of levels is told by what follows, so the tree can be read from it. -/
theorem levels_append_inj : ∀ {n : Nat} (t u : Rose α) {xs ys : List (Nat × α)},
    GoesOnAbove (n + 1) xs → GoesOnAbove (n + 1) ys → t.levels n ++ xs = u.levels n ++ ys →
      t = u ∧ xs = ys
  | n, .node a ts, .node b us, xs, ys, hxs, hys, h => by
    rw [levels, levels, List.cons_append, List.cons_append, List.cons.injEq, Prod.mk.injEq] at h
    obtain ⟨⟨-, rfl⟩, h⟩ := h
    obtain ⟨rfl, hrest⟩ := levelsAll_append_inj ts us hxs hys h
    exact ⟨rfl, hrest⟩

theorem levelsAll_append_inj : ∀ {n : Nat} (ts us : List (Rose α)) {xs ys : List (Nat × α)},
    GoesOnAbove n xs → GoesOnAbove n ys → levelsAll n ts ++ xs = levelsAll n us ++ ys →
      ts = us ∧ xs = ys
  | _, [], [], _, _, _, _, h => ⟨rfl, h⟩
  | n, [], u :: us, xs, ys, hxs, _, h => by
    have hhead : xs.head? = some (n, u.root) := by
      rw [← List.nil_append xs, ← levelsAll, h, levelsAll, List.append_assoc, List.head?_append,
        head?_levels, Option.some_or]
    exact absurd (hxs _ hhead) (Nat.lt_irrefl n)
  | n, t :: ts, [], xs, ys, _, hys, h => by
    have hhead : ys.head? = some (n, t.root) := by
      rw [← List.nil_append ys, ← levelsAll, ← h, levelsAll, List.append_assoc, List.head?_append,
        head?_levels, Option.some_or]
    exact absurd (hys _ hhead) (Nat.lt_irrefl n)
  | _, t :: ts, u :: us, _, _, hxs, hys, h => by
    rw [levelsAll, levelsAll, List.append_assoc, List.append_assoc] at h
    obtain ⟨rfl, hrest⟩ :=
      levels_append_inj t u (goesOnAbove_levelsAll hxs) (goesOnAbove_levelsAll hys) h
    obtain ⟨rfl, hend⟩ := levelsAll_append_inj ts us hxs hys hrest
    exact ⟨rfl, hend⟩

end

theorem levels_inj {n : Nat} {t u : Rose α} (h : t.levels n = u.levels n) : t = u := by
  have hnil : GoesOnAbove (n + 1) ([] : List (Nat × α)) := fun x hx => nomatch hx
  exact (levels_append_inj t u hnil hnil (by rw [h])).1

end Rose
end DocTree
