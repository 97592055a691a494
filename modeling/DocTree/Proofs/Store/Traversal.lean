import Mathlib
import DocTree.Proofs.Derived
import DocTree.Proofs.Rose

/-!
# Two ways through the items below one

An item is younger than its children, so a descent comes to an end (`not_transGen_isChild`). If all
items keep lists of items for children, as they do unless something else was assigned
(`keepsChildren_foldl_perform`), the items from one down unfold to a tree. A descent that hands each
item on as it is met (`walkWith`), and one that stops after each until it is asked for the next
(`Generator`), both meet the items of this tree in pre-order, as `walk` does (`visits_run`).
-/

namespace DocTree

namespace Store
variable {s t : Store} {id : Nat} {it : Item}

/-! ### Children -/

/-- That the item `c` is among the children of the item `p`. -/
def IsChild (s : Store) (c p : Nat) : Prop := ∃ it, s.get? p = some it ∧ c ∈ it.children.owned

theorem IsChild.lt {c p : Nat} (h : s.IsChild c p) : c < p := by
  obtain ⟨it, hit, hc⟩ := h
  exact s.older p it hit c hc

theorem lt_of_transGen_isChild {c p : Nat} (h : Relation.TransGen s.IsChild c p) : c < p := by
  induction h with
  | single h => exact h.lt
  | tail _ h ih => exact Nat.lt_trans ih h.lt

theorem not_transGen_isChild (s : Store) (id : Nat) : ¬Relation.TransGen s.IsChild id id :=
  fun h => Nat.lt_irrefl _ (lt_of_transGen_isChild h)

theorem exists_get?_iff {i : Nat} : (∃ it, s.get? i = some it) ↔ i < s.size := by
  rw [← Option.isSome_iff_exists, get?, isSome_getElem?]
  rfl

theorem IsChild.exists_get? {c p : Nat} (h : s.IsChild c p) : ∃ it, s.get? c = some it := by
  have hp : p < s.size := exists_get?_iff.1 (h.imp fun it hit => hit.1)
  exact exists_get?_iff.2 (Nat.lt_trans h.lt hp)

theorem exists_get?_of_child {place : Int} {c : Nat} (h : s.child id place = .ok c) :
    ∃ it, s.get? id = some it := by
  unfold child at h
  split at h
  · rename_i it hit
    exact ⟨it, hit⟩
  · cases h

/-- A child that is named is among the children. -/
theorem isChild_of_child {place : Int} {c : Nat} (hit : s.get? id = some it)
    {ids : List Nat} (hids : it.children = .ofList ids) (h : s.child id place = .ok c) :
    s.IsChild c id := by
  unfold child at h
  unfold get? at hit
  simp only [hit, hids, Slot.ofList] at h
  split at h
  · rename_i m hm
    obtain ⟨k, -, hk⟩ := Option.bind_eq_some_iff.1 hm
    obtain ⟨c', hc', rfl⟩ := List.mem_map.1 (List.mem_of_getElem? hk)
    cases h
    exact ⟨it, hit, by rwa [hids, Slot.owned_ofList]⟩
  · cases h

/-! ### Lists of items -/

/-- That every item has a list of items for children. -/
def KeepsChildren (s : Store) : Prop :=
  ∀ id it, s.get? id = some it → ∃ ids, it.children = .ofList ids

theorem keepsChildren_empty : Store.empty.KeepsChildren := by
  intro id it h
  simp [get?, empty] at h

theorem exists_children_eq (hs : s.KeepsChildren) {ids : List Nat}
    (h : (s.get? id).map (·.children.owned) = some ids) :
    ∃ it, s.get? id = some it ∧ it.children = .ofList ids := by
  obtain ⟨it, hit, rfl⟩ := Option.map_eq_some_iff.1 h
  obtain ⟨ids, hids⟩ := hs id it hit
  exact ⟨it, hit, by rw [hids, Slot.owned_ofList]⟩

mutual

theorem keepsChildren_plantData : ∀ (s : Store) (d : ItemData), s.KeepsChildren →
    (s.plantData d).1.1.KeepsChildren
  | s, .node p r t fs bs ds, hs => by
    have hall := keepsChildren_plantAllData s ds hs
    rw [plantData]
    generalize s.plantAllData ds = x at *
    obtain ⟨⟨s₁, ids⟩, hsize, hids⟩ := x
    have hbelow : ∀ c ∈ (Slot.ofList ids).owned, c < s₁.size := by
      rw [Slot.owned_ofList]
      exact hids
    exact forall_addItem hall ⟨ids, rfl⟩ hbelow

theorem keepsChildren_plantAllData : ∀ (s : Store) (ds : List ItemData), s.KeepsChildren →
    (s.plantAllData ds).1.1.KeepsChildren
  | s, [], hs => by
    rw [plantAllData]
    exact hs
  | s, d :: ds, hs => by
    have hrest := keepsChildren_plantAllData (s.plantData d).1.1 ds (keepsChildren_plantData s d hs)
    rw [plantAllData]
    generalize s.plantData d = x at *
    obtain ⟨⟨s₁, id⟩, hsize, hid⟩ := x
    dsimp only at *
    generalize s₁.plantAllData ds = y at *
    obtain ⟨⟨s₂, ids⟩, hsize', hids⟩ := y
    exact hrest

end

theorem keepsChildren_assign (hs : s.KeepsChildren) {field : String} (hfield : field ≠ "child_items")
    {v : Value} (h : s.assign id field v = .ok t) : t.KeepsChildren := by
  unfold assign at h
  split at h
  · cases h
  · split at h
    · cases h
      exact forall_modify hs fun it hit => hit
    · split at h
      · rename_i hchildren
        exact absurd (beq_iff_eq.1 hchildren) hfield
      · split at h
        · cases h
          exact forall_modify hs fun it hit => hit
        · split at h
          · cases h
            exact hs
          · cases h

theorem keepsChildren_perform (hs : s.KeepsChildren) {c : Call}
    (hc : ∀ id v, c ≠ .assign id "child_items" v) : (s.perform c).KeepsChildren := by
  have hperforms := performs_perform s c
  generalize s.perform c = t at hperforms ⊢
  cases hperforms with
  | refused => exact hs
  | newItem path files children =>
    rw [newItem, add]
    dsimp only
    exact forall_addItem hs ⟨_, rfl⟩ _
  | construct hd => exact keepsChildren_plantData s _ hs
  | assign h =>
    refine keepsChildren_assign hs ?_ h
    rintro rfl
    exact hc _ _ rfl
  | rewrites hid h => exact forall_rewrites hs (fun _ _ hit => hit) h
  | index fs st root ts => exact keepsChildren_plantAllData s _ hs

theorem keepsChildren_foldl_perform (hs : s.KeepsChildren) {cs : List Call}
    (hcs : ∀ id v, Call.assign id "child_items" v ∉ cs) : (cs.foldl perform s).KeepsChildren := by
  induction cs generalizing s with
  | nil => exact hs
  | cons c cs ih =>
    refine ih (keepsChildren_perform hs fun id v hc => ?_) fun id v h =>
      hcs id v (List.mem_cons_of_mem c h)
    exact hcs id v (hc ▸ List.mem_cons_self)

/-! ### The tree from an item down -/

theorem exists_areTrees {ids : List Nat}
    (h : ∀ c ∈ ids, ∃ u : Rose Nat, u.root = c ∧ s.IsTree u) :
    ∃ us : List (Rose Nat), us.map Rose.root = ids ∧ s.AreTrees us := by
  induction ids with
  | nil => exact ⟨[], rfl, trivial⟩
  | cons c ids ih =>
    obtain ⟨⟨u, hroot, hu⟩, h⟩ := List.forall_mem_cons.1 h
    obtain ⟨us, hroots, hus⟩ := ih h
    exact ⟨u :: us, congrArg₂ List.cons hroot hroots, hu, hus⟩

theorem exists_isTree (hs : s.KeepsChildren) (hit : s.get? id = some it) :
    ∃ u : Rose Nat, u.root = id ∧ s.IsTree u := by
  -- children are older, whichever of the items that share them the descent comes from
  induction id using Nat.strong_induction_on generalizing it with
  | _ id ih =>
    obtain ⟨ids, hids⟩ := hs id it hit
    have hbelow : ∀ c ∈ ids, ∃ u : Rose Nat, u.root = c ∧ s.IsTree u := by
      intro c hc
      have hchild : s.IsChild c id := ⟨it, hit, by rwa [hids, Slot.owned_ofList]⟩
      obtain ⟨it', hit'⟩ := hchild.exists_get?
      exact ih c hchild.lt hit'
    obtain ⟨us, hroots, hus⟩ := exists_areTrees hbelow
    exact ⟨.node id us, rfl, ⟨it, hit, hroots ▸ hids⟩, hus⟩

/-! ### A descent that hands the items on -/

section
variable {m : Type → Type} [Monad m]

/-- Hands an item to `visit`, then each child with what is below it. -/
def walkWith (s : Store) (visit : Nat → m Unit) (id : Nat) : ExceptT Misuse m Unit := do
  ExceptT.lift (visit id)
  let ms ← ExceptT.mk (pure (s.children id))
  forM ms fun x => do
    let c : Fin id ← ExceptT.mk (pure (x.own? "walk"))
    s.walkWith visit c.val
termination_by id
decreasing_by exact c.isLt

theorem ok_bind [LawfulMonad m] {α β : Type} (a : α) (f : α → ExceptT Misuse m β) :
    (ExceptT.mk (pure (.ok a)) >>= f) = f a :=
  pure_bind (m := ExceptT Misuse m) a f

theorem lift_bind [LawfulMonad m] {α β : Type} (x : m α) (f : α → m β) :
    (ExceptT.lift (x >>= f) : ExceptT Misuse m β) =
      ExceptT.lift x >>= fun a => ExceptT.lift (f a) :=
  monadLift_bind (n := ExceptT Misuse m) x f

mutual

theorem walkWith_of_isTree [LawfulMonad m] (visit : Nat → m Unit) : ∀ u : Rose Nat, s.IsTree u →
    s.walkWith visit u.root = ExceptT.lift (forM u.preorder visit)
  | .node id us, ⟨⟨it, hit, hchildren⟩, hus⟩ => by
    obtain ⟨cs, hcs, hown⟩ := children_of_ofList hit hchildren
    rw [Rose.root, walkWith, hown, ok_bind, forM_of_areTrees visit cs us hcs hus, Rose.preorder,
      List.forM_cons, lift_bind]

theorem forM_of_areTrees [LawfulMonad m] (visit : Nat → m Unit) {n : Nat} :
    ∀ (cs : List (Fin n)) (us : List (Rose Nat)), cs.map (·.val) = us.map Rose.root →
      s.AreTrees us → (forM (cs.map Member.own) fun x => do
        let c : Fin n ← ExceptT.mk (pure (x.own? "walk"))
        s.walkWith visit c.val) = ExceptT.lift (forM (Rose.preorderAll us) visit)
  | [], [], _, _ => (monadLift_pure (m := m) (n := ExceptT Misuse m) ()).symm
  | c :: cs, u :: us, hcs, ⟨hu, hus⟩ => by
    obtain ⟨hc, hcs⟩ := List.cons.inj hcs
    rw [List.map_cons, List.forM_cons, forM_of_areTrees visit cs us hcs hus, Rose.preorderAll,
      List.forM_append, lift_bind, ← walkWith_of_isTree visit u hu, ← hc]
    exact congrArg (· >>= _) (ok_bind c _)
  | [], _ :: _, h, _ => nomatch h
  | _ :: _, [], h, _ => nomatch h

end

end

/-! ### A descent that waits after each item -/

/-- Where a descent stands: before an item, behind it, at the children that are left, or within what
is below a child. -/
inductive Generator
  | before (id : Nat)
  | behind (id : Nat)
  | left (ms : List (Member Nat))
  | within (inner : Generator) (ms : List (Member Nat))

/-- What a descent does next: it gives an item, it goes on, it is done, or it cannot go on. -/
inductive Turn
  | gives (id : Nat) (g : Generator)
  | goesOn (g : Generator)
  | done
  | fails (f : Misuse)

namespace Generator
variable {g : Generator} {ms : List (Member Nat)} {is js : List Nat}

def turn (s : Store) : Generator → Turn
  | .before id => .gives id (.behind id)
  | .behind id => match s.get? id with
    | none => .done
    | some it => match it.children.members with
      | .ok ms => .goesOn (.left ms)
      | .error f => .fails f
  | .left [] => .done
  | .left (m :: ms) => match m.own? "iter_items" with
    | .ok c => .goesOn (.within (.before c) ms)
    | .error f => .fails f
  | .within g ms => match g.turn s with
    | .gives id g' => .gives id (.within g' ms)
    | .goesOn g' => .goesOn (.within g' ms)
    | .done => .goesOn (.left ms)
    | .fails f => .fails f

/-- That a descent gives these items, one after the other, and is then done. -/
inductive Gives (s : Store) : Generator → List Nat → Prop
  | done {g : Generator} (h : g.turn s = .done) : Gives s g []
  | goesOn {g g' : Generator} {is : List Nat} (h : g.turn s = .goesOn g') (hg : Gives s g' is) :
    Gives s g is
  | gives {g g' : Generator} {id : Nat} {is : List Nat} (h : g.turn s = .gives id g')
    (hg : Gives s g' is) : Gives s g (id :: is)

theorem Gives.unique (h : Gives s g is) (h' : Gives s g js) : is = js := by
  induction h generalizing js with
  | done h =>
    cases h' with
    | done => rfl
    | goesOn h' => cases h.symm.trans h'
    | gives h' => cases h.symm.trans h'
  | goesOn h _ ih =>
    cases h' with
    | done h' => cases h.symm.trans h'
    | goesOn h' hg =>
      cases h.symm.trans h'
      exact ih hg
    | gives h' => cases h.symm.trans h'
  | gives h _ ih =>
    cases h' with
    | done h' => cases h.symm.trans h'
    | goesOn h' => cases h.symm.trans h'
    | gives h' hg =>
      cases h.symm.trans h'
      exact congrArg _ (ih hg)

theorem Gives.within (h : Gives s g is) (hms : Gives s (.left ms) js) :
    Gives s (.within g ms) (is ++ js) := by
  induction h with
  | done h => exact .goesOn (by rw [turn, h]) hms
  | goesOn h _ ih => exact .goesOn (by rw [turn, h]) ih
  | gives h _ ih => exact .gives (by rw [turn, h]) ih

mutual

theorem gives_of_isTree : ∀ u : Rose Nat, s.IsTree u → Gives s (.before u.root) u.preorder
  | .node id us, ⟨⟨it, hit, hchildren⟩, hus⟩ => by
    have hturn : (Generator.behind id).turn s = .goesOn (.left ((us.map Rose.root).map .own)) := by
      simp only [turn, hit, hchildren]
      rfl
    exact .gives rfl (.goesOn hturn (gives_of_areTrees us hus))

theorem gives_of_areTrees : ∀ us : List (Rose Nat), s.AreTrees us →
    Gives s (.left ((us.map Rose.root).map .own)) (Rose.preorderAll us)
  | [], _ => .done rfl
  | u :: us, ⟨hu, hus⟩ => .goesOn rfl ((gives_of_isTree u hu).within (gives_of_areTrees us hus))

end

end Generator

/-! ### The same items either way -/

theorem forall₂_walk_of_areTrees (asked : String) : ∀ us : List (Rose Nat), s.AreTrees us →
    List.Forall₂ (fun c is => s.walk asked c = .ok is) (us.map Rose.root) (us.map Rose.preorder)
  | [], _ => .nil
  | u :: us, ⟨hu, hus⟩ => .cons (walk_of_isTree asked u hu) (forall₂_walk_of_areTrees asked us hus)

/-- That a descent from an item meets just these items, in this order, whichever way it is made. -/
structure Visits (s : Store) (id : Nat) (visits : List Nat) : Prop where
  walk : s.walk "walk" id = .ok visits
  iterItems : s.walk "iter_items" id = .ok visits
  handsOn : ∀ (m : Type → Type) [Monad m] [LawfulMonad m] (visit : Nat → m Unit),
    s.walkWith visit id = ExceptT.lift (forM visits visit)
  gives : ∀ is, Generator.Gives s (.before id) is ↔ is = visits
  /-- The item is met first, then what each child meets, in turn. -/
  inTurn : ∃ it ids below, s.get? id = some it ∧ it.children = .ofList ids ∧
    List.Forall₂ (fun c is => s.walk "walk" c = .ok is) ids below ∧ visits = id :: below.flatten
  unfolds : ∃ u : Rose Nat, u.root = id ∧ s.IsTree u ∧ visits = u.preorder ∧
    visits.length = u.count

theorem visits_of_isTree {u : Rose Nat} (hu : s.IsTree u) : s.Visits u.root u.preorder where
  walk := walk_of_isTree "walk" u hu
  iterItems := walk_of_isTree "iter_items" u hu
  handsOn m _ _ visit := walkWith_of_isTree visit u hu
  gives is := by
    have hgives := Generator.gives_of_isTree u hu
    exact ⟨fun h => h.unique hgives, fun h => h ▸ hgives⟩
  inTurn := by
    obtain ⟨id, us⟩ := u
    obtain ⟨⟨it, hit, hchildren⟩, hus⟩ := hu
    refine ⟨it, us.map Rose.root, us.map Rose.preorder, hit, hchildren,
      forall₂_walk_of_areTrees "walk" us hus, ?_⟩
    rw [Rose.preorder, Rose.preorderAll_eq_flatten]
    rfl
  unfolds := ⟨u, rfl, hu, rfl, Rose.length_preorder u⟩

/-- Whatever calls are made, so long as nothing is put in the place of an item's children: no item is
below itself, and from each item both ways down come to an end, having met the same items. A child
that is named is one of these items. -/
theorem visits_run (cs : List Call) (hcs : ∀ id v, Call.assign id "child_items" v ∉ cs) :
    (∀ id, ¬Relation.TransGen (run cs).IsChild id id) ∧
    (∀ id it, (run cs).get? id = some it → ∃ visits, (run cs).Visits id visits) ∧
    ∀ id place c, (run cs).child id place = .ok c →
      (run cs).IsChild c id ∧ ∃ it, (run cs).get? c = some it := by
  have hkeeps : (run cs).KeepsChildren := keepsChildren_foldl_perform keepsChildren_empty hcs
  refine ⟨not_transGen_isChild (run cs), fun id it hit => ?_, fun id place c h => ?_⟩
  · obtain ⟨u, rfl, hu⟩ := exists_isTree hkeeps hit
    exact ⟨u.preorder, visits_of_isTree hu⟩
  · obtain ⟨it, hit⟩ := exists_get?_of_child h
    obtain ⟨ids, hids⟩ := hkeeps id it hit
    have hchild := isChild_of_child hit hids h
    exact ⟨hchild, hchild.exists_get?⟩

/-- An item that is twice a child of one item, and once more of another; one with an item in its data. -/
def sampleShared : List Call :=
  [.newItem "tag.md" [] [], .newItem "x/tag.md" [] [0, 0],
    .construct [(.str "path", .str "y/tag.md"),
      (.str "child_items", .list [.map [(.str "path", .str "y/z/tag.md")]])],
    .newItem "tag.md" [] [1, 0, 3], .addBlock 4 (.str "title") (.str "t")]

theorem visits_run_sample : (run sampleShared).Visits 4 [4, 1, 0, 0, 0, 3, 2] := by
  have hcs : ∀ id v, Call.assign id "child_items" v ∉ sampleShared := by simp [sampleShared]
  have hchildren : ∀ id ids, ((run sampleShared).get? id).map (·.children.owned) = some ids →
      ∃ it, (run sampleShared).get? id = some it ∧ it.children = .ofList ids :=
    fun id ids => exists_children_eq (keepsChildren_foldl_perform keepsChildren_empty hcs)
  have htree : (run sampleShared).IsTree
      (.node 4 [.node 1 [.node 0 [], .node 0 []], .node 0 [], .node 3 [.node 2 []]]) := by
    have h : (run sampleShared).IsTree (.node 0 []) :=
      ⟨hchildren 0 [] (by decide +kernel), trivial⟩
    exact ⟨hchildren 4 [1, 0, 3] (by decide +kernel),
      ⟨hchildren 1 [0, 0] (by decide +kernel), h, h, trivial⟩, h,
      ⟨hchildren 3 [2] (by decide +kernel), ⟨hchildren 2 [] (by decide +kernel), trivial⟩, trivial⟩,
      trivial⟩
  obtain ⟨it, hit, -⟩ := htree.1
  obtain ⟨visits, hvisits⟩ := (visits_run sampleShared hcs).2.1 4 it hit
  obtain rfl : visits = [4, 1, 0, 0, 0, 3, 2] :=
    Except.ok.inj (hvisits.walk.symm.trans (walk_of_isTree "walk" _ htree))
  exact hvisits

end Store
end DocTree
