import Mathlib
import DocTree.Proofs.Except
import DocTree.Proofs.FileSystem
import DocTree.Proofs.Rose
import DocTree.Proofs.Store

/-!
# Depths in a report

The depths of a report are kept by the numbers of items, and set in a pass of its own over the tree. In
a tree where no item stands twice each comes out as the number of items above (`outline_of_isTree`).
There are rows unless a path holds a null, which is no file name, and then the rows tell the tree
(`rows_of_isTree`).
-/

namespace DocTree

namespace Store

/-- The path of the item with a number. -/
def path? (s : Store) (id : Nat) : Option String := (s.get? id).map Item.path

mutual

theorem exists_get?_of_isTree {s : Store} : ∀ t : Rose Nat, s.IsTree t →
    ∀ i ∈ t.preorder, ∃ it, s.get? i = some it
  | .node _ ts, ⟨⟨it, hit, _⟩, hts⟩, i, hi => by
    rcases List.mem_cons.1 hi with rfl | hi
    · exact ⟨it, hit⟩
    · exact exists_get?_of_areTrees ts hts i hi

theorem exists_get?_of_areTrees {s : Store} : ∀ ts : List (Rose Nat), s.AreTrees ts →
    ∀ i ∈ Rose.preorderAll ts, ∃ it, s.get? i = some it
  | [], _, _, hi => nomatch hi
  | t :: ts, ⟨ht, hts⟩, i, hi => by
    rcases List.mem_append.1 hi with hi | hi
    · exact exists_get?_of_isTree t ht i hi
    · exact exists_get?_of_areTrees ts hts i hi

end

end Store

/-- A source has a fingerprint, be it empty, unless its path holds a null. -/
theorem Item.exists_fingerprint_iff (fs : FileSystem) (it : Item) :
    (∃ hash, it.fingerprint fs = .ok hash) ↔ '\x00' ∉ it.path.toList := by
  rw [← FileSystem.hasNull_parse, ← FileSystem.lookup_eq_nullCharacter fs, Item.fingerprint,
    FileSystem.read]
  cases fs.lookup (Path.parse it.path) with
  | ok r =>
    obtain ⟨l, e⟩ := r
    cases e <;> simp
  | error e => cases e <;> simp

namespace Report
variable {s : Store} {fs : FileSystem} {base : String}

/-! ### The depths -/

/-- That depths have those of a list, and else are what they were. -/
structure Sets (d d' : Nat → Nat) (xs : List (Nat × Nat)) : Prop where
  set : ∀ x ∈ xs, d' x.2 = x.1
  kept : ∀ i ∉ xs.map Prod.snd, d' i = d i

theorem Sets.append {d₁ d₂ d₃ : Nat → Nat} {xs ys : List (Nat × Nat)} (h : Sets d₁ d₂ xs)
    (h' : Sets d₂ d₃ ys) (hd : (xs.map Prod.snd).Disjoint (ys.map Prod.snd)) :
    Sets d₁ d₃ (xs ++ ys) := by
  constructor
  · intro x hx
    rcases List.mem_append.1 hx with hx | hx
    · rw [h'.kept x.2 (hd (List.mem_map_of_mem hx)), h.set x hx]
    · exact h'.set x hx
  · intro i hi
    rw [List.map_append, List.mem_append, not_or] at hi
    rw [h'.kept i hi.2, h.kept i hi.1]

theorem foldl_setDepth (n : Nat) (cs : List Nat) (d : Nat → Nat) (i : Nat) :
    cs.foldl (fun d c => setDepth d c n) d i = if i ∈ cs then n else d i := by
  induction cs generalizing d with
  | nil => rfl
  | cons c cs ih =>
    rw [List.foldl_cons, ih, setDepth]
    by_cases hi : i ∈ cs <;> by_cases hc : i = c <;> simp [hi, hc]

/-- A visit sets the depths of the children. -/
theorem visitChildren_eq {id : Nat} {it : Item} {cs : List Nat} (hit : s.get? id = some it)
    (hchildren : it.children = .ofList cs) (d : Nat → Nat) (i : Nat) :
    visitChildren s d id i = if i ∈ cs then d id + 1 else d i := by
  unfold visitChildren
  rw [hit, Option.map_some, Option.getD_some, hchildren, Slot.owned_ofList, foldl_setDepth]

mutual

/-- Visits to a tree set its depths, that of the root being set before. The root is visited in front of
its children, and no other visit sets their depths again. -/
theorem sets_levels : ∀ {n : Nat} {d : Nat → Nat} (t : Rose Nat), s.IsTree t → t.preorder.Nodup →
    d t.root = n → Sets d (t.preorder.foldl (visitChildren s) d) (t.levels n)
  | n, d, .node id ts, ⟨⟨it, hit, hchildren⟩, hts⟩, hnodup, hroot => by
    obtain ⟨hid, hbelow⟩ := List.nodup_cons.1 hnodup
    have hvisit := visitChildren_eq hit hchildren d
    have hroots : ∀ t ∈ ts, visitChildren s d id t.root = n + 1 := by
      intro t ht
      rw [hvisit, if_pos (List.mem_map_of_mem ht), hroot.symm]
      rfl
    obtain ⟨hset, hkept⟩ := sets_levelsAll ts hts hbelow hroots
    rw [Rose.map_snd_levelsAll] at hkept
    -- nothing at or below the children is the item itself
    have hno : ∀ i ∉ Rose.preorderAll ts, visitChildren s d id i = d i := by
      intro i hi
      rw [hvisit, if_neg]
      intro hi'
      obtain ⟨t, ht, rfl⟩ := List.mem_map.1 hi'
      exact hi (Rose.root_mem_preorderAll ht)
    constructor
    · intro x hx
      rcases List.mem_cons.1 hx with rfl | hx
      · exact (hkept id hid).trans ((hno id hid).trans hroot)
      · exact hset x hx
    · intro i hi
      rw [Rose.map_snd_levels, Rose.preorder, List.mem_cons, not_or] at hi
      exact (hkept i hi.2).trans (hno i hi.2)

theorem sets_levelsAll : ∀ {n : Nat} {d : Nat → Nat} (ts : List (Rose Nat)), s.AreTrees ts →
    (Rose.preorderAll ts).Nodup → (∀ t ∈ ts, d t.root = n) →
      Sets d ((Rose.preorderAll ts).foldl (visitChildren s) d) (Rose.levelsAll n ts)
  | _, _, [], _, _, _ => ⟨fun _ hx => absurd hx List.not_mem_nil, fun _ _ => rfl⟩
  | n, d, t :: ts, ⟨ht, hts⟩, hnodup, hroots => by
    obtain ⟨ht', hts', hdisjoint⟩ := List.nodup_append'.1 hnodup
    have hfirst := sets_levels t ht ht' (hroots t (List.mem_cons_self ..))
    -- the roots of the next trees keep their depths
    have hroots' : ∀ u ∈ ts, t.preorder.foldl (visitChildren s) d u.root = n := by
      intro u hu
      rw [hfirst.kept, hroots u (List.mem_cons_of_mem _ hu)]
      rw [Rose.map_snd_levels]
      exact fun h => hdisjoint h (Rose.root_mem_preorderAll hu)
    have hrest := sets_levelsAll ts hts hts' hroots'
    rw [Rose.preorderAll, List.foldl_append, Rose.levelsAll]
    refine hfirst.append hrest ?_
    rwa [Rose.map_snd_levels, Rose.map_snd_levelsAll]

end

theorem filterMap_get? {d : Nat → Nat} {xs : List (List Nat × Nat)}
    (h : ∀ x ∈ xs, (∃ it, s.get? x.2 = some it) ∧ d x.2 = x.1.length) :
    List.Forall₂ (fun x y => s.get? x.2 = some y.2 ∧ y.1 = x.1.length) xs
      ((xs.map Prod.snd).filterMap fun id => (s.get? id).map fun it => (d id, it)) := by
  induction xs with
  | nil => exact .nil
  | cons x xs ih =>
    obtain ⟨⟨it, hit⟩, hd⟩ := h x (List.mem_cons_self ..)
    have hrest := ih fun y hy => h y (List.mem_cons_of_mem _ hy)
    rw [List.map_cons, List.filterMap_cons, hit]
    exact .cons ⟨hit, hd⟩ hrest

/-- An outline has the items of a tree in pre-order, each with the number of items above it. -/
theorem outline_of_isTree {t : Rose Nat} (h : s.IsTree t) (hnodup : t.preorder.Nodup) :
    ∃ items, outline s t.root = .ok items ∧
      List.Forall₂ (fun x y => s.get? x.2 = some y.2 ∧ y.1 = x.1.length) (t.outline []) items := by
  refine ⟨_, bind_eq_ok.2 ⟨_, Store.walk_of_isTree "walk" t h, rfl⟩, ?_⟩
  have hsets : Sets (fun _ => 0) (depths s t.preorder) (t.levels 0) := sets_levels t h hnodup rfl
  generalize depths s t.preorder = d at hsets
  rw [← Rose.map_snd_outline]
  refine filterMap_get? fun x hx => ⟨?_, ?_⟩
  · exact Store.exists_get?_of_isTree t h x.2 (Rose.map_snd_outline t ▸ List.mem_map_of_mem hx)
  · exact hsets.set (x.1.length, x.2) (Rose.levels_eq_outline t ▸ List.mem_map_of_mem hx)

/-- The depths and paths of an outline are those of the items it was made for. -/
theorem map_outline {xs : List (List Nat × Nat)} {items : List (Nat × Item)}
    (h : List.Forall₂ (fun x y => s.get? x.2 = some y.2 ∧ y.1 = x.1.length) xs items) :
    items.map (fun y => (y.1, some y.2.path)) = xs.map fun x => (x.1.length, s.path? x.2) := by
  induction h with
  | nil => rfl
  | cons hx _ ih =>
    rw [List.map_cons, List.map_cons, ih, Store.path?, hx.1, hx.2]
    rfl

/-! ### The rows -/

/-- That a row is told of an item, with the number of items above it as depth. -/
def Tells (s : Store) (fs : FileSystem) (base : String) (x : List Nat × Nat) (r : Row) : Prop :=
  ∃ it, s.get? x.2 = some it ∧ r.depth = x.1.length ∧ row fs base r.depth it = .ok r

/-- What the rows of a tree tell: of each item in pre-order one row, of which the depth is at most one
more than that in front. -/
structure Told (s : Store) (fs : FileSystem) (base : String) (t : Rose Nat) (rs : List Row) :
    Prop where
  rows : List.Forall₂ (Tells s fs base) (t.outline []) rs
  first : (rs.map Row.depth).head? = some 0
  next : (rs.map Row.depth).IsChain fun m n => 1 ≤ n ∧ n ≤ m + 1

theorem exists_row_iff {n : Nat} {it : Item} :
    (∃ r, row fs base n it = .ok r) ↔ '\x00' ∉ it.path.toList := by
  rw [← Item.exists_fingerprint_iff fs]
  constructor
  · rintro ⟨r, hr⟩
    obtain ⟨hash, hhash, -⟩ := bind_eq_ok.1 hr
    exact ⟨hash, hhash⟩
  · rintro ⟨hash, hhash⟩
    exact ⟨_, bind_eq_ok.2 ⟨hash, hhash, rfl⟩⟩

theorem depth_path_of_row {n : Nat} {it : Item} {r : Row} (h : row fs base n it = .ok r) :
    r.depth = n ∧ r.path = it.path := by
  obtain ⟨hash, -, ⟨⟩⟩ := bind_eq_ok.1 h
  exact ⟨rfl, rfl⟩

theorem rows_eq_ok {id : Nat} {items : List (Nat × Item)} (h : outline s id = .ok items)
    {rs : List Row} : rows s fs id base = .ok rs ↔
      items.mapM (fun x => row fs base x.1 x.2) = .ok rs := by
  rw [rows, h]
  exact mapError_eq_ok

theorem forall₂_trans {α β γ : Type} {R : α → β → Prop} {R' : β → γ → Prop} {T : α → γ → Prop}
    (hT : ∀ x y z, R x y → R' y z → T x z) {xs : List α} {ys : List β} {zs : List γ}
    (h : List.Forall₂ R xs ys) (h' : List.Forall₂ R' ys zs) : List.Forall₂ T xs zs := by
  induction h generalizing zs with
  | nil =>
    cases h'
    exact .nil
  | cons hxy _ ih =>
    obtain _ | ⟨hyz, h'⟩ := h'
    exact .cons (hT _ _ _ hxy hyz) (ih h')

theorem tells_of_items {xs : List (List Nat × Nat)} {items : List (Nat × Item)} {rs : List Row}
    (h : List.Forall₂ (fun x y => s.get? x.2 = some y.2 ∧ y.1 = x.1.length) xs items)
    (hrs : List.Forall₂ (fun y r => row fs base y.1 y.2 = .ok r) items rs) :
    List.Forall₂ (Tells s fs base) xs rs := by
  refine forall₂_trans ?_ h hrs
  rintro x y r ⟨hit, hdepth⟩ hr
  obtain ⟨hn, -⟩ := depth_path_of_row hr
  exact ⟨y.2, hit, hn.trans hdepth, by rwa [hn]⟩

theorem map_of_tells {xs : List (List Nat × Nat)} {rs : List Row}
    (h : List.Forall₂ (Tells s fs base) xs rs) :
    rs.map (fun r => (r.depth, some r.path)) = xs.map fun x => (x.1.length, s.path? x.2) := by
  induction h with
  | nil => rfl
  | cons hr _ ih =>
    obtain ⟨it, hit, hdepth, hrow⟩ := hr
    obtain ⟨-, hpath⟩ := depth_path_of_row hrow
    rw [List.map_cons, List.map_cons, ih, Store.path?, hit, hdepth, hpath]
    rfl

/-- The depths and paths that are told are those of the tree of paths. -/
theorem levels_of_tells {t : Rose Nat} {rs : List Row}
    (h : List.Forall₂ (Tells s fs base) (t.outline []) rs) :
    rs.map (fun r => (r.depth, some r.path)) = (t.map s.path?).levels 0 := by
  rw [map_of_tells h, Rose.levels_map, Rose.levels_eq_outline, List.map_map]
  rfl

variable {t : Rose Nat}

theorem told_of_rows (h : s.IsTree t) (hnodup : t.preorder.Nodup) {rs : List Row}
    (hrs : rows s fs t.root base = .ok rs) : Told s fs base t rs := by
  obtain ⟨items, hitems, hall⟩ := outline_of_isTree h hnodup
  have htells := tells_of_items hall (mapM_eq_ok.1 ((rows_eq_ok hitems).1 hrs))
  have hdepths : rs.map Row.depth = ((t.map s.path?).levels 0).map Prod.fst := by
    rw [← levels_of_tells htells, List.map_map]
    rfl
  refine ⟨htells, ?_, ?_⟩
  · rw [hdepths, List.head?_map, Rose.head?_levels]
    rfl
  · rw [hdepths, List.isChain_map]
    exact Rose.isChain_levels 0 _

/-- There are rows of a tree if and only if no path in it holds a null. -/
theorem exists_rows_iff (h : s.IsTree t) (hnodup : t.preorder.Nodup) :
    (∃ rs, rows s fs t.root base = .ok rs) ↔
      ∀ i ∈ t.preorder, ∀ p, s.path? i = some p → '\x00' ∉ p.toList := by
  obtain ⟨items, hitems, hall⟩ := outline_of_isTree h hnodup
  have hpaths : items.map (fun y => some y.2.path) = t.preorder.map s.path? := by
    have hlevels := congrArg (List.map Prod.snd) (map_outline hall)
    rw [List.map_map, List.map_map] at hlevels
    rw [← Rose.map_snd_outline, List.map_map]
    exact hlevels
  simp only [rows_eq_ok hitems, exists_mapM_iff, exists_row_iff]
  constructor
  · intro hnull i hi p hp
    have hmem : s.path? i ∈ items.map fun y => some y.2.path := hpaths ▸ List.mem_map_of_mem hi
    obtain ⟨y, hy, hyi⟩ := List.mem_map.1 hmem
    cases hyi.trans hp
    exact hnull y hy
  · intro hnull y hy
    have hmem : some y.2.path ∈ t.preorder.map s.path? := hpaths ▸ List.mem_map_of_mem hy
    obtain ⟨i, hi, hiy⟩ := List.mem_map.1 hmem
    exact hnull i hi y.2.path hiy

/-- In a tree where no item stands twice, as in those of an index, there are rows if and only if no
path holds a null. They tell of each item, in pre-order, how many are above it; and a tree of which the
same depths and paths are told has the same shape, and the same path at each place. -/
theorem rows_of_isTree (s : Store) :
    (∀ ts : List ItemTree, ∃ us : List (Rose Nat), us.map Rose.root = (s.plantAll ts).1.2 ∧
      ∀ t ∈ us, (s.plantAll ts).1.1.IsTree t ∧ t.preorder.Nodup) ∧
    ∀ t : Rose Nat, s.IsTree t → t.preorder.Nodup → ∀ (fs : FileSystem) (base : String),
      ((∃ rs, rows s fs t.root base = .ok rs) ↔
        ∀ i ∈ t.preorder, ∀ p, s.path? i = some p → '\x00' ∉ p.toList) ∧
      ∀ rs, rows s fs t.root base = .ok rs → Told s fs base t rs ∧
        ∀ (s' : Store) (fs' : FileSystem) (base' : String) (t' : Rose Nat) (rs' : List Row),
          s'.IsTree t' → t'.preorder.Nodup → rows s' fs' t'.root base' = .ok rs' →
          rs'.map (fun r => (r.depth, r.path)) = rs.map (fun r => (r.depth, r.path)) →
          t'.map s'.path? = t.map s.path? := by
  refine ⟨s.exists_isTree_plantAll, fun t h hnodup fs base => ?_⟩
  refine ⟨exists_rows_iff h hnodup, fun rs hrs => ?_⟩
  have htold := told_of_rows h hnodup hrs
  refine ⟨htold, fun s' fs' base' t' rs' h' hnodup' hrs' heq => ?_⟩
  have htold' := told_of_rows h' hnodup' hrs'
  refine Rose.levels_inj (n := 0) ?_
  rw [← levels_of_tells htold.rows, ← levels_of_tells htold'.rows]
  have hsome := congrArg (List.map fun x : Nat × String => (x.1, some x.2)) heq
  rwa [List.map_map, List.map_map] at hsome

/-- A tag with two tags below it, one of which has one more below it. -/
def sample : Store :=
  (((Store.empty.add "a/b/tag.md" [] [] []).add "a/tag.md" [] [] [⟨0, by decide⟩]).add
    "c/tag.md" [] [] []).add "tag.md" [] [] [⟨1, by simp [Store.add]⟩, ⟨2, by simp [Store.add]⟩]

theorem isTree_sample : sample.IsTree (.node 3 [.node 1 [.node 0 []], .node 2 []]) :=
  ⟨⟨_, rfl, rfl⟩, ⟨⟨_, rfl, rfl⟩, ⟨⟨_, rfl, rfl⟩, trivial⟩, trivial⟩, ⟨⟨_, rfl, rfl⟩, trivial⟩,
    trivial⟩

/-- Of its four items rows are told, with no source to be read. -/
theorem rows_of_isTree_sample : ∃ rs, rows sample ⟨[], []⟩ 3 "" = .ok rs ∧
    rs.map (fun r => (r.depth, some r.path)) =
      [(0, some "tag.md"), (1, some "a/tag.md"), (2, some "a/b/tag.md"), (1, some "c/tag.md")] := by
  have hnull : ∀ i ∈ [3, 1, 0, 2], ∀ p, sample.path? i = some p → '\x00' ∉ p.toList := by
    have hall : ∀ p ∈ ["tag.md", "a/tag.md", "a/b/tag.md", "c/tag.md"], '\x00' ∉ p.toList := by
      decide +kernel
    intro i hi p hp
    have hmem : some p ∈ [3, 1, 0, 2].map sample.path? := List.mem_map.2 ⟨i, hi, hp⟩
    exact hall p ((List.mem_map_of_injective (Option.some_injective _)).1 hmem)
  obtain ⟨hrows, htold⟩ := (rows_of_isTree sample).2 _ isTree_sample (by decide) ⟨[], []⟩ ""
  obtain ⟨rs, hrs⟩ := hrows.2 hnull
  exact ⟨rs, hrs, map_of_tells (htold rs hrs).1.rows⟩

/-- A tag that no file can be named for has no row. -/
theorem not_forall_exists_rows : ¬ ∀ (s : Store) (fs : FileSystem) (base : String) (t : Rose Nat),
    s.IsTree t → t.preorder.Nodup → ∃ rs, rows s fs t.root base = .ok rs := by
  intro h
  have htree : (Store.empty.add "\x00/tag.md" [] [] []).IsTree (.node 0 []) :=
    ⟨⟨_, rfl, rfl⟩, trivial⟩
  have hnull := (exists_rows_iff htree (by decide)).1 (h _ ⟨[], []⟩ "" _ htree (by decide))
  exact hnull 0 (by decide) "\x00/tag.md" rfl (by decide)

end Report
end DocTree
