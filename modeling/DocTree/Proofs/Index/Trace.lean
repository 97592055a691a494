import Mathlib
import DocTree.Proofs.Index.Structure
import DocTree.Proofs.SourceFile.Marker

/-!
# What an index records

Records are made on the way up. Those of items tell the forest that is returned in post-order, each
with the number of its children; those of unknown items tell the directories whose source is no marker,
also in post-order (`topLevel_trace`). `Site.postorder` has the sources in this order, and what it is on
directories is said by `Path.GoesBefore`: what lies below goes first, and else the names decide where two
paths part.
-/

namespace DocTree

/-! ### Post-order -/

namespace ItemTree

mutual

/-- The items of a tree, each behind those below it. -/
def postorder : ItemTree → List ItemTree
  | .node p fs bs ts => postorderAll ts ++ [.node p fs bs ts]

/-- The items of a forest, each behind those below it. -/
def postorderAll : List ItemTree → List ItemTree
  | [] => []
  | t :: ts => t.postorder ++ postorderAll ts

end

theorem postorderAll_eq_flatMap (ts : List ItemTree) : postorderAll ts = ts.flatMap postorder := by
  induction ts with
  | nil => rfl
  | cons t ts ih => rw [postorderAll, ih, List.flatMap_cons]

theorem postorderAll_singleton (t : ItemTree) :
    postorderAll [t] = postorderAll t.children ++ [t] := by
  obtain ⟨p, fs, bs, ts⟩ := t
  rw [postorderAll, postorderAll, List.append_nil, postorder, children]

mutual

theorem postorder_perm : ∀ t : ItemTree, t.postorder.Perm t.preorder
  | .node p fs bs ts => by
    rw [postorder, preorder]
    exact (List.perm_append_singleton ..).trans ((postorderAll_perm ts).cons _)

/-- The items are the same in post-order and in pre-order. -/
theorem postorderAll_perm : ∀ ts : List ItemTree, (postorderAll ts).Perm (preorderAll ts)
  | [] => .refl _
  | t :: ts => (postorder_perm t).append (postorderAll_perm ts)

end

end ItemTree

namespace Path

/-- That of two paths the first comes first in post-order: it lies below the other one, or at the
earlier of two entries of a directory at which they part. -/
def GoesBefore (p q : Path) : Prop :=
  q.Above p ∨ ∃ a m n, m < n ∧ (child a m).AtOrAbove p ∧ (child a n).AtOrAbove q

theorem GoesBefore.asymm {p q : Path} (h : p.GoesBefore q) : ¬ q.GoesBefore p := by
  rintro h'
  -- no path lies at or below another one from which it parts
  have hpart : ∀ {p q : Path}, q.AtOrAbove p →
      ¬ ∃ a m n, m < n ∧ (child a m).AtOrAbove p ∧ (child a n).AtOrAbove q := by
    rintro p q hqp ⟨a, m, n, hmn, hp, hq⟩
    exact hmn.ne (hp.child_eq (hq.trans hqp))
  have hpart' : ∀ {p q : Path}, p.AtOrAbove q →
      ¬ ∃ a m n, m < n ∧ (child a m).AtOrAbove p ∧ (child a n).AtOrAbove q := by
    rintro p q hpq ⟨a, m, n, hmn, hp, hq⟩
    exact hmn.ne ((hp.trans hpq).child_eq hq)
  rcases h with h | h <;> rcases h' with h' | h'
  · exact h.2 (h.1.antisymm h'.1)
  · exact hpart' h.1 h'
  · exact hpart' h'.1 h
  · obtain ⟨a, m, n, hmn, hp, hq⟩ := h
    obtain ⟨b, k, l, hkl, hq', hp'⟩ := h'
    exact lt_asymm (orderKey_lt_of_atOrAbove_child hmn hp hq)
      (orderKey_lt_of_atOrAbove_child hkl hq' hp')

end Path

namespace Index

open ItemTree (postorderAll postorderAll_eq_flatMap postorderAll_perm postorderAll_singleton)

mutual

/-- The sources in a site, its own behind those below it. -/
def Site.postorder : Site → List Source
  | .failed _ => []
  | .directory below own => postorderOf below ++ own.toList

/-- The sources in sites, each behind those below it. -/
def postorderOf : List Site → List Source
  | [] => []
  | s :: ss => s.postorder ++ postorderOf ss

end

theorem postorderOf_eq_flatMap (ss : List Site) : postorderOf ss = ss.flatMap Site.postorder := by
  induction ss with
  | nil => rfl
  | cons s ss ih => rw [postorderOf, ih, List.flatMap_cons]

theorem Site.mem_postorder {s : Site} {x : Source} : x ∈ s.postorder ↔ x ∈ s.sources := by
  induction s with
  | failed f => exact Iff.rfl
  | directory below own ih =>
    rw [postorder, sources, List.mem_append, List.mem_append, or_comm, postorderOf_eq_flatMap,
      sourcesOf_eq_flatMap, List.mem_flatMap, List.mem_flatMap]
    refine or_congr_right (exists_congr fun s => and_congr_right fun hs => ih s hs)

/-! ### Records -/

/-- The records among events. -/
def recordsOf (es : List Event) : List Log.Record :=
  es.filterMap fun e => match e with
    | .record r => some r
    | .fault _ => none

theorem recordsOf_append (es es' : List Event) :
    recordsOf (es ++ es') = recordsOf es ++ recordsOf es' := List.filterMap_append ..

theorem Outcome.records_ofEvents {α : Type} {a b : α} {es : List Event}
    (h : (ofEvents a es).result = .ok b) : (ofEvents a es).records = recordsOf es := by
  induction es with
  | nil => rfl
  | cons e es ih =>
    cases e with
    | record r => exact congrArg (r :: ·) (ih h)
    | fault f => cases h

/-- The records of an event that are shown where all are asked for. -/
def traced (event : String) (rs : List Log.Record) : List Log.Record :=
  rs.filter fun r => r.isShown .debug && r.event == event

/-- What is recorded of an item. -/
def itemRecord (t : ItemTree) : Log.Record :=
  ⟨"mdindex.core.indexer", .debug, "indexer.item", [("path", .str t.path),
    ("type", .str t.type.name), ("children", .int t.children.length)]⟩

/-- What is recorded of the item of a source that has `n` children. -/
def Source.itemRecord (x : Source) (n : Nat) : Log.Record :=
  ⟨"mdindex.core.indexer", .debug, "indexer.item", [("path", .str x.itemPath),
    ("type", .str x.type.name), ("children", .int n)]⟩

/-- What is recorded of a source that is no marker. -/
def unknownRecord (skipped : Bool) (source : Path) : Log.Record :=
  ⟨"mdindex.core.indexer", .warning, "indexer.unknown_item", [("path", .str source.text),
    ("skipped", .bool skipped)]⟩

section
variable {event : String} (st : Settings)

theorem traced_append (rs rs' : List Log.Record) :
    traced event (rs ++ rs') = traced event rs ++ traced event rs' := List.filter_append ..

theorem traced_eventsOf (ss : List Site) : traced event (recordsOf (eventsOf st ss)) =
    ss.flatMap fun s => traced event (recordsOf (s.events st)) := by
  rw [eventsOf_eq_flatMap, recordsOf, List.filterMap_flatMap, traced, List.filter_flatMap]
  rfl

theorem postorderAll_itemsOf (ss : List Site) :
    postorderAll (itemsOf st ss) = ss.flatMap fun s => postorderAll (s.items st) := by
  simp only [itemsOf_eq_flatMap, postorderAll_eq_flatMap, List.flatMap_assoc]

/-- What is recorded of the blocks of a source are records of two other events. -/
theorem traced_populationEvents (h : event ≠ "parse.blocks_added")
    (h' : event ≠ "indexer.blocks_failed") (x : Source) :
    traced event (recordsOf (populationEvents st x)) = [] := by
  unfold populationEvents
  split
  · split
    · simp [recordsOf, traced, Population.addedRecord, h.symm]
    · split
      · simp [recordsOf, traced, record, h'.symm]
      · rfl
  · rfl

theorem recordsOf_ownEvents (n : Nat) (x : Source) :
    recordsOf (ownEvents st n (some x)) =
      (if x.type == .unknown then [unknownRecord st.skipUnknown x.path] else []) ++
        if x.isDropped st then [] else recordsOf (populationEvents st x) ++ [x.itemRecord n] := by
  have hunknown : recordsOf (if x.type == .unknown then [record .warning "indexer.unknown_item"
      [("path", .str x.itemPath), ("skipped", .bool st.skipUnknown)]] else []) =
      if x.type == .unknown then [unknownRecord st.skipUnknown x.path] else [] := by
    split <;> rfl
  rw [ownEvents, ← hunknown]
  split
  · rw [List.append_nil]
  · rw [recordsOf_append, recordsOf_append, List.append_assoc]
    rfl

/-- The records of items are those of the items of a site, in post-order. -/
theorem Site.traced_item (s : Site) : traced "indexer.item" (recordsOf (s.events st)) =
    (postorderAll (s.items st)).map itemRecord := by
  induction s with
  | failed f => rfl
  | directory below own ih =>
    have ih' : traced "indexer.item" (recordsOf (eventsOf st below)) =
        (postorderAll (itemsOf st below)).map itemRecord := by
      rw [traced_eventsOf, postorderAll_itemsOf, List.map_flatMap]
      exact List.flatMap_congr ih
    rw [events, items, recordsOf_append, traced_append, ih']
    cases own with
    | none => exact List.append_nil _
    | some x =>
      have hunknown : traced "indexer.item"
          (if x.type == .unknown then [unknownRecord st.skipUnknown x.path] else []) = [] := by
        split <;> rfl
      rw [recordsOf_ownEvents, traced_append, hunknown, List.nil_append, gather]
      split
      · exact List.append_nil _
      · rw [traced_append, traced_populationEvents st (by decide) (by decide), List.nil_append,
          postorderAll_singleton, List.map_append, ← length_itemsOf]
        rfl

/-- The records of unknown items are those of the sources that are no markers, in post-order. -/
theorem Site.traced_unknown (s : Site) :
    traced "indexer.unknown_item" (recordsOf (s.events st)) =
      (s.postorder.filter (·.type == .unknown)).map fun x => unknownRecord st.skipUnknown x.path := by
  induction s with
  | failed f => rfl
  | directory below own ih =>
    have ih' : traced "indexer.unknown_item" (recordsOf (eventsOf st below)) =
        ((postorderOf below).filter (·.type == .unknown)).map
          fun x => unknownRecord st.skipUnknown x.path := by
      rw [traced_eventsOf, postorderOf_eq_flatMap, List.filter_flatMap, List.map_flatMap]
      exact List.flatMap_congr ih
    rw [events, postorder, recordsOf_append, traced_append, ih', List.filter_append, List.map_append]
    congr 1
    cases own with
    | none => rfl
    | some x =>
      have hrest : traced "indexer.unknown_item" (if x.isDropped st then [] else
          recordsOf (populationEvents st x) ++ [x.itemRecord (widthOf st below)]) = [] := by
        split
        · rfl
        · rw [traced_append, traced_populationEvents st (by decide) (by decide)]
          rfl
      rw [recordsOf_ownEvents, traced_append, hrest, List.append_nil, Option.toList_some,
        List.filter_singleton]
      cases x.type == .unknown <;> rfl

/-- The items in post-order are those of the sources that are not dropped. -/
theorem Site.path_postorder (s : Site) : (postorderAll (s.items st)).map ItemTree.path =
    (s.postorder.filter (!·.isDropped st)).map Source.itemPath := by
  induction s with
  | failed f => rfl
  | directory below own ih =>
    have ih' : (postorderAll (itemsOf st below)).map ItemTree.path =
        ((postorderOf below).filter (!·.isDropped st)).map Source.itemPath := by
      rw [postorderAll_itemsOf, List.map_flatMap, postorderOf_eq_flatMap, List.filter_flatMap,
        List.map_flatMap]
      exact List.flatMap_congr ih
    rw [items, postorder, List.filter_append, List.map_append, ← ih']
    cases own with
    | none => exact (List.append_nil _).symm
    | some x =>
      rw [gather, Option.toList_some, List.filter_singleton]
      cases x.isDropped st with
      | true => exact (List.append_nil _).symm
      | false =>
        rw [if_neg (by decide), postorderAll_singleton, List.map_append]
        rfl

end

/-! ### The order of directories -/

section
variable {fs : FileSystem} {st : Settings} {root d : Path}

/-- That `qs` are the sources of the directories that are reached, in the post-order of these. -/
structure IsPostorder (fs : FileSystem) (ignore : List String) (root : Path) (qs : List Path) :
    Prop where
  all : ∀ d q, Reached fs ignore root d → SourceFile.choose? (filesIn fs ignore d) = some q → q ∈ qs
  only : ∀ q ∈ qs, Reached fs ignore root q.parent ∧
    SourceFile.choose? (filesIn fs ignore q.parent) = some q
  ordered : (qs.map Path.parent).Pairwise Path.GoesBefore

theorem IsPostorder.nodup {ignore : List String} {qs : List Path}
    (h : IsPostorder fs ignore root qs) : (qs.map Path.parent).Nodup := by
  refine h.ordered.imp fun {p q} hpq heq => ?_
  subst heq
  exact hpq.asymm hpq

theorem parent_of_choose? {ignore : List String} {q : Path}
    (h : SourceFile.choose? (filesIn fs ignore d) = some q) : q.parent = d := by
  obtain ⟨n, -, -, rfl⟩ := exists_child_of_mem_filesIn (SourceFile.mem_of_choose? h)
  exact Path.parent_child d n

theorem choose?_eq_some_iff {files : List Path} {q : Path} :
    SourceFile.choose? files = some q ↔ ∃ x, sourceOf fs files = some x ∧ x.path = q := by
  rw [sourceOf]
  cases SourceFile.choose? files <;> simp

theorem parent_of_sourceOf {ignore : List String} {x : Source}
    (h : sourceOf fs (filesIn fs ignore d) = some x) : x.path.parent = d :=
  parent_of_choose? (choose?_eq_some_iff.2 ⟨x, h, rfl⟩)

/-- The sources of a site lie in directories in post-order, all at or below its own. -/
theorem pairwise_postorder (hfs : fs.isProper = true) {s : Site} (h : siteAt fs st root = .ok s) :
    s.failures = [] → (∀ x ∈ s.postorder, root.AtOrAbove x.path.parent) ∧
      s.postorder.Pairwise fun x y => x.path.parent.GoesBefore y.path.parent := by
  refine siteAt_induct (motive := fun root s => s.failures = [] →
    (∀ x ∈ s.postorder, root.AtOrAbove x.path.parent) ∧
      s.postorder.Pairwise fun x y => x.path.parent.GoesBefore y.path.parent) hfs ?_ ?_ h
  · exact fun d f _ h => absurd h (by simp [Site.failures])
  · intro d subs _ hnames _ ih hf
    have ih' : ∀ a ∈ subs, (∀ x ∈ a.2.postorder, (d.child a.1).AtOrAbove x.path.parent) ∧
        a.2.postorder.Pairwise fun x y => x.path.parent.GoesBefore y.path.parent :=
      fun a ha => ih a.1 a.2 ha (failures_eq_nil_of_mem hf (List.mem_map_of_mem ha))
    have hbelow : ∀ x ∈ postorderOf (subs.map Prod.snd), d.Above x.path.parent := by
      intro x hx
      rw [postorderOf_eq_flatMap, List.flatMap_map] at hx
      obtain ⟨a, ha, hx⟩ := List.mem_flatMap.1 hx
      have hchild := (ih' a ha).1 x hx
      refine ⟨(Path.AtOrAbove.child d a.1).trans hchild, ?_⟩
      rintro heq
      exact Path.AtOrAbove.not_child d a.1 (heq ▸ hchild)
    have hown : ∀ x ∈ (sourceOf fs (filesIn fs st.ignore d)).toList, x.path.parent = d :=
      fun x hx => parent_of_sourceOf (Option.mem_toList.1 hx)
    rw [Site.postorder, List.pairwise_append]
    refine ⟨fun x hx => ?_, ?_, ?_, fun x hx y hy => ?_⟩
    · rcases List.mem_append.1 hx with hx | hx
      · exact (hbelow x hx).1
      · rw [hown x hx]
        exact .refl d
    · rw [postorderOf_eq_flatMap, List.flatMap_map, List.pairwise_flatMap]
      refine ⟨fun a ha => (ih' a ha).2, hnames.imp_of_mem fun {a b} ha hb hab x hx y hy => ?_⟩
      exact .inr ⟨d, a.1, b.1, hab, (ih' a ha).1 x hx, (ih' b hb).1 y hy⟩
    · cases sourceOf fs (filesIn fs st.ignore d) with
      | none => exact .nil
      | some x => exact List.pairwise_singleton ..
    · rw [hown y hy]
      exact .inl (hbelow x hx)

theorem isPostorder_of_siteAt (hfs : fs.isProper = true) {s : Site}
    (h : siteAt fs st root = .ok s) (hf : s.failures = []) :
    IsPostorder fs st.ignore root (s.postorder.map Source.path) := by
  have hmem : ∀ x, x ∈ s.postorder ↔ ∃ d, Reached fs st.ignore root d ∧
      sourceOf fs (filesIn fs st.ignore d) = some x :=
    fun x => Site.mem_postorder.trans (mem_sources_iff hfs h hf)
  refine ⟨fun d q hd hq => ?_, fun q hq => ?_, ?_⟩
  · obtain ⟨x, hx, rfl⟩ := choose?_eq_some_iff.1 hq
    exact List.mem_map_of_mem ((hmem x).2 ⟨d, hd, hx⟩)
  · obtain ⟨x, hx, rfl⟩ := List.mem_map.1 hq
    obtain ⟨d, hd, hx⟩ := (hmem x).1 hx
    obtain rfl := parent_of_sourceOf hx
    exact ⟨hd, choose?_eq_some_iff.2 ⟨x, hx, rfl⟩⟩
  · rw [List.pairwise_map, List.pairwise_map]
    exact (pairwise_postorder hfs h hf).2

/-- The type of a source is unknown just if no file beside it is a marker. -/
theorem type_eq_unknown_iff (hfs : fs.isProper = true) (hroot : root.IsProper)
    (hd : Reached fs st.ignore root d) {q : Path}
    (hq : SourceFile.choose? (filesIn fs st.ignore d) = some q) :
    ItemType.ofPath q.text = .unknown ↔ SourceFile.marker? (filesIn fs st.ignore d) = none := by
  obtain ⟨n, e, hmem, rfl⟩ := exists_child_of_mem_filesIn (SourceFile.mem_of_choose? hq)
  obtain ⟨hname, -, hslash, -⟩ := isEntryName_iff.1 (isEntryName_of_mem_entriesAt hfs hmem)
  have hmarker : SourceFile.marker? (filesIn fs st.ignore d) = none ↔
      ∀ m ∈ ItemType.markers, ¬ SourceFile.HasName (filesIn fs st.ignore d) m.1 := by
    simp only [SourceFile.marker?, List.findSome?_eq_none_iff, SourceFile.named?_eq_none_iff]
  rw [ItemType.ofPath_text ((hd.isProper hfs hroot).child hname hslash),
    ItemType.ofFileName_eq_unknown_iff, hmarker]
  constructor
  · intro hunknown
    rcases SourceFile.name_of_choose? hq with ⟨m, hm, hname⟩ | ⟨hnone, -⟩
    · exact absurd hname (hunknown m hm.mem)
    · exact hnone
  · exact fun hnone m hm hname => hnone m hm ⟨_, SourceFile.mem_of_choose? hq, hname⟩

/-- Whether no file in the directory of a source is a marker. -/
def lacksMarker (fs : FileSystem) (ignore : List String) (q : Path) : Bool :=
  (SourceFile.marker? (filesIn fs ignore q.parent)).isNone

/-- If an index is made, the records of items are those of its items in post-order, each with its
number of children, and no path twice. They are the items of the sources of all directories that are
reached, in the post-order of these, but for dropped ones; and for each of these directories, in the
same order, there is a record of an unknown item just if no file in it is a marker. -/
theorem topLevel_trace (hfs : fs.isProper = true) {root : String} {ts : List ItemTree}
    (h : (topLevel fs st (Path.parse root)).result = .ok ts) :
    ∃ qs, IsPostorder fs st.ignore (Path.parse root) qs ∧ (qs.map Path.parent).Nodup ∧
      traced "indexer.item" (topLevel fs st (Path.parse root)).records =
        (postorderAll ts).map itemRecord ∧
      ((postorderAll ts).map ItemTree.path).Nodup ∧
      (postorderAll ts).map ItemTree.path =
        (qs.filter fun q => !(lacksMarker fs st.ignore q && st.skipUnknown)).map Path.text ∧
      traced "indexer.unknown_item" (topLevel fs st (Path.parse root)).records =
        (qs.filter (lacksMarker fs st.ignore)).map (unknownRecord st.skipUnknown) := by
  obtain ⟨s, hs, rfl, hf, -⟩ := topLevel_result_eq_ok.1 h
  have horder := isPostorder_of_siteAt hfs hs hf
  have hrecords : (topLevel fs st (Path.parse root)).records = recordsOf (s.events st) := by
    rw [topLevel, hs] at h ⊢
    exact Outcome.records_ofEvents h
  have hunknown : ∀ x ∈ s.postorder, (x.type == .unknown) = lacksMarker fs st.ignore x.path := by
    intro x hx
    obtain ⟨hd, hq⟩ := horder.only x.path (List.mem_map_of_mem hx)
    rw [Bool.eq_iff_iff, beq_iff_eq, lacksMarker, Option.isNone_iff_eq_none]
    exact type_eq_unknown_iff hfs (Path.isProper_parse root) hd hq
  refine ⟨_, horder, horder.nodup, ?_, ?_, ?_, ?_⟩
  · rw [hrecords, s.traced_item st]
  · rw [((postorderAll_perm _).map ItemTree.path).nodup_iff]
    exact (mirrors_items hfs hs (Path.isProper_parse root) hf).nodup_path
  · rw [s.path_postorder st, List.filter_map, List.map_map]
    refine congrArg _ (List.filter_congr fun x hx => ?_)
    rw [Source.isDropped, hunknown x hx]
    rfl
  · rw [hrecords, s.traced_unknown st, List.filter_map, List.map_map]
    exact congrArg _ (List.filter_congr hunknown)

/-- The tag is recorded in front of the item above it, which then has one child. -/
theorem topLevel_trace_sample :
    let st : Settings := { ignore := [], extractBlocks := false }
    let tag : ItemTree := .node "c/tag.md" [] [] []
    ∃ qs, IsPostorder (sample [] []) st.ignore (Path.parse ".") qs ∧
      qs.map Path.text = ["c/tag.md", "a.md"] ∧
        traced "indexer.item" (topLevel (sample [] []) st (Path.parse ".")).records =
          [itemRecord tag, itemRecord (.node "a.md" [] [] [tag])] := by
  intro st tag
  have hindex : (topLevel (sample [] []) st (Path.parse ".")).result =
      .ok [.node "a.md" [] [] [tag]] := topLevel_sample [] [] rfl rfl rfl
  obtain ⟨qs, hqs, -, hitems, -, hpaths, -⟩ := topLevel_trace (by decide +kernel) hindex
  refine ⟨qs, hqs, ?_, hitems⟩
  have hkept : (fun q => !(lacksMarker (sample [] []) st.ignore q && st.skipUnknown)) =
      fun _ => true := funext fun q => by rw [Bool.and_false, Bool.not_false]
  rw [hkept, List.filter_true] at hpaths
  exact hpaths.symm

end

end Index
end DocTree
