import Mathlib
import DocTree.Proofs.Index.Survey
import DocTree.Proofs.SourceFile

/-!
# The items of an index

Which directories have an item, and how the items lie (`topLevel_mirrors`): each is a child of the
item of the nearest directory above it that has one, and in pre-order their directories increase
strictly. `Mirrors` says this of any forest and any set of directories. It is kept when the forests
of the entries of a directory are put side by side (`Mirrors.itemsOf`), and when the directory's own
item is put above them (`Mirrors.node`).
-/

namespace DocTree

/-- The directory in which the source of an item lies. -/
def ItemTree.directory (t : ItemTree) : Path := (Path.parse t.path).parent

namespace Index

open ItemTree (preorderAll)

/-- That the directory at `d` has an item, and that its source is `q`. -/
structure HasItem (fs : FileSystem) (st : Settings) (root d q : Path) : Prop where
  reached : Reached fs st.ignore root d
  chosen : SourceFile.choose? (filesIn fs st.ignore d) = some q
  known : st.skipUnknown = true → ItemType.ofPath q.text ≠ .unknown

/-- That the items of a forest are those of the directories in `P`, which also tells their sources:
each lies below that of the nearest directory above it, and in pre-order the directories increase
strictly. -/
structure Mirrors (P : Path → Path → Prop) (ts : List ItemTree) : Prop where
  all : ∀ d q, P d q → ∃ t ∈ preorderAll ts, t.directory = d ∧ t.path = q.text
  only : ∀ t ∈ preorderAll ts, ∃ q, P t.directory q ∧ t.path = q.text
  top : ∀ u ∈ preorderAll ts, u ∈ ts ↔ ∀ d q, P d q → ¬ d.Above u.directory
  child : ∀ t ∈ preorderAll ts, ∀ u ∈ preorderAll ts, u ∈ t.children ↔
    t.directory.Above u.directory ∧ ∀ d q, P d q → d.Above u.directory → d.AtOrAbove t.directory
  ordered : ((preorderAll ts).map fun t => t.directory.orderKey).Pairwise (· < ·)

theorem Mirrors.congr {P Q : Path → Path → Prop} {ts : List ItemTree} (h : Mirrors P ts)
    (hPQ : ∀ d q, P d q ↔ Q d q) : Mirrors Q ts := by
  obtain rfl : P = Q := funext fun d => funext fun q => propext (hPQ d q)
  exact h

namespace Mirrors
variable {P : Path → Path → Prop} {ts : List ItemTree}

theorem nodup_directory (h : Mirrors P ts) : ((preorderAll ts).map ItemTree.directory).Nodup := by
  rw [List.nodup_iff_pairwise_ne, List.pairwise_map]
  refine (List.pairwise_map.1 h.ordered).imp fun {t u} hlt heq => ?_
  rw [heq] at hlt
  exact List.lt_irrefl _ hlt

theorem nodup_path (h : Mirrors P ts) : ((preorderAll ts).map ItemTree.path).Nodup := by
  refine List.Nodup.of_map (fun p => (Path.parse p).parent) ?_
  rw [List.map_map]
  exact h.nodup_directory

end Mirrors

/-! ### Forests side by side, and below an item -/

theorem mem_preorderAll_itemsOf {st : Settings} {t : ItemTree} {subs : List (String × Site)} :
    t ∈ preorderAll (itemsOf st (subs.map Prod.snd)) ↔
      ∃ n s, (n, s) ∈ subs ∧ t ∈ preorderAll (s.items st) := by
  rw [itemsOf_eq_flatMap, ItemTree.preorderAll_eq_flatMap, List.flatMap_assoc, List.flatMap_map]
  simp only [← ItemTree.preorderAll_eq_flatMap, List.mem_flatMap, Prod.exists]

section
variable {P : Path → Path → Prop} {st : Settings} {a : Path} {subs : List (String × Site)}

/-- Sites under strictly increasing names: what lies below an entry is in the site of its name. -/
theorem site_eq_of_atOrAbove (hn : subs.Pairwise fun x y => x.1 < y.1) {m n : String} {r s : Site}
    {d : Path} (hr : (m, r) ∈ subs) (hs : (n, s) ∈ subs) (hm : (a.child m).AtOrAbove d)
    (hd : (a.child n).AtOrAbove d) : r = s := by
  obtain rfl := hm.child_eq hd
  by_contra hne
  have hsymm : Std.Symm fun x y : String × Site => x.1 ≠ y.1 := ⟨fun _ _ h => h.symm⟩
  have hnd := hn.imp fun h => String.ne_of_lt h
  exact hnd.forall hr hs (fun h => hne (congrArg Prod.snd h)) rfl

section
variable (hn : subs.Pairwise fun x y => x.1 < y.1)
  (hP : ∀ d q, P d q → ∃ n s, (n, s) ∈ subs ∧ (a.child n).AtOrAbove d)
  (h : ∀ n s, (n, s) ∈ subs → Mirrors (fun d q => (a.child n).AtOrAbove d ∧ P d q) (s.items st))
include h

theorem atOrAbove_of_mem_items {n : String} {s : Site} (hs : (n, s) ∈ subs) {t : ItemTree}
    (ht : t ∈ preorderAll (s.items st)) : (a.child n).AtOrAbove t.directory := by
  obtain ⟨q, hq, -⟩ := (h n s hs).only t ht
  exact hq.1

include hn

theorem mem_itemsOf_iff_mem_items {n : String} {s : Site} (hs : (n, s) ∈ subs) {u : ItemTree}
    (hu : u ∈ preorderAll (s.items st)) :
    u ∈ itemsOf st (subs.map Prod.snd) ↔ u ∈ s.items st := by
  refine ⟨fun hu' => ?_, fun hu' => mem_itemsOf.2 ⟨s, List.mem_map_of_mem hs, hu'⟩⟩
  obtain ⟨_, hr, hu'⟩ := mem_itemsOf.1 hu'
  obtain ⟨⟨m, r⟩, hmr, rfl⟩ := List.mem_map.1 hr
  have hum := atOrAbove_of_mem_items h hmr (ItemTree.mem_preorderAll_of_mem hu')
  exact site_eq_of_atOrAbove hn hmr hs hum (atOrAbove_of_mem_items h hs hu) ▸ hu'

theorem pairwise_itemsOf : ((preorderAll (itemsOf st (subs.map Prod.snd))).map
    fun t => t.directory.orderKey).Pairwise (· < ·) := by
  rw [itemsOf_eq_flatMap, ItemTree.preorderAll_eq_flatMap, List.flatMap_assoc, List.flatMap_map,
    List.map_flatMap, List.pairwise_flatMap]
  simp only [← ItemTree.preorderAll_eq_flatMap]
  refine ⟨fun x hx => (h x.1 x.2 hx).ordered, hn.imp_of_mem fun {x y} hx hy hxy => ?_⟩
  intro k hk l hl
  obtain ⟨t, ht, rfl⟩ := List.mem_map.1 hk
  obtain ⟨u, hu, rfl⟩ := List.mem_map.1 hl
  exact Path.orderKey_lt_of_atOrAbove_child hxy (atOrAbove_of_mem_items h hx ht)
    (atOrAbove_of_mem_items h hy hu)

include hP

theorem mem_itemsOf_iff_top {u : ItemTree}
    (hu : u ∈ preorderAll (itemsOf st (subs.map Prod.snd))) :
    u ∈ itemsOf st (subs.map Prod.snd) ↔ ∀ d q, P d q → ¬ d.Above u.directory := by
  obtain ⟨n, s, hs, hu⟩ := mem_preorderAll_itemsOf.1 hu
  rw [mem_itemsOf_iff_mem_items hn h hs hu, (h n s hs).top u hu]
  refine ⟨fun hu' d q hq hd => ?_, fun hu' d q hq => hu' d q hq.2⟩
  obtain ⟨m, r, hr, hdm⟩ := hP d q hq
  obtain rfl := (hdm.trans hd.1).child_eq (atOrAbove_of_mem_items h hs hu)
  exact hu' d q ⟨hdm, hq⟩ hd

theorem mem_children_iff_nearest {t u : ItemTree}
    (ht : t ∈ preorderAll (itemsOf st (subs.map Prod.snd)))
    (hu : u ∈ preorderAll (itemsOf st (subs.map Prod.snd))) :
    u ∈ t.children ↔ t.directory.Above u.directory ∧
      ∀ d q, P d q → d.Above u.directory → d.AtOrAbove t.directory := by
  obtain ⟨n, s, hs, ht⟩ := mem_preorderAll_itemsOf.1 ht
  obtain ⟨m, r, hr, hu⟩ := mem_preorderAll_itemsOf.1 hu
  constructor
  · intro hut
    have hu := ItemTree.mem_preorderAll_of_mem_children ht hut
    obtain ⟨habove, hnear⟩ := ((h n s hs).child t ht u hu).1 hut
    refine ⟨habove, fun d q hq hd => ?_⟩
    obtain ⟨k, s', hs', hdk⟩ := hP d q hq
    obtain rfl := (hdk.trans hd.1).child_eq (atOrAbove_of_mem_items h hs hu)
    exact hnear d q ⟨hdk, hq⟩ hd
  · rintro ⟨habove, hnear⟩
    -- What lies below `t` is in the site that `t` is in.
    have hun := (atOrAbove_of_mem_items h hs ht).trans habove.1
    obtain rfl := site_eq_of_atOrAbove hn hr hs (atOrAbove_of_mem_items h hr hu) hun
    exact ((h n r hs).child t ht u hu).2 ⟨habove, fun d q hq => hnear d q hq.2⟩

/-- Forests that mirror what lies below the entries of a directory, side by side in the order of
names, mirror it all. -/
theorem Mirrors.itemsOf : Mirrors P (Index.itemsOf st (subs.map Prod.snd)) := by
  refine ⟨fun d q hq => ?_, fun t ht => ?_, fun u hu => mem_itemsOf_iff_top hn hP h hu,
    fun t ht u hu => mem_children_iff_nearest hn hP h ht hu, pairwise_itemsOf hn h⟩
  · obtain ⟨n, s, hs, hd⟩ := hP d q hq
    obtain ⟨t, ht, hpath⟩ := (h n s hs).all d q ⟨hd, hq⟩
    exact ⟨t, mem_preorderAll_itemsOf.2 ⟨n, s, hs, ht⟩, hpath⟩
  · obtain ⟨n, s, hs, ht⟩ := mem_preorderAll_itemsOf.1 ht
    obtain ⟨q, hq, hpath⟩ := (h n s hs).only t ht
    exact ⟨q, hq.2, hpath⟩

end

section
variable {t : ItemTree} {q : Path} (hdir : t.directory = a) (hpath : t.path = q.text)
  (ha : ∀ q', P a q' ↔ q' = q) (hP : ∀ d q, P d q → a.AtOrAbove d)
  (h : Mirrors (fun d q => d ≠ a ∧ P d q) t.children)

theorem mem_preorderAll_singleton {u : ItemTree} :
    u ∈ preorderAll [t] ↔ u = t ∨ u ∈ preorderAll t.children := by
  rw [ItemTree.preorderAll_singleton, ItemTree.preorder_eq, List.mem_cons]

include hP

/-- No directory is above the one that all others are in. -/
theorem not_above {d q : Path} (hq : P d q) : ¬ d.Above a :=
  fun hd => hd.2 (hd.1.antisymm (hP d q hq))

include h

theorem above_directory {u : ItemTree} (hu : u ∈ preorderAll t.children) : a.Above u.directory := by
  obtain ⟨q, ⟨hne, hq⟩, -⟩ := h.only u hu
  exact ⟨hP _ q hq, hne.symm⟩

include hdir

theorem not_mem_preorderAll_children : t ∉ preorderAll t.children :=
  fun ht => (above_directory hP h ht).2 hdir.symm

/-- The item is itself no child. -/
theorem not_mem_children {u : ItemTree} (hu : u ∈ preorderAll [t]) : t ∉ u.children := by
  intro hc
  rcases mem_preorderAll_singleton.1 hu with rfl | hu
  · exact not_mem_preorderAll_children hdir hP h (ItemTree.mem_preorderAll_of_mem hc)
  · exact not_mem_preorderAll_children hdir hP h (ItemTree.mem_preorderAll_of_mem_children hu hc)

include ha

theorem mem_singleton_iff_top {u : ItemTree} (hu : u ∈ preorderAll [t]) :
    u ∈ [t] ↔ ∀ d q, P d q → ¬ d.Above u.directory := by
  rw [List.mem_singleton]
  rcases mem_preorderAll_singleton.1 hu with rfl | hu
  · exact iff_of_true rfl fun d q hq => hdir ▸ not_above hP hq
  · refine iff_of_false ?_ fun hu' => hu' a q ((ha q).2 rfl) (above_directory hP h hu)
    rintro rfl
    exact not_mem_preorderAll_children hdir hP h hu

omit hP in
theorem exists_source {u : ItemTree} (hu : u ∈ preorderAll [t]) : ∃ q, P u.directory q := by
  rcases mem_preorderAll_singleton.1 hu with rfl | hu
  · exact ⟨q, hdir ▸ (ha q).2 rfl⟩
  · obtain ⟨q, hq, -⟩ := h.only u hu
    exact ⟨q, hq.2⟩

theorem mem_children_iff_nearest_of_singleton {u v : ItemTree} (hu : u ∈ preorderAll [t])
    (hv : v ∈ preorderAll [t]) : v ∈ u.children ↔ u.directory.Above v.directory ∧
      ∀ d q, P d q → d.Above v.directory → d.AtOrAbove u.directory := by
  rcases mem_preorderAll_singleton.1 hv with rfl | hv
  · refine iff_of_false (not_mem_children hdir hP h hu) fun hc => ?_
    obtain ⟨q, hq⟩ := exists_source hdir ha h hu
    exact not_above hP hq (hdir ▸ hc.1)
  · have hav := above_directory hP h hv
    rcases mem_preorderAll_singleton.1 hu with rfl | hu
    · -- The children of the item are those that have no other item above them.
      rw [h.top v hv, hdir]
      refine ⟨fun hc => ⟨hav, fun d q hq hd => ?_⟩, fun hc d q hq hd => ?_⟩
      · by_cases hda : d = a
        · exact hda ▸ .refl a
        · exact absurd hd (hc d q ⟨hda, hq⟩)
      · exact hq.1 ((hc.2 d q hq.2 hd).antisymm (hP d q hq.2))
    · rw [h.child u hu v hv]
      refine and_congr_right fun _ => ⟨fun hc d q hq hd => ?_, fun hc d q hq => hc d q hq.2⟩
      by_cases hda : d = a
      · exact hda ▸ (above_directory hP h hu).1
      · exact hc d q ⟨hda, hq⟩ hd

include hpath

/-- An item with the items of what is below its directory mirrors both. -/
theorem Mirrors.node : Mirrors P [t] := by
  refine ⟨fun d q' hq' => ?_, fun u hu => ?_, fun u hu => mem_singleton_iff_top hdir ha hP h hu,
    fun u hu v hv => mem_children_iff_nearest_of_singleton hdir ha hP h hu hv, ?_⟩
  · by_cases hd : d = a
    · obtain rfl := (ha q').1 (hd ▸ hq')
      exact ⟨t, mem_preorderAll_singleton.2 (.inl rfl), hdir.trans hd.symm, hpath⟩
    · obtain ⟨u, hu, hpath⟩ := h.all d q' ⟨hd, hq'⟩
      exact ⟨u, mem_preorderAll_singleton.2 (.inr hu), hpath⟩
  · rcases mem_preorderAll_singleton.1 hu with rfl | hu
    · exact ⟨q, hdir ▸ (ha q).2 rfl, hpath⟩
    · obtain ⟨q, hq, hpath⟩ := h.only u hu
      exact ⟨q, hq.2, hpath⟩
  · rw [ItemTree.preorderAll_singleton, ItemTree.preorder_eq, List.map_cons, List.pairwise_cons]
    refine ⟨fun k hk => ?_, h.ordered⟩
    obtain ⟨u, hu, rfl⟩ := List.mem_map.1 hk
    exact hdir ▸ Path.orderKey_lt_of_above (above_directory hP h hu)

end

end

/-! ### The directories with items -/

section
variable {fs : FileSystem} {st : Settings} {root d q : Path} {n : String}

theorem isEntryName_of_mem_entriesAt (hfs : fs.isProper = true) {e : Entry}
    (h : (n, e) ∈ fs.entriesAt d) : isEntryName n = true := by
  unfold FileSystem.entriesAt at h
  split at h
  · rename_i l c hd
    cases c with
    | directory es => exact ((Entry.isProper_directory.1 (fs.isProper_of_lookup hfs hd)).2 n e h).1
    | file bs => cases h
    | link t => cases h
  · cases h

theorem Reached.isProper (hfs : fs.isProper = true) (hroot : root.IsProper)
    (h : Reached fs st.ignore root d) : d.IsProper := by
  induction h with
  | root => exact hroot
  | child _ hn ih =>
    obtain ⟨es, hmem, -⟩ := hn
    obtain ⟨hname, -, hslash, -⟩ := isEntryName_iff.1 (isEntryName_of_mem_entriesAt hfs hmem)
    exact ih.child hname hslash

theorem exists_child_of_mem_filesIn {ignore : List String} (h : q ∈ filesIn fs ignore d) :
    ∃ n e, (n, e) ∈ fs.entriesAt d ∧ q = d.child n := by
  obtain ⟨hq, -⟩ := List.mem_filter.1 (List.mem_mergeSort.1 h)
  obtain ⟨n, hn, rfl⟩ := List.mem_map.1 hq
  obtain ⟨⟨n, e⟩, hmem, rfl⟩ := List.mem_map.1 (List.mem_filter.1 hn).1
  exact ⟨n, e, hmem, rfl⟩

/-- The path of a source tells the directory in which it was found. -/
theorem HasItem.parent_parse (hfs : fs.isProper = true) (hroot : root.IsProper)
    (h : HasItem fs st root d q) : (Path.parse q.text).parent = d := by
  obtain ⟨n, e, hmem, rfl⟩ := exists_child_of_mem_filesIn (SourceFile.mem_of_choose? h.chosen)
  obtain ⟨hname, -, hslash, -⟩ := isEntryName_iff.1 (isEntryName_of_mem_entriesAt hfs hmem)
  rw [Path.parse_text ((h.reached.isProper hfs hroot).child hname hslash), Path.parent_child]

theorem hasItem_child_iff (hn : HasDirectory fs st.ignore root n) :
    HasItem fs st (root.child n) d q ↔
      (root.child n).AtOrAbove d ∧ d ≠ root ∧ HasItem fs st root d q := by
  constructor
  · intro h
    refine ⟨h.reached.atOrAbove, ?_, .of_child hn h.reached, h.chosen, h.known⟩
    rintro rfl
    exact Path.AtOrAbove.not_child d n h.reached.atOrAbove
  · rintro ⟨hd, hne, h⟩
    rcases h.reached.eq_or_child with rfl | ⟨m, -, hm⟩
    · exact absurd rfl hne
    · obtain rfl := hm.atOrAbove.child_eq hd
      exact ⟨hm, h.chosen, h.known⟩

theorem hasItem_iff : HasItem fs st root d q ↔ Reached fs st.ignore root d ∧
    ∃ x, sourceOf fs (filesIn fs st.ignore d) = some x ∧ x.path = q ∧ x.isDropped st = false := by
  have hdrop : ∀ x : Source, x.isDropped st = false ↔
      (st.skipUnknown = true → ItemType.ofPath x.path.text ≠ .unknown) := by
    intro x
    cases hs : st.skipUnknown <;> simp [Source.isDropped, Source.type, Source.itemPath, hs]
  simp only [hdrop, sourceOf, Option.map_eq_some_iff]
  constructor
  · exact fun h => ⟨h.reached, _, ⟨q, h.chosen, rfl⟩, rfl, h.known⟩
  · rintro ⟨hreach, -, ⟨q, hq, rfl⟩, rfl, hknown⟩
    exact ⟨hreach, hq, hknown⟩

/-- What a directory gives mirrors the directories reached from it if what is below it does. -/
theorem mirrors_gather (hfs : fs.isProper = true) (hd : d.IsProper) {below : List ItemTree}
    (h : Mirrors (fun d' q => d' ≠ d ∧ HasItem fs st d d' q) below) :
    Mirrors (HasItem fs st d) (gather st (sourceOf fs (filesIn fs st.ignore d)) below) := by
  have hnone : (∀ q, ¬ HasItem fs st d d q) → Mirrors (HasItem fs st d) below := by
    refine fun hnone => h.congr fun d' q => ⟨And.right, fun hq => ⟨?_, hq⟩⟩
    rintro rfl
    exact hnone q hq
  cases hx : sourceOf fs (filesIn fs st.ignore d) with
  | none => exact hnone fun q hq => by simp [hasItem_iff, hx] at hq
  | some x =>
    rw [gather]
    split
    · rename_i hdrop
      exact hnone fun q hq => by simp [hasItem_iff, hx, hdrop] at hq
    · rename_i hdrop
      have hself : ∀ q, HasItem fs st d d q ↔ q = x.path := by
        intro q
        rw [hasItem_iff, hx, and_iff_right .root]
        simp only [Option.some.injEq, exists_eq_left', hdrop, and_true]
        exact eq_comm
      have hdir := ((hself _).2 rfl).parent_parse hfs hd
      exact .node hdir rfl hself (fun _ _ hq => hq.reached.atOrAbove) h

/-- The items of a site mirror the directories that are reached from its own. -/
theorem mirrors_items (hfs : fs.isProper = true) {s : Site} (h : siteAt fs st root = .ok s) :
    root.IsProper → s.failures = [] → Mirrors (HasItem fs st root) (s.items st) := by
  refine siteAt_induct (motive := fun root s => root.IsProper → s.failures = [] →
    Mirrors (HasItem fs st root) (s.items st)) hfs ?_ ?_ h
  · exact fun d f _ _ h => absurd h (by simp [Site.failures])
  · intro d subs _ hnames hsubs ih hd hf
    refine mirrors_gather hfs hd (.itemsOf (a := d) hnames ?_ ?_)
    · rintro d' q ⟨hne, hq⟩
      rcases hq.reached.eq_or_child with rfl | ⟨n, hn, h⟩
      · exact absurd rfl hne
      · obtain ⟨s, hs⟩ := (hsubs n).1 hn
        exact ⟨n, s, hs, h.atOrAbove⟩
    · intro n s hs
      have hn := (hsubs n).2 ⟨s, hs⟩
      have hchild : (d.child n).IsProper := Reached.isProper hfs hd (.child .root hn)
      have hfail := failures_eq_nil_of_mem hf (List.mem_map_of_mem hs)
      exact (ih n s hs hchild hfail).congr fun _ _ => hasItem_child_iff hn

/-- The items of an index mirror the directories that are reached from its root. -/
theorem mirrors_of_topLevel (hfs : fs.isProper = true) (hroot : root.IsProper) {ts : List ItemTree}
    (h : (topLevel fs st root).result = .ok ts) : Mirrors (HasItem fs st root) ts := by
  obtain ⟨s, hs, rfl, hf, -⟩ := topLevel_result_eq_ok.1 h
  exact mirrors_items hfs hs hroot hf

end

/-- If an index is made, its items are those of the directories that are reached and have a source,
each a child of the item of the nearest directory above it; in pre-order the directories increase
strictly, so that no directory and no path is met twice. -/
theorem topLevel_mirrors {fs : FileSystem} (hfs : fs.isProper = true) {st : Settings} {root : String}
    {ts : List ItemTree} (h : (topLevel fs st (Path.parse root)).result = .ok ts) :
    Mirrors (HasItem fs st (Path.parse root)) ts ∧
      ((preorderAll ts).map ItemTree.directory).Nodup ∧
        ((preorderAll ts).map ItemTree.path).Nodup := by
  obtain ⟨s, hs, rfl, hf, -⟩ := topLevel_result_eq_ok.1 h
  have hm := mirrors_items hfs hs (Path.isProper_parse root) hf
  exact ⟨hm, hm.nodup_directory, hm.nodup_path⟩

/-- A tag lies below the item of the directory above, and both are met in the order of paths. -/
theorem topLevel_mirrors_sample :
    let ts : List ItemTree := [.node "a.md" [] [] [.node "c/tag.md" [] [] []]]
    Mirrors (HasItem (sample [] []) { ignore := [], extractBlocks := false } (Path.parse ".")) ts ∧
      ((preorderAll ts).map ItemTree.directory).Nodup ∧
        ((preorderAll ts).map ItemTree.path).Nodup := by
  exact topLevel_mirrors (by decide +kernel) (topLevel_sample [] [] rfl rfl rfl)

end Index
end DocTree
