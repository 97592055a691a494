import Mathlib
import DocTree.Proofs.Index.Survey

/-!
# Leaving out unknown items

An index without unknown items is the index with them, spliced: each unknown item is replaced by its
children, however deep it stands. The sites are the same in both, so the two runs are compared site
by site (`Site.items_skipUnknown`); and a source that is dropped can no more end the index, so the
run that drops is made whenever the other is.
-/

namespace DocTree

/-- Whether no type is known for the item. -/
def ItemTree.isUnknown (t : ItemTree) : Bool := t.type == .unknown

namespace Index
variable {fs : FileSystem} {st : Settings} {root : Path}

/-- The settings with unknown items kept. -/
def keeping (st : Settings) : Settings := { st with skipUnknown := false }

/-- The settings with unknown items left out. -/
def skipping (st : Settings) : Settings := { st with skipUnknown := true }

theorem Source.isDropped_keeping (x : Source) : x.isDropped (keeping st) = false := by
  simp [isDropped, keeping]

theorem Source.isDropped_skipping (x : Source) :
    x.isDropped (skipping st) = (x.type == .unknown) := by
  simp [isDropped, skipping]

theorem Source.item_skipping (x : Source) (ts : List ItemTree) :
    x.item (skipping st) ts = x.item (keeping st) ts := rfl

theorem Source.splice_item (x : Source) (ts : List ItemTree) :
    (x.item st ts).splice ItemTree.isUnknown =
      if x.type == .unknown then ItemTree.spliceAll ItemTree.isUnknown ts
      else [x.item st (ItemTree.spliceAll ItemTree.isUnknown ts)] := by
  rw [item, ItemTree.splice]
  rfl

theorem gather_skipping (own : Option Source) (below : List ItemTree) :
    gather (skipping st) own (ItemTree.spliceAll ItemTree.isUnknown below) =
      ItemTree.spliceAll ItemTree.isUnknown (gather (keeping st) own below) := by
  cases own with
  | none => rfl
  | some x =>
    simp only [gather, Source.isDropped_keeping, Bool.false_eq_true, ↓reduceIte,
      ItemTree.spliceAll_singleton, Source.splice_item]
    rw [Source.isDropped_skipping, Source.item_skipping]

mutual

/-- Site by site, the items without unknown ones are the items with them, spliced. -/
theorem Site.items_skipUnknown (st : Settings) : ∀ s : Site,
    s.items (skipping st) = ItemTree.spliceAll ItemTree.isUnknown (s.items (keeping st))
  | .failed _ => rfl
  | .directory below own => by
    rw [Site.items, Site.items, itemsOf_skipUnknown st below, gather_skipping]

theorem itemsOf_skipUnknown (st : Settings) : ∀ ss : List Site,
    itemsOf (skipping st) ss = ItemTree.spliceAll ItemTree.isUnknown (itemsOf (keeping st) ss)
  | [] => rfl
  | s :: ss => by
    rw [itemsOf, itemsOf, ItemTree.spliceAll_append, Site.items_skipUnknown st s,
      itemsOf_skipUnknown st ss]

end

/-- If the index with unknown items is made, so is the one without them, and it is the former with
each unknown item replaced by its children; what remains keeps its order and its fields. -/
theorem topLevel_skipUnknown {ts : List ItemTree}
    (h : (topLevel fs { st with skipUnknown := false } root).result = .ok ts) :
    (topLevel fs { st with skipUnknown := true } root).result =
        .ok (ItemTree.spliceAll ItemTree.isUnknown ts) ∧
      (ItemTree.preorderAll (ItemTree.spliceAll ItemTree.isUnknown ts)).map ItemTree.fields =
        ((ItemTree.preorderAll ts).filter (!·.isUnknown)).map ItemTree.fields := by
  refine ⟨?_, ItemTree.preorder_spliceAll _ ts⟩
  obtain ⟨s, hs, rfl, hf, hx⟩ := topLevel_result_eq_ok.1 h
  refine topLevel_result_eq_ok.2 ⟨s, hs, Site.items_skipUnknown st s, hf, ?_⟩
  exact fun x hxs _ g hg => hx x hxs x.isDropped_keeping g hg

/-- The Markdown file of no known type is left out, and the tag below it takes its place. -/
theorem topLevel_skipUnknown_sample :
    (topLevel (sample [] []) { ignore := [], skipUnknown := true, extractBlocks := false }
      (Path.parse ".")).result = .ok [.node "c/tag.md" [] [] []] := by
  let st : Settings := { ignore := [], extractBlocks := false }
  have h : (topLevel (sample [] []) { st with skipUnknown := false } (Path.parse ".")).result =
      .ok [.node "a.md" [] [] [.node "c/tag.md" [] [] []]] := topLevel_sample [] [] rfl rfl rfl
  exact (topLevel_skipUnknown h).1

end Index
end DocTree
