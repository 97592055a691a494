import Mathlib
import DocTree.Proofs.Index.Contents
import DocTree.Proofs.Population.Names

/-!
# All blocks of a source, or none

Blocks are added to an item one at a time. Yet the item gets all blocks of its source or the store
stays as it is, unless the source breaks off (`allOrNothing_of_list_iff`). An index passes over what
is refused and keeps the item with the blocks that it got by then (`allOrNothing_iff`).
-/

namespace DocTree

namespace Store
variable {s : Store} {fs : FileSystem} {id : Nat} {it : Item} {preset : String}

/-- That an item gets all blocks of its source behind those that it has, or a fault leaves the store as
it was. -/
def AllOrNothing (s : Store) (fs : FileSystem) (id : Nat) (it : Item) (preset : String) : Prop :=
  ((∃ rs, (s.populate fs id preset).2 = .ok rs) ∧ ∃ ms, ∃ bs : List Block, it.blocks = .list ms ∧
    Population.named preset (fs.read (Path.parse it.path)) = .ok (bs.map Population.namedText) ∧
    (s.populate fs id preset).1 = s.setBlocks id (.list (ms ++ bs.map .own))) ∨
  (∃ f, (s.populate fs id preset).2 = .error f) ∧ (s.populate fs id preset).1 = s

/-- If there is no list of blocks, the first one cannot be added. -/
theorem exists_populate_of_other {v : Value} (hit : s.get? id = some it)
    (hv : it.blocks = .other v) (fs : FileSystem) (preset : String) :
    ∃ f, s.populate fs id preset = (s, .error f) := by
  cases hns : Population.named preset (fs.read (Path.parse it.path)) with
  | error f => exact ⟨.source f, by simp only [populate, hit, hns]⟩
  | ok ns =>
    obtain ⟨⟨name, text⟩, ns, rfl⟩ := List.exists_cons_of_ne_nil (Population.ne_nil_of_named hns)
    have hadd : s.addEach id ((name, text) :: ns) =
        (s, .error (.misuse (.noAttribute v.kindName "append"))) := by
      rw [addEach, addBlock_of_other hit hv]
    refine ⟨.add (.misuse (.noAttribute v.kindName "append")), ?_⟩
    simp only [populate, hit, hns, hadd]
    rfl

theorem eq_nil_of_setBlocks_append {ms : List (Member Block)} {bs : List Block}
    (hit : s.get? id = some it) (hms : it.blocks = .list ms)
    (h : s.setBlocks id (.list (ms ++ bs.map .own)) = s) : bs = [] := by
  have hget := get?_setBlocks s id (.list (ms ++ bs.map .own)) id
  rw [h, if_pos rfl, hit, Option.map_some, Option.some.injEq] at hget
  have hblocks : Slot.list ms = .list (ms ++ bs.map .own) := hms ▸ congrArg Item.blocks hget
  simpa using hblocks

theorem allOrNothing_of_list_iff {ms : List (Member Block)} (hit : s.get? id = some it)
    (hms : it.blocks = .list ms) : s.AllOrNothing fs id it preset ↔
      ¬ Population.BreaksOff preset (fs.read (Path.parse it.path)) := by
  rw [← Population.exists_blocks_or_none_iff, AllOrNothing, populate_of_list hit hms]
  cases hblocks : Population.blocks preset (fs.read (Path.parse it.path)) with
  | ok bs =>
    refine iff_of_true (.inl ⟨⟨_, rfl⟩, ms, bs, hms, Population.blocks_eq_ok_iff.1 hblocks, ?_⟩)
      (.inl ⟨bs, rfl⟩)
    rw [Population.madeBlocks_of_blocks hblocks]
  | error f =>
    constructor
    · rintro (⟨⟨rs, ⟨⟩⟩, -⟩ | ⟨-, hsame⟩)
      exact .inr (eq_nil_of_setBlocks_append hit hms hsame)
    · rintro (⟨bs, ⟨⟩⟩ | hnone)
      refine .inr ⟨⟨_, rfl⟩, ?_⟩
      rw [hnone, List.map_nil, List.append_nil, ← hms, setBlocks_self hit]

end Store

namespace Index
open ItemTree (preorderAll)

/-- An item gets all blocks of its source or the store stays as it was, unless there is a list of
blocks and the source breaks off. In an index that extracts blocks an item has all blocks of its
source or none, unless the source breaks off. -/
theorem allOrNothing_iff (fs : FileSystem) :
    (∀ (s : Store) (id : Nat) (it : Item) (preset : String), s.get? id = some it →
      (s.AllOrNothing fs id it preset ↔ ¬ ((∃ ms, it.blocks = .list ms) ∧
        Population.BreaksOff preset (fs.read (Path.parse it.path))))) ∧
    (fs.isProper = true → ∀ (st : Settings) (root : String) (ts : List ItemTree),
      st.extractBlocks = true → (topLevel fs st (Path.parse root)).result = .ok ts →
      ∀ t ∈ preorderAll ts,
        ((t.blocks = [] ∨ Population.named st.preset (fs.read (Path.parse t.path)) =
            .ok (t.blocks.map Population.namedText)) ↔
          ¬ Population.BreaksOff st.preset (fs.read (Path.parse t.path)))) := by
  constructor
  · intro s id it preset hit
    cases hslot : it.blocks with
    | other v =>
      obtain ⟨f, hf⟩ := Store.exists_populate_of_other hit hslot fs preset
      refine iff_of_true (.inr ⟨⟨f, by rw [hf]⟩, by rw [hf]⟩) ?_
      rintro ⟨⟨ms, ⟨⟩⟩, -⟩
    | list ms =>
      rw [Store.allOrNothing_of_list_iff hit hslot]
      exact not_congr (and_iff_right ⟨ms, rfl⟩).symm
  · intro hfs st root ts hextract h t ht
    obtain ⟨x, hx, hblocks⟩ := exists_source_of_mem hfs (Path.isProper_parse root) h ht
    rw [Source.blocks, if_pos hextract, hx] at hblocks
    rw [hblocks, ← Population.exists_blocks_iff, or_comm, Population.exists_blocks_or_none_iff]

theorem allOrNothing_sample :
    (Store.empty.add "c/tag.md" [] [] []).AllOrNothing (sample [] []) 0 (.ofPath "c/tag.md" [] [] [])
      Extract.defaultPreset ∧
    ∃ ts, (topLevel (sample [] []) { ignore := [] } (Path.parse ".")).result = .ok ts ∧
      ∀ t ∈ preorderAll ts, t.blocks = [] ∨
        Population.named Extract.defaultPreset ((sample [] []).read (Path.parse t.path)) =
          .ok (t.blocks.map Population.namedText) := by
  have hempty : ¬ Population.BreaksOff Extract.defaultPreset (.ok []) :=
    Population.exists_blocks_or_none_iff.1 (.inl ⟨_, Population.blocks_empty⟩)
  obtain ⟨hmd, htag⟩ := read_sample [] []
  have hfs : (sample [] []).isProper = true := by decide +kernel
  obtain ⟨hitem, hindex⟩ := allOrNothing_iff (sample [] [])
  refine ⟨(hitem _ 0 _ _ rfl).2 fun ⟨_, hbreaks⟩ => hempty (htag ▸ hbreaks), ?_⟩
  have hts := topLevel_sample_result (a := []) (b := []) (by simp [Population.blocks_empty])
  refine ⟨_, hts, fun t ht => (hindex hfs { ignore := [] } "." _ rfl hts t ht).2 ?_⟩
  have hfields : t.fields ∈ _ := List.mem_map_of_mem ht
  rw [Site.fields_items] at hfields
  obtain ⟨x, hx, hfields⟩ := List.mem_map.1 hfields
  have hx := (List.mem_filter.1 hx).1
  have hpath : x.itemPath = t.path := congrArg Prod.fst hfields
  simp only [sampleSite, Site.sources, sourcesOf, Option.toList, List.append_nil, List.mem_append,
    List.mem_singleton] at hx
  rcases hx with rfl | rfl
  · have hpage : Source.itemPath ⟨⟨.relative, ["a.md"]⟩, [], .ok []⟩ = "a.md" := by decide +kernel
    rw [← hpath, hpage, hmd]
    exact hempty
  · have hpage : Source.itemPath ⟨⟨.relative, ["c", "tag.md"]⟩, [], .ok []⟩ = "c/tag.md" := by
      decide +kernel
    rw [← hpath, hpage, htag]
    exact hempty

/-- Half of a surrogate pair ends the blocks of a tag behind its first one. -/
theorem not_forall_allOrNothing : ¬ ∀ (s : Store) (fs : FileSystem) (id : Nat) (it : Item)
    (preset : String), s.get? id = some it → s.AllOrNothing fs id it preset := by
  intro h
  have hall := h Store.sampleStore (Population.page Population.brokenText) 0
    (.ofPath "tag.md" [] [] []) Extract.defaultPreset rfl
  exact (Store.allOrNothing_of_list_iff rfl rfl).1 hall
    ⟨_, _, _, [.half 0xd800], "y", Population.named_page_brokenText, List.mem_cons_self ..⟩

end Index
end DocTree
