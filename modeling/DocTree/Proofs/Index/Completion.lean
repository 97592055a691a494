import Mathlib
import DocTree.Proofs.Index.Structure
import DocTree.Proofs.Population
import DocTree.Proofs.Yaml.Load

/-!
# When an index is made

An index of a directory is made just if no name in it is too long to be looked up, and no source of
an item fails in a scalar that its tag can make nothing of (`topLevel_isOk_iff`). What else is wrong
with a source leaves its item without blocks.
-/

namespace DocTree.Index

open ItemTree (preorderAll)

section
variable {fs : FileSystem} {st : Settings} {root d q : Path} {s : Site}

theorem exists_siteAt_iff (st : Settings) :
    (∃ s, siteAt fs st root = .ok s) ↔ fs.leadsTo Entry.isDirectory root = .ok true := by
  constructor
  · rintro ⟨s, hs⟩
    obtain ⟨l, e, hl, he, -⟩ := siteAt_eq_ok hs
    rw [FileSystem.leadsTo, hl, ← he]
  · intro h
    unfold siteAt
    rw [h]
    unfold FileSystem.leadsTo at h
    cases hl : fs.lookup root with
    | ok r => exact ⟨_, rfl⟩
    | error f =>
      rw [hl] at h
      cases f <;> cases h

/-- That the root is no directory is found out before all else. -/
theorem topLevel_result_eq_notDirectory {p : Path} :
    (topLevel fs st root).result = .error (.notDirectory p) ↔
      p = root ∧ fs.leadsTo Entry.isDirectory root = .ok false := by
  unfold topLevel
  rcases Classical.em (fs.leadsTo Entry.isDirectory root = .ok true) with hdir | hdir
  · obtain ⟨s, hs⟩ := (exists_siteAt_iff st).2 hdir
    rw [hs, hdir]
    refine iff_of_false (fun h => ?_) (by simp)
    rcases Site.fault_mem_events.1 (Outcome.fault_mem_of_result h) with ⟨g, -, hg⟩ | ⟨x, -, -, g, hg, -⟩
    · cases hg
    · cases hg
  · unfold siteAt
    cases hleads : fs.leadsTo Entry.isDirectory root with
    | error f => simp
    | ok b =>
      cases b with
      | false => simp [eq_comm]
      | true => exact absurd hleads hdir

/-- The sources that are not dropped are those of the directories that have an item. -/
theorem exists_source_iff (hfs : fs.isProper = true) (h : siteAt fs st root = .ok s)
    (hf : s.failures = []) : (∃ d, HasItem fs st root d q) ↔
      ∃ x ∈ s.sources, x.isDropped st = false ∧ x.path = q ∧ x.content = fs.read q := by
  constructor
  · rintro ⟨d, hd⟩
    obtain ⟨hreach, x, hx, hq, hdrop⟩ := hasItem_iff.1 hd
    refine ⟨x, (mem_sources_iff hfs h hf).2 ⟨d, hreach, hx⟩, hdrop, hq, ?_⟩
    obtain ⟨p, -, rfl⟩ := Option.map_eq_some_iff.1 hx
    rw [← hq]
  · rintro ⟨x, hx, hdrop, hq, -⟩
    obtain ⟨d, hreach, hx⟩ := (mem_sources_iff hfs h hf).1 hx
    exact ⟨d, hasItem_iff.2 ⟨hreach, x, hx, hq, hdrop⟩⟩

theorem content_eq_read (hfs : fs.isProper = true) (h : siteAt fs st root = .ok s)
    (hf : s.failures = []) {x : Source} (hx : x ∈ s.sources) : x.content = fs.read x.path := by
  obtain ⟨d, -, hx⟩ := (mem_sources_iff hfs h hf).1 hx
  obtain ⟨p, -, rfl⟩ := Option.map_eq_some_iff.1 hx
  rfl

/-- That no source of an item fails in a scalar that its tag can make nothing of. -/
def NoneStops (fs : FileSystem) (st : Settings) (root : Path) : Prop :=
  st.extractBlocks = true → ∀ d q, HasItem fs st root d q →
    ∀ f, Population.FailsIn (fs.read q) f → f.isPassedOver = true

theorem noneStops_iff (hp : (Markdown.Preset.ofName? st.preset).isSome = true)
    (hfs : fs.isProper = true) (h : siteAt fs st root = .ok s) (hf : s.failures = []) :
    NoneStops fs st root ↔ ∀ x ∈ s.sources, x.isDropped st = false → ∀ g, ¬ x.Stops st g := by
  constructor
  · rintro hnone x hx hdrop g ⟨hextract, hg, hpassed⟩
    obtain ⟨d, hd⟩ := (exists_source_iff (q := x.path) hfs h hf).2
      ⟨x, hx, hdrop, rfl, content_eq_read hfs h hf hx⟩
    obtain ⟨f, hfail, hf'⟩ := (Population.exists_error_iff hp).1 ⟨g, hg, hpassed⟩
    rw [content_eq_read hfs h hf hx] at hfail
    rw [hnone hextract d x.path hd f hfail] at hf'
    cases hf'
  · intro hnone hextract d q hd f hfail
    obtain ⟨x, hx, hdrop, rfl, hcontent⟩ := (exists_source_iff hfs h hf).1 ⟨d, hd⟩
    rw [← Bool.not_eq_false]
    intro hf'
    rw [← hcontent] at hfail
    obtain ⟨g, hg, hpassed⟩ := (Population.exists_error_iff hp).2 ⟨f, hfail, hf'⟩
    exact hnone x hx hdrop g ⟨hextract, hg, hpassed⟩

/-- The item of a source whose named texts cannot be had is kept, without blocks. -/
theorem exists_item_without_blocks (hfs : fs.isProper = true) {ts : List ItemTree}
    (h : (topLevel fs st root).result = .ok ts) (hd : HasItem fs st root d q)
    {f : Population.Fault} (hq : Population.named st.preset (fs.read q) = .error f) :
    ∃ t ∈ preorderAll ts, t.path = q.text ∧ t.blocks = [] := by
  obtain ⟨s, hs, rfl, hf, -⟩ := topLevel_result_eq_ok.1 h
  obtain ⟨x, hx, hdrop, rfl, hcontent⟩ := (exists_source_iff hfs hs hf).1 ⟨d, hd⟩
  have hmem : (x.item st []).fields ∈ (preorderAll (s.items st)).map ItemTree.fields := by
    rw [Site.fields_items]
    exact List.mem_map.2 ⟨x, List.mem_filter.2 ⟨hx, by simp [hdrop]⟩, rfl⟩
  obtain ⟨t, ht, hfields⟩ := List.mem_map.1 hmem
  simp only [ItemTree.fields, Prod.mk.injEq] at hfields
  refine ⟨t, ht, hfields.1, hfields.2.2.2.2.trans ?_⟩
  show x.blocks st = []
  rw [Source.blocks, hcontent, Population.madeBlocks_of_named hq, ite_self]

end

theorem leadsTo_sample (a b : List UInt8) :
    (sample a b).leadsTo Entry.isDirectory (Path.parse ".") = .ok true :=
  (exists_siteAt_iff { ignore := [] }).1 ⟨_, siteAt_sample a b _ rfl⟩

end DocTree.Index
