import Mathlib
import DocTree.Index
import DocTree.Proofs.ItemTree

/-!
# Sites

What a site gives, told by its sources in pre-order: the items are those of the sources that are not
dropped (`fields_items`), and a fault is one of looking through or one of a source that is not
dropped (`fault_mem_events`). An index is made if nothing of this is a fault
(`ofEvents_result_eq_ok`).
-/

namespace DocTree.Index

/-- What holds of a site if it holds of the sites below it holds of all sites. -/
@[elab_as_elim, induction_eliminator]
theorem Site.induct {motive : Site → Prop} (failed : ∀ f, motive (.failed f))
    (directory : ∀ below own, (∀ s ∈ below, motive s) → motive (.directory below own)) (s : Site) :
    motive s := by
  cases s with
  | failed f => exact failed f
  | directory below own => exact directory below own fun s _ => induct failed directory s

theorem itemsOf_eq_flatMap (st : Settings) (ss : List Site) :
    itemsOf st ss = ss.flatMap (Site.items st) := by
  induction ss with
  | nil => rfl
  | cons s ss ih => rw [itemsOf, ih, List.flatMap_cons]

theorem eventsOf_eq_flatMap (st : Settings) (ss : List Site) :
    eventsOf st ss = ss.flatMap (Site.events st) := by
  induction ss with
  | nil => rfl
  | cons s ss ih => rw [eventsOf, ih, List.flatMap_cons]

/-! ### Outcomes -/

/-- Events without a fault let the result be; one fault is enough to change it. -/
theorem Outcome.ofEvents_result_eq_ok {α : Type} {a b : α} {es : List Event} :
    (Outcome.ofEvents a es).result = .ok b ↔ a = b ∧ ∀ f, .fault f ∉ es := by
  induction es with
  | nil => simp [Outcome.ofEvents]
  | cons e es ih =>
    cases e with
    | record r => simp [Outcome.ofEvents, ih]
    | fault f =>
      simp only [Outcome.ofEvents, reduceCtorEq, false_iff, not_and]
      exact fun _ h => h f (List.mem_cons_self ..)

theorem Outcome.fault_mem_of_result {α : Type} {a : α} {es : List Event} {f : Fault}
    (h : (Outcome.ofEvents a es).result = .error f) : .fault f ∈ es := by
  induction es with
  | nil => cases h
  | cons e es ih =>
    cases e with
    | record r => exact List.mem_cons_of_mem _ (ih h)
    | fault g =>
      cases h
      exact List.mem_cons_self ..

/-! ### Faults and sources in a site -/

mutual

/-- The faults of looking through a site. -/
def Site.failures : Site → List FileFault
  | .failed f => [f]
  | .directory below _ => failuresOf below

/-- The faults of looking through sites. -/
def failuresOf : List Site → List FileFault
  | [] => []
  | s :: ss => s.failures ++ failuresOf ss

end

mutual

/-- The sources in a site, its own in front of those below it. -/
def Site.sources : Site → List Source
  | .failed _ => []
  | .directory below own => own.toList ++ sourcesOf below

/-- The sources in sites. -/
def sourcesOf : List Site → List Source
  | [] => []
  | s :: ss => s.sources ++ sourcesOf ss

end

theorem mem_failuresOf {f : FileFault} {ss : List Site} :
    f ∈ failuresOf ss ↔ ∃ s ∈ ss, f ∈ s.failures := by
  induction ss with
  | nil => simp [failuresOf]
  | cons s ss ih => simp [failuresOf, ih]

theorem sourcesOf_eq_flatMap (ss : List Site) : sourcesOf ss = ss.flatMap Site.sources := by
  induction ss with
  | nil => rfl
  | cons s ss ih => rw [sourcesOf, ih, List.flatMap_cons]

theorem mem_sourcesOf {x : Source} {ss : List Site} :
    x ∈ sourcesOf ss ↔ ∃ s ∈ ss, x ∈ s.sources := by
  rw [sourcesOf_eq_flatMap, List.mem_flatMap]

theorem failures_eq_nil_of_mem {below : List Site} {own : Option Source} {s : Site}
    (h : (Site.directory below own).failures = []) (hs : s ∈ below) : s.failures = [] := by
  rw [List.eq_nil_iff_forall_not_mem] at h ⊢
  exact fun f hf => h f (mem_failuresOf.2 ⟨s, hs, hf⟩)

/-! ### Items -/

theorem mem_itemsOf {st : Settings} {t : ItemTree} {ss : List Site} :
    t ∈ itemsOf st ss ↔ ∃ s ∈ ss, t ∈ s.items st := by
  rw [itemsOf_eq_flatMap, List.mem_flatMap]

/-- The items in pre-order are those of the sources that are not dropped. -/
theorem Site.fields_items (st : Settings) (s : Site) :
    (ItemTree.preorderAll (s.items st)).map ItemTree.fields =
      (s.sources.filter (!·.isDropped st)).map fun x => (x.item st []).fields := by
  induction s with
  | failed f => rfl
  | directory below own ih =>
    have ih' : (ItemTree.preorderAll (itemsOf st below)).map ItemTree.fields =
        ((sourcesOf below).filter (!·.isDropped st)).map fun x => (x.item st []).fields := by
      induction below with
      | nil => rfl
      | cons s ss ihs =>
        simp only [itemsOf, sourcesOf, ItemTree.preorderAll_append, List.map_append,
          List.filter_append]
        rw [ih s (List.mem_cons_self ..), ihs fun t ht => ih t (List.mem_cons_of_mem _ ht)]
    cases own with
    | none => simpa [Site.items, gather, sources] using ih'
    | some x =>
      by_cases h : x.isDropped st
      · simpa [Site.items, gather, sources, h] using ih'
      · simpa [Site.items, gather, sources, h, Source.item, ItemTree.preorder, ItemTree.fields,
          ItemTree.type, ItemTree.renderedPath, ItemTree.path, ItemTree.files, ItemTree.blocks]
          using ih'

/-! ### Faults -/

/-- That the blocks of a source cannot be had, in a way that ends the index. -/
def Source.Stops (st : Settings) (x : Source) (f : Population.Fault) : Prop :=
  st.extractBlocks = true ∧ Population.blocks st.preset x.content = .error f ∧
    f.isPassedOver = false

theorem fault_mem_populationEvents {st : Settings} {x : Source} {f : Fault} :
    .fault f ∈ populationEvents st x ↔ ∃ g, f = .population g ∧ x.Stops st g := by
  unfold populationEvents Source.Stops
  by_cases hx : st.extractBlocks = true
  · cases hb : Population.blocks st.preset x.content with
    | ok bs => simp [hx]
    | error g =>
      cases hg : g.isPassedOver with
      | true =>
        simp only [hx, hg, record, ↓reduceIte, List.mem_singleton, reduceCtorEq, false_iff]
        rintro ⟨g', -, -, h, hg'⟩
        cases h
        simp [hg] at hg'
      | false =>
        simp only [hx, hg, ↓reduceIte, Bool.false_eq_true, List.mem_singleton, Event.fault.injEq,
          true_and, Except.error.injEq]
        exact ⟨fun h => ⟨g, h, rfl, hg⟩, fun ⟨_, h, h', _⟩ => h' ▸ h⟩
  · simp [hx]

theorem fault_mem_ownEvents {st : Settings} {n : Nat} {own : Option Source} {f : Fault} :
    .fault f ∈ ownEvents st n own ↔
      ∃ x ∈ own, x.isDropped st = false ∧ ∃ g, f = .population g ∧ x.Stops st g := by
  cases own with
  | none => simp [ownEvents]
  | some x =>
    have hu : ∀ b : Bool, .fault f ∉ (if b then
        [record .warning "indexer.unknown_item" [("path", Value.str x.itemPath),
          ("skipped", .bool st.skipUnknown)]] else []) := by
      intro b; cases b <;> simp [record]
    cases hd : x.isDropped st with
    | true => simpa [ownEvents, hd] using hu (x.type == .unknown)
    | false =>
      have := hu (x.type == .unknown)
      simp only [ownEvents, hd, Bool.false_eq_true, ↓reduceIte, List.mem_append, this, false_or,
        fault_mem_populationEvents]
      simp [record, hd]

/-- A fault of a site is one of looking through, or one of a source that is not dropped. -/
theorem Site.fault_mem_events {st : Settings} {s : Site} {f : Fault} :
    .fault f ∈ s.events st ↔ (∃ g ∈ s.failures, f = .file g) ∨
      ∃ x ∈ s.sources, x.isDropped st = false ∧ ∃ g, f = .population g ∧ x.Stops st g := by
  induction s with
  | failed g => simp [Site.events, failures, sources]
  | directory below own ih =>
    simp only [Site.events, List.mem_append, eventsOf_eq_flatMap, List.mem_flatMap,
      fault_mem_ownEvents, failures, sources, mem_failuresOf, mem_sourcesOf, Option.mem_toList]
    constructor
    · rintro (⟨s, hs, hf⟩ | ⟨x, hx, h⟩)
      · rcases (ih s hs).1 hf with ⟨g, hg, rfl⟩ | ⟨x, hx, h⟩
        · exact .inl ⟨g, ⟨s, hs, hg⟩, rfl⟩
        · exact .inr ⟨x, .inr ⟨s, hs, hx⟩, h⟩
      · exact .inr ⟨x, .inl hx, h⟩
    · rintro (⟨g, ⟨s, hs, hg⟩, rfl⟩ | ⟨x, hx | ⟨s, hs, hx⟩, h⟩)
      · exact .inl ⟨s, hs, (ih s hs).2 (.inl ⟨g, hg, rfl⟩)⟩
      · exact .inr ⟨x, hx, h⟩
      · exact .inl ⟨s, hs, (ih s hs).2 (.inr ⟨x, hx, h⟩)⟩

/-! ### The index -/

/-- An index is made of a site if nothing in it is a fault; then it holds the items of the site. -/
theorem topLevel_result_eq_ok {fs : FileSystem} {st : Settings} {root : Path} {ts : List ItemTree} :
    (topLevel fs st root).result = .ok ts ↔ ∃ s, siteAt fs st root = .ok s ∧
      s.items st = ts ∧ s.failures = [] ∧
        ∀ x ∈ s.sources, x.isDropped st = false → ∀ g, ¬ x.Stops st g := by
  unfold topLevel
  cases hs : siteAt fs st root with
  | error f => simp
  | ok s =>
    simp only [Outcome.ofEvents_result_eq_ok, Except.ok.injEq, exists_eq_left',
      Site.fault_mem_events, and_congr_right_iff]
    intro _
    constructor
    · intro h
      refine ⟨List.eq_nil_iff_forall_not_mem.2 fun g hg => h (.file g) (.inl ⟨g, hg, rfl⟩), ?_⟩
      exact fun x hx hd g hg => h (.population g) (.inr ⟨x, hx, hd, g, rfl, hg⟩)
    · rintro ⟨hf, hx⟩ f (⟨g, hg, -⟩ | ⟨x, hx', hd, g, -, hg⟩)
      · simp [hf] at hg
      · exact hx x hx' hd g hg

end DocTree.Index
