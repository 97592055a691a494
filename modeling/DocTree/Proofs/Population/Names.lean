import Mathlib
import DocTree.Proofs.Extract
import DocTree.Proofs.FileSystem

/-!
# Names that no block has

A key of front matter may hold half of a surrogate pair. The source has a text under it, but no block
may have such a name, so the blocks of the source end in front of it (`madeBlocks_of_named_eq_ok`).
That is seen just if there are some: a source gives all of its blocks or none, unless it breaks off
(`exists_blocks_or_none_iff`).
-/

namespace DocTree

namespace Extract
variable {text preset : String} {ns : List (Text.Raw × Text.Raw)}

theorem shown_ne_empty_of_named (h : named text preset = .ok ns) :
    ∀ n ∈ ns, n.1.shown ≠ "" := by
  obtain ⟨es, body, -, h⟩ := named_eq_ok.1 h
  obtain ⟨own, p, title, description, hown, -, -, -, rfl⟩ := assemble_eq_ok.1 h
  rw [List.forall_mem_append]
  refine ⟨fun n hn => (name_of_mem_entryTexts hown hn).1, ?_⟩
  simp [standardTexts, Text.Raw.shown]

theorem ne_nil_of_named (h : named text preset = .ok ns) : ns ≠ [] := by
  obtain ⟨es, body, -, h⟩ := named_eq_ok.1 h
  obtain ⟨own, p, title, description, -, -, -, -, rfl⟩ := assemble_eq_ok.1 h
  simp [standardTexts]

end Extract

namespace Text.Raw
variable {n : Raw}

theorem isAccepted_iff (h : n.shown ≠ "") : n.isAccepted = true ↔ ∃ s, n = .text s := by
  cases n with
  | text s => simpa [isAccepted, shown] using h
  | unpaired us => simp [isAccepted]

theorem exists_unpaired_of_isAccepted (h : n.shown ≠ "") (hn : n.isAccepted = false) :
    ∃ us, n = .unpaired us := by
  cases n with
  | text s => exact absurd ((isAccepted_iff h).2 ⟨s, rfl⟩) (by rw [hn]; decide)
  | unpaired us => exact ⟨us, rfl⟩

end Text.Raw

namespace Population
variable {preset : String} {content : Except FileFault (List UInt8)}
  {ns : List (Text.Raw × Text.Raw)} {bs : List Block}

theorem named_eq_ok : named preset content = .ok ns ↔
    ∃ text, Reads content text ∧ Extract.named text preset = .ok ns := by
  constructor
  · intro h
    obtain ⟨bytes, hbytes, h⟩ := bind_eq_ok.1 h
    obtain ⟨text, htext, h⟩ := bind_eq_ok.1 h
    refine ⟨.ofList text, ⟨bytes, mapError_eq_ok.1 hbytes, ?_⟩, mapError_eq_ok.1 h⟩
    rw [String.toList_ofList]
    exact mapError_eq_ok.1 htext
  · rintro ⟨text, htext, h⟩
    rw [named_of_reads htext, h]
    rfl

theorem shown_ne_empty_of_named (h : named preset content = .ok ns) :
    ∀ n ∈ ns, n.1.shown ≠ "" := by
  obtain ⟨text, -, h⟩ := named_eq_ok.1 h
  exact Extract.shown_ne_empty_of_named h

theorem ne_nil_of_named (h : named preset content = .ok ns) : ns ≠ [] := by
  obtain ⟨text, -, h⟩ := named_eq_ok.1 h
  exact Extract.ne_nil_of_named h

/-- The named text that a block holds. -/
def namedText (b : Block) : Text.Raw × Text.Raw := (.text b.name, b.value)

theorem namedText_blockOf {n : Text.Raw × Text.Raw} (h : n.1.isAccepted = true) :
    namedText (blockOf n) = n := by
  obtain ⟨n, text⟩ := n
  cases n with
  | text s => rfl
  | unpaired us => cases h

/-- The blocks of a source hold just its named texts. -/
theorem blocks_eq_ok_iff :
    blocks preset content = .ok bs ↔ named preset content = .ok (bs.map namedText) := by
  rw [blocks_eq_ok]
  constructor
  · rintro ⟨ns, hns, haccepted, rfl⟩
    have hsame : ns.map (namedText ∘ blockOf) = ns.map id :=
      List.map_congr_left fun n hn => namedText_blockOf (haccepted n hn)
    rwa [List.map_map, hsame, List.map_id]
  · intro h
    refine ⟨_, h, fun n hn => ?_, ?_⟩
    · obtain ⟨b, -, rfl⟩ := List.mem_map.1 hn
      exact (Text.Raw.isAccepted_iff (shown_ne_empty_of_named h _ hn)).2 ⟨b.name, rfl⟩
    · rw [List.map_map]
      exact (List.map_id bs).symm

theorem exists_blocks_iff : (∃ bs, blocks preset content = .ok bs) ↔
    named preset content = .ok ((madeBlocks preset content).map namedText) := by
  rw [← blocks_eq_ok_iff]
  refine ⟨fun ⟨bs, hbs⟩ => ?_, fun h => ⟨_, h⟩⟩
  rw [madeBlocks_of_blocks hbs, hbs]

/-- The blocks of a source are made up to a name that no block may have. -/
theorem madeBlocks_of_named_eq_ok (h : named preset content = .ok ns) :
    madeBlocks preset content = (ns.takeWhile fun n => n.1.isAccepted).map blockOf := by
  rw [← makeEach_fst, madeBlocks, blocks, h]
  dsimp only [bind, Except.bind]
  obtain ⟨bs, r⟩ := makeEach ns
  cases r <;> rfl

/-- That a source has a text under a name that no block may have, and the first of its texts under
one that a block may. -/
def BreaksOff (preset : String) (content : Except FileFault (List UInt8)) : Prop :=
  ∃ s text ns us text', named preset content = .ok ((.text s, text) :: ns) ∧
    (.unpaired us, text') ∈ ns

/-- A source gives all of its blocks or none of them, unless it breaks off. -/
theorem exists_blocks_or_none_iff :
    ((∃ bs, blocks preset content = .ok bs) ∨ madeBlocks preset content = []) ↔
      ¬ BreaksOff preset content := by
  cases hns : named preset content with
  | error f =>
    refine iff_of_true (.inr (madeBlocks_of_named hns)) ?_
    rintro ⟨s, text, ns, us, text', h, -⟩
    cases hns.symm.trans h
  | ok ns =>
    have hne := shown_ne_empty_of_named hns
    rw [madeBlocks_of_named_eq_ok hns, List.map_eq_nil_iff]
    constructor
    · rintro hwhole ⟨s, text, ms, us, text', h, hmem⟩
      obtain rfl := Except.ok.inj (hns.symm.trans h)
      rcases hwhole with ⟨bs, hbs⟩ | hnone
      · -- the blocks hold texts under texts only
        have hsame := Except.ok.inj (hns.symm.trans (blocks_eq_ok_iff.1 hbs))
        obtain ⟨b, -, hb⟩ := List.mem_map.1 (hsame ▸ List.mem_cons_of_mem _ hmem)
        cases hb
      · have hfirst : Text.Raw.isAccepted (.text s) = true :=
          (Text.Raw.isAccepted_iff (hne _ (List.mem_cons_self ..))).2 ⟨s, rfl⟩
        rw [List.takeWhile_cons, if_pos hfirst] at hnone
        cases hnone
    · intro hbreaks
      by_cases hall : ∀ n ∈ ns, n.1.isAccepted = true
      · exact .inl ⟨_, blocks_eq_ok.2 ⟨ns, hns, hall, rfl⟩⟩
      · right
        cases ns with
        | nil => rfl
        | cons n ns =>
          refine List.takeWhile_cons_of_neg fun hfirst => hbreaks ?_
          obtain ⟨hn, hns'⟩ := List.forall_mem_cons.1 hne
          obtain ⟨s, hs⟩ := (Text.Raw.isAccepted_iff hn).1 hfirst
          have hrest : ¬ ∀ m ∈ ns, m.1.isAccepted = true :=
            fun hrest => hall (List.forall_mem_cons.2 ⟨hfirst, hrest⟩)
          obtain ⟨m, hm, hrefused⟩ := by simpa only [not_forall, exists_prop] using hrest
          obtain ⟨us, hus⟩ := Text.Raw.exists_unpaired_of_isAccepted (hns' m hm)
            (Bool.not_eq_true _ ▸ hrefused)
          exact ⟨s, n.2, ns, us, m.2, by rw [hns, ← hs], hus ▸ hm⟩

/-- A source with half of a surrogate pair for a key, behind a key that is a text. -/
def brokenText : String := "---\na: x\n\"\\ud800\": y\n---\n# T\n"

theorem split_brokenText : FrontMatter.split brokenText =
    .ok ([(.str "a", .str "x"), (.unpaired [.half 0xd800], .str "y")], "# T\n") :=
  FrontMatter.split_of_fits "a: x\n\"\\ud800\": y".toList "# T\n".toList
    (by decide +kernel) (by decide +kernel) (by decide +kernel)

theorem named_brokenText : Extract.named brokenText Extract.defaultPreset =
    .ok ((.text "a", "x") :: (.unpaired [.half 0xd800], "y") ::
      Extract.standardTexts "T" "" "# T") := by
  rw [Extract.named_of_split split_brokenText]
  decide +kernel

theorem reads_page (text : String) (h : Utf8.readText text.toUTF8.toList = .ok text.toList) :
    Reads ((page text).read (Path.parse "tag.md")) text :=
  ⟨_, read_page text, h⟩

theorem reads_page_brokenText :
    Reads ((page brokenText).read (Path.parse "tag.md")) brokenText :=
  reads_page brokenText (by decide +kernel)

theorem named_page_brokenText :
    named Extract.defaultPreset ((page brokenText).read (Path.parse "tag.md")) =
      .ok ((.text "a", "x") :: (.unpaired [.half 0xd800], "y") ::
        Extract.standardTexts "T" "" "# T") :=
  named_eq_ok.2 ⟨_, reads_page_brokenText, named_brokenText⟩

end Population
end DocTree
