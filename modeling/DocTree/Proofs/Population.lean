import Mathlib
import DocTree.Population
import DocTree.Proofs.Except

/-!
# Why a source gives no blocks

If the preset is known, only the front matter can fail in a way that ends an index of many sources:
by a scalar that its tag can make nothing of (`exists_error_iff`). All else that can be wrong with a
source is passed over.
-/

namespace DocTree

namespace FrontMatter

theorem split_eq_error_scalar {text : String} {f : Yaml.ScalarFault} :
    (∃ s, split text = .error (.yaml s (.scalar f))) ↔
      ∃ header body, header? text.toList = some (header, body) ∧
        Yaml.load header = .error (.scalar f) := by
  rw [split]
  cases header? text.toList with
  | none => simp
  | some cut =>
    obtain ⟨header, body⟩ := cut
    simp only [Option.some.injEq, Prod.mk.injEq, exists_and_left, exists_eq_left', and_assoc]
    rw [read]
    cases Yaml.load header with
    | error e => simp
    | ok v =>
      simp only [reduceCtorEq, iff_false, not_exists]
      intro s
      split
      · simp
      · split <;> simp

end FrontMatter

namespace Extract
variable {v : Value} {es : List (Value × Value)} {f : Fault}

theorem eq_longNumber_of_plainText (h : plainText v = .error f) : f = .longNumber := by
  unfold plainText at h
  split at h <;> cases h
  rfl

theorem eq_longNumber_of_rawOf (h : rawOf v = .error f) : f = .longNumber := by
  unfold rawOf at h
  split at h
  · cases h
  · cases hv : plainText _ with
    | error g =>
      rw [hv] at h
      cases h
      exact eq_longNumber_of_plainText hv
    | ok s =>
      rw [hv] at h
      cases h

theorem eq_longNumber_of_textOf (h : textOf v = .error f) : f = .longNumber := by
  unfold textOf at h
  split at h
  · rcases bind_eq_error.1 h with h | ⟨_, -, ⟨⟩⟩
    obtain ⟨x, -, hx⟩ := exists_mem_of_mapM_eq_error h
    exact eq_longNumber_of_rawOf hx
  · split at h
    · cases h
    · exact eq_longNumber_of_rawOf h

theorem eq_longNumber_of_entryText? {e : Value × Value} (h : entryText? e = .error f) :
    f = .longNumber := by
  rcases bind_eq_error.1 h with h | ⟨name, -, h⟩
  · exact eq_longNumber_of_rawOf h
  · split at h
    · cases h
    · rcases bind_eq_error.1 h with h | ⟨_, -, ⟨⟩⟩
      exact eq_longNumber_of_textOf h

theorem eq_longNumber_of_entryTexts (h : entryTexts es = .error f) : f = .longNumber := by
  rcases bind_eq_error.1 h with h | ⟨_, -, ⟨⟩⟩
  obtain ⟨e, -, he⟩ := exists_mem_of_mapM_eq_error h
  exact eq_longNumber_of_entryText? he

theorem eq_longNumber_of_standardText {name otherwise : String}
    (h : standardText es name otherwise = .error f) : f = .longNumber := by
  rcases bind_eq_error.1 h with h | ⟨_, -, h⟩
  · exact eq_longNumber_of_textOf h
  · cases h

/-- Under a known preset it is the front matter that fails, or a number is too long to be shown. -/
theorem eq_frontMatter_or_longNumber {text preset : String}
    (hp : (Markdown.Preset.ofName? preset).isSome = true) (h : named text preset = .error f) :
    (∃ g, FrontMatter.split text = .error g ∧ f = .frontMatter g) ∨ f = .longNumber := by
  obtain ⟨p, hp⟩ := Option.isSome_iff_exists.1 hp
  rcases bind_eq_error.1 h with h | ⟨⟨es, body⟩, -, h⟩
  · obtain ⟨g, hg, rfl⟩ := mapError_eq_error.1 h
    exact .inl ⟨g, hg, rfl⟩
  · refine .inr ?_
    rcases bind_eq_error.1 h with h | ⟨own, -, h⟩
    · exact eq_longNumber_of_entryTexts h
    · simp only [hp] at h
      rcases bind_eq_error.1 h with h | ⟨title, -, h⟩
      · exact eq_longNumber_of_standardText h
      · rcases bind_eq_error.1 h with h | ⟨_, -, ⟨⟩⟩
        exact eq_longNumber_of_standardText h

theorem named_of_split_eq_error {text : String} {g : FrontMatter.Fault}
    (h : FrontMatter.split text = .error g) (preset : String) :
    named text preset = .error (.frontMatter g) :=
  bind_eq_error.2 (.inl (mapError_eq_error.2 ⟨g, h, rfl⟩))

end Extract

namespace Text.Raw
variable {n : Raw}

/-- Whether a block may have the name: a text that is not empty. -/
def isAccepted : Raw → Bool
  | .text s => !s.isEmpty
  | .unpaired _ => false

/-- Any text may be the value of a block. -/
theorem make_of_isAccepted (h : n.isAccepted = true) (text : Raw) :
    Block.make (.ofRaw n) (.ofRaw text) = .ok ⟨n.shown, text⟩ := by
  cases n with
  | unpaired us => cases h
  | text s =>
    have hempty : s.isEmpty = false := by simpa [isAccepted] using h
    have hname : Block.checkName (.str s) = .ok s := if_neg (by rw [hempty]; decide)
    have hvalue : Validation.raw (.ofRaw text) = .ok text := by cases text <;> rfl
    rw [Value.ofRaw, Block.make, show (Value.str s).isFalsy = false from hempty, if_neg (by decide)]
    show (Validation.both Block.mk (Validation.within (.field "name") (Block.checkName (.str s)))
      (Validation.within (.field "value")
        (Validation.raw (.ofRaw text)))).mapError BlockFault.invalid = _
    rw [hname, hvalue]
    rfl

theorem shown_ne_empty (h : n.isAccepted = true) : n.shown ≠ "" := by
  cases n with
  | unpaired us => cases h
  | text s => simpa [isAccepted, shown] using h

/-- A name that cannot be encoded is refused. -/
theorem make_unpaired (us : List CodePoint) (text : Raw) :
    Block.make (.ofRaw (.unpaired us)) (.ofRaw text) =
      .error (.invalid [⟨.noUnicode, [.field "name"], .unpaired us⟩]) := by
  cases text <;> rfl

theorem exists_make_eq_error (h : n.isAccepted = false) (text : Raw) :
    ∃ f, Block.make (.ofRaw n) (.ofRaw text) = .error f := by
  cases n with
  | unpaired us => exact ⟨_, make_unpaired us text⟩
  | text s =>
    obtain rfl : s = "" := by simpa [isAccepted] using h
    exact ⟨.noName, rfl⟩

end Text.Raw

namespace Population

/-- That what is read of a source has a header in which a scalar cannot be had. -/
def FailsIn (content : Except FileFault (List UInt8)) (f : Yaml.ScalarFault) : Prop :=
  ∃ bytes text header body, content = .ok bytes ∧ Utf8.readText bytes = .ok text ∧
    FrontMatter.header? text = some (header, body) ∧ Yaml.load header = .error (.scalar f)

theorem eq_scalar_of_isPassedOver {g : FrontMatter.Fault}
    (h : Fault.isPassedOver (.extract (.frontMatter g)) = false) :
    ∃ s f, g = .yaml s (.scalar f) := by
  cases g with
  | kind k => cases h
  | yaml s e =>
    cases e with
    | scalar f => exact ⟨s, f, rfl⟩
    | unprintable c n => cases h
    | marked c p m => cases h

/-- The block of a named text. -/
def blockOf (n : Text.Raw × Text.Raw) : Block := ⟨n.1.shown, n.2⟩

/-- Blocks are made up to the first name that is not accepted. -/
theorem makeEach_fst (ns : List (Text.Raw × Text.Raw)) : (makeEach ns).1 =
    (ns.takeWhile fun n => n.1.isAccepted).map blockOf := by
  induction ns with
  | nil => rfl
  | cons n ns ih =>
    obtain ⟨name, text⟩ := n
    cases h : name.isAccepted with
    | true =>
      rw [makeEach, Text.Raw.make_of_isAccepted h, List.takeWhile_cons, h, if_pos rfl,
        List.map_cons, ← ih]
      rfl
    | false =>
      obtain ⟨f, hf⟩ := Text.Raw.exists_make_eq_error h text
      rw [makeEach, hf, List.takeWhile_cons, h]
      rfl

theorem makeEach_snd {ns : List (Text.Raw × Text.Raw)} :
    (makeEach ns).2 = .ok () ↔ ∀ n ∈ ns, n.1.isAccepted = true := by
  induction ns with
  | nil => simp [makeEach]
  | cons n ns ih =>
    obtain ⟨name, text⟩ := n
    rw [makeEach, List.forall_mem_cons, ← ih]
    cases h : name.isAccepted with
    | true => simp [Text.Raw.make_of_isAccepted h]
    | false =>
      obtain ⟨f, hf⟩ := Text.Raw.exists_make_eq_error h text
      simp [hf]

/-- The blocks of a source are those of its named texts, if each name is accepted. -/
theorem blocks_eq_ok {preset : String} {content : Except FileFault (List UInt8)} {bs : List Block} :
    blocks preset content = .ok bs ↔ ∃ ns, named preset content = .ok ns ∧
      (∀ n ∈ ns, n.1.isAccepted = true) ∧ bs = ns.map blockOf := by
  rw [blocks, bind_eq_ok]
  refine exists_congr fun ns => and_congr_right fun _ => ?_
  rw [← makeEach_snd]
  have hmade := makeEach_fst ns
  constructor
  · intro h
    obtain ⟨u, hu, rfl⟩ := map_eq_ok.1 h
    have hok := mapError_eq_ok.1 hu
    refine ⟨hok, hmade.trans ?_⟩
    rw [List.takeWhile_eq_self_iff.2 (makeEach_snd.1 hok)]
  · rintro ⟨hok, rfl⟩
    refine map_eq_ok.2 ⟨(), mapError_eq_ok.2 hok, hmade.trans ?_⟩
    rw [List.takeWhile_eq_self_iff.2 (makeEach_snd.1 hok)]

theorem madeBlocks_of_blocks {preset : String} {content : Except FileFault (List UInt8)}
    {bs : List Block} (h : blocks preset content = .ok bs) : madeBlocks preset content = bs := by
  rw [madeBlocks, h]

/-- An empty source has the texts that every source has, without anything in them. -/
theorem blocks_empty : blocks Extract.defaultPreset (.ok []) =
    .ok [⟨"title", ""⟩, ⟨"description", ""⟩, ⟨"content", ""⟩] := by
  have hnamed : Extract.named "" Extract.defaultPreset = .ok (Extract.standardTexts "" "" "") := by
    decide +kernel
  refine blocks_eq_ok.2 ⟨Extract.standardTexts "" "" "", ?_, by decide, rfl⟩
  exact (mapError_eq_ok (g := Fault.extract)).2 hnamed

/-- What is refused is a block. -/
theorem ne_refused_of_named {preset : String} {content : Except FileFault (List UInt8)} {g : Fault}
    (h : named preset content = .error g) (bs : List Block) (f : BlockFault) :
    g ≠ .refused bs f := by
  rintro rfl
  rcases bind_eq_error.1 h with h | ⟨bytes, -, h⟩
  · obtain ⟨f, -, ⟨⟩⟩ := mapError_eq_error.1 h
  · rcases bind_eq_error.1 h with h | ⟨text, -, h⟩
    · obtain ⟨f, -, ⟨⟩⟩ := mapError_eq_error.1 h
    · obtain ⟨f, -, ⟨⟩⟩ := mapError_eq_error.1 h

theorem madeBlocks_of_named {preset : String} {content : Except FileFault (List UInt8)} {g : Fault}
    (h : named preset content = .error g) : madeBlocks preset content = [] := by
  rw [madeBlocks, blocks, h]
  cases g with
  | refused bs f => exact absurd rfl (ne_refused_of_named h bs f)
  | _ => rfl

/-- A source ends the index just if it fails in a scalar that its tag can make nothing of. -/
theorem exists_error_iff {preset : String} {content : Except FileFault (List UInt8)}
    (hp : (Markdown.Preset.ofName? preset).isSome = true) :
    (∃ g, blocks preset content = .error g ∧ g.isPassedOver = false) ↔
      ∃ f, FailsIn content f ∧ f.isPassedOver = false := by
  constructor
  · rintro ⟨g, hg, hpassed⟩
    rcases bind_eq_error.1 hg with hg | ⟨ns, -, hg⟩
    · rcases bind_eq_error.1 hg with hg | ⟨bytes, hbytes, hg⟩
      · obtain ⟨f, -, rfl⟩ := mapError_eq_error.1 hg
        cases hpassed
      · rcases bind_eq_error.1 hg with hg | ⟨text, htext, hg⟩
        · obtain ⟨f, -, rfl⟩ := mapError_eq_error.1 hg
          cases hpassed
        · obtain ⟨f, hf, rfl⟩ := mapError_eq_error.1 hg
          rcases Extract.eq_frontMatter_or_longNumber hp hf with ⟨g, hsplit, rfl⟩ | rfl
          · obtain ⟨s, f, rfl⟩ := eq_scalar_of_isPassedOver hpassed
            obtain ⟨header, body, hheader, hload⟩ := FrontMatter.split_eq_error_scalar.1 ⟨s, hsplit⟩
            rw [String.toList_ofList] at hheader
            exact ⟨f, ⟨bytes, text, header, body, mapError_eq_ok.1 hbytes, mapError_eq_ok.1 htext,
              hheader, hload⟩, hpassed⟩
          · cases hpassed
    · obtain ⟨f, -, rfl⟩ := mapError_eq_error.1 (map_eq_error.1 hg)
      cases hpassed
  · rintro ⟨f, ⟨bytes, text, header, body, hbytes, htext, hheader, hload⟩, hpassed⟩
    rw [← String.toList_ofList (l := text)] at hheader
    obtain ⟨s, hsplit⟩ := FrontMatter.split_eq_error_scalar.2 ⟨header, body, hheader, hload⟩
    refine ⟨.extract (.frontMatter (.yaml s (.scalar f))), ?_, hpassed⟩
    refine bind_eq_error.2 (.inl (bind_eq_error.2 (.inr ⟨bytes, mapError_eq_ok.2 hbytes, ?_⟩)))
    refine bind_eq_error.2 (.inr ⟨text, mapError_eq_ok.2 htext, ?_⟩)
    exact mapError_eq_error.2 ⟨_, Extract.named_of_split_eq_error hsplit preset, rfl⟩

end Population
end DocTree
