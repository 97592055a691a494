import Mathlib
import DocTree.Population
import DocTree.Proofs.Except
import DocTree.Proofs.FileSystem
import DocTree.Proofs.Store.Blocks
import DocTree.Proofs.Text
import DocTree.Proofs.Value
import DocTree.Proofs.Yaml.Mapping
import DocTree.Store

/-!
# Where an entry of the front matter is found again

The blocks of a source are asked for by name, in any case of letters. Under most names the first
entry of that name is found. A title or description of the front matter is found just if its key is
in lower case: in any other case it is no block of its own, and is not looked up for the standard
one (`blockValue_of_entry`).
-/

namespace DocTree

theorem eq_empty_of_lowerCase {s : String} (h : s.lowerCase = "") : s = "" := by
  have hnil : Text.lower s.toList = [] := by
    rw [← String.toList_ofList (l := Text.lower s.toList)]
    exact congrArg String.toList h
  rcases hs : s.toList with _ | ⟨c, cs⟩
  · exact String.toList_eq_nil_iff.1 hs
  · rw [hs, Text.lower, Text.lowerFrom] at hnil
    exact absurd (List.append_eq_nil_iff.1 hnil).1 (Text.lowerAt_ne_nil _ _ _)

theorem Text.Raw.isEmpty_iff {t : Text.Raw} : t.isEmpty = true ↔ t = "" := by
  cases t with
  | text s => simp [isEmpty]
  | unpaired us => simp [isEmpty]

/-- Front matter that is a mapping has its entries. -/
theorem FrontMatter.split_of_fits {text : String} (header body : List Char)
    {es : List (Value × Value)} (hheader : header? text.toList = some (header, body))
    (hallowed : header.all Yaml.isAllowed = true) (hfits : Yaml.fits header (.map es) = true) :
    split text = .ok (es, .ofList body) := by
  rw [split, hheader]
  show read header body = _
  rw [read, Yaml.load_of_fits hallowed hfits]
  cases es <;> rfl

namespace Extract
variable {e : Value × Value} {es : List (Value × Value)} {name : String}

/-- Whether the key of an entry is a name, in some case of letters. -/
def isNamed (name : String) (e : Value × Value) : Bool :=
  match e.1.text? with
  | some s => s.lowerCase == name.lowerCase
  | none => false

def firstNamed? (es : List (Value × Value)) (name : String) : Option (Value × Value) :=
  es.find? (isNamed name)

/-- The first entry of a name that is no mapping, so that it gives a text. -/
def firstGiving? (es : List (Value × Value)) (name : String) : Option (Value × Value) :=
  es.find? fun e => isNamed name e && !isMapping e.2

theorem isNamed_of_plainText {s : String} (h : plainText e.1 = .ok s) :
    isNamed name e = (s.lowerCase == name.lowerCase) := by
  unfold plainText at h
  split at h
  · rename_i s' hs
    cases h
    rw [isNamed, hs]
  · cases h

/-- A key is shown as its text. -/
theorem plainText_eq_shown {v : Value} {n : Text.Raw} (h : rawOf v = .ok n) :
    plainText v = .ok n.shown := by
  unfold rawOf at h
  split at h
  · cases h
    rfl
  · obtain ⟨s, hs, rfl⟩ := map_eq_ok.1 h
    exact hs

theorem entryText?_eq_ok {o : Option (Text.Raw × Text.Raw)} : entryText? e = .ok o ↔
    ∃ n, rawOf e.1 = .ok n ∧
      if n.shown.isEmpty || standardNames.contains n.shown.lowerCase || isMapping e.2 then o = none
      else ∃ t, textOf e.2 = .ok t ∧ o = some (n, t) := by
  unfold entryText?
  cases rawOf e.1 with
  | error f => simp [bind, Except.bind]
  | ok n =>
    simp only [bind, Except.bind, Except.ok.injEq, exists_eq_left']
    split
    · exact ⟨fun h => by cases h; rfl, fun h => h ▸ rfl⟩
    · cases textOf e.2 with
      | error f => simp
      | ok t => exact ⟨fun h => by cases h; exact ⟨t, rfl, rfl⟩, fun ⟨_, h, ho⟩ => by
          cases h
          exact ho ▸ rfl⟩

theorem entryTexts_cons_eq_ok {own : List (Text.Raw × Text.Raw)} : entryTexts (e :: es) = .ok own ↔
    ∃ o rest, entryText? e = .ok o ∧ entryTexts es = .ok rest ∧ own = o.toList ++ rest := by
  unfold entryTexts
  rw [List.mapM_cons]
  cases entryText? e with
  | error f => simp [bind, Except.bind]
  | ok o =>
    cases es.mapM entryText? with
    | error f => simp [bind, Except.bind]
    | ok os => cases o <;> simp [bind, Except.bind, pure, Except.pure, eq_comm]

theorem name_of_mem_entryTexts {own : List (Text.Raw × Text.Raw)} (h : entryTexts es = .ok own)
    {p : Text.Raw × Text.Raw} (hp : p ∈ own) :
    p.1.shown ≠ "" ∧ p.1.shown.lowerCase ∉ standardNames := by
  induction es generalizing own with
  | nil =>
    cases h
    cases hp
  | cons e es ih =>
    obtain ⟨o, rest, ho, hrest, rfl⟩ := entryTexts_cons_eq_ok.1 h
    rcases List.mem_append.1 hp with hp | hp
    · obtain ⟨n, -, hs⟩ := entryText?_eq_ok.1 ho
      split at hs
      · subst hs
        cases hp
      · rename_i hcond
        obtain ⟨t, -, rfl⟩ := hs
        rw [Option.mem_toList] at hp
        cases hp
        simp only [Bool.or_eq_true, not_or, List.contains_iff_mem, String.isEmpty_iff] at hcond
        exact hcond.1
    · exact ih hrest hp

/-- Under a name that is not standard, the first text is that of the first entry that gives one. -/
theorem find?_entryTexts {own : List (Text.Raw × Text.Raw)} (h : entryTexts es = .ok own)
    (hne : name ≠ "") (hname : name.lowerCase ∉ standardNames) :
    (own.find? fun p => p.1.shown.lowerCase == name.lowerCase).map (fun p => Except.ok p.2) =
      (firstGiving? es name).map fun e => textOf e.2 := by
  induction es generalizing own with
  | nil =>
    cases h
    rfl
  | cons e es ih =>
    obtain ⟨o, rest, ho, hrest, rfl⟩ := entryTexts_cons_eq_ok.1 h
    obtain ⟨n, hn, hgives⟩ := entryText?_eq_ok.1 ho
    have ih := ih hrest
    unfold firstGiving? at ih ⊢
    rw [List.find?_cons, isNamed_of_plainText (plainText_eq_shown hn)]
    by_cases hkey : n.shown.lowerCase = name.lowerCase
    · -- a key of this name is not empty, and not standard
      have hempty : n.shown.isEmpty = false := by
        rw [Bool.eq_false_iff]
        intro hs
        rw [String.isEmpty_iff.1 hs] at hkey
        exact hne (eq_empty_of_lowerCase hkey.symm)
      have hstandard : standardNames.contains n.shown.lowerCase = false := by
        rw [hkey, Bool.eq_false_iff]
        exact fun hmem => hname (List.contains_iff_mem.1 hmem)
      rw [hempty, hstandard, Bool.false_or, Bool.false_or] at hgives
      cases hmapping : isMapping e.2 with
      | true =>
        rw [hmapping, if_pos rfl] at hgives
        subst hgives
        simpa using ih
      | false =>
        rw [hmapping, if_neg (by decide)] at hgives
        obtain ⟨t, ht, rfl⟩ := hgives
        simp [hkey, ht]
    · have hkey' : (n.shown.lowerCase == name.lowerCase) = false := beq_eq_false_iff_ne.2 hkey
      rw [hkey', Bool.false_and]
      split at hgives
      · subst hgives
        simpa using ih
      · obtain ⟨t, -, rfl⟩ := hgives
        simpa [hkey'] using ih

theorem find?_entryTexts_of_standard {own : List (Text.Raw × Text.Raw)} (h : entryTexts es = .ok own)
    (hname : name.lowerCase ∈ standardNames) :
    (own.find? fun p => p.1.shown.lowerCase == name.lowerCase) = none := by
  rw [List.find?_eq_none]
  intro p hp heq
  rw [beq_iff_eq] at heq
  exact (name_of_mem_entryTexts h hp).2 (heq ▸ hname)

theorem exists_firstGiving? {s : String} (he : e ∈ es) (hs : plainText e.1 = .ok s)
    (hgives : isMapping e.2 = false) : ∃ d, firstGiving? es s = some d := by
  rw [← Option.isSome_iff_exists, firstGiving?, List.find?_isSome]
  exact ⟨e, he, by rw [isNamed_of_plainText hs, beq_self_eq_true, hgives]; rfl⟩

theorem firstGiving?_of_firstNamed? (h : firstNamed? es name = some e)
    (hgives : isMapping e.2 = false) : firstGiving? es name = some e := by
  obtain ⟨he, before, after, rfl, hbefore⟩ := List.find?_eq_some_iff_append.1 h
  refine List.find?_eq_some_iff_append.2 ⟨by rw [he, hgives]; rfl, before, after, rfl, ?_⟩
  intro d hd
  rw [Bool.not_eq_true', Bool.and_eq_false_iff]
  exact .inl (Bool.not_eq_true' _ ▸ hbefore d hd)

theorem firstNamed?_congr {n : String} (h : name.lowerCase = n.lowerCase) :
    firstNamed? es name = firstNamed? es n := by
  unfold firstNamed? isNamed
  rw [h]

/-- What the body has for a standard name. -/
def bodyText (p : Markdown.Preset) (body name : String) : String :=
  if name = "title" then Markdown.firstHeading (Markdown.blocksOf p body)
  else Markdown.firstParagraph (Markdown.blocksOf p body)

theorem assemble_eq_ok {body preset : String} {ns : List (Text.Raw × Text.Raw)} :
    assemble es body preset = .ok ns ↔ ∃ own p title description,
      entryTexts es = .ok own ∧ Markdown.Preset.ofName? preset = some p ∧
        standardText es "title" (bodyText p body "title") = .ok title ∧
          standardText es "description" (bodyText p body "description") = .ok description ∧
            ns = own ++ standardTexts title description body.trimBlank := by
  unfold assemble
  rw [bind_eq_ok]
  refine exists_congr fun own => ?_
  constructor
  · rintro ⟨hown, h⟩
    split at h
    · rename_i p hp
      obtain ⟨title, htitle, description, hdescription, h⟩ := by
        simpa only [bind_eq_ok] using h
      cases h
      exact ⟨p, title, description, hown, hp, htitle, hdescription, rfl⟩
    · cases h
  · rintro ⟨p, title, description, hown, hp, htitle, hdescription, rfl⟩
    refine ⟨hown, ?_⟩
    simp only [hp]
    exact bind_eq_ok.2 ⟨title, htitle, bind_eq_ok.2 ⟨description, hdescription, rfl⟩⟩

theorem named_of_split {text body : String} (h : FrontMatter.split text = .ok (es, body))
    (preset : String) : named text preset = assemble es body preset := by
  rw [named, h]
  rfl

theorem named_eq_ok {text preset : String} {ns : List (Text.Raw × Text.Raw)} :
    named text preset = .ok ns ↔
      ∃ es body, FrontMatter.split text = .ok (es, body) ∧ assemble es body preset = .ok ns := by
  rw [named, bind_eq_ok, Prod.exists]
  simp only [mapError_eq_ok]

theorem extract_eq_ok {text preset : String} {pairs : List (String × String)} :
    extract text preset = .ok pairs ↔
      ∃ ns, named text preset = .ok ns ∧ pairs = ns.map fun n => (n.1.shown, n.2.shown) := by
  rw [extract, map_eq_ok]
  exact exists_congr fun ns => and_congr_right fun _ => eq_comm

theorem standardText_eq_ok {otherwise : String} {t : Text.Raw} :
    standardText es name otherwise = .ok t ↔
      ∃ u, textOf ((Value.lookup (.str name) es).getD .null) = .ok u ∧
        t = if u.isEmpty then .text otherwise else u := by
  unfold standardText
  rw [bind_eq_ok]
  refine exists_congr fun u => and_congr_right fun _ => ?_
  exact ⟨fun h => by cases h; rfl, fun h => h ▸ rfl⟩

theorem lowerCase_of_mem_standardNames {n : String} (h : n ∈ standardNames) : n.lowerCase = n := by
  have hall : ∀ m ∈ standardNames, m.lowerCase = m := by decide +kernel
  exact hall n h

theorem lookup_of_firstNamed? {n : String} (h : firstNamed? es n = some e) (hkey : e.1 = .str n) :
    Value.lookup (.str n) es = some e.2 := by
  induction es with
  | nil => cases h
  | cons d es ih =>
    rw [firstNamed?, List.find?_cons] at h
    rw [Value.lookup_cons]
    split at h
    · cases h
      rw [hkey]
      exact if_pos rfl
    · rename_i hd
      have hne : d.1.key? ≠ some (.str n) := by
        intro hd'
        rw [isNamed, Value.key?_eq_str.1 hd'] at hd
        simp [Value.text?] at hd
      rw [if_neg hne]
      exact ih h

/-- An entry under the standard name itself wins over the body, if its text is not empty. -/
theorem textOf_of_standardText {otherwise : String} {t : Text.Raw}
    (hname : name.lowerCase ∈ standardNames)
    (ht : standardText es name.lowerCase otherwise = .ok t) (h : firstNamed? es name = some e)
    (hkey : e.1 = .str name.lowerCase) (hne : textOf e.2 ≠ .ok "") : textOf e.2 = .ok t := by
  have hlower := lowerCase_of_mem_standardNames hname
  have hlookup : Value.lookup (.str name.lowerCase) es = some e.2 :=
    lookup_of_firstNamed? (firstNamed?_congr hlower.symm ▸ h) hkey
  obtain ⟨u, hu, rfl⟩ := standardText_eq_ok.1 ht
  rw [hlookup, Option.getD_some] at hu
  have hempty : u.isEmpty = false := by
    rw [Bool.eq_false_iff]
    intro h
    rw [Text.Raw.isEmpty_iff.1 h] at hu
    exact hne hu
  rw [hempty, if_neg (by decide)]
  exact hu

/-- Behind the texts that entries give, the first text of a standard name is the standard one. -/
theorem find?_append_standard {own : List (Text.Raw × Text.Raw)} {p : Markdown.Preset}
    {body content : String} {title description : Text.Raw} (hown : entryTexts es = .ok own)
    (htitle : standardText es "title" (bodyText p body "title") = .ok title)
    (hdescription : standardText es "description" (bodyText p body "description") = .ok description)
    (hname : name.lowerCase ∈ standardNames) (hcontent : name.lowerCase ≠ "content") :
    ∃ t, (own ++ standardTexts title description content).find?
        (fun p => p.1.shown.lowerCase == name.lowerCase) = some (.text name.lowerCase, t) ∧
      standardText es name.lowerCase (bodyText p body name.lowerCase) = .ok t := by
  have hlowerTitle := lowerCase_of_mem_standardNames (n := "title") (by decide)
  have hlowerDescription := lowerCase_of_mem_standardNames (n := "description") (by decide)
  rw [List.find?_append, find?_entryTexts_of_standard hown hname, Option.none_or]
  rcases List.mem_cons.1 hname with h | h
  · exact ⟨title, by simp [standardTexts, h, hlowerTitle, Text.Raw.shown], h ▸ htitle⟩
  · rcases List.mem_cons.1 h with h | h
    · exact ⟨description, by simp [standardTexts, h, hlowerTitle, hlowerDescription, Text.Raw.shown],
        h ▸ hdescription⟩
    · exact absurd (List.mem_singleton.1 h) hcontent

end Extract

namespace Population
variable {content : Except FileFault (List UInt8)} {es : List (Value × Value)} {body : String}

/-- That a source is read as a text. -/
def Reads (content : Except FileFault (List UInt8)) (text : String) : Prop :=
  ∃ bytes, content = .ok bytes ∧ Utf8.readText bytes = .ok text.toList

theorem named_of_reads {text : String} (h : Reads content text) (preset : String) :
    named preset content = (Extract.named text preset).mapError .extract := by
  obtain ⟨bytes, rfl, htext⟩ := h
  have hread : (Utf8.readText bytes).mapError Fault.encoding = .ok text.toList := by
    rw [htext]
    rfl
  show ((Utf8.readText bytes).mapError Fault.encoding >>= fun text =>
    (Extract.named (.ofList text) preset).mapError Fault.extract) = _
  rw [hread]
  dsimp only [bind, Except.bind]
  rw [String.ofList_toList]

/-- That a source has these entries of front matter and this body. -/
def Splits (content : Except FileFault (List UInt8)) (es : List (Value × Value)) (body : String) :
    Prop :=
  ∃ bytes text, content = .ok bytes ∧ Utf8.readText bytes = .ok text ∧
    FrontMatter.split (.ofList text) = .ok (es, body)

theorem named_of_splits (h : Splits content es body) (preset : String) :
    named preset content = (Extract.assemble es body preset).mapError .extract := by
  obtain ⟨bytes, text, rfl, htext, hsplit⟩ := h
  have hreads : Reads (.ok bytes) (.ofList text) :=
    ⟨bytes, rfl, by rw [htext, String.toList_ofList]⟩
  rw [named_of_reads hreads, Extract.named_of_split hsplit]

/-- A directory with a tag in it. -/
def page (text : String) : FileSystem := ⟨[("tag.md", .file text.toUTF8.toList)], []⟩

theorem read_page (text : String) :
    (page text).read (Path.parse "tag.md") = .ok text.toUTF8.toList := by
  have hparse : Path.parse "tag.md" = ⟨.relative, ["tag.md"]⟩ := by decide +kernel
  rw [hparse]
  exact FileSystem.read_name rfl rfl (by decide +kernel) (by decide +kernel)

end Population

namespace Store

theorem find_own (wanted : String) (bs : List Block) : blockValue.find wanted (bs.map .own) =
    .ok (((bs.find? fun b => b.name.lowerCase == wanted).map Block.value).getD "") := by
  induction bs with
  | nil => rfl
  | cons b bs ih =>
    rw [List.map_cons, List.find?_cons]
    show (if b.name.lowerCase == wanted then .ok b.value else blockValue.find wanted (bs.map .own)) = _
    split
    · rename_i h
      rw [h]
      rfl
    · rename_i h
      rw [Bool.not_eq_true] at h
      rw [h]
      exact ih

theorem blockValue_ofList {it : Item} {bs : List Block} (h : it.blocks = .ofList bs)
    (name : String) : blockValue it name =
      .ok (((bs.find? fun b => b.name.lowerCase == name.lowerCase).map Block.value).getD "") := by
  unfold blockValue
  simp only [h, Slot.ofList, Slot.members]
  exact find_own _ bs

/-- What is found among the blocks of named texts is found among the texts. -/
theorem blockValue_ofNamed {it : Item} {ns : List (Text.Raw × Text.Raw)}
    (h : it.blocks = .ofList (ns.map Population.blockOf)) (name : String) : blockValue it name =
      .ok (((ns.find? fun p => p.1.shown.lowerCase == name.lowerCase).map Prod.snd).getD "") := by
  rw [blockValue_ofList h, List.find?_map, Option.map_map]
  rfl

/-- An item without blocks gets just the blocks of its source, if this has any to give. -/
theorem exists_blocks_of_populate {s : Store} {id : Nat} {it : Item} (hit : s.get? id = some it)
    (hnone : it.blocks = .ofList []) {fs : FileSystem} {preset : String} {rs : List Log.Record}
    (h : (s.populate fs id preset).2 = .ok rs) :
    ∃ bs, Population.blocks preset (fs.read (Path.parse it.path)) = .ok bs ∧
      (s.populate fs id preset).1.get? id = some { it with blocks := .ofList bs } := by
  rw [populate_of_ofList hit hnone] at h ⊢
  obtain ⟨bs, hbs, -⟩ := map_eq_ok.1 h
  have hblocks := mapError_eq_ok.1 hbs
  refine ⟨bs, hblocks, ?_⟩
  rw [get?_setBlocks, if_pos rfl, hit, Population.madeBlocks_of_blocks hblocks]
  rfl

/-- The text that is found under the name of an entry of the front matter, once an item without
blocks has got those of its source. It is that of the first entry of this name if the name is not
standard, or if the key of this entry is the name in lower case and its text not empty. -/
theorem blockValue_of_entry {s : Store} {id : Nat} {it : Item} (hit : s.get? id = some it)
    (hnone : it.blocks = .ofList []) {fs : FileSystem} {preset : String} {rs : List Log.Record}
    (hrs : (s.populate fs id preset).2 = .ok rs) {es : List (Value × Value)} {body : String}
    (hsplit : Population.Splits (fs.read (Path.parse it.path)) es body)
    {e : Value × Value} (he : e ∈ es) {name : String} (hname : Extract.plainText e.1 = .ok name)
    (hne : name ≠ "") (hcontent : name.lowerCase ≠ "content")
    (hgives : Extract.isMapping e.2 = false) :
    ∃ p it' t, Markdown.Preset.ofName? preset = some p ∧
      (s.populate fs id preset).1.get? id = some it' ∧ blockValue it' name = .ok t ∧
      (name.lowerCase ∉ Extract.standardNames →
        ∃ d, Extract.firstGiving? es name = some d ∧ Extract.textOf d.2 = .ok t) ∧
      (name.lowerCase ∈ Extract.standardNames →
        Extract.standardText es name.lowerCase (Extract.bodyText p body name.lowerCase) = .ok t) ∧
      ∀ d, Extract.firstNamed? es name = some d → Extract.isMapping d.2 = false →
        (name.lowerCase ∈ Extract.standardNames →
          d.1 = .str name.lowerCase ∧ Extract.textOf d.2 ≠ .ok "") →
        Extract.textOf d.2 = .ok t := by
  obtain ⟨bs, hbs, hit'⟩ := exists_blocks_of_populate hit hnone hrs
  obtain ⟨ns, hns, -, rfl⟩ := Population.blocks_eq_ok.1 hbs
  rw [Population.named_of_splits hsplit, mapError_eq_ok] at hns
  obtain ⟨own, p, title, description, hown, hp, htitle, hdescription, rfl⟩ :=
    Extract.assemble_eq_ok.1 hns
  refine ⟨p, _, _, hp, hit', blockValue_ofNamed rfl name, ?_⟩
  by_cases hstandard : name.lowerCase ∈ Extract.standardNames
  · obtain ⟨t, hfind, ht⟩ :=
      Extract.find?_append_standard hown htitle hdescription hstandard hcontent
    rw [hfind]
    refine ⟨fun h => absurd hstandard h, fun _ => ht, fun d hd _ h => ?_⟩
    obtain ⟨hkey, hne⟩ := h hstandard
    exact Extract.textOf_of_standardText hstandard ht hd hkey hne
  · have hfound := Extract.find?_entryTexts hown hne hstandard
    obtain ⟨d, hd⟩ := Extract.exists_firstGiving? he hname hgives
    rw [hd, Option.map_some] at hfound
    obtain ⟨q, hq, hqd⟩ := Option.map_eq_some_iff.1 hfound
    rw [List.find?_append, hq, Option.some_or]
    refine ⟨fun _ => ⟨d, hd, hqd.symm⟩, fun h => absurd h hstandard, fun c hc hmapping _ => ?_⟩
    cases hd.symm.trans (Extract.firstGiving?_of_firstNamed? hc hmapping)
    exact hqd.symm

/-- A source whose title is not in lower case. -/
def sampleText : String := "---\nTitle: Mine\ntag: a\n---\n# Other\n"

theorem split_sample : FrontMatter.split sampleText =
    .ok ([(.str "Title", .str "Mine"), (.str "tag", .str "a")], "# Other\n") :=
  FrontMatter.split_of_fits "Title: Mine\ntag: a".toList "# Other\n".toList
    (by decide +kernel) (by decide +kernel) (by decide +kernel)

theorem named_sample : Extract.named sampleText Extract.defaultPreset =
    .ok ((.text "tag", "a") :: Extract.standardTexts "Other" "" "# Other") := by
  rw [Extract.named_of_split split_sample]
  decide +kernel

def sampleFiles : FileSystem := Population.page sampleText

theorem splits_sample : Population.Splits (sampleFiles.read (Path.parse "tag.md"))
    [(.str "Title", .str "Mine"), (.str "tag", .str "a")] "# Other\n" := by
  refine ⟨_, sampleText.toList, Population.read_page sampleText, by decide +kernel, ?_⟩
  rw [String.ofList_toList]
  exact split_sample

theorem blocks_sample : Population.blocks Extract.defaultPreset
    (sampleFiles.read (Path.parse "tag.md")) =
      .ok [⟨"tag", "a"⟩, ⟨"title", "Other"⟩, ⟨"description", ""⟩, ⟨"content", "# Other"⟩] := by
  refine Population.blocks_eq_ok.2
    ⟨(.text "tag", "a") :: Extract.standardTexts "Other" "" "# Other", ?_, by decide, rfl⟩
  rw [Population.named_of_splits splits_sample, ← Extract.named_of_split split_sample, named_sample]
  rfl

def sampleStore : Store := Store.empty.add "tag.md" [] [] []

theorem get?_sampleStore : sampleStore.get? 0 = some (.ofPath "tag.md" [] [] []) := rfl

theorem populate_sample : ∃ it rs,
    (sampleStore.populate sampleFiles 0 Extract.defaultPreset).2 = .ok rs ∧
      (sampleStore.populate sampleFiles 0 Extract.defaultPreset).1.get? 0 = some it ∧
      it.blocks =
        .ofList [⟨"tag", "a"⟩, ⟨"title", "Other"⟩, ⟨"description", ""⟩, ⟨"content", "# Other"⟩] := by
  have hblocks : Population.blocks Extract.defaultPreset
    (sampleFiles.read (Path.parse (Item.ofPath "tag.md" [] [] []).path)) = .ok _ := blocks_sample
  rw [populate_of_ofList get?_sampleStore rfl, hblocks, Population.madeBlocks_of_blocks hblocks,
    get?_setBlocks, if_pos rfl, get?_sampleStore]
  exact ⟨_, _, rfl, rfl, rfl⟩

theorem blockValue_of_entry_tag : ∃ it',
    (sampleStore.populate sampleFiles 0 Extract.defaultPreset).1.get? 0 = some it' ∧
      blockValue it' "tag" = .ok "a" := by
  have hname : Extract.plainText (.str "tag") = .ok "tag" := rfl
  obtain ⟨-, rs, hrs, -⟩ := populate_sample
  obtain ⟨p, it', t, -, hit', ht, -, -, h⟩ :=
    blockValue_of_entry get?_sampleStore rfl hrs splits_sample (e := (.str "tag", .str "a"))
      (by simp) hname (by decide) (by decide +kernel) rfl
  have htag : Extract.textOf (.str "a") = .ok t :=
    h (.str "tag", .str "a") ((List.find?_cons_of_neg (by decide +kernel)).trans
      (List.find?_cons_of_pos (by decide +kernel))) rfl fun hmem => absurd hmem (by decide +kernel)
  cases htag
  exact ⟨it', hit', ht⟩

/-- A title with a capital letter is lost, and the body's title is found in its place. -/
theorem not_forall_blockValue_eq : ¬ ∀ (s : Store) (id : Nat) (it : Item) (fs : FileSystem)
    (preset : String) (rs : List Log.Record) (es : List (Value × Value)) (body : String)
    (e d : Value × Value) (name : String) (t : Text.Raw) (it' : Item), s.get? id = some it →
      it.blocks = .ofList [] → (s.populate fs id preset).2 = .ok rs →
      Population.Splits (fs.read (Path.parse it.path)) es body → e ∈ es →
      Extract.plainText e.1 = .ok name → name ≠ "" → name.lowerCase ≠ "content" →
      Extract.isMapping e.2 = false → Extract.textOf e.2 = .ok t → t ≠ "" →
      Extract.firstNamed? es name = some d → (s.populate fs id preset).1.get? id = some it' →
      ∃ u, Extract.textOf d.2 = .ok u ∧ blockValue it' name = .ok u := by
  intro h
  obtain ⟨it', rs, hrs, hit', hblocks⟩ := populate_sample
  obtain ⟨u, hu, hvalue⟩ := h sampleStore 0 _ sampleFiles _ rs _ _ (.str "Title", .str "Mine")
    (.str "Title", .str "Mine") "Title" "Mine" it' get?_sampleStore rfl hrs splits_sample (by simp)
    rfl (by decide) (by decide +kernel) rfl rfl (by decide)
    (List.find?_cons_of_pos (by decide +kernel)) hit'
  rw [blockValue_ofList hblocks] at hvalue
  cases hu
  exact absurd hvalue (by decide +kernel)

end Store
end DocTree
