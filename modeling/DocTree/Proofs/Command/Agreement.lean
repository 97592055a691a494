import Mathlib
import DocTree.Proofs.Command.Ending
import DocTree.Proofs.Command.Run
import DocTree.Proofs.Index.Names
import DocTree.Proofs.Json.Written
import DocTree.Proofs.Report.Planted
import DocTree.Proofs.Status

/-!
# What tree and status print

A tree, a status and a status as JSON of one path show the same rows, each in a form of its own
(`stdout_agree`). The tree is told of an index of its own, which has the blocks that a status does
without.
-/

namespace DocTree

namespace Report
variable {c : Char}

/-- A text with blanks behind it, up to a width. -/
def column (width : Nat) (s : String) : String := s ++ blanks (width - s.length)

/-- The row in columns: hash, page, type and path. -/
def Row.columns (r : Row) : String :=
  column 12 (if r.hash = "" then "-" else r.hash) ++ "  " ++
    column 8 (if r.rendered then "rendered" else "pending") ++ "  " ++
      column 12 r.type.name ++ "  " ++ r.relativePath

/-- How many rows there are, and how many of them without a page. -/
def counted (rs : List Row) : String :=
  toString rs.length ++ " item(s), " ++ toString (rs.countP fun r => !r.rendered) ++ " pending"

/-- The row as a JSON object. -/
def Row.object (r : Row) : Value :=
  .map [(.str "depth", .int r.depth), (.str "type", .str r.type.name), (.str "path", .str r.path),
    (.str "relative_path", .str r.relativePath), (.str "hash", .str r.hash),
    (.str "rendered", .bool r.rendered)]

theorem Row.line_eq (r : Row) : r.line = r.columns := by
  rw [line, columns, paddedTo_eq, paddedTo_eq, paddedTo_eq]
  simp only [String.isEmpty_iff]
  rfl

theorem natText_eq (n : Nat) : Number.natText n = toString n := by
  rw [Nat.toString_eq_ofList_toDigits]
  rfl

theorem summaryLine_eq (rs : List Row) : summaryLine rs = counted rs := by
  rw [summaryLine, counted, natText_eq, natText_eq, List.countP_eq_length_filter]

theorem hasForm_object (r : Row) : Json.HasForm r.object := by
  show Json.HasForm (.map (Value.named [("depth", .int r.depth), ("type", .str r.type.name),
    ("path", .str r.path), ("relative_path", .str r.relativePath), ("hash", .str r.hash),
    ("rendered", .bool r.rendered)]))
  refine .map (by simp) ?_
  simp only [List.forall_mem_cons]
  exact ⟨.int _, .str _, .str _, .str _, .str _, .bool _, nofun⟩

/-! ### Characters -/

theorem not_mem_blanks (hc : c ≠ ' ') (n : Nat) : c ∉ (blanks n).toList := by
  rw [blanks, String.toList_ofList]
  exact fun h => hc (List.eq_of_mem_replicate h)

theorem not_mem_name (t : ItemType) : '\x1b' ∉ t.name.toList := by
  cases t <;> decide

/-- A character that is in no name of the directory is not in the relative path. -/
theorem Row.Truthful.not_mem_relativePath {fs : FileSystem} {root : Path} {r : Row}
    (h : r.Truthful fs root) (hr : r.directory.Lacks c) (hc : c ≠ '/')
    (hpage : c ∉ renderedName.toList) : c ∉ r.relativePath.toList := by
  have htext := congrArg String.toList h.page
  simp only [String.toList_append] at htext
  have hright : c ∉ r.directory.stem.toList ++ ("/".toList ++ renderedName.toList) := by
    simp only [List.mem_append, not_or]
    exact ⟨hr.not_mem_stem hc, by simpa using hc, hpage⟩
  rw [← htext, List.mem_append, not_or] at hright
  exact hright.2

theorem Row.not_mem_indented {r : Row} (h : '\x1b' ∉ r.relativePath.toList) :
    '\x1b' ∉ r.indented.toList := by
  have hblanks := not_mem_blanks (c := '\x1b') (by decide) (2 * r.depth)
  have hname := not_mem_name r.type
  rw [indented]
  simp only [String.toList_append, List.mem_append, not_or]
  refine ⟨⟨⟨⟨hblanks, hname⟩, by decide⟩, h⟩, ?_⟩
  split <;> decide

theorem not_mem_column {s : String} (h : '\x1b' ∉ s.toList) (width : Nat) :
    '\x1b' ∉ (column width s).toList := by
  rw [column, String.toList_append, List.mem_append, not_or]
  exact ⟨h, not_mem_blanks (by decide) _⟩

theorem Row.not_mem_columns {r : Row} (hhash : '\x1b' ∉ r.hash.toList)
    (h : '\x1b' ∉ r.relativePath.toList) : '\x1b' ∉ r.columns.toList := by
  have hfirst : '\x1b' ∉ (if r.hash = "" then "-" else r.hash).toList := by
    split
    · decide
    · exact hhash
  have hsecond : '\x1b' ∉ (if r.rendered then "rendered" else "pending").toList := by
    split <;> decide
  rw [columns]
  simp only [String.toList_append, List.mem_append, not_or]
  exact ⟨⟨⟨⟨⟨⟨not_mem_column hfirst 12, by decide⟩, not_mem_column hsecond 8⟩, by decide⟩,
    not_mem_column (not_mem_name r.type) 12⟩, by decide⟩, h⟩

theorem not_mem_counted (rs : List Row) : '\x1b' ∉ (counted rs).toList := by
  have hdigits : ∀ n : Nat, '\x1b' ∉ (toString n).toList := by
    intro n h
    rw [Nat.toString_eq_ofList_toDigits, String.toList_ofList] at h
    exact absurd (Nat.isDigit_of_mem_toDigits (by decide) (by decide) h) (by decide)
  rw [counted]
  simp only [String.toList_append, List.mem_append, not_or]
  exact ⟨⟨⟨hdigits _, by decide⟩, hdigits _⟩, by decide⟩

end Report

namespace Command
open Report (Row)
variable {fs : FileSystem} {environment : List (String × String)}

/-! ### Printed lines -/

def Output.text? : Output → Option String
  | .out t => some t
  | _ => none

/-- The texts that are printed for the reader. -/
def textsOf (os : List Output) : List String := os.filterMap Output.text?

/-- Texts with a line end behind each. -/
def lines (ss : List String) : String := .ofList (ss.flatMap fun s => s.toList ++ ['\n'])

/-- What is printed for the reader. -/
def stdout (os : List Output) : String := lines (textsOf os)

theorem textsOf_append (os ps : List Output) : textsOf (os ++ ps) = textsOf os ++ textsOf ps :=
  List.filterMap_append

theorem textsOf_eq_nil {os : List Output} (h : ∀ o ∈ os, o.text? = none) : textsOf os = [] :=
  List.filterMap_eq_nil_iff.2 h

theorem textsOf_shown (st : Settings) (verbose : Nat) (rs : List Log.Record) :
    textsOf (shown st verbose rs) = [] := by
  refine textsOf_eq_nil fun o ho => ?_
  obtain ⟨r, -, rfl⟩ := List.mem_map.1 ho
  rfl

theorem textsOf_notes (root : String) (t : ItemTree) (ts : List ItemTree) :
    textsOf (notes root t ts) = [] := by
  refine textsOf_eq_nil fun o ho => ?_
  obtain ⟨s, rfl⟩ := exists_note_of_mem_notes ho
  rfl

theorem say_of_not_mem {s : String} (h : '\x1b' ∉ s.toList) : say s = .out s := by
  rw [say, plain_of_not_mem h, String.ofList_toList]

/-- Lines without codes are printed as they are. -/
theorem textsOf_map_say {ss : List String} (h : ∀ s ∈ ss, '\x1b' ∉ s.toList) :
    textsOf (ss.map say) = ss := by
  induction ss with
  | nil => rfl
  | cons s ss ih =>
    obtain ⟨hs, hss⟩ := List.forall_mem_cons.1 h
    rw [List.map_cons, say_of_not_mem hs]
    exact congrArg (s :: ·) (ih hss)

/-! ### Commands that are done -/

theorem exists_of_done {c : Command} {o : Outcome} (h : run? fs environment c = some o)
    (hdone : o.ending = .done) : ∃ st, Config.load fs environment c.askedFor = .ok st ∧
      o.output = (c.carryOut fs st).1 ∧ (c.carryOut fs st).2 = .done := by
  cases runs_of_run? h with
  | told => cases hdone
  | mute => cases hdone
  | carried st _ hload => exact ⟨st, hload, rfl, hdone⟩

/-- A command on an index that is done has printed what it does on the first tree, and nothing else. -/
theorem exists_of_withIndex_done {verbose : Nat} {st : Settings}
    {f : Store → Nat → String → List Output × Ending} (h : (withIndex fs verbose st f).2 = .done) :
    ∃ root t ts, fs.target st.root = .ok (.path root) ∧
      (Index.topLevel fs st root).result = .ok (t :: ts) ∧
      (f (Store.empty.plant t).1.1 (Store.empty.plant t).1.2 root.text).2 = .done ∧
      textsOf (withIndex fs verbose st f).1 =
        textsOf (f (Store.empty.plant t).1.1 (Store.empty.plant t).1.2 root.text).1 := by
  generalize hr : withIndex fs verbose st f = r at h ⊢
  cases runsWithIndex hr with
  | unresolved => cases h
  | nowhere => cases h
  | stopped => cases h
  | told => cases h
  | empty => cases h
  | unsaid => cases h
  | first root t ts hroot hindex =>
    refine ⟨root, t, ts, hroot, hindex, h, ?_⟩
    simp only [textsOf_append, textsOf_shown, textsOf_notes, List.nil_append]

theorem exists_rows_of_done {json : Bool} {s : Store} {id : Nat} {base : String}
    (h : (statusOutput fs json s id base).2 = .done) : ∃ rs, Report.rows s fs id base = .ok rs := by
  unfold statusOutput at h
  cases hrows : Report.rows s fs id base with
  | ok rs => exact ⟨rs, rfl⟩
  | error f =>
    rw [hrows] at h
    cases h

/-! ### Agreement -/

/-- That a status tells these rows: those of the first tree in an index of the root that is set. -/
def Collects (fs : FileSystem) (st : Settings) (rs : List Row) : Prop :=
  ∃ root t ts, fs.target st.root = .ok (.path root) ∧
    (Index.topLevel fs st root).result = .ok (t :: ts) ∧
    Report.rows (Store.empty.plant t).1.1 fs (Store.empty.plant t).1.2 root.text = .ok rs

theorem Collects.unique {st : Settings} {rs rs' : List Row} (h : Collects fs st rs)
    (h' : Collects fs st rs') : rs = rs' := by
  obtain ⟨root, t, ts, hroot, hindex, hrs⟩ := h
  obtain ⟨root', t', ts', hroot', hindex', hrs'⟩ := h'
  cases hroot.symm.trans hroot'
  cases hindex.symm.trans hindex'
  exact Except.ok.inj (hrs.symm.trans hrs')

/-- A status that is done has printed its rows. -/
theorem exists_collects_of_status {path : Option String} {json : Bool} {skip : Option Bool}
    {verbose : Nat} {o : Outcome}
    (h : run? fs environment (.status path json skip verbose) = some o) (hdone : o.ending = .done) :
    ∃ st rs, Config.load fs environment (statusAsked path skip) = .ok st ∧ Collects fs st rs ∧
      textsOf o.output = textsOf (printed json rs) := by
  obtain ⟨st, hload, houtput, hdone⟩ := exists_of_done h hdone
  obtain ⟨root, t, ts, hroot, hindex, hdone, htexts⟩ := exists_of_withIndex_done hdone
  obtain ⟨rs, hrs⟩ := exists_rows_of_done hdone
  refine ⟨st, rs, hload, ⟨root, t, ts, hroot, hindex, hrs⟩, ?_⟩
  rw [statusOutput_eq hrs json] at htexts
  rw [houtput]
  exact htexts

/-- The settings of a tree and a status differ in what is asked for blocks alone. -/
theorem of_eq_of_tree_status {path : Option String} {skip : Option Bool} {preset : Option String}
    {verbose : Nat} {st st' : Settings}
    (h : Config.load fs environment (tree path skip preset verbose).askedFor = .ok st)
    (h' : Config.load fs environment (statusAsked path skip) = .ok st') {f : Setting}
    (hf : f = .root ∨ f = .ignore ∨ f = .skipUnknown) : f.of st = f.of st' := by
  refine Config.of_eq_of_load ?_ (nodup_statusAsked path skip) h h' ?_
  · cases path <;> cases skip <;> cases preset <;> simp [askedFor, asked]
  · rcases hf with rfl | rfl | rfl <;> cases path <;> cases skip <;> cases preset <;> rfl

theorem exists_collects_of_tree (hfs : fs.isProper = true) {path : Option String}
    {skip : Option Bool} {preset : Option String} {verbose : Nat} {o : Outcome}
    (h : run? fs environment (.tree path skip preset verbose) = some o) (hdone : o.ending = .done)
    {st : Settings} (hload : Config.load fs environment (statusAsked path skip) = .ok st)
    {rs : List Row} (hrs : Collects fs st rs) :
    textsOf o.output = textsOf ((rs.map Row.indented).map say) := by
  obtain ⟨st', hload', houtput, hdone⟩ := exists_of_done h hdone
  obtain ⟨root', t', ts', hroot', hindex', -, htexts⟩ := exists_of_withIndex_done hdone
  obtain ⟨root, t, ts, hroot, hindex, hrs⟩ := hrs
  have hsame : st'.root = st.root := of_eq_of_tree_status hload' hload (.inl rfl)
  have hignore : st'.ignore = st.ignore :=
    of_eq_of_tree_status (f := .ignore) hload' hload (.inr (.inl rfl))
  have hskip : st'.skipUnknown = st.skipUnknown :=
    of_eq_of_tree_status (f := .skipUnknown) hload' hload (.inr (.inr rfl))
  rw [hsame] at hroot'
  cases hroot'.symm.trans hroot
  -- both indexes are made of one site, so their trees are the same but for the blocks
  have hforest : ItemTree.withoutBlocksAll (t' :: ts') = ItemTree.withoutBlocksAll (t :: ts) := by
    obtain ⟨s', hs', hitems', hf', -⟩ := Index.topLevel_result_eq_ok.1 hindex'
    obtain ⟨s, hs, hitems, hf, -⟩ := Index.topLevel_result_eq_ok.1 hindex
    have hshows := Index.shows_of_siteAt hfs hs
    rw [← hignore] at hshows
    rw [← hitems', ← hitems]
    exact (Index.shows_of_siteAt hfs hs').withoutBlocks_items ⟨rfl, fun _ => rfl⟩ hfs hfs hskip hshows
      hf' hf
  have htree : t'.withoutBlocks = t.withoutBlocks := (List.cons.inj hforest).1
  have hlines := Report.treeLines_plant htree hrs
  rw [houtput]
  refine htexts.trans ?_
  rw [treeOutput, hlines]

/-- Rows of an index hold no code, if no name does. -/
theorem Collects.not_mem (hfs : fs.isProper = true) (hw : ∀ n ∈ fs.working, isEntryName n = true)
    (hesc : fs.Lacks '\x1b') {st : Settings} {rs : List Row} (h : Collects fs st rs) :
    ∀ r ∈ rs, '\x1b' ∉ r.hash.toList ∧ '\x1b' ∉ r.relativePath.toList := by
  obtain ⟨root, t, ts, hroot, hindex, hrs⟩ := h
  obtain ⟨habs, hproper, hdots⟩ := FileSystem.target_eq_path hw hroot
  obtain ⟨-, hitems⟩ := exists_hasItem_of_topLevel hfs hproper hindex
  have hmem : ∀ u ∈ t.preorder, u ∈ ItemTree.preorderAll (t :: ts) := fun u hu =>
    ItemTree.mem_preorderAll.2 ⟨t, List.mem_cons_self .., hu⟩
  obtain ⟨rs', hrs', hpaths, htrue⟩ := Report.exists_rows hfs habs hproper hdots
    (Store.holds_plant Store.empty t).2 fun u hu => ⟨_, hitems u (hmem u hu)⟩
  cases hrs.symm.trans hrs'
  have hlacks : root.Lacks '\x1b' := by
    obtain ⟨s, hs, -⟩ := Index.topLevel_result_eq_ok.1 hindex
    obtain ⟨l, e, hl, -⟩ := Index.siteAt_eq_ok hs
    exact hesc.of_lookup hproper hdots hl
  intro r hr
  have hpath : r.path ∈ t.preorder.map ItemTree.path := hpaths ▸ List.mem_map_of_mem hr
  obtain ⟨u, hu, hur⟩ := List.mem_map.1 hpath
  obtain ⟨q, hq, -⟩ := hitems u (hmem u hu)
  have hdirectory : r.directory = u.directory := by
    rw [Row.directory, ItemTree.directory, hur]
  refine ⟨fun h => ?_, (htrue r hr).not_mem_relativePath ?_ (by decide) (by decide +kernel)⟩
  · exact absurd ((htrue r hr).hash_letters _ h) (by decide)
  · rw [hdirectory]
    exact hq.reached.lacks hfs hesc hlacks

theorem printed_false (rs : List Row) :
    printed false rs = (rs.map Row.columns ++ [Report.counted rs]).map say := by
  rw [printed, if_neg (by decide), List.map_append, List.map_map, Report.summaryLine_eq]
  simp only [Row.line_eq]
  rfl

/-- The rows are read back from the JSON text that is printed. -/
theorem read?_stdout_printed (rs : List Row) : Json.read? (stdout (printed true rs)) =
    some (.list (rs.map Row.object)) := by
  have hform : Json.HasForm (.list (rs.map Row.object)) := by
    refine .list fun v hv => ?_
    obtain ⟨r, -, rfl⟩ := List.mem_map.1 hv
    exact Report.hasForm_object r
  have htext : Report.jsonText rs = Json.write (some 2) 0 (.list (rs.map Row.object)) := rfl
  have hplain : '\x1b' ∉ (Report.jsonText rs).toList := by
    intro h
    rw [htext] at h
    rcases Json.isPlain_write hform (some 2) 0 _ h with hblank | ⟨hleast, -⟩
    · exact absurd hblank (by decide)
    · exact absurd hleast (by decide)
  have hstdout : stdout (printed true rs) = Report.jsonText rs ++ .ofList ['\n'] := by
    have htexts : textsOf (printed true rs) = [Report.jsonText rs] := by
      rw [printed, if_pos rfl, say_of_not_mem hplain]
      rfl
    rw [stdout, htexts, lines, List.flatMap_singleton, String.ofList_append, String.ofList_toList]
  rw [hstdout, htext]
  exact Json.read?_write hform (some 2) (by simp [Json.isBlank])

/-- A tree, a status and a status as JSON of one path that are done show the same rows, if no name
holds an escape. The tree has each row on a line, indented by its depth; the status has it in columns,
and a line that counts the rows behind them; and the JSON text is a list of the rows. -/
theorem stdout_agree (hfs : fs.isProper = true) (hw : ∀ n ∈ fs.working, isEntryName n = true)
    (hesc : fs.Lacks '\x1b') {path : Option String} {skip : Option Bool} {preset : Option String}
    {k m n : Nat} {o₁ o₂ o₃ : Outcome}
    (htree : run? fs environment (.tree path skip preset k) = some o₁) (hdone₁ : o₁.ending = .done)
    (hstatus : run? fs environment (.status path false skip m) = some o₂)
    (hdone₂ : o₂.ending = .done)
    (hjson : run? fs environment (.status path true skip n) = some o₃) (hdone₃ : o₃.ending = .done) :
    ∃ st rs, Config.load fs environment (statusAsked path skip) = .ok st ∧ Collects fs st rs ∧
      stdout o₁.output = lines (rs.map Row.indented) ∧
      stdout o₂.output = lines (rs.map Row.columns ++ [Report.counted rs]) ∧
      Json.read? (stdout o₃.output) = some (.list (rs.map Row.object)) := by
  obtain ⟨st, rs, hload, hrs, hcolumns⟩ := exists_collects_of_status hstatus hdone₂
  obtain ⟨st', rs', hload', hrs', hobjects⟩ := exists_collects_of_status hjson hdone₃
  cases hload.symm.trans hload'
  cases hrs.unique hrs'
  have hplain := hrs.not_mem hfs hw hesc
  refine ⟨st, rs, hload, hrs, ?_, ?_, ?_⟩
  · rw [stdout, exists_collects_of_tree hfs htree hdone₁ hload hrs, textsOf_map_say]
    intro s hs
    obtain ⟨r, hr, rfl⟩ := List.mem_map.1 hs
    exact Row.not_mem_indented (hplain r hr).2
  · rw [stdout, hcolumns, printed_false, textsOf_map_say]
    intro s hs
    rcases List.mem_append.1 hs with hs | hs
    · obtain ⟨r, hr, rfl⟩ := List.mem_map.1 hs
      exact Row.not_mem_columns (hplain r hr).1 (hplain r hr).2
    · rw [List.mem_singleton.1 hs]
      exact Report.not_mem_counted rs
  · rw [stdout, hobjects]
    exact read?_stdout_printed rs

theorem lacks_sample : sample.Lacks '\x1b' := by
  have hnames : ∀ n ∈ ["w", "index.html", "tag.md"], '\x1b' ∉ n.toList := by decide +kernel
  intro l n e he
  refine hnames n ?_
  have hroot : ∀ m d, (m, d) ∈ sample.root.children → m = "w" ∧
      d = .directory [("index.html", .file []), ("tag.md", .file [])] := by
    intro m d h
    simpa [sample, FileSystem.root, Entry.children] using h
  rcases l with _ | ⟨a, l⟩
  · obtain ⟨d, hd, -⟩ := Entry.exists_of_at?_cons he
    simp [(hroot n d hd).1]
  · obtain ⟨d, hd, he⟩ := Entry.exists_of_at?_cons he
    obtain ⟨-, rfl⟩ := hroot a d hd
    -- below the directory there are only files, with nothing in them
    rcases l with _ | ⟨b, l⟩
    · obtain ⟨d, hd, -⟩ := Entry.exists_of_at?_cons he
      rcases List.mem_pair.1 hd with h | h <;> simp [(Prod.mk.inj h).1]
    · obtain ⟨d, hd, he⟩ := Entry.exists_of_at?_cons he
      have hne : l.append [n] ≠ [] := List.append_ne_nil_of_right_ne_nil l (List.cons_ne_nil n [])
      obtain ⟨m, l', hl⟩ := List.exists_cons_of_ne_nil hne
      rw [hl] at he
      obtain ⟨d', hd', -⟩ := Entry.exists_of_at?_cons he
      rcases List.mem_pair.1 hd with h | h <;> cases h <;> cases hd'

theorem load_sample_tree : Config.load sample [] (tree (some ".") none none 0).askedFor = .ok {} := by
  refine (Config.load_eq_ok_iff fileHolds_sample (by simp [askedFor, asked])).2 fun f => ?_
  cases f <;> rfl

theorem exists_topLevel_sample : ∃ bs,
    (Index.topLevel sample {} ⟨.single, ["w"]⟩).result = .ok [.node "/w/tag.md" [] bs []] := by
  have htext : Path.text ⟨.single, ["w", "tag.md"]⟩ = "/w/tag.md" := by decide +kernel
  obtain ⟨bs, hblocks⟩ : ∃ bs, Population.blocks Extract.defaultPreset (.ok []) = .ok bs :=
    ⟨_, Population.blocks_empty⟩
  refine ⟨bs, Index.topLevel_result_eq_ok.2 ⟨_, siteAt_sample rfl, ?_, rfl, ?_⟩⟩
  · simp [Index.Site.items, Index.itemsOf, Index.gather, Index.Source.isDropped, Index.Source.item,
      Index.Source.blocks, Index.Source.itemPath, Population.madeBlocks, hblocks, htext]
  · simp [Index.Site.sources, Index.sourcesOf, Index.Source.Stops, hblocks]

/-- The three commands show one row of the working directory, that of its tag. -/
theorem stdout_agree_sample : ∃ o₁ o₂ o₃ r,
    run? sample [] (.tree (some ".") none none 0) = some o₁ ∧
    run? sample [] (.status (some ".") false none 0) = some o₂ ∧
    run? sample [] (.status (some ".") true none 0) = some o₃ ∧ r.depth = 0 ∧ r.path = "/w/tag.md" ∧
      stdout o₁.output = lines [r.indented] ∧
      stdout o₂.output = lines [r.columns, Report.counted [r]] ∧
      Json.read? (stdout o₃.output) = some (.list [r.object]) := by
  have hproper : sample.isProper = true := by decide +kernel
  have hworking : ∀ n ∈ sample.working, isEntryName n = true := by decide +kernel
  obtain ⟨bs, hindex⟩ := exists_topLevel_sample
  have hstatusIndex : (Index.topLevel sample { extractBlocks := false } ⟨.single, ["w"]⟩).result = _ :=
    topLevel_sample rfl rfl rfl
  have htree := run?_of_runs (c := tree (some ".") none none 0) (.carried _ rfl load_sample_tree)
  have hstatus := run?_of_runs (c := status (some ".") false none 0) (.carried _ rfl load_sample)
  have hjson := run?_of_runs (c := status (some ".") true none 0) (.carried _ rfl load_sample)
  have hdone₁ : ((tree (some ".") none none 0).carryOut sample {}).2 = .done := by
    rw [carryOut, withIndex_eq target_sample hindex 0 rfl]
    exact treeOutput_plant ..
  have hdone (json : Bool) :
      ((status (some ".") json none 0).carryOut sample { extractBlocks := false }).2 = .done := by
    rw [carryOut, withIndex_eq target_sample hstatusIndex 0 rfl]
    exact statusOutput_plant hproper hworking target_sample hstatusIndex json
  obtain ⟨st, rs, hload, ⟨root, t, ts, hroot, hindex', hrs⟩, hlines⟩ :=
    stdout_agree hproper hworking lacks_sample htree hdone₁ hstatus (hdone false) hjson (hdone true)
  cases load_sample.symm.trans hload
  cases target_sample.symm.trans hroot
  cases hstatusIndex.symm.trans hindex'
  have hlevels := Report.map_of_rows_plant hrs
  obtain ⟨r, rfl⟩ : ∃ r, rs = [r] := by
    have hlength := congrArg List.length hlevels
    rw [List.length_map] at hlength
    exact List.length_eq_one_iff.1 hlength
  obtain ⟨hdepth, hpath⟩ := Prod.mk.inj (List.cons.inj hlevels).1
  exact ⟨_, _, _, r, htree, hstatus, hjson, hdepth, hpath, hlines⟩

end Command
end DocTree
