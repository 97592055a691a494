import Mathlib
import DocTree.Command
import DocTree.Proofs.Config
import DocTree.Proofs.Digest
import DocTree.Proofs.FileSystem.Resolve
import DocTree.Proofs.Index.Structure
import DocTree.Proofs.RenderedPath
import DocTree.Proofs.Store
import DocTree.Proofs.Target

/-!
# What a status tells

Each row of a status is true of the file system (`Row.Truthful`): the source it names lies below the
directory that was indexed, the relative path is that of the page beside the source, the page is there
if the row says so, and the hash is that of the bytes of the source. A row is made of the path of an
item alone, so all of this follows from where items have their sources (`exists_row`).
-/

namespace DocTree

namespace Report

/-- The directory in which the source of a row lies. -/
def Row.directory (r : Row) : Path := (Path.parse r.path).parent

/-- That what a row tells is true, if `root` was indexed. -/
structure Row.Truthful (fs : FileSystem) (root : Path) (r : Row) : Prop where
  /-- The source lies below the root. -/
  below : root.AtOrAbove r.directory
  /-- The source can be read, and the hash is that of its bytes. -/
  hash : ∃ bytes, fs.read (Path.parse r.path) = .ok bytes ∧
    r.hash = .ofList (Text.hexOfBytes ((Digest.sha1 bytes).take 6))
  hash_length : r.hash.length = 12
  hash_letters : ∀ c ∈ r.hash.toList, c ∈ Text.hexLetters
  /-- Put behind the root, the relative path is that of the page beside the source. -/
  page : root.stem ++ r.relativePath = r.directory.stem ++ ("/" ++ renderedName)
  /-- The page is an entry of the directory and is found, links followed. -/
  rendered : r.rendered = true ↔ (∃ e, (renderedName, e) ∈ fs.entriesAt r.directory) ∧
    fs.holds (r.directory.child renderedName) = true
  /-- A page that is no link is only missed if its path is too long. -/
  rendered_of_mem : ∀ e, (renderedName, e) ∈ fs.entriesAt r.directory → (∀ t, e ≠ .link t) →
    fs.lookup (r.directory.child renderedName) ≠ .error .nameTooLong → r.rendered = true

end Report

namespace Index
variable {fs : FileSystem} {st : Settings} {root d q : Path}

theorem exists_lookup_of_entriesAt (h : fs.entriesAt d ≠ []) :
    ∃ l es, fs.lookup d = .ok (l, .directory es) ∧ fs.entriesAt d = es := by
  unfold FileSystem.entriesAt at h ⊢
  split at h
  · rename_i l e hd
    cases e with
    | directory es => exact ⟨l, es, hd, rfl⟩
    | file bs => exact absurd rfl h
    | link t => exact absurd rfl h
  · exact absurd rfl h

theorem read_of_hasFile {p : Path} (h : fs.hasFile p = true) : ∃ bytes, fs.read p = .ok bytes := by
  obtain ⟨l, bytes, hp⟩ := FileSystem.hasFile_iff.1 h
  exact ⟨bytes, by rw [FileSystem.read, hp]⟩

theorem Reached.not_mem_dots (hfs : fs.isProper = true) {ignore : List String}
    (hroot : ".." ∉ root.parts) (h : Reached fs ignore root d) : ".." ∉ d.parts := by
  induction h with
  | root => exact hroot
  | child _ hn ih =>
    obtain ⟨es, hmem, -⟩ := hn
    obtain ⟨-, hdots, -⟩ := isEntryName_iff.1 (isEntryName_of_mem_entriesAt hfs hmem)
    intro hmem
    rcases List.mem_append.1 hmem with hmem | hmem
    · exact ih hmem
    · exact hdots (List.mem_singleton.1 hmem).symm

end Index

namespace Report
open Index (HasItem)
variable {fs : FileSystem} {st : Settings} {root d q : Path}

theorem isEntryName_renderedName : isEntryName renderedName = true := by decide +kernel

section
variable (hfs : fs.isProper = true) (hne : fs.entriesAt d ≠ [])
include hne

theorem exists_mem_of_holds (h : fs.holds (d.child renderedName) = true) :
    ∃ e, (renderedName, e) ∈ fs.entriesAt d := by
  obtain ⟨l, es, hd, hes⟩ := Index.exists_lookup_of_entriesAt hne
  obtain ⟨r, hr⟩ : ∃ r, fs.lookup (d.child renderedName) = .ok r := by
    unfold FileSystem.holds at h
    cases hr : fs.lookup (d.child renderedName) with
    | ok r => exact ⟨r, rfl⟩
    | error f =>
      rw [hr] at h
      cases h
  rw [hes]
  exact FileSystem.exists_mem_of_lookup_child hd isEntryName_renderedName hr

include hfs

theorem holds_of_mem {e : Entry} (h : (renderedName, e) ∈ fs.entriesAt d) (ht : ∀ t, e ≠ .link t)
    (hlong : fs.lookup (d.child renderedName) ≠ .error .nameTooLong) :
    fs.holds (d.child renderedName) = true := by
  obtain ⟨l, es, hd, hes⟩ := Index.exists_lookup_of_entriesAt hne
  rw [hes] at h
  have hnodup := (Entry.isProper_directory.1 (fs.isProper_of_lookup hfs hd)).1
  have hpage := FileSystem.lookup_child hd (Entry.lookup_of_mem hnodup h) isEntryName_renderedName ht
    hlong
  rw [FileSystem.holds, hpage]
  rfl

end

/-- The page of an item is looked for beside its source. -/
theorem isRendered_eq (hfs : fs.isProper = true) (hroot : root.IsProper) (hdots : ".." ∉ root.parts)
    (h : HasItem fs st root d q) {it : Item} (hit : it.path = q.text)
    (hpath : it.renderedPath = renderedPath it.path) :
    it.isRendered fs = fs.holds (d.child renderedName) := by
  obtain ⟨n, e, hmem, rfl⟩ :=
    Index.exists_child_of_mem_filesIn (SourceFile.mem_of_choose? h.chosen)
  obtain ⟨-, -, hslash, -⟩ := isEntryName_iff.1 (Index.isEntryName_of_mem_entriesAt hfs hmem)
  have hd : d.IsProper := h.reached.isProper hfs hroot
  rw [Item.isRendered, hpath, hit, renderedPath_child hd (h.reached.not_mem_dots hfs hdots) hslash,
    Path.parse_text (hd.child (by decide +kernel) (by decide +kernel))]

/-- The row of an item can be made, and is true. -/
theorem exists_row (hfs : fs.isProper = true) (habs : root.root = .single) (hroot : root.IsProper)
    (hdots : ".." ∉ root.parts) (h : HasItem fs st root d q) {it : Item} (hit : it.path = q.text)
    (hpath : it.renderedPath = renderedPath it.path) (depth : Nat) :
    ∃ r, row fs root.text depth it = .ok r ∧ r.path = q.text ∧ r.directory = d ∧
      r.Truthful fs root := by
  have hq := SourceFile.mem_of_choose? h.chosen
  obtain ⟨n, e, hmem, rfl⟩ := Index.exists_child_of_mem_filesIn hq
  obtain ⟨hname, -, hslash, -⟩ := isEntryName_iff.1 (Index.isEntryName_of_mem_entriesAt hfs hmem)
  have hd : d.IsProper := h.reached.isProper hfs hroot
  have hdots' : ".." ∉ d.parts := h.reached.not_mem_dots hfs hdots
  have habs' : d.root = .single := h.reached.atOrAbove.1.symm.trans habs
  have hne : fs.entriesAt d ≠ [] := List.ne_nil_of_mem hmem
  have hparse : Path.parse (d.child n).text = d.child n := Path.parse_text (hd.child hname hslash)
  -- the source is read, and gives the hash
  obtain ⟨bytes, hread⟩ := Index.read_of_hasFile (List.mem_filter.1 (List.mem_mergeSort.1 hq)).2
  have hhash : it.fingerprint fs = .ok (Digest.fingerprint bytes) := by
    rw [Item.fingerprint, hit, hparse, hread]
  have hpage := isRendered_eq hfs hroot hdots h hit hpath
  have hdirectory : (Path.parse it.path).parent = d := by
    rw [hit, hparse, Path.parent_child]
  refine ⟨⟨depth, it.type, it.path, it.relativePath root.text, Digest.fingerprint bytes,
    it.isRendered fs⟩, bind_eq_ok.2 ⟨_, hhash, rfl⟩, hit, hdirectory, ?_⟩
  constructor
  · rw [Row.directory, hdirectory]
    exact h.reached.atOrAbove
  · exact ⟨bytes, by rw [hit, hparse, hread], Digest.fingerprint_eq bytes⟩
  · exact Digest.length_fingerprint bytes
  · exact fun c hc => Digest.mem_fingerprint hc
  · rw [Row.directory, hdirectory, ← text_child_renderedName habs']
    exact Item.stem_append_relativePath habs h.reached.atOrAbove hd hdots' hslash (hit ▸ hpath)
  · rw [Row.directory, hdirectory, hpage]
    exact ⟨fun hholds => ⟨exists_mem_of_holds hne hholds, hholds⟩, And.right⟩
  · rw [Row.directory, hdirectory, hpage]
    exact fun e he ht hlong => holds_of_mem hfs hne he ht hlong

theorem Row.isProper_directory (r : Row) : r.directory.IsProper :=
  fun n hn => Path.isProper_parse r.path n (List.mem_of_mem_dropLast hn)

/-- Rows with one relative path are of one directory. -/
theorem Row.Truthful.directory_eq {r r' : Row} (habs : root.root = .single)
    (h : r.Truthful fs root) (h' : r'.Truthful fs root) (heq : r.relativePath = r'.relativePath) :
    r.directory = r'.directory := by
  have hchild : ∀ r : Row, r.Truthful fs root →
      r.directory.child renderedName = Path.parse (root.stem ++ r.relativePath) := by
    intro r hr
    have hslash : '/' ∉ renderedName.toList := by decide +kernel
    rw [hr.page, ← text_child_renderedName (hr.below.1.symm.trans habs),
      Path.parse_text (r.isProper_directory.child (by decide +kernel) hslash)]
  have hboth : r.directory.child renderedName = r'.directory.child renderedName := by
    rw [hchild r h, hchild r' h', heq]
  have hparent := congrArg Path.parent hboth
  rwa [Path.parent_child, Path.parent_child] at hparent

/-- The rows of a tree of items that have their sources below `root`: one for each item, in pre-order,
all of them true. -/
theorem exists_rows (hfs : fs.isProper = true) (habs : root.root = .single) (hroot : root.IsProper)
    (hdots : ".." ∉ root.parts) {s : Store} {id : Nat} {t : ItemTree} (hs : s.Holds id t)
    (h : ∀ u ∈ t.preorder, ∃ d q, HasItem fs st root d q ∧ u.path = q.text) :
    ∃ rs, rows s fs id root.text = .ok rs ∧ rs.map Row.path = t.preorder.map ItemTree.path ∧
      ∀ r ∈ rs, r.Truthful fs root := by
  obtain ⟨items, hitems, hpaths, hrendered⟩ := Store.outline_of_holds hs
  have hrow : ∀ x ∈ items, ∃ r, row fs root.text x.1 x.2 = .ok r ∧
      (r.path = x.2.path ∧ r.Truthful fs root) := by
    intro x hx
    have hpath : x.2.path ∈ t.preorder.map ItemTree.path := hpaths ▸ List.mem_map_of_mem hx
    obtain ⟨u, hu, hux⟩ := List.mem_map.1 hpath
    obtain ⟨d, q, hq, huq⟩ := h u hu
    obtain ⟨r, hr, hrq, -, htrue⟩ :=
      exists_row hfs habs hroot hdots hq (hux.symm.trans huq) (hrendered x hx) x.1
    exact ⟨r, hr, by rw [hrq, ← huq, hux], htrue⟩
  obtain ⟨rs, hrs, hall⟩ := exists_mapM_eq_ok hrow
  refine ⟨rs, bind_eq_ok.2 ⟨items, mapError_eq_ok.2 hitems, mapError_eq_ok.2 hrs⟩, ?_⟩
  rw [← hpaths]
  clear hrs hpaths hrow hitems hrendered
  induction hall with
  | nil => exact ⟨rfl, fun r hr => absurd hr List.not_mem_nil⟩
  | cons hr _ ih =>
    refine ⟨?_, List.forall_mem_cons.2 ⟨hr.2, ih.2⟩⟩
    rw [List.map_cons, List.map_cons, hr.1, ih.1]

theorem nodup_relativePath (habs : root.root = .single) {rs : List Row}
    (h : ∀ r ∈ rs, r.Truthful fs root) (hnodup : (rs.map Row.directory).Nodup) :
    (rs.map Row.relativePath).Nodup := by
  refine List.Nodup.map_on ?_ hnodup.of_map
  intro r hr r' hr' heq
  exact List.inj_on_of_nodup_map hnodup hr hr' ((h r hr).directory_eq habs (h r' hr') heq)

end Report

namespace Command
variable {fs : FileSystem} {environment : List (String × String)}

/-- What the status command asks for. -/
def statusAsked (path : Option String) (skip : Option Bool) : List (String × Value) :=
  asked [("root", path.map .str), ("skip_unknown", skip.map .bool),
    ("extract_blocks", some (.bool false))]

/-- What the status command prints of its rows. -/
def printed (json : Bool) (rs : List Report.Row) : List Output :=
  if json then [say (Report.jsonText rs)]
  else rs.map (fun r => say r.line) ++ [say (Report.summaryLine rs)]

theorem statusOutput_eq {s : Store} {id : Nat} {base : String} {rs : List Report.Row}
    (h : Report.rows s fs id base = .ok rs) (json : Bool) :
    statusOutput fs json s id base = (printed json rs, .done) := by
  unfold statusOutput printed
  rw [h]
  cases json <;> rfl

theorem nodup_statusAsked (path : Option String) (skip : Option Bool) :
    ((statusAsked path skip).map Prod.fst).Nodup := by
  cases path <;> cases skip <;> simp [statusAsked, asked]

theorem root_of_load {st : Settings} {path : String} {skip : Option Bool}
    (h : Config.load fs environment (statusAsked (some path) skip) = .ok st) : st.root = path := by
  have hcheck := Config.check_of_askedFor? (nodup_statusAsked _ _) h (f := .root) (v := .str path) rfl
  exact (Except.ok.inj hcheck).symm

/-- A command on an index that has an item runs on the first tree in it. -/
theorem withIndex_eq {st : Settings} {root : Path}
    (hroot : fs.target st.root = .ok (.path root)) {t : ItemTree} {ts : List ItemTree}
    (hindex : (Index.topLevel fs st root).result = .ok (t :: ts)) (verbose : Nat)
    {f : Store → Nat → String → List Output × Ending} {output : List Output} {ending : Ending}
    (hf : f (Store.empty.plant t).1.1 (Store.empty.plant t).1.2 root.text = (output, ending)) :
    withIndex fs verbose st f =
      (shown st verbose (Index.topLevel fs st root).records ++ notes st.root.escaped t ts ++ output,
        ending) := by
  unfold withIndex
  simp only [hroot, hindex]
  rw [hf]

theorem exists_hasItem_of_topLevel (hfs : fs.isProper = true) {st : Settings} {root : Path}
    (hroot : root.IsProper) {ts : List ItemTree} (h : (Index.topLevel fs st root).result = .ok ts) :
    ((ItemTree.preorderAll ts).map ItemTree.directory).Nodup ∧
      ∀ u ∈ ItemTree.preorderAll ts, ∃ q, Index.HasItem fs st root u.directory q ∧
        u.path = q.text := by
  have hm := Index.mirrors_of_topLevel hfs hroot h
  exact ⟨hm.nodup_directory, hm.only⟩

/-- If there is an item to be shown, the status command is done, and has printed a row for each item
of the tree. All of them are true, and no two have the same relative path. The working directory has
to be named by names that entries may have, as that of a process is. -/
theorem run?_status (hfs : fs.isProper = true) (hw : ∀ n ∈ fs.working, isEntryName n = true)
    {path : Option String} {json : Bool} {skip : Option Bool} {verbose : Nat} {st : Settings}
    (hload : Config.load fs environment (statusAsked path skip) = .ok st) {root : Path}
    (hroot : fs.target st.root = .ok (.path root)) {t : ItemTree} {ts : List ItemTree}
    (hindex : (Index.topLevel fs st root).result = .ok (t :: ts)) :
    (∀ p, path = some p → st.root = p) ∧ ∃ rs,
      run? fs environment (.status path json skip verbose) =
        some ⟨shown st verbose (Index.topLevel fs st root).records ++ notes st.root.escaped t ts ++
          printed json rs, .done, st.logJson⟩ ∧
      rs.map Report.Row.path = t.preorder.map ItemTree.path ∧
      (∀ r ∈ rs, r.Truthful fs root) ∧ (rs.map Report.Row.relativePath).Nodup := by
  have hpath : ∀ p, path = some p → st.root = p := by
    rintro p rfl
    exact root_of_load hload
  refine ⟨hpath, ?_⟩
  obtain ⟨habs, hproper, hdots⟩ := FileSystem.target_eq_path hw hroot
  obtain ⟨hnodup, hitems⟩ := exists_hasItem_of_topLevel hfs hproper hindex
  have hmem : ∀ u ∈ t.preorder, u ∈ ItemTree.preorderAll (t :: ts) := fun u hu =>
    ItemTree.mem_preorderAll.2 ⟨t, List.mem_cons_self .., hu⟩
  -- the tree that is shown is found in the store
  have hplant := (Store.holds_plant Store.empty t).2
  obtain ⟨rs, hrs, hpaths, htrue⟩ := Report.exists_rows hfs habs hproper hdots hplant
    fun u hu => ⟨_, hitems u (hmem u hu)⟩
  have hdirectories : rs.map Report.Row.directory = t.preorder.map ItemTree.directory := by
    have h := congrArg (List.map fun p => (Path.parse p).parent) hpaths
    rwa [List.map_map, List.map_map] at h
  refine ⟨rs, ?_, hpaths, htrue, Report.nodup_relativePath habs htrue ?_⟩
  · have hindex' := withIndex_eq hroot hindex verbose (statusOutput_eq hrs json)
    show some (withSettings fs environment (statusAsked path skip) _) = _
    rw [withSettings, hload]
    simp only [hindex']
  · rw [hdirectories]
    have hsub := List.sublist_append_left t.preorder (ItemTree.preorderAll ts)
    exact hnodup.sublist (hsub.map ItemTree.directory)

/-- A working directory with a tag and its page. -/
def sample : FileSystem :=
  ⟨[("w", .directory [("index.html", .file []), ("tag.md", .file [])])], ["w"]⟩

theorem lookup_sample :
    sample.lookup ⟨.single, ["w"]⟩ =
        .ok (["w"], .directory [("index.html", .file []), ("tag.md", .file [])]) ∧
      sample.lookup ⟨.single, ["w", "index.html"]⟩ = .ok (["w", "index.html"], .file []) ∧
      sample.lookup ⟨.single, ["w", "tag.md"]⟩ = .ok (["w", "tag.md"], .file []) ∧
      sample.lookup ⟨.relative, ["config.yaml"]⟩ = .error .missing := by
  have hshort : ∀ p ∈ ([⟨.single, ["w"]⟩, ⟨.single, ["w", "index.html"]⟩,
      ⟨.single, ["w", "tag.md"]⟩, ⟨.relative, ["config.yaml"]⟩] : List Path),
      FileSystem.hasNull p = false ∧ ¬FileSystem.pathLimit ≤ p.text.utf8ByteSize := by
    decide +kernel
  have hname : ∀ n ∈ ["w", "index.html", "tag.md", "config.yaml"],
      ¬FileSystem.nameLimit < n.utf8ByteSize := by decide +kernel
  simp only [List.forall_mem_cons] at hshort hname
  simp [FileSystem.lookup, hshort, FileSystem.base, FileSystem.follow, FileSystem.entryAt?,
    Entry.at?, Entry.children, FileSystem.root, sample, List.lookup, hname]

theorem resolve_sample : sample.resolve (Path.parse ".") = .ok ⟨.single, ["w"]⟩ :=
  FileSystem.resolve_dot lookup_sample.1

theorem target_sample : sample.target "." = .ok (.path ⟨.single, ["w"]⟩) := by
  rw [FileSystem.target_text, resolve_sample]
  rfl

theorem siteAt_sample {st : Settings} (hi : st.ignore = ["node_modules", "__pycache__"]) :
    Index.siteAt sample st ⟨.single, ["w"]⟩ =
      .ok (.directory [] (some ⟨⟨.single, ["w", "tag.md"]⟩, [], .ok []⟩)) := by
  obtain ⟨hdir, hpage, htag, -⟩ := lookup_sample
  have hnames : ["index.html", "tag.md"].mergeSort = ["index.html", "tag.md"] :=
    List.mergeSort_of_pairwise (by decide +kernel)
  have hignore : ∀ n ∈ ["index.html", "tag.md"],
      Index.isIgnored ["node_modules", "__pycache__"] n = false := by decide +kernel
  have hchoose : SourceFile.choose? [⟨.single, ["w", "index.html"]⟩, ⟨.single, ["w", "tag.md"]⟩] =
      some ⟨.single, ["w", "tag.md"]⟩ := by decide +kernel
  have hfurther : Index.furtherFiles ⟨.single, ["w", "tag.md"]⟩
      [⟨.single, ["w", "index.html"]⟩, ⟨.single, ["w", "tag.md"]⟩] = [] := by decide +kernel
  simp only [List.forall_mem_cons] at hignore
  rw [Index.siteAt_of_lookup hdir rfl, hi, Index.survey_of_files]
  · simp only [List.map_cons, List.map_nil, hnames, Path.child, List.singleton_append,
      Index.sourceOf, hchoose, Option.map_some, hfurther, FileSystem.read, htag]
  · simp [hignore, Entry.isDirectory, FileSystem.leadsTo, Path.child, hpage, htag, Entry.isFile]

theorem topLevel_sample {st : Settings} (hi : st.ignore = ["node_modules", "__pycache__"])
    (hu : st.skipUnknown = false) (hb : st.extractBlocks = false) :
    (Index.topLevel sample st ⟨.single, ["w"]⟩).result =
      .ok [.node "/w/tag.md" [] [] []] := by
  have htext : Path.text ⟨.single, ["w", "tag.md"]⟩ = "/w/tag.md" := by decide +kernel
  refine Index.topLevel_result_eq_ok.2 ⟨_, siteAt_sample hi, ?_, rfl,
    by simp [Index.Source.Stops, hb]⟩
  simp [Index.Site.items, Index.itemsOf, Index.gather, Index.Source.isDropped, Index.Source.item,
    Index.Source.blocks, Index.Source.itemPath, hu, hb, htext]

theorem fileHolds_sample : Config.FileHolds sample [] := by
  have hparse : Path.parse Config.fileName = ⟨.relative, ["config.yaml"]⟩ := by decide +kernel
  refine .absent ?_
  simp only [FileSystem.leadsTo, hparse, lookup_sample.2.2.2]

theorem load_sample : Config.load sample [] (statusAsked (some ".") none) =
    .ok { extractBlocks := false } := by
  refine (Config.load_eq_ok_iff fileHolds_sample (nodup_statusAsked _ _)).2 fun f => ?_
  cases f <;> rfl

/-- The status of the working directory tells of its tag, and that the page of it is there. -/
theorem run?_status_sample : ∃ before r,
    run? sample [] (.status (some ".") false none 0) =
      some ⟨before ++ [say r.line, say (Report.summaryLine [r])], .done, false⟩ ∧
    r.path = "/w/tag.md" ∧ "/w" ++ r.relativePath = "/w/index.html" ∧ r.rendered = true := by
  have hproper : sample.isProper = true := by decide +kernel
  have hworking : ∀ n ∈ sample.working, isEntryName n = true := by decide +kernel
  obtain ⟨-, rs, hrun, hpaths, htrue, -⟩ := run?_status hproper hworking load_sample target_sample
    (topLevel_sample rfl rfl rfl)
  obtain ⟨r, rfl⟩ : ∃ r, rs = [r] := by
    have hlength := congrArg List.length hpaths
    rw [List.length_map, List.length_map] at hlength
    exact List.length_eq_one_iff.1 hlength
  have hpath : r.path = "/w/tag.md" := (List.cons.inj hpaths).1
  have hdirectory : r.directory = ⟨.single, ["w"]⟩ := by
    rw [Report.Row.directory, hpath]
    decide +kernel
  obtain ⟨-, -, -, -, hpage, hrendered, -⟩ := htrue r (List.mem_singleton_self r)
  rw [hdirectory] at hpage hrendered
  refine ⟨_, r, hrun, hpath, ?_, hrendered.2 ⟨⟨.file [], ?_⟩, ?_⟩⟩
  · have hstem : (⟨.single, ["w"]⟩ : Path).stem = "/w" := by decide +kernel
    rw [hstem] at hpage
    exact hpage
  · rw [FileSystem.entriesAt, lookup_sample.1]
    exact List.mem_cons_self ..
  · show (sample.lookup ⟨.single, ["w", "index.html"]⟩).isOk = true
    rw [lookup_sample.2.1]
    rfl

end Command
end DocTree
