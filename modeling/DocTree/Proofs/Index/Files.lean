import Mathlib
import DocTree.Proofs.Index.Agreement

/-!
# The files of an item

Each file that a directory shows is a rendered page, or it is the source of the item or one of its
further files (`exists_filePaths_eq`). The further files are told by their names, which increase strictly
(`exists_names_of_mem`). The path of a file tells the directory in which it lies, and no two items are
of one directory, so no path is listed twice in an index (`topLevel_files`).
-/

namespace DocTree

/-- The paths of an item: that of its source, and those of its further files. -/
def ItemTree.filePaths (t : ItemTree) : List String := t.path :: t.files

namespace Index
open ItemTree (preorderAll)

section
variable (fs : FileSystem) (ignore : List String)

/-- That the directory at `d` holds an entry `n` that is not passed over and leads to a file, links
followed. -/
structure ShowsFile (d : Path) (n : String) : Prop where
  entry : ∃ e, (n, e) ∈ fs.entriesAt d
  shown : isIgnored ignore n = false
  file : fs.hasFile (d.child n) = true

/-- The names of the files in the directory at `d` that are not passed over, in their order. -/
def fileNames (d : Path) : List String :=
  (shownNames fs ignore d).filter fun n => fs.hasFile (d.child n)

/-- The names of the further files beside the source `p`. -/
def furtherNames (d p : Path) : List String :=
  (fileNames fs ignore d).filter fun n => d.child n != p && !isPage n

end

variable {fs : FileSystem} {ignore : List String} {st : Settings} {root d p : Path} {n : String}

theorem ShowsFile.of_lookup {l l' : Location} {es : List (String × Entry)} {bs : List UInt8}
    (hd : fs.lookup d = .ok (l, .directory es)) (hn : n ∈ es.map Prod.fst)
    (hi : isIgnored ignore n = false) (hfile : fs.lookup (d.child n) = .ok (l', .file bs)) :
    ShowsFile fs ignore d n := by
  obtain ⟨x, hx, rfl⟩ := List.mem_map.1 hn
  refine ⟨⟨x.2, ?_⟩, hi, FileSystem.hasFile_iff.2 ⟨l', bs, hfile⟩⟩
  rw [FileSystem.entriesAt, hd]
  exact hx

/-! ### Names -/

theorem mem_fileNames : n ∈ fileNames fs ignore d ↔ ShowsFile fs ignore d n := by
  simp only [fileNames, shownNames, List.mem_filter, List.mem_mergeSort, List.mem_map,
    Bool.not_eq_true']
  constructor
  · rintro ⟨⟨⟨⟨n, e⟩, he, rfl⟩, hi⟩, hfile⟩
    exact ⟨⟨e, he⟩, hi, hfile⟩
  · rintro ⟨⟨e, he⟩, hi, hfile⟩
    exact ⟨⟨⟨(n, e), he, rfl⟩, hi⟩, hfile⟩

theorem mem_furtherNames : n ∈ furtherNames fs ignore d p ↔
    ShowsFile fs ignore d n ∧ d.child n ≠ p ∧ isPage n = false := by
  rw [furtherNames, List.mem_filter, mem_fileNames, Bool.and_eq_true, bne_iff_ne,
    Bool.not_eq_true']

theorem pairwise_fileNames (hfs : fs.isProper = true) (d : Path) :
    (fileNames fs ignore d).Pairwise (· < ·) :=
  (pairwise_shownNames hfs d).filter _

theorem pairwise_furtherNames (hfs : fs.isProper = true) (d p : Path) :
    (furtherNames fs ignore d p).Pairwise (· < ·) :=
  (pairwise_fileNames hfs d).filter _

/-! ### Paths -/

theorem filesIn_eq_map (fs : FileSystem) (ignore : List String) (d : Path) :
    filesIn fs ignore d = (fileNames fs ignore d).map d.child := by
  rw [filesIn, ← filter_map_mergeSort, List.filter_map]
  rfl

theorem mem_filesIn {q : Path} :
    q ∈ filesIn fs ignore d ↔ ∃ n, ShowsFile fs ignore d n ∧ d.child n = q := by
  rw [filesIn_eq_map, List.mem_map]
  simp only [mem_fileNames]

theorem furtherFiles_eq_map (fs : FileSystem) (ignore : List String) (d p : Path) :
    furtherFiles p (filesIn fs ignore d) = (furtherNames fs ignore d p).map d.child := by
  rw [filesIn_eq_map, furtherFiles, furtherNames, List.filter_map]
  congr 1
  refine List.filter_congr fun n _ => ?_
  rw [Function.comp_apply, Path.name_child]
  rfl

theorem ShowsFile.parse_text (h : ShowsFile fs st.ignore d n) (hfs : fs.isProper = true)
    (hroot : root.IsProper) (hd : Reached fs st.ignore root d) :
    Path.parse (d.child n).text = d.child n :=
  parse_text_of_mem_filesIn hfs hroot hd (mem_filesIn.2 ⟨n, h, rfl⟩)

/-- Files of one directory whose paths have one text have one name. -/
theorem ShowsFile.name_eq {m : String} (hm : ShowsFile fs st.ignore d m)
    (hn : ShowsFile fs st.ignore d n) (hfs : fs.isProper = true) (hroot : root.IsProper)
    (hd : Reached fs st.ignore root d) (h : (d.child m).text = (d.child n).text) : m = n := by
  have hchild : d.child m = d.child n := by
    rw [← hm.parse_text hfs hroot hd, h, hn.parse_text hfs hroot hd]
  exact Path.child_inj.1 hchild

/-! ### The files of an item -/

section
variable (hfs : fs.isProper = true) (hroot : root.IsProper) {ts : List ItemTree}
  (h : (topLevel fs st root).result = .ok ts) {t : ItemTree} (ht : t ∈ preorderAll ts)
include hfs hroot h ht

/-- The source of an item is a file of its directory, and its further files are told by their names. -/
theorem exists_names_of_mem : ∃ m, ShowsFile fs st.ignore t.directory m ∧
    HasItem fs st root t.directory (t.directory.child m) ∧ t.path = (t.directory.child m).text ∧
      t.files = (furtherNames fs st.ignore t.directory (t.directory.child m)).map
        fun n => (t.directory.child n).text := by
  obtain ⟨q, hq, hpath⟩ := (mirrors_of_topLevel hfs hroot h).only t ht
  obtain ⟨m, hm, rfl⟩ := mem_filesIn.1 (SourceFile.mem_of_choose? hq.chosen)
  -- the fields come from the directory of the source, and so from the item's own
  obtain ⟨d, p, hd, hp, hpath', hfiles, -⟩ := exists_fields_of_mem hfs h ht
  obtain ⟨k, hk, rfl⟩ := mem_filesIn.1 (SourceFile.mem_of_choose? hp)
  have hdirectory : t.directory = d := by
    rw [ItemTree.directory, hpath', hk.parse_text hfs hroot hd, Path.parent_child]
  subst hdirectory
  have hsame : t.directory.child k = t.directory.child m :=
    Option.some.inj (hp.symm.trans hq.chosen)
  refine ⟨m, hm, hq, hpath, ?_⟩
  rw [hfiles, hsame, furtherFiles_eq_map, List.map_map]
  rfl

/-- The paths of an item are those of the files that its directory shows, but for rendered pages. -/
theorem exists_filePaths_eq : ∃ names : List String, names.Nodup ∧
    (∀ n, n ∈ names ↔ ShowsFile fs st.ignore t.directory n ∧ isPage n = false) ∧
      t.filePaths = names.map fun n => (t.directory.child n).text := by
  obtain ⟨m, hm, hitem, hpath, hfiles⟩ := exists_names_of_mem hfs hroot h ht
  have hsource : isPage m = false := by
    simpa using SourceFile.isPage_of_choose? hitem.chosen
  refine ⟨m :: furtherNames fs st.ignore t.directory (t.directory.child m), ?_, fun n => ?_, ?_⟩
  · refine List.nodup_cons.2 ⟨fun hmem => ?_, ?_⟩
    · exact (mem_furtherNames.1 hmem).2.1 rfl
    · exact (pairwise_furtherNames hfs _ _).imp String.ne_of_lt
  · rw [List.mem_cons, mem_furtherNames]
    by_cases hn : t.directory.child n = t.directory.child m
    · obtain rfl := Path.child_inj.1 hn
      exact iff_of_true (.inl rfl) ⟨hm, hsource⟩
    · have hne : n ≠ m := fun heq => hn (heq ▸ rfl)
      simp only [hne, false_or, ne_eq, hn, not_false_eq_true, true_and]
  · rw [ItemTree.filePaths, hpath, hfiles, List.map_cons]

theorem reached_of_mem : Reached fs st.ignore root t.directory := by
  obtain ⟨q, hq, -⟩ := (mirrors_of_topLevel hfs hroot h).only t ht
  exact hq.reached

theorem parent_parse_of_mem_filePaths {x : String} (hx : x ∈ t.filePaths) :
    (Path.parse x).parent = t.directory := by
  obtain ⟨names, -, hnames, hpaths⟩ := exists_filePaths_eq hfs hroot h ht
  rw [hpaths] at hx
  obtain ⟨n, hn, rfl⟩ := List.mem_map.1 hx
  rw [((hnames n).1 hn).1.parse_text hfs hroot (reached_of_mem hfs hroot h ht), Path.parent_child]

theorem nodup_filePaths : t.filePaths.Nodup := by
  obtain ⟨names, hnodup, hnames, hpaths⟩ := exists_filePaths_eq hfs hroot h ht
  rw [hpaths]
  refine hnodup.map_on fun m hm n hn htext => ?_
  exact ((hnames m).1 hm).1.name_eq ((hnames n).1 hn).1 hfs hroot
    (reached_of_mem hfs hroot h ht) htext

/-- A file that the directory of an item shows has a path of the item just if it is no page. -/
theorem mem_filePaths_iff (hn : ShowsFile fs st.ignore t.directory n) :
    (t.directory.child n).text ∈ t.filePaths ↔ isPage n = false := by
  obtain ⟨names, -, hnames, hpaths⟩ := exists_filePaths_eq hfs hroot h ht
  rw [hpaths, List.mem_map]
  constructor
  · rintro ⟨m, hm, htext⟩
    obtain ⟨hshown, hpage⟩ := (hnames m).1 hm
    exact hshown.name_eq hn hfs hroot (reached_of_mem hfs hroot h ht) htext ▸ hpage
  · exact fun hpage => ⟨n, (hnames n).2 ⟨hn, hpage⟩, rfl⟩

omit ht in
/-- No path is listed twice: paths that two items list lie in two directories. -/
theorem nodup_flatMap_filePaths : ((preorderAll ts).flatMap ItemTree.filePaths).Nodup := by
  refine List.nodup_flatMap.2 ⟨fun t ht => nodup_filePaths hfs hroot h ht, ?_⟩
  have hdirectories := List.pairwise_map.1 (mirrors_of_topLevel hfs hroot h).nodup_directory
  refine hdirectories.imp_of_mem fun {t u} ht hu hne => ?_
  intro x hxt hxu
  refine hne ?_
  rw [← parent_parse_of_mem_filePaths hfs hroot h ht hxt,
    parent_parse_of_mem_filePaths hfs hroot h hu hxu]

end

/-! ### An example -/

/-- A working directory with two spellings of a tag, and a page whose name is in large letters. -/
def spellings : FileSystem :=
  ⟨[("w", .directory [("INDEX.HTML", .file []), ("TAG.md", .file []), ("tag.md", .file [])])], ["w"]⟩

theorem lookup_spellings :
    spellings.lookup ⟨.single, ["w"]⟩ = .ok (["w"], .directory
        [("INDEX.HTML", .file []), ("TAG.md", .file []), ("tag.md", .file [])]) ∧
      (∀ n ∈ ["INDEX.HTML", "TAG.md", "tag.md"],
        spellings.lookup ⟨.single, ["w", n]⟩ = .ok (["w", n], .file [])) ∧
      spellings.lookup ⟨.single, ["w", "index.html"]⟩ = .error .missing := by
  have hshort : ∀ ns ∈ [["w"], ["w", "INDEX.HTML"], ["w", "TAG.md"], ["w", "tag.md"],
      ["w", "index.html"]], FileSystem.hasNull ⟨.single, ns⟩ = false ∧
        ¬FileSystem.pathLimit ≤ (Path.text ⟨.single, ns⟩).utf8ByteSize := by decide +kernel
  have hname : ∀ n ∈ ["w", "INDEX.HTML", "TAG.md", "tag.md", "index.html"],
      ¬FileSystem.nameLimit < n.utf8ByteSize := by decide +kernel
  simp only [List.forall_mem_cons] at hshort hname
  simp [FileSystem.lookup, hshort, FileSystem.base, FileSystem.follow, FileSystem.entryAt?,
    Entry.at?, Entry.children, FileSystem.root, spellings, List.lookup, hname]

theorem siteAt_spellings {st : Settings} (hi : st.ignore = []) :
    siteAt spellings st ⟨.single, ["w"]⟩ = .ok (.directory []
      (some ⟨⟨.single, ["w", "tag.md"]⟩, [⟨.single, ["w", "TAG.md"]⟩], .ok []⟩)) := by
  obtain ⟨hdir, hfiles, -⟩ := lookup_spellings
  have hnames : ["INDEX.HTML", "TAG.md", "tag.md"].mergeSort = ["INDEX.HTML", "TAG.md", "tag.md"] :=
    List.mergeSort_of_pairwise (by decide +kernel)
  have hignore : ∀ n ∈ ["INDEX.HTML", "TAG.md", "tag.md"], isIgnored [] n = false := by
    decide +kernel
  have hchoose : SourceFile.choose? [⟨.single, ["w", "INDEX.HTML"]⟩, ⟨.single, ["w", "TAG.md"]⟩,
      ⟨.single, ["w", "tag.md"]⟩] = some ⟨.single, ["w", "tag.md"]⟩ := by decide +kernel
  have hfurther : furtherFiles ⟨.single, ["w", "tag.md"]⟩ [⟨.single, ["w", "INDEX.HTML"]⟩,
      ⟨.single, ["w", "TAG.md"]⟩, ⟨.single, ["w", "tag.md"]⟩] = [⟨.single, ["w", "TAG.md"]⟩] := by
    decide +kernel
  simp only [List.forall_mem_cons] at hignore hfiles
  rw [siteAt_of_lookup hdir rfl, hi, survey_of_files]
  · simp only [List.map_cons, List.map_nil, hnames, Path.child, List.singleton_append, sourceOf,
      hchoose, Option.map_some, hfurther, FileSystem.read, hfiles]
  · simp [hignore, Entry.isDirectory, FileSystem.leadsTo, Path.child, hfiles, Entry.isFile]

theorem topLevel_spellings {st : Settings} (hi : st.ignore = []) (hu : st.skipUnknown = false)
    (hb : st.extractBlocks = false) : (topLevel spellings st ⟨.single, ["w"]⟩).result =
      .ok [.node "/w/tag.md" ["/w/TAG.md"] [] []] := by
  have htag : Path.text ⟨.single, ["w", "tag.md"]⟩ = "/w/tag.md" := by decide +kernel
  have hupper : Path.text ⟨.single, ["w", "TAG.md"]⟩ = "/w/TAG.md" := by decide +kernel
  refine topLevel_result_eq_ok.2 ⟨_, siteAt_spellings hi, ?_, rfl, by simp [Source.Stops, hb]⟩
  simp [Site.items, itemsOf, gather, Source.isDropped, Source.item, Source.blocks, Source.itemPath,
    hu, hb, htag, hupper]

/-! ### The index -/

/-- The files of an item are those that its directory shows, but for its source and the rendered pages:
one for each name, in the order of names. No path is listed twice in the index, be it as a source or as
a file. -/
theorem topLevel_files {fs : FileSystem} (hfs : fs.isProper = true) {st : Settings} {root : String}
    {ts : List ItemTree} (h : (topLevel fs st (Path.parse root)).result = .ok ts) :
    (∀ t ∈ preorderAll ts, ∃ (q : Path) (names : List String),
      HasItem fs st (Path.parse root) t.directory q ∧ t.path = q.text ∧
        t.files = names.map (fun n => (t.directory.child n).text) ∧ names.Pairwise (· < ·) ∧
          ∀ n, n ∈ names ↔ ShowsFile fs st.ignore t.directory n ∧ t.directory.child n ≠ q ∧
            n.lowerCase ≠ renderedName) ∧
      ((preorderAll ts).flatMap ItemTree.filePaths).Nodup := by
  have hroot := Path.isProper_parse root
  refine ⟨fun t ht => ?_, nodup_flatMap_filePaths hfs hroot h⟩
  obtain ⟨m, -, hitem, hpath, hfiles⟩ := exists_names_of_mem hfs hroot h ht
  refine ⟨_, _, hitem, hpath, hfiles, pairwise_furtherNames hfs _ _, fun n => ?_⟩
  rw [mem_furtherNames, isPage, beq_eq_false_iff_ne]

/-- The spelling that loses is a further file. -/
theorem topLevel_files_sample :
    let st : Settings := { ignore := [], extractBlocks := false }
    let t : ItemTree := .node "/w/tag.md" ["/w/TAG.md"] [] []
    (∃ (q : Path) (names : List String), HasItem spellings st (Path.parse "/w") t.directory q ∧
      t.path = q.text ∧ t.files = names.map (fun n => (t.directory.child n).text) ∧
        names.Pairwise (· < ·) ∧ ∀ n, n ∈ names ↔
          ShowsFile spellings [] t.directory n ∧ t.directory.child n ≠ q ∧
            n.lowerCase ≠ renderedName) ∧ t.filePaths.Nodup := by
  intro st t
  have hroot : Path.parse "/w" = ⟨.single, ["w"]⟩ := by decide +kernel
  have hindex : (topLevel spellings st (Path.parse "/w")).result = .ok [t] := by
    rw [hroot]
    exact topLevel_spellings rfl rfl rfl
  obtain ⟨hfiles, hnodup⟩ := topLevel_files (by decide +kernel) hindex
  exact ⟨hfiles t (List.mem_singleton_self t), hnodup⟩

end Index
end DocTree
