import Mathlib
import DocTree.Proofs.Index.Files
import DocTree.Proofs.Status

/-!
# The pages that an index leaves out

A file that is neither the source of an item nor one of its further files has the name of a rendered
page, in any case of letters (`leavesOut_iff`). Whether an item is rendered is asked of the very name
alone. So an item that leaves a file out is rendered, but for a name in other letters without a page
beside it (`isRendered_of_leavesOut_iff`).
-/

namespace DocTree.Index
open ItemTree (preorderAll)

/-- That an item leaves out the file `n` of its directory: it is neither the source nor one of the
further files. -/
structure LeavesOut (fs : FileSystem) (ignore : List String) (t : ItemTree) (n : String) : Prop where
  file : ShowsFile fs ignore t.directory n
  notListed : (t.directory.child n).text ∉ t.filePaths

section
variable {fs : FileSystem} {st : Settings} {root : Path} {ts : List ItemTree} {t : ItemTree}
  {n : String}

theorem holds_of_hasFile {p : Path} (h : fs.hasFile p = true) : fs.holds p = true := by
  obtain ⟨l, bs, hp⟩ := FileSystem.hasFile_iff.1 h
  rw [FileSystem.holds, hp]
  rfl

/-- The files that an item leaves out are the pages among those that its directory shows. -/
theorem leavesOut_iff (hfs : fs.isProper = true) (hroot : root.IsProper)
    (h : (topLevel fs st root).result = .ok ts) (ht : t ∈ preorderAll ts) :
    LeavesOut fs st.ignore t n ↔ ShowsFile fs st.ignore t.directory n ∧ isPage n = true := by
  constructor
  · rintro ⟨hn, hout⟩
    rw [mem_filePaths_iff hfs hroot h ht hn, Bool.not_eq_false] at hout
    exact ⟨hn, hout⟩
  · rintro ⟨hn, hpage⟩
    refine ⟨hn, ?_⟩
    rw [mem_filePaths_iff hfs hroot h ht hn, Bool.not_eq_false]
    exact hpage

/-- An item that leaves a file out is rendered, just if beside each file whose name is that of a page
in other letters there is a page of the very name. -/
theorem isRendered_of_leavesOut_iff (hfs : fs.isProper = true)
    (hw : ∀ n ∈ fs.working, isEntryName n = true) {text : String}
    (hroot : fs.resolve (Path.parse text) = .ok root) (h : (topLevel fs st root).result = .ok ts)
    (ht : t ∈ preorderAll ts) {s : Store} {id : Nat} {it : Item} (hs : s.Holds id t)
    (hit : s.get? id = some it) :
    ((∃ n, LeavesOut fs st.ignore t n) → it.isRendered fs = true) ↔
      ∀ n, ShowsFile fs st.ignore t.directory n → n.lowerCase = renderedName → n ≠ renderedName →
        fs.holds (t.directory.child renderedName) = true := by
  obtain ⟨-, hproper, hdots⟩ := FileSystem.resolve_eq_ok hw (Path.isProper_parse _) hroot
  have hout := fun n => leavesOut_iff (n := n) hfs hproper h ht
  have hrendered : it.isRendered fs = fs.holds (t.directory.child renderedName) := by
    obtain ⟨q, hitem, hpath⟩ := (mirrors_of_topLevel hfs hproper h).only t ht
    obtain ⟨hsame, hpage⟩ := hs.path_eq hit
    exact Report.isRendered_eq hfs hproper hdots hitem (hsame.trans hpath) hpage
  simp only [hout, hrendered]
  constructor
  · intro hall n hn hname _
    exact hall ⟨n, hn, beq_iff_eq.2 hname⟩
  · rintro hall ⟨n, hn, hpage⟩
    by_cases hname : n = renderedName
    · exact holds_of_hasFile (hname ▸ hn.file)
    · exact hall n hn (eq_of_beq hpage) hname

end

/-- The tag of the working directory leaves its page out, and is rendered. -/
theorem isRendered_of_leavesOut_sample :
    let t : ItemTree := .node "/w/tag.md" [] [] []
    ∃ it, (Store.empty.plant t).1.1.get? (Store.empty.plant t).1.2 = some it ∧
      LeavesOut Command.sample ["node_modules", "__pycache__"] t renderedName ∧
        it.isRendered Command.sample = true := by
  intro t
  obtain ⟨hdir, hpage, -⟩ := Command.lookup_sample
  have hdirectory : t.directory = ⟨.single, ["w"]⟩ := by decide +kernel
  have hindex : (topLevel Command.sample { extractBlocks := false } ⟨.single, ["w"]⟩).result =
      .ok [t] := Command.topLevel_sample rfl rfl rfl
  have hout : LeavesOut Command.sample ["node_modules", "__pycache__"] t renderedName := by
    refine ⟨?_, by decide +kernel⟩
    rw [hdirectory]
    exact .of_lookup hdir (by decide) (by decide +kernel) hpage
  -- the only other name is that of the tag
  have hothers : ∀ n, ShowsFile Command.sample ["node_modules", "__pycache__"] t.directory n →
      n.lowerCase = renderedName → n ≠ renderedName →
        Command.sample.holds (t.directory.child renderedName) = true := by
    rintro n ⟨⟨e, he⟩, -, -⟩ hname hne
    rw [hdirectory, FileSystem.entriesAt, hdir] at he
    simp only [Entry.children, List.mem_cons, Prod.mk.injEq, List.not_mem_nil, or_false] at he
    obtain ⟨rfl, -⟩ := he.resolve_left fun h => hne h.1
    exact absurd hname (by decide +kernel)
  obtain ⟨ids, hid, -⟩ := (Store.holds_plant .empty t).2
  refine ⟨_, hid, hout, ?_⟩
  exact (isRendered_of_leavesOut_iff (by decide +kernel) (by decide +kernel) Command.resolve_sample
    hindex (List.mem_singleton_self t) (Store.holds_plant .empty t).2 hid).2 hothers ⟨_, hout⟩

/-- A page whose name is in large letters is left out, and the item is not rendered. -/
theorem not_forall_isRendered_of_leavesOut : ¬ ∀ (fs : FileSystem) (st : Settings) (text : String)
    (root : Path) (ts : List ItemTree) (t : ItemTree) (s : Store) (id : Nat) (it : Item),
    fs.isProper = true → (∀ n ∈ fs.working, isEntryName n = true) →
      fs.resolve (Path.parse text) = .ok root → (topLevel fs st root).result = .ok ts →
        t ∈ preorderAll ts → s.Holds id t → s.get? id = some it →
          (∃ n, LeavesOut fs st.ignore t n) → it.isRendered fs = true := by
  intro h
  let t : ItemTree := .node "/w/tag.md" ["/w/TAG.md"] [] []
  let st : Settings := { ignore := [], extractBlocks := false }
  obtain ⟨hdir, hfiles, hmissing⟩ := lookup_spellings
  have hout : LeavesOut spellings [] t "INDEX.HTML" := by
    have hdirectory : t.directory = ⟨.single, ["w"]⟩ := by decide +kernel
    refine ⟨?_, by decide +kernel⟩
    rw [hdirectory]
    exact .of_lookup hdir (by decide) (by decide +kernel) (hfiles _ (List.mem_cons_self ..))
  obtain ⟨ids, hid, -⟩ := (Store.holds_plant .empty t).2
  have hrendered := h spellings st "." _ [t] t _ _ _ (by decide +kernel) (by decide +kernel)
    (FileSystem.resolve_dot hdir) (topLevel_spellings rfl rfl rfl) (List.mem_singleton_self t)
    (Store.holds_plant .empty t).2 hid ⟨_, hout⟩
  -- the page is looked for under the very name
  have hpath : Path.parse (renderedPath "/w/tag.md") = ⟨.single, ["w", "index.html"]⟩ := by
    decide +kernel
  simp only [Item.isRendered, Item.ofPath, hpath, FileSystem.holds, hmissing] at hrendered
  cases hrendered

end DocTree.Index
