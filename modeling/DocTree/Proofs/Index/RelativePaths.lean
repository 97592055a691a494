import Mathlib
import DocTree.Proofs.RenderedPath.Relative
import DocTree.Proofs.Status

/-!
# Relative paths in an index

The directory of an item is told by the names below the root (`Reached.exists_names`). None of them begins
with a dot, as such names are passed over. So the path of the page of an item, relative to the text of the
root, is made of these names just if the root is no dot, and is normal or leads back to where it begins
(`relativePath_of_topLevel_iff`).
-/

namespace DocTree.Index

open ItemTree (preorderAll)

variable {fs : FileSystem} {ignore : List String} {st : Settings} {root d q : Path}

theorem not_isDotted_of_not_isIgnored {n : String} (h : isIgnored ignore n = false) :
    Path.isDotted n = false := by
  rw [isIgnored, Bool.or_eq_false_iff, beq_eq_false_iff_ne] at h
  rw [← Bool.not_eq_true, Path.isDotted_iff]
  rintro ⟨cs, hcs⟩
  exact h.1 (by rw [← hcs]; rfl)

/-- A directory that is reached lies below the root by names that are not passed over. -/
theorem Reached.exists_names (hfs : fs.isProper = true) (h : Reached fs ignore root d) :
    ∃ ns : List String, d = ⟨root.root, root.parts ++ ns⟩ ∧
      ∀ n ∈ ns, isEntryName n = true ∧ Path.isDotted n = false := by
  induction h with
  | root => exact ⟨[], by rw [List.append_nil], fun n hn => absurd hn List.not_mem_nil⟩
  | @child d n _ hn ih =>
    obtain ⟨ns, rfl, hns⟩ := ih
    obtain ⟨es, hmem, hi⟩ := hn
    refine ⟨ns ++ [n], by rw [Path.child, List.append_assoc], fun m hm => ?_⟩
    rcases List.mem_append.1 hm with hm | hm
    · exact hns m hm
    · rw [List.mem_singleton.1 hm]
      exact ⟨isEntryName_of_mem_entriesAt hfs hmem, not_isDotted_of_not_isIgnored hi⟩

/-- The page of an item lies in the normal form of the root, below it by the same names as the item. -/
theorem HasItem.renderedPath_eq (hfs : fs.isProper = true) (hroot : root.IsProper)
    (h : HasItem fs st root d q) {ns : List String} (hd : d = ⟨root.root, root.parts ++ ns⟩)
    (hns : ".." ∉ ns) : renderedPath q.text =
      (⟨root.root, root.normal.parts ++ (ns ++ [renderedName])⟩ : Path).text := by
  obtain ⟨n, e, hmem, rfl⟩ := exists_child_of_mem_filesIn (SourceFile.mem_of_choose? h.chosen)
  obtain ⟨-, -, hslash, -⟩ := isEntryName_iff.1 (isEntryName_of_mem_entriesAt hfs hmem)
  rw [DocTree.renderedPath_eq, Path.parse_dirName_text_child (h.reached.isProper hfs hroot) hslash, hd,
    Path.normal_append hns, Path.child, List.append_assoc]

/-- The relative path of the page of an item is made of the names of its directory below the root, just
if the root is no dot, and is normal or leads back to where it begins. -/
theorem relativePath_of_topLevel_iff (hfs : fs.isProper = true) {text : String} {ts : List ItemTree}
    (h : (topLevel fs st (Path.parse text)).result = .ok ts) {t : ItemTree} (ht : t ∈ preorderAll ts)
    {s : Store} {id : Nat} {it : Item} (hs : s.Holds id t) (hit : s.get? id = some it) :
    ∃ ns : List String, t.directory = ⟨(Path.parse text).root, (Path.parse text).parts ++ ns⟩ ∧
      (it.relativePath (Path.parse text).text = "/" ++ "/".intercalate (ns ++ [renderedName]) ↔
        (Path.parse text).text ≠ "." ∧
          ((Path.parse text).IsNormal ∨ (Path.parse text).normal.parts = [])) := by
  have hroot := Path.isProper_parse text
  obtain ⟨q, hitem, hpath⟩ := (mirrors_of_topLevel hfs hroot h).only t ht
  obtain ⟨hsame, hpage⟩ := hs.path_eq hit
  obtain ⟨ns, hd, hns⟩ := hitem.reached.exists_names hfs
  refine ⟨ns, hd, ?_⟩
  have hdots : ".." ∉ ns := fun hmem => (isEntryName_iff.1 (hns _ hmem).1).2.1 rfl
  rw [hsame, hpath, hitem.renderedPath_eq hfs hroot hd hdots] at hpage
  refine Item.relativePath_eq_iff ?_ (List.mem_append_right _ (List.mem_singleton_self _)) hpage hroot ?_
  · intro n hn
    rcases List.mem_append.1 hn with hn | hn
    · obtain ⟨hname, -, hslash, -⟩ := isEntryName_iff.1 (hns n hn).1
      exact ⟨hname, hslash⟩
    · rw [List.mem_singleton.1 hn]
      decide +kernel
  · intro n hn
    rcases List.mem_append.1 hn with hn | hn
    · exact (hns n hn).2
    · rw [List.mem_singleton.1 hn]
      decide +kernel

/-- The page of the tag in the working directory, relative to this. -/
theorem relativePath_of_topLevel_sample : ∃ it : Item,
    (Store.empty.plant (.node "/w/tag.md" [] [] [])).1.1.get?
        (Store.empty.plant (.node "/w/tag.md" [] [] [])).1.2 = some it ∧
      it.relativePath "/w" = "/index.html" := by
  have hroot : Path.parse "/w" = ⟨.single, ["w"]⟩ := by decide +kernel
  have htext : (⟨.single, ["w"]⟩ : Path).text = "/w" := by decide +kernel
  have hindex : (topLevel Command.sample { extractBlocks := false } (Path.parse "/w")).result =
      .ok [.node "/w/tag.md" [] [] []] := by
    rw [hroot]
    exact Command.topLevel_sample rfl rfl rfl
  have hholds := (Store.holds_plant .empty (.node "/w/tag.md" [] [] [])).2
  obtain ⟨ids, hid, -⟩ := hholds
  obtain ⟨ns, hd, hrelative⟩ := relativePath_of_topLevel_iff (by decide +kernel) hindex
    (List.mem_singleton_self _) (Store.holds_plant .empty _).2 hid
  have hns : ns = [] := by
    have hdirectory : (ItemTree.node "/w/tag.md" [] [] []).directory = ⟨.single, ["w"]⟩ := by
      decide +kernel
    rw [hdirectory, hroot, Path.mk.injEq] at hd
    exact (List.cons.inj hd.2).2.symm
  subst hns
  rw [hroot, htext] at hrelative
  refine ⟨_, hid, hrelative.2 ⟨by decide, .inl ?_⟩⟩
  exact Path.normal_eq_self_iff.1 (by decide +kernel)

/-- In the path of a page below a dot, the dot of its name is taken out. -/
theorem not_forall_relativePath_eq : ¬ ∀ (fs : FileSystem) (st : Settings) (text : String)
    (ts : List ItemTree) (t : ItemTree) (s : Store) (id : Nat) (it : Item) (ns : List String),
    fs.isProper = true → FileSystem.linkCountOf fs.entries = 0 →
      (topLevel fs st (Path.parse text)).result = .ok ts → t ∈ preorderAll ts → s.Holds id t →
        s.get? id = some it →
          t.directory = ⟨(Path.parse text).root, (Path.parse text).parts ++ ns⟩ →
            it.relativePath (Path.parse text).text = "/" ++ "/".intercalate (ns ++ [renderedName]) := by
  intro h
  let t : ItemTree := .node "c/tag.md" [] [] []
  let st : Settings := { ignore := [], extractBlocks := false }
  have hindex : (topLevel (sample [] []) st (Path.parse ".")).result =
      .ok [.node "a.md" [] [] [t]] := topLevel_sample [] [] rfl rfl rfl
  have ht : t ∈ preorderAll [.node "a.md" [] [] [t]] := List.mem_cons_of_mem _ (List.mem_cons_self ..)
  obtain ⟨ids, hid, -⟩ := (Store.holds_plant .empty t).2
  have hrelative := h (sample [] []) _ "." _ t _ _ _ ["c"] (by decide +kernel) (by decide +kernel)
    hindex ht (Store.holds_plant .empty t).2 hid (by decide +kernel)
  have hpage : renderedPath "c/tag.md" = "c/index.html" := by decide +kernel
  have hdot : (Path.parse ".").text = "." := by decide +kernel
  simp only [Item.relativePath, Item.ofPath, hpage, hdot] at hrelative
  exact absurd hrelative (by decide +kernel)

end DocTree.Index
