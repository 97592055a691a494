import Mathlib
import DocTree.Proofs.Path.Normal
import DocTree.Proofs.Text.Blank
import DocTree.Store

/-!
# Where a rendered page lies

The rendered page of a source lies beside it (`renderedPath_child`), if the directory of the source is
proper and has no double dots in it. Below a directory that the source lies in, the page is told by the
names that follow (`relativePath_child`). Whatever the path of the source is, the path of its page is
normal, and depends on the normal directory alone (`renderedPath_sibling`).
-/

namespace DocTree

namespace Path
variable {p : Path} {n : String}

/-- The text of a path in front of the names below it: all of its text, but for the slash that a root
is. -/
def stem (p : Path) : String := if p.parts.isEmpty then "" else p.text

theorem exists_text_eq (hp : p.IsProper) (hne : p.parts ≠ []) :
    ∃ a n, p.text = a ++ n ∧ isName n = true ∧ '/' ∉ n.toList := by
  obtain ⟨root, ns⟩ := p
  obtain ⟨ms, n, rfl⟩ := List.eq_nil_or_concat ns |>.resolve_left hne
  obtain ⟨hn, hslash⟩ := hp n (by simp)
  have htext : (⟨root, ms.concat n⟩ : Path).text = _ :=
    (congrArg text (by simp [child])).trans (text_child ⟨root, ms⟩ n)
  exact ⟨_, n, htext, hn, hslash⟩

/-- What is in front of the last name of a path's text is the text of the directory it lies in. -/
theorem dirName_text_child (hp : p.IsProper) (hn : '/' ∉ n.toList) :
    dirName (p.child n).text = if p.parts.isEmpty then p.root.text else p.text := by
  have hlast : ∀ c ∈ n.toList, (c != '/') = true := by
    intro c hc
    exact bne_iff_ne.2 fun h => hn (h ▸ hc)
  rw [text_child]
  by_cases hnil : p.parts.isEmpty = true
  · rw [if_pos hnil, if_pos hnil]
    have hhead : Text.dropEndWhile (· != '/') (p.root.text ++ n).toList = p.root.text.toList := by
      rw [String.toList_append, Text.dropEndWhile_append_of_all hlast]
      cases p.root <;> rfl
    rw [dirName, hhead]
    cases p.root <;> rfl
  · rw [if_neg hnil, if_neg hnil]
    obtain ⟨a, m, ha, hm, hslash⟩ := exists_text_eq hp (by simpa using hnil)
    have hhead : Text.dropEndWhile (· != '/') (p.text ++ "/" ++ n).toList =
        p.text.toList ++ ['/'] := by
      rw [String.toList_append, Text.dropEndWhile_append_of_all hlast, String.toList_append]
      exact Text.dropEndWhile_append_of_none (by simp) (by simp)
    have hbare : Text.dropEndWhile (· == '/') (p.text.toList ++ ['/']) = p.text.toList := by
      rw [Text.dropEndWhile_append_of_all (by simp), ha, String.toList_append]
      refine Text.dropEndWhile_append_of_none (toList_ne_nil_of_isName hm) fun c hc => ?_
      exact beq_eq_false_iff_ne.2 fun h => hslash (h ▸ hc)
    have hsome : p.text.toList.isEmpty = false := by
      rw [ha, String.toList_append]
      simp [toList_ne_nil_of_isName hm]
    rw [dirName, hhead, hbare, hsome]
    exact String.ofList_toList

theorem parse_dirName_text_child (hp : p.IsProper) (hn : '/' ∉ n.toList) :
    parse (dirName (p.child n).text) = p := by
  rw [dirName_text_child hp hn]
  split
  · rename_i hnil
    obtain ⟨root, ns⟩ := p
    obtain rfl := List.isEmpty_iff.1 hnil
    cases root <;> decide +kernel
  · exact parse_text hp

/-- Names between slashes begin with no slash. -/
theorem dropWhile_intercalate {ns : List String} (h : ∀ n ∈ ns, isName n = true ∧ '/' ∉ n.toList) :
    ("/".intercalate ns).toList.dropWhile (· == '/') = ("/".intercalate ns).toList := by
  have hhead := head?_intercalate h
  cases hcs : ("/".intercalate ns).toList with
  | nil => rfl
  | cons c cs =>
    rw [hcs, List.head?_cons, ne_eq, Option.some.injEq] at hhead
    rw [List.dropWhile_cons_of_neg (by simpa using hhead)]

/-- A text that begins with the text of a path, less this beginning and the slashes behind it. -/
theorem dropWhile_removeFirst_text {root : Root} {ms ns : List String}
    (hroot : ms ≠ [] ∨ root ≠ .relative) (hn : ns ≠ [])
    (hns : ∀ n ∈ ns, isName n = true ∧ '/' ∉ n.toList) :
    ((⟨root, ms ++ ns⟩ : Path).text.removeFirst (⟨root, ms⟩ : Path).text).toList.dropWhile (· == '/') =
      ("/".intercalate ns).toList := by
  have hstop := dropWhile_intercalate hns
  rw [text_append root ms hn, String.removeFirst, String.toList_ofList, String.toList_append]
  cases ms with
  | nil =>
    have htext : (⟨root, []⟩ : Path).text = root.text := by
      cases root with
      | relative => exact absurd rfl (hroot.resolve_left fun h => h rfl)
      | single => rfl
      | double => rfl
    rw [htext, List.isEmpty_nil, if_pos rfl, Text.replaceFirst_append, List.nil_append, hstop]
  | cons m ms =>
    rw [List.isEmpty_cons, if_neg (by decide), String.toList_append, List.append_assoc,
      Text.replaceFirst_append, List.nil_append]
    exact (List.dropWhile_cons_of_pos rfl).trans hstop

/-- Behind the root, the names of an absolute path stand as behind any directory it lies in. -/
theorem text_eq_stem_append {p q : Path} (hp : p.root = .single) {ns : List String} (hn : ns ≠ [])
    (hq : q = ⟨p.root, p.parts ++ ns⟩) : q.text = p.stem ++ ("/" ++ "/".intercalate ns) := by
  obtain ⟨root, ms⟩ := p
  subst hp hq
  rw [text_append .single ms hn, stem]
  cases ms with
  | nil => rfl
  | cons m ms => simp [String.append_assoc]

end Path

variable {p d : Path} {n : String}

theorem renderedPath_child (hp : p.IsProper) (hdots : ".." ∉ p.parts) (hn : '/' ∉ n.toList) :
    renderedPath (p.child n).text = (p.child renderedName).text := by
  have hparts : ".." ∉ (p.child renderedName).parts := by
    simpa [Path.child, hdots] using by decide
  rw [renderedPath, Path.parse_dirName_text_child hp hn, Path.normal, Path.resolveDots_eq _ hparts]
  rfl

/-- Put behind a directory above it, the relative path of a page is the path of the page. -/
theorem Item.stem_append_relativePath {it : Item} (hp : p.root = .single) (h : p.AtOrAbove d)
    (hd : d.IsProper) (hdots : ".." ∉ d.parts) (hn : '/' ∉ n.toList)
    (hit : it.renderedPath = DocTree.renderedPath (d.child n).text) :
    p.stem ++ it.relativePath p.text = (d.child renderedName).text := by
  obtain ⟨hroot, ns, hns⟩ := h
  have hne : ns ++ [renderedName] ≠ [] := by simp
  have hpage : d.child renderedName = ⟨p.root, p.parts ++ (ns ++ [renderedName])⟩ := by
    rw [Path.child, ← hns, hroot, List.append_assoc]
  have hnames : ∀ m ∈ ns ++ [renderedName], Path.isName m = true ∧ '/' ∉ m.toList := by
    intro m hm
    rcases List.mem_append.1 hm with hm | hm
    · exact hd m (hns ▸ List.mem_append_right _ hm)
    · rw [List.mem_singleton.1 hm]
      decide +kernel
  have hrelative : it.relativePath p.text = "/" ++ "/".intercalate (ns ++ [renderedName]) := by
    have habs : p.root ≠ .relative := by
      rw [hp]
      decide
    have hrest := Path.dropWhile_removeFirst_text (.inr habs : p.parts ≠ [] ∨ _) hne hnames
    rw [Item.relativePath, hit, renderedPath_child hd hdots hn, hpage, hrest,
      ← String.toList_inj, String.toList_ofList, String.toList_append]
    rfl
  rw [hrelative, Path.text_eq_stem_append hp hne hpage]

theorem text_child_renderedName (hd : d.root = .single) :
    (d.child renderedName).text = d.stem ++ ("/" ++ renderedName) := by
  have htext := Path.text_eq_stem_append hd (q := d.child renderedName)
    (List.cons_ne_nil renderedName []) rfl
  rwa [String.intercalate_singleton] at htext

/-! ### Any source -/

/-- The path of a page is that of the normal directory of the source, with the name of pages. -/
theorem renderedPath_eq (s : String) :
    renderedPath s = ((Path.parse (Path.dirName s)).normal.child renderedName).text := by
  rw [renderedPath, Path.normal_child (by decide)]

theorem parse_dirName_renderedPath (s : String) :
    Path.parse (Path.dirName (renderedPath s)) = (Path.parse (Path.dirName s)).normal := by
  rw [renderedPath_eq]
  exact Path.parse_dirName_text_child (Path.isProper_parse _).normal (by decide +kernel)

theorem normalText_dirName_renderedPath (s : String) :
    Path.normalText (Path.dirName (renderedPath s)) = Path.normalText (Path.dirName s) := by
  rw [Path.normalText, parse_dirName_renderedPath, Path.normal_normal]
  rfl

theorem isNormalText_renderedPath (s : String) : Path.IsNormalText (renderedPath s) := by
  rw [renderedPath_eq]
  have hdirectory : (Path.parse (Path.dirName s)).normal.IsProper := (Path.isProper_parse _).normal
  have hnormal := Path.isNormal_normal ((Path.parse (Path.dirName s)).child renderedName)
  rw [Path.normal_child (by decide)] at hnormal
  refine ⟨_, _, Path.text_of_ne_nil ?_, hdirectory.child (by decide +kernel) (by decide +kernel), hnormal⟩
  exact List.append_ne_nil_of_right_ne_nil _ (List.cons_ne_nil _ _)

/-- The page of a source is told by the normal form of its directory, and tells it. -/
theorem renderedPath_eq_iff {s t : String} : renderedPath s = renderedPath t ↔
    Path.normalText (Path.dirName s) = Path.normalText (Path.dirName t) := by
  constructor
  · intro h
    rw [← normalText_dirName_renderedPath s, h, normalText_dirName_renderedPath t]
  · intro h
    have hnormal := congrArg Path.parse h
    rw [Path.normalText, Path.normalText, Path.parse_text (Path.isProper_parse _).normal,
      Path.parse_text (Path.isProper_parse _).normal] at hnormal
    rw [renderedPath_eq, renderedPath_eq, hnormal]

/-- The page of a source has the name of pages and a normal path, in the normal form of the directory
of the source. It is its own page, and two sources have one page just if the normal forms of their
directories are the same. -/
theorem renderedPath_sibling (s : String) :
    Path.baseName (renderedPath s) = renderedName ∧ Path.IsNormalText (renderedPath s) ∧
      Path.normalText (Path.dirName (renderedPath s)) = Path.normalText (Path.dirName s) ∧
      renderedPath (renderedPath s) = renderedPath s ∧
      ∀ t, renderedPath s = renderedPath t ↔
        Path.normalText (Path.dirName s) = Path.normalText (Path.dirName t) := by
  refine ⟨?_, isNormalText_renderedPath s, normalText_dirName_renderedPath s, ?_,
    fun t => renderedPath_eq_iff⟩
  · rw [renderedPath_eq]
    exact Path.baseName_text_child _ (by decide +kernel)
  · exact renderedPath_eq_iff.2 (normalText_dirName_renderedPath s)

example : renderedPath "//x/.././../b//./tag.md" = "//b/index.html" := by decide +kernel

example : renderedPath "a/../../tag.md" = "../index.html" := by decide +kernel

end DocTree
