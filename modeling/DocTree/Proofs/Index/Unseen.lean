import Mathlib
import DocTree.Proofs.Index.Agreement

/-!
# What an index does not see

Two things in a directory tree without links have no influence on its index. One are the entries that
are passed over, whatever they are and whatever is below them (`topLevel_withoutIgnored`), as long as
the path of the root does not lead through one of them. The other are rendered pages, as long as none
of those that come or go has a path too long to be looked up (`topLevel_withoutPages`).
-/

namespace DocTree

namespace FileSystem
variable {fs fs' : FileSystem} {ignore : List String} {root p : Path} {l m : Location}

/-- That no link is below the directory that a path leads to. -/
def NoLinksBelow (fs : FileSystem) (root : Path) : Prop :=
  ∀ l e, fs.lookup root = .ok (l, e) → ∀ ns t, fs.entryAt? (l ++ ns) ≠ some (.link t)

theorem linkCount_of_lookup {es : List (String × Entry)} {n : String} {e : Entry}
    (h : linkCountOf es = 0) (hn : es.lookup n = some e) : linkCount e = 0 := by
  induction es with
  | nil => cases hn
  | cons x es ih =>
    obtain ⟨m, d⟩ := x
    rw [linkCountOf, Nat.add_eq_zero_iff] at h
    rw [List.lookup] at hn
    split at hn
    · cases hn
      exact h.1
    · exact ih h.2 hn

theorem at?_ne_link {e : Entry} (h : linkCount e = 0) (l : Location) (t : String) :
    e.at? l ≠ some (.link t) := by
  induction l generalizing e with
  | nil =>
    rintro he
    cases he
    cases h
  | cons n l ih =>
    rw [Entry.at?]
    cases hn : e.children.lookup n with
    | none => simp
    | some d =>
      cases e with
      | directory es => exact ih (linkCount_of_lookup h hn)
      | file bs => cases hn
      | link u => cases hn

/-- Where there is no link at all, none is below a root. -/
theorem noLinksBelow_of_linkCount (h : linkCountOf fs.entries = 0) (root : Path) :
    fs.NoLinksBelow root :=
  fun _ _ _ _ t => at?_ne_link (e := .directory fs.entries) h _ t

theorem leadsTo_isDirectory_iff : fs.leadsTo Entry.isDirectory p = .ok true ↔
    ∃ l es, fs.lookup p = .ok (l, .directory es) := by
  unfold leadsTo
  cases fs.lookup p with
  | error f => cases f <;> simp
  | ok r =>
    obtain ⟨l, e⟩ := r
    cases e <;> simp [Entry.isDirectory]

/-! ### Entries that are passed over -/

/-- Whether a location lies below `l` and has a name that is passed over. -/
def isIgnoredBelow (ignore : List String) (l m : Location) : Bool :=
  decide (l.length < m.length) && l.isPrefixOf m && Index.isIgnored ignore (m.getLast?.getD "")

/-- The file system without the entries below `root` that are passed over. -/
def withoutIgnored (fs : FileSystem) (ignore : List String) (root : Path) : FileSystem :=
  match fs.lookup root with
  | .ok (l, .directory _) => fs.without fun m _ => isIgnoredBelow ignore l m
  | _ => fs

theorem withoutIgnored_of_lookup {es : List (String × Entry)}
    (h : fs.lookup root = .ok (l, .directory es)) :
    fs.withoutIgnored ignore root = fs.without fun m _ => isIgnoredBelow ignore l m := by
  rw [withoutIgnored, h]

theorem withoutIgnored_of_not_directory (h : fs.leadsTo Entry.isDirectory root ≠ .ok true) :
    fs.withoutIgnored ignore root = fs := by
  unfold withoutIgnored
  split
  · rename_i l es hl
    exact absurd (leadsTo_isDirectory_iff.2 ⟨l, es, hl⟩) h
  · rfl

theorem part_withoutIgnored (hfs : fs.isProper = true) :
    Part (fs.withoutIgnored ignore root) fs := by
  unfold withoutIgnored
  split
  · exact part_without hfs
  · exact .refl fs

/-- A location below `l` is kept if no name on the way there from `l` is passed over. -/
theorem keeps_of_not_isIgnored {ns : Location} (hns : ∀ n ∈ ns, Index.isIgnored ignore n = false) :
    fs.Keeps (fun m _ => isIgnoredBelow ignore l m) (l ++ ns) := by
  intro m e _ hm _
  rw [← Bool.not_eq_true]
  intro hdrop
  unfold isIgnoredBelow at hdrop
  rw [Bool.and_eq_true, Bool.and_eq_true, decide_eq_true_iff,
    List.isPrefixOf_iff_prefix] at hdrop
  obtain ⟨⟨hlen, ks, rfl⟩, hlast⟩ := hdrop
  obtain ⟨rs, k, rfl⟩ := (List.eq_nil_or_concat' ks).resolve_left (by
    rintro rfl
    simp at hlen)
  have hk : k ∈ ns := by
    obtain ⟨xs, hxs⟩ := (List.prefix_append_right_inj l).1 hm
    rw [← hxs]
    simp
  rw [← List.append_assoc, List.getLast?_concat, Option.getD_some, hns k hk] at hlast
  cases hlast

/-! ### Pages -/

/-- Whether an entry at a location is a rendered page: a file, with the name of one. -/
def isPageAt (m : Location) (e : Entry) : Bool := e.isFile && isPage (m.getLast?.getD "")

/-- The file system without the pages in it. -/
def withoutPages (fs : FileSystem) : FileSystem := fs.without isPageAt

theorem isFile_of_isPageAt (m : Location) (e : Entry) (h : isPageAt m e = true) :
    e.isFile = true :=
  (Bool.and_eq_true _ _ ▸ h).1

theorem bare_entryAt?_withoutPages (hfs : fs.isProper = true) (m : Location) (n : String) :
    (fs.withoutPages.entryAt? (m ++ [n])).map Entry.bare =
      ((fs.entryAt? (m ++ [n])).filter fun e => !(e.isFile && isPage n)).map Entry.bare := by
  rw [withoutPages, bare_entryAt?_without_files isFile_of_isPageAt hfs]
  simp only [isPageAt, List.getLast?_concat, Option.getD_some]

/-- File systems that hold the same without their pages hold the same but for pages. -/
theorem same_or_page (hfs : fs.isProper = true) (hfs' : fs'.isProper = true)
    (h : Identical fs.withoutPages fs'.withoutPages) (n : String) :
    (fs.entryAt? (m ++ [n])).map Entry.bare = (fs'.entryAt? (m ++ [n])).map Entry.bare ∨
      isPage n = true ∧ Index.NoneOrFile fs (m ++ [n]) ∧ Index.NoneOrFile fs' (m ++ [n]) := by
  have hbare := h.bare (m ++ [n])
  rw [bare_entryAt?_withoutPages hfs, bare_entryAt?_withoutPages hfs'] at hbare
  cases hn : isPage n with
  | false =>
    have hall : ∀ a : Option Entry, (a.filter fun e => !(e.isFile && isPage n)) = a := by
      intro a
      cases a <;> simp [Option.filter, hn]
    rw [hall, hall] at hbare
    exact .inl hbare
  | true =>
    simp only [hn, Bool.and_true] at hbare
    -- what is no file stays, so it is in both or in none
    have hfile : ∀ a : Option Entry, (a.filter fun e => !e.isFile) = none →
        ∀ e, a = some e → e.isFile = true := by
      rintro - ha e rfl
      simpa [Option.filter] using ha
    cases ha : (fs.entryAt? (m ++ [n])).filter fun e => !e.isFile with
    | none =>
      rw [ha, Option.map_none, eq_comm, Option.map_eq_none_iff] at hbare
      exact .inr ⟨rfl, hfile _ ha, hfile _ hbare⟩
    | some c =>
      rw [ha, Option.map_some, eq_comm, Option.map_eq_some_iff] at hbare
      obtain ⟨c', ha', hc⟩ := hbare
      have he := (Option.filter_eq_some_iff.1 ha).1
      have he' := (Option.filter_eq_some_iff.1 ha').1
      exact .inl (by rw [he, he', Option.map_some, Option.map_some, hc])

end FileSystem

namespace Index
open FileSystem

section
variable {fs fs' : FileSystem} {st : Settings} {root : Path} {l : Location}

/-- A path leads to a directory in one file system if it does so in the other, if that does not
depend on what is passed over. -/
theorem exists_lookup_of_withoutIgnored (hfs : fs.isProper = true) (hfs' : fs'.isProper = true)
    (h : Identical (fs.withoutIgnored st.ignore root) (fs'.withoutIgnored st.ignore root))
    (hroot : fs.leadsTo Entry.isDirectory root = .ok true →
      (fs.withoutIgnored st.ignore root).leadsTo Entry.isDirectory root = .ok true)
    (hdir : fs.leadsTo Entry.isDirectory root = .ok true) :
    ∃ l, (∃ es, fs.lookup root = .ok (l, .directory es)) ∧
      ∃ es, fs'.lookup root = .ok (l, .directory es) := by
  obtain ⟨l, es, hl⟩ := leadsTo_isDirectory_iff.1 (hroot hdir)
  obtain ⟨e, he, hk⟩ := h.alike.lookup_ok hl
  obtain ⟨d, hd, hkind⟩ := (part_withoutIgnored hfs).lookup_ok hl
  obtain ⟨d', hd', hkind'⟩ := (part_withoutIgnored hfs').lookup_ok he
  obtain ⟨ds, rfl⟩ := Entry.kind_eq_directory.1 hkind
  obtain ⟨ds', rfl⟩ := Entry.kind_eq_directory.1 (hkind'.trans hk)
  exact ⟨l, ⟨ds, hd⟩, ds', hd'⟩

theorem sameBelow_of_withoutIgnored (hfs : fs.isProper = true) (hfs' : fs'.isProper = true)
    (hlinks : fs.NoLinksBelow root) (hlinks' : fs'.NoLinksBelow root)
    (h : Identical (fs.withoutIgnored st.ignore root) (fs'.withoutIgnored st.ignore root))
    (hl : ∃ es, fs.lookup root = .ok (l, .directory es))
    (hl' : ∃ es, fs'.lookup root = .ok (l, .directory es)) :
    SameBelow fs fs' st.ignore root
      fun m => ∃ ns, m = l ++ ns ∧ ∀ n ∈ ns, isIgnored st.ignore n = false where
  next := by
    rintro - n ⟨ns, rfl, hns⟩ hn
    refine ⟨ns ++ [n], List.append_assoc .., fun k hk => ?_⟩
    rcases List.mem_append.1 hk with hk | hk
    · exact hns k hk
    · rw [List.mem_singleton.1 hk]
      exact hn
  sameIn := by
    rintro d - _ ⟨ns, rfl, hns⟩ hd hd'
    obtain ⟨es, hl⟩ := hl
    obtain ⟨es', hl'⟩ := hl'
    refine ⟨hd, hd', fun n t => ?_, fun n t => ?_, fun n hn => .inl ?_⟩
    · rw [List.append_assoc]
      exact hlinks l _ hl (ns ++ [n]) t
    · rw [List.append_assoc]
      exact hlinks' l _ hl' (ns ++ [n]) t
    · have hkept : ∀ k ∈ ns ++ [n], isIgnored st.ignore k = false := by
        intro k hk
        rcases List.mem_append.1 hk with hk | hk
        · exact hns k hk
        · rw [List.mem_singleton.1 hk]
          exact hn
      have hbare := h.bare (l ++ (ns ++ [n]))
      rw [withoutIgnored_of_lookup hl, withoutIgnored_of_lookup hl',
        bare_entryAt?_without hfs (keeps_of_not_isIgnored hkept),
        bare_entryAt?_without hfs' (keeps_of_not_isIgnored hkept)] at hbare
      rw [List.append_assoc]
      exact hbare

end

/-- What is passed over has no influence on an index: file systems without links below the root that
hold the same once the ignored entries below the root are deleted have the same index, with the same
records or the same fault, if the root does not stop to be a directory by that. -/
theorem topLevel_withoutIgnored {fs fs' : FileSystem} (hfs : fs.isProper = true)
    (hfs' : fs'.isProper = true) {st : Settings} {root : Path} (hlinks : fs.NoLinksBelow root)
    (hlinks' : fs'.NoLinksBelow root)
    (h : Identical (fs.withoutIgnored st.ignore root) (fs'.withoutIgnored st.ignore root))
    (hroot : fs.leadsTo Entry.isDirectory root = .ok true →
      (fs.withoutIgnored st.ignore root).leadsTo Entry.isDirectory root = .ok true)
    (hroot' : fs'.leadsTo Entry.isDirectory root = .ok true →
      (fs'.withoutIgnored st.ignore root).leadsTo Entry.isDirectory root = .ok true) :
    topLevel fs st root = topLevel fs' st root := by
  rcases Classical.em (fs.leadsTo Entry.isDirectory root = .ok true ∨
    fs'.leadsTo Entry.isDirectory root = .ok true) with hdir | hdir
  · have hlookup : ∃ l, (∃ es, fs.lookup root = .ok (l, .directory es)) ∧
        ∃ es, fs'.lookup root = .ok (l, .directory es) := by
      rcases hdir with hdir | hdir
      · exact exists_lookup_of_withoutIgnored hfs hfs' h hroot hdir
      · obtain ⟨l, hl', hl⟩ := exists_lookup_of_withoutIgnored hfs' hfs h.symm hroot' hdir
        exact ⟨l, hl, hl'⟩
    obtain ⟨l, hl, hl'⟩ := hlookup
    have hbelow := sameBelow_of_withoutIgnored hfs hfs' hlinks hlinks' h hl hl'
    refine (hbelow.agree hfs hfs').topLevel_eq hfs hfs' rfl ?_ fun _ => ?_
    · rw [leadsTo_isDirectory_iff.2 ⟨l, hl⟩, leadsTo_isDirectory_iff.2 ⟨l, hl'⟩]
    · exact ⟨.root, l, ⟨[], (List.append_nil l).symm, by simp⟩, hl, hl'⟩
  · -- the root is no directory, and nothing is deleted
    rw [not_or] at hdir
    rw [withoutIgnored_of_not_directory hdir.1, withoutIgnored_of_not_directory hdir.2] at h
    have hleads : fs.leadsTo Entry.isDirectory root = fs'.leadsTo Entry.isDirectory root := by
      unfold leadsTo at hdir ⊢
      cases hl : fs.lookup root with
      | error f => rw [h.alike.lookup_error hl]
      | ok r =>
        obtain ⟨e', he', hk⟩ := h.alike.lookup_ok hl
        rw [he']
        obtain ⟨l, e⟩ := r
        cases e <;> cases e' <;> cases hk <;> rfl
    rw [topLevel, topLevel, siteAt_eq_of_not_directory hleads hdir.1]

theorem lookup_dot {fs : FileSystem} (hw : fs.working = []) :
    fs.lookup (Path.parse ".") = .ok ([], .directory fs.entries) := by
  have hparse : Path.parse "." = ⟨.relative, []⟩ := by decide +kernel
  rw [hparse]
  exact lookup_working hw

/-- A file and nothing else. -/
def single : FileSystem := ⟨[("a.md", .file [])], []⟩

/-- The tag in a directory that is ignored does not show. -/
theorem topLevel_withoutIgnored_sample :
    topLevel (sample [] []) { ignore := ["c"] } (Path.parse ".") =
      topLevel single { ignore := ["c"] } (Path.parse ".") := by
  have hkept : isIgnoredBelow ["c"] [] ["a.md"] = false := by decide +kernel
  have hgone : isIgnoredBelow ["c"] [] ["c"] = true := by decide +kernel
  have hwithout : ∀ fs : FileSystem, fs.working = [] → fs.withoutIgnored ["c"] (Path.parse ".") =
      fs.without fun m _ => isIgnoredBelow ["c"] [] m :=
    fun fs hw => withoutIgnored_of_lookup (lookup_dot hw)
  have hroot : ∀ fs : FileSystem, fs.working = [] →
      (fs.withoutIgnored ["c"] (Path.parse ".")).leadsTo Entry.isDirectory (Path.parse ".") =
        .ok true := by
    intro fs hw
    rw [hwithout fs hw]
    exact leadsTo_isDirectory_iff.2 ⟨_, _, lookup_dot hw⟩
  refine topLevel_withoutIgnored (by decide +kernel) (by decide +kernel)
    (noLinksBelow_of_linkCount rfl _) (noLinksBelow_of_linkCount rfl _) ?_
    (fun _ => hroot _ rfl) fun _ => hroot _ rfl
  have heq : (sample [] []).withoutIgnored ["c"] (Path.parse ".") =
      single.withoutIgnored ["c"] (Path.parse ".") := by
    rw [hwithout _ rfl, hwithout _ rfl]
    simp [FileSystem.without, sample, single, Entry.entriesWithout, hkept, hgone]
  show Identical ((sample [] []).withoutIgnored ["c"] (Path.parse "."))
    (single.withoutIgnored ["c"] (Path.parse "."))
  rw [heq]
  exact .refl _

/-- A directory with a tag in it and further entries. -/
def tagged (es : List (String × Entry)) : FileSystem :=
  ⟨[("d", .directory (("tag.md", .file []) :: es))], []⟩

theorem lookup_tagged (es : List (String × Entry)) : (tagged es).lookup (Path.parse "d/.x/..") =
    (tagged es).follow linkLimit ["d"] [".x", ".."] := by
  have hroot : Path.parse "d/.x/.." = ⟨.relative, ["d", ".x", ".."]⟩ := by decide +kernel
  have hsize : ¬ nameLimit < "d".utf8ByteSize := by decide +kernel
  rw [hroot, FileSystem.lookup, if_neg (by decide), if_neg (by decide +kernel)]
  show (tagged es).follow linkLimit [] ["d", ".x", ".."] = _
  rw [FileSystem.follow, if_neg (by decide), if_neg (by decide), if_neg hsize]
  rfl

/-- A root whose path leads through an ignored directory is lost with it. -/
theorem not_forall_topLevel_withoutIgnored : ¬ ∀ (fs fs' : FileSystem) (st : Settings)
    (root : Path), fs.isProper = true → fs'.isProper = true → fs.NoLinksBelow root →
      fs'.NoLinksBelow root →
        Identical (fs.withoutIgnored st.ignore root) (fs'.withoutIgnored st.ignore root) →
          topLevel fs st root = topLevel fs' st root := by
  intro h
  have hsize : ¬ nameLimit < ".x".utf8ByteSize := by decide +kernel
  have hlookup : (tagged [(".x", .directory [])]).lookup (Path.parse "d/.x/..") =
      .ok (["d"], .directory [("tag.md", .file []), (".x", .directory [])]) := by
    rw [lookup_tagged, FileSystem.follow, if_neg (by decide), if_neg (by decide), if_neg hsize]
    simp [tagged, FileSystem.follow, entryAt?, Entry.at?, Entry.children, FileSystem.root,
      List.lookup]
  have hdir := leadsTo_isDirectory_iff.2 ⟨_, _, hlookup⟩
  have hgone : (tagged []).leadsTo Entry.isDirectory (Path.parse "d/.x/..") = .ok false := by
    rw [leadsTo, lookup_tagged, FileSystem.follow, if_neg (by decide), if_neg (by decide),
      if_neg hsize]
    rfl
  have hwithout : (tagged [(".x", .directory [])]).withoutIgnored [] (Path.parse "d/.x/..") =
      tagged [] := by
    have hkept : isIgnoredBelow [] ["d"] ["d"] = false ∧
        isIgnoredBelow [] ["d"] ["d", "tag.md"] = false := by decide +kernel
    have hout : isIgnoredBelow [] ["d"] ["d", ".x"] = true := by decide +kernel
    rw [withoutIgnored_of_lookup hlookup]
    simp [FileSystem.without, tagged, Entry.entriesWithout, Entry.without, hkept, hout]
  have hsame : Identical
      ((tagged [(".x", .directory [])]).withoutIgnored [] (Path.parse "d/.x/.."))
      ((tagged []).withoutIgnored [] (Path.parse "d/.x/..")) := by
    rw [hwithout, withoutIgnored_of_not_directory (by simp [hgone])]
    exact .refl _
  have htop := h (tagged [(".x", .directory [])]) (tagged []) { ignore := [] }
    (Path.parse "d/.x/..") (by decide +kernel) (by decide +kernel)
    (noLinksBelow_of_linkCount rfl _) (noLinksBelow_of_linkCount rfl _) hsame
  -- the second index fails for its root, the first one cannot
  have hfail : (topLevel (tagged []) { ignore := [] } (Path.parse "d/.x/..")).result =
      .error (.notDirectory (Path.parse "d/.x/..")) :=
    topLevel_result_eq_notDirectory.2 ⟨rfl, hgone⟩
  rw [← htop, topLevel_result_eq_notDirectory, hdir] at hfail
  cases hfail.2

/-- Rendered pages have no influence on an index: file systems without links below the root that hold
the same once their pages are deleted have the same index, with the same records or the same fault,
if no page that is in one of them only has a path too long to be looked up. -/
theorem topLevel_withoutPages {fs fs' : FileSystem} (hfs : fs.isProper = true)
    (hfs' : fs'.isProper = true) {st : Settings} {root : Path} (hlinks : fs.NoLinksBelow root)
    (hlinks' : fs'.NoLinksBelow root) (h : Identical fs.withoutPages fs'.withoutPages)
    (hlong : ∀ d n, Reached fs st.ignore root d → isIgnored st.ignore n = false →
      isPage n = true → isTooLong d n = true →
        ((∃ e, (n, e) ∈ fs.entriesAt d) ↔ ∃ e, (n, e) ∈ fs'.entriesAt d)) :
    topLevel fs st root = topLevel fs' st root := by
  have hways : SameWays fs fs' := h.sameWays hfs hfs' isFile_of_isPageAt
  have hroot := hways.directoryOf_lookup root
  rcases Classical.em (fs.leadsTo Entry.isDirectory root = .ok true) with hdir | hdir
  · obtain ⟨l, es, hl⟩ := leadsTo_isDirectory_iff.1 hdir
    obtain ⟨es', hl'⟩ := directoryOf_eq_some.1 (hroot.symm.trans (directoryOf_eq_some.2 ⟨es, hl⟩))
    have hbelow : SameBelow fs fs' st.ignore root (l <+: ·) := by
      refine ⟨fun m n hm _ => hm.trans (List.prefix_append ..), ?_⟩
      rintro d - hd ⟨ns, rfl⟩ hds hds'
      refine ⟨hds, hds', fun n t => ?_, fun n t => ?_, fun n hn => ?_⟩
      · rw [List.append_assoc]
        exact hlinks l _ hl (ns ++ [n]) t
      · rw [List.append_assoc]
        exact hlinks' l _ hl' (ns ++ [n]) t
      · rcases same_or_page hfs hfs' h n with hsame | ⟨hpage, hfile, hfile'⟩
        · exact .inl hsame
        · refine .inr ⟨hpage, hfile, hfile', fun hn' => ?_⟩
          have hin := hlong d n hd hn hpage hn'
          obtain ⟨ds, hds⟩ := hds
          obtain ⟨ds', hds'⟩ := hds'
          simp only [mem_entriesAt_of_lookup hfs hds, mem_entriesAt_of_lookup hfs' hds',
            ← Option.isSome_iff_exists] at hin
          exact Bool.eq_iff_iff.2 hin
    refine (hbelow.agree hfs hfs').topLevel_eq hfs hfs' rfl (leadsTo_isDirectory_eq hroot)
      fun _ => ?_
    exact ⟨.root, l, List.prefix_rfl, ⟨es, hl⟩, es', hl'⟩
  · rw [topLevel, topLevel, siteAt_eq_of_not_directory (leadsTo_isDirectory_eq hroot) hdir]

/-- A page beside the file changes nothing. -/
theorem topLevel_withoutPages_sample :
    topLevel single {} (Path.parse ".") =
      topLevel ⟨[("a.md", .file []), ("index.html", .file [])], []⟩ {} (Path.parse ".") := by
  have hsame : single.withoutPages =
      withoutPages ⟨[("a.md", .file []), ("index.html", .file [])], []⟩ := by
    have hkept : isPageAt ["a.md"] (.file []) = false := by decide +kernel
    have hpage : isPageAt ["index.html"] (.file []) = true := by decide +kernel
    simp [withoutPages, FileSystem.without, single, Entry.entriesWithout, Entry.without, hkept,
      hpage]
  refine topLevel_withoutPages (by decide +kernel) (by decide +kernel)
    (noLinksBelow_of_linkCount rfl _) (noLinksBelow_of_linkCount rfl _) ?_ ?_
  · rw [hsame]
    exact .refl _
  · intro d n hd _ hpage hlong
    have hentries : ∀ fs : FileSystem, fs.working = [] →
        fs.entriesAt (Path.parse ".") = fs.entries := by
      intro fs hw
      rw [FileSystem.entriesAt, lookup_dot hw]
      rfl
    -- there is one directory, and its page has a short path
    have hd' : d = Path.parse "." := by
      rcases hd.eq_or_child with rfl | ⟨m, ⟨es, hm, -⟩, -⟩
      · rfl
      · rw [hentries single rfl] at hm
        simp [single] at hm
    subst hd'
    rw [hentries single rfl, hentries _ rfl]
    have hshort : isTooLong (Path.parse ".") "index.html" = false := by decide +kernel
    have hmd : isPage "a.md" = false := by decide +kernel
    refine iff_of_false ?_ ?_
    · rintro ⟨e, he⟩
      obtain ⟨rfl, -⟩ : n = "a.md" ∧ _ := by simpa [single] using he
      rw [hmd] at hpage
      cases hpage
    · rintro ⟨e, he⟩
      obtain ⟨rfl, -⟩ | ⟨rfl, -⟩ : n = "a.md" ∧ _ ∨ n = "index.html" ∧ _ := by simpa using he
      · rw [hmd] at hpage
        cases hpage
      · rw [hshort] at hlong
        cases hlong

/-- A directory with entries in it. -/
def room (es : List (String × Entry)) : FileSystem := ⟨[("r", .directory es)], []⟩

/-- The path into the directory, and `k` times out of it and in again. -/
def inAndOut : Nat → Path
  | 0 => ⟨.relative, ["r"]⟩
  | k + 1 => ((inAndOut k).child "..").child "r"

theorem inAndOut_fields (k : Nat) : (inAndOut k).root = .relative ∧ (inAndOut k).parts ≠ [] ∧
    hasNull (inAndOut k) = false ∧ (inAndOut k).text.utf8ByteSize = 5 * k + 1 := by
  induction k with
  | zero => decide +kernel
  | succ k ih =>
    obtain ⟨hroot, hne, hnull, hsize⟩ := ih
    have hdots : "..".utf8ByteSize = 2 := by decide
    have hname : "r".utf8ByteSize = 1 := by decide
    refine ⟨hroot, by simp [inAndOut, Path.child], ?_, ?_⟩
    · rw [hasNull] at hnull ⊢
      simp only [inAndOut, Path.child, List.append_assoc, List.any_append, hnull]
      decide
    · rw [inAndOut, Path.utf8ByteSize_text_child (by simp [Path.child]),
        Path.utf8ByteSize_text_child hne, hsize, hdots, hname]
      omega

theorem follow_inAndOut (es : List (String × Entry)) (j k : Nat) (ms : List String) :
    (room es).follow j [] ((inAndOut k).parts ++ ms) = (room es).follow j ["r"] ms := by
  have hinto : ∀ ms, (room es).follow j [] ("r" :: ms) = (room es).follow j ["r"] ms := by
    intro ms
    have hsize : ¬ nameLimit < "r".utf8ByteSize := by decide +kernel
    rw [FileSystem.follow, if_neg (by decide), if_neg (by decide), if_neg hsize]
    rfl
  induction k generalizing ms with
  | zero => exact hinto ms
  | succ k ih =>
    simp only [inAndOut, Path.child, List.append_assoc, ih]
    show (room es).follow j ["r"] (".." :: "r" :: ms) = _
    rw [FileSystem.follow, if_neg (by decide), if_pos rfl]
    exact hinto ms

theorem lookup_inAndOut (es : List (String × Entry)) {k : Nat} (hk : 5 * k + 1 < pathLimit) :
    (room es).lookup (inAndOut k) = .ok (["r"], .directory es) := by
  obtain ⟨hroot, -, hnull, hsize⟩ := inAndOut_fields k
  have hfollow := follow_inAndOut es linkLimit k []
  rw [List.append_nil] at hfollow
  rw [FileSystem.lookup, hnull, if_neg (by decide), hsize, if_neg (by omega), FileSystem.base,
    if_pos hroot]
  refine hfollow.trans ?_
  simp [FileSystem.follow, entryAt?, Entry.at?, Entry.children, FileSystem.root, room]

/-- A page whose path is too long to be looked up is enough that no index is made. -/
theorem not_forall_topLevel_withoutPages : ¬ ∀ (fs fs' : FileSystem) (st : Settings)
    (root : Path), fs.isProper = true → fs'.isProper = true → fs.NoLinksBelow root →
      fs'.NoLinksBelow root → Identical fs.withoutPages fs'.withoutPages →
        topLevel fs st root = topLevel fs' st root := by
  intro h
  have hk : 5 * 817 + 1 < pathLimit := by decide
  have hlookup := lookup_inAndOut [] hk
  have hlookup' := lookup_inAndOut [("index.html", .file [])] hk
  have hproper : (room [("index.html", .file [])]).isProper = true := by decide +kernel
  have hsame : (room []).withoutPages = (room [("index.html", .file [])]).withoutPages := by
    have hkept : ∀ es, isPageAt ["r"] (.directory es) = false := fun _ => rfl
    have hpage : isPageAt ["r", "index.html"] (.file []) = true := by decide +kernel
    simp [withoutPages, FileSystem.without, room, Entry.entriesWithout, Entry.without, hkept, hpage]
  have htop := h (room []) (room [("index.html", .file [])]) {} (inAndOut 817) (by decide +kernel)
    hproper (noLinksBelow_of_linkCount rfl _) (noLinksBelow_of_linkCount rfl _)
    (by rw [hsame]; exact .refl _)
  -- the index of the empty directory is made
  have hsite : siteAt (room []) {} (inAndOut 817) = .ok (.directory [] none) := by
    have hfiles : filesAt (room []) ({} : Settings).ignore (inAndOut 817) [] = .ok [] := by
      simp [filesAt, List.filterM, List.filterAuxM]
      rfl
    have hchoose : SourceFile.choose? [] = none := by decide +kernel
    rw [siteAt, leadsTo_isDirectory_iff.2 ⟨_, _, hlookup⟩, hlookup]
    simp [survey, surveyAll, hfiles, sourceOf, hchoose]
  have hok : (topLevel (room []) {} (inAndOut 817)).result = .ok [] :=
    topLevel_result_eq_ok.2 ⟨_, hsite, rfl, rfl, by simp [Site.sources, sourcesOf]⟩
  rw [htop] at hok
  -- that of the other one would have to look up the page
  obtain ⟨s, hs, -, hf, -⟩ := topLevel_result_eq_ok.1 hok
  have hclear := (failures_eq_nil_iff hproper hs).1 hf _ .root
  have hmem : ("index.html", Entry.file []) ∈
      (room [("index.html", .file [])]).entriesAt (inAndOut 817) := by
    rw [FileSystem.entriesAt, hlookup']
    exact List.mem_singleton_self _
  have hlong : isTooLong (inAndOut 817) "index.html" = true := by
    obtain ⟨-, hne, -, hsize⟩ := inAndOut_fields 817
    rw [isTooLong, Path.utf8ByteSize_text_child hne, hsize]
    decide +kernel
  refine hclear _ _ hmem (by decide +kernel) ?_
  rw [lookup_child_eq hlookup' rfl (by decide +kernel) (by simp), if_pos hlong]

end Index
end DocTree
