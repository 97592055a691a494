import Mathlib
import DocTree.Proofs.Except
import DocTree.Proofs.FileSystem.Removal
import DocTree.Proofs.Index.Completion
import DocTree.Proofs.Index.Contents
import DocTree.Proofs.SourceFile

/-!
# File systems that show the same

What an index takes from a directory are its source and the directories in it. If two file systems
`Agree` on these, from the root on, the index of both is the same, with its records and its fault
(`Agree.topLevel_eq`). They agree if at every location that is gone through they hold the same, but
for rendered pages (`SameBelow.agree`).
-/

namespace DocTree

namespace FileSystem
variable {fs fs' : FileSystem} {p : Path}

/-- Where a lookup ends, with what the entry there is in itself. -/
def bareOf (r : Except LookupFault (Location × Entry)) : Except LookupFault (Location × Entry) :=
  r.map fun (l, e) => (l, e.bare)

theorem mem_entriesAt_of_lookup (hfs : fs.isProper = true) {l : Location}
    {es : List (String × Entry)} (hp : fs.lookup p = .ok (l, .directory es)) {n : String}
    {e : Entry} : (n, e) ∈ fs.entriesAt p ↔ fs.entryAt? (l ++ [n]) = some e := by
  rw [mem_entriesAt hfs]
  constructor
  · rintro ⟨l', es', hp', he⟩
    rw [hp] at hp'
    cases hp'
    exact he
  · exact fun he => ⟨l, es, hp, he⟩

theorem bareOf_eq {r r' : Except LookupFault (Location × Entry)} (h : bareOf r = bareOf r') :
    (∃ f, r = .error f ∧ r' = .error f) ∨
      ∃ l e e', r = .ok (l, e) ∧ r' = .ok (l, e') ∧ e.bare = e'.bare := by
  cases r with
  | error f =>
    cases r' with
    | error f' =>
      cases h
      exact .inl ⟨f, rfl, rfl⟩
    | ok x => cases h
  | ok x =>
    cases r' with
    | error f' => cases h
    | ok x' =>
      obtain ⟨hl, hbare⟩ := Prod.mk.inj (Except.ok.inj h)
      exact .inr ⟨x.1, x.2, x'.2, rfl, by rw [hl], hbare⟩

theorem leadsTo_isFile_eq (h : bareOf (fs.lookup p) = bareOf (fs'.lookup p)) :
    fs.leadsTo Entry.isFile p = fs'.leadsTo Entry.isFile p := by
  rcases bareOf_eq h with ⟨f, hr, hr'⟩ | ⟨l, e, e', hr, hr', hbare⟩
  · rw [leadsTo, leadsTo, hr, hr']
  · have hfile : ∀ e : Entry, e.bare.isFile = e.isFile := fun e => by cases e <;> rfl
    rw [leadsTo, leadsTo, hr, hr']
    show Except.ok e.isFile = Except.ok e'.isFile
    rw [← hfile, hbare, hfile]

theorem read_eq (h : bareOf (fs.lookup p) = bareOf (fs'.lookup p)) : fs.read p = fs'.read p := by
  rcases bareOf_eq h with ⟨f, hr, hr'⟩ | ⟨l, e, e', hr, hr', hbare⟩
  · rw [read, read, hr, hr']
  · rw [read, read, hr, hr']
    cases e <;> cases e' <;> cases hbare <;> rfl

end FileSystem

namespace Index
open FileSystem

variable {fs fs' : FileSystem} {ignore : List String} {d : Path} {n : String}

/-! ### The source of a directory -/

section
variable {keep : Path → Bool} (hkeep : ∀ p, isPage p.name = false → keep p = true)
include hkeep

theorem furtherFiles_filter (p : Path) (files : List Path) :
    furtherFiles p (files.filter keep) = furtherFiles p files := by
  rw [furtherFiles, furtherFiles, List.filter_filter]
  refine List.filter_congr fun q _ => ?_
  rw [Bool.and_eq_left_iff_imp, Bool.and_eq_true]
  rintro ⟨-, hq⟩
  exact hkeep q (by rw [isPage, beq_eq_false_iff_ne]; exact bne_iff_ne.1 hq)

theorem sourceOf_filter (files : List Path) :
    sourceOf fs (files.filter keep) = sourceOf fs files := by
  rw [sourceOf, sourceOf, SourceFile.choose?_filter hkeep]
  congr 1
  funext p
  rw [furtherFiles_filter hkeep]

end

theorem sourceOf_congr {files : List Path} (h : ∀ p ∈ files, fs.read p = fs'.read p) :
    sourceOf fs files = sourceOf fs' files := by
  unfold sourceOf
  cases hp : SourceFile.choose? files with
  | none => rfl
  | some p =>
    simp only [Option.map_some]
    rw [h p (SourceFile.mem_of_choose? hp)]

/-- The source of the directory at `d`, if it has one, or the fault of looking for it. -/
def sourceAt (fs : FileSystem) (ignore : List String) (d : Path) :
    Except FileFault (Option Source) :=
  (filesAt fs ignore d ((fs.entriesAt d).map Prod.fst)).map (sourceOf fs)

theorem sourceAt_of_clear (h : Clear fs ignore d) :
    sourceAt fs ignore d = .ok (sourceOf fs (filesIn fs ignore d)) := by
  rw [sourceAt, filesAt_of_clear h]
  rfl

theorem sourceAt_of_error {f : FileFault}
    (h : filesAt fs ignore d ((fs.entriesAt d).map Prod.fst) = .error f) :
    sourceAt fs ignore d = .error f := by
  rw [sourceAt, h]
  rfl

theorem siteAt_eq_of_not_directory {st : Settings} {root : Path}
    (hroot : fs.leadsTo Entry.isDirectory root = fs'.leadsTo Entry.isDirectory root)
    (hdir : fs.leadsTo Entry.isDirectory root ≠ .ok true) :
    siteAt fs st root = siteAt fs' st root := by
  unfold siteAt
  rw [← hroot]
  cases hleads : fs.leadsTo Entry.isDirectory root with
  | error f => rfl
  | ok b =>
    cases b with
    | false => rfl
    | true => exact absurd hleads hdir

/-! ### Agreement -/

/-- That at paths where `R` holds two file systems have the same source and the same directories, and
that `R` goes on to hold in these. -/
structure Agree (fs fs' : FileSystem) (ignore : List String) (R : Path → Prop) : Prop where
  source : ∀ d, R d → sourceAt fs ignore d = sourceAt fs' ignore d
  directory : ∀ d, R d → ∀ n, HasDirectory fs ignore d n ↔ HasDirectory fs' ignore d n
  child : ∀ d, R d → Clear fs ignore d → ∀ n, HasDirectory fs ignore d n → R (d.child n)

/-- Lists of named values with the same names in the same order are equal if the values are. -/
theorem eq_of_map_fst_eq {α : Type} {xs ys : List (String × α)}
    (hnames : xs.map Prod.fst = ys.map Prod.fst)
    (h : ∀ n a b, (n, a) ∈ xs → (n, b) ∈ ys → a = b) : xs = ys := by
  induction xs generalizing ys with
  | nil => exact (List.map_eq_nil_iff.1 hnames.symm).symm
  | cons x xs ih =>
    cases ys with
    | nil => cases hnames
    | cons y ys =>
      obtain ⟨n, a⟩ := x
      obtain ⟨m, b⟩ := y
      rw [List.map_cons, List.map_cons, List.cons.injEq] at hnames
      obtain ⟨hn, hnames⟩ := hnames
      obtain rfl : n = m := hn
      have hhead : a = b := h n a b (List.mem_cons_self ..) (List.mem_cons_self ..)
      have htail := ih hnames fun m c d hc hd =>
        h m c d (List.mem_cons_of_mem _ hc) (List.mem_cons_of_mem _ hd)
      rw [hhead, htail]

namespace Agree
variable {R : Path → Prop} (h : Agree fs fs' ignore R)
include h

theorem shows_eq (hd : R d) {s s' : Site} (hs : Shows fs ignore d s) (hs' : Shows fs' ignore d s') :
    s = s' := by
  -- along the first survey: the second meets the same fault, or the same names in the same order
  induction hs generalizing s' with
  | failed f hf =>
    have hsource := h.source _ hd
    rw [sourceAt_of_error hf] at hsource
    cases hs' with
    | failed f' hf' =>
      rw [sourceAt_of_error hf'] at hsource
      cases hsource
      rfl
    | directory hc' =>
      rw [sourceAt_of_clear hc'] at hsource
      cases hsource
  | @directory d subs hc hlt hnames _ ih =>
    have hsource := h.source _ hd
    rw [sourceAt_of_clear hc] at hsource
    cases hs' with
    | failed f' hf' =>
      rw [sourceAt_of_error hf'] at hsource
      cases hsource
    | @directory _ subs' hc' hlt' hnames' hsubs' =>
      rw [sourceAt_of_clear hc', Except.ok.injEq] at hsource
      have hfst : subs.map Prod.fst = subs'.map Prod.fst := by
        refine eq_of_pairwise_lt (List.pairwise_map.2 hlt) (List.pairwise_map.2 hlt') fun n => ?_
        have hn := (hnames n).symm.trans ((h.directory d hd n).trans (hnames' n))
        simpa using hn
      have hsubs : subs = subs' := by
        refine eq_of_map_fst_eq hfst fun n r r' hr hr' => ?_
        have hdir : HasDirectory fs ignore d n := (hnames n).2 ⟨r, hr⟩
        exact ih n r hr (h.child d hd hc n hdir) (hsubs' n r' hr')
      rw [hsource, hsubs]

/-- File systems that agree from the root on have the same index. -/
theorem topLevel_eq (hfs : fs.isProper = true) (hfs' : fs'.isProper = true) {st : Settings}
    {root : Path} (hi : st.ignore = ignore)
    (hroot : fs.leadsTo Entry.isDirectory root = fs'.leadsTo Entry.isDirectory root)
    (hR : fs.leadsTo Entry.isDirectory root = .ok true → R root) :
    topLevel fs st root = topLevel fs' st root := by
  have hsite : siteAt fs st root = siteAt fs' st root := by
    rcases Classical.em (fs.leadsTo Entry.isDirectory root = .ok true) with hdir | hdir
    · obtain ⟨s, hs⟩ := (exists_siteAt_iff st).2 hdir
      obtain ⟨s', hs'⟩ := (exists_siteAt_iff st).2 (hroot ▸ hdir)
      have hshows := shows_of_siteAt hfs hs
      have hshows' := shows_of_siteAt hfs' hs'
      rw [hi] at hshows hshows'
      rw [hs, hs', h.shows_eq (hR hdir) hshows hshows']
    · exact siteAt_eq_of_not_directory hroot hdir
  rw [topLevel, topLevel, hsite]

end Agree

/-! ### One directory -/

/-- That there is nothing at a location but perhaps a file. -/
def NoneOrFile (fs : FileSystem) (l : Location) : Prop :=
  ∀ e, fs.entryAt? l = some e → e.isFile = true

/-- That two file systems show the same in the directory at `d`, whose location is `l`. -/
structure SameIn (fs fs' : FileSystem) (ignore : List String) (d : Path) (l : Location) : Prop where
  lookup : ∃ es, fs.lookup d = .ok (l, .directory es)
  lookup' : ∃ es, fs'.lookup d = .ok (l, .directory es)
  noLink : ∀ n t, fs.entryAt? (l ++ [n]) ≠ some (.link t)
  noLink' : ∀ n t, fs'.entryAt? (l ++ [n]) ≠ some (.link t)
  /-- Under a name that is not passed over is the same, but for pages. A page whose path is too long
  to be looked up must be in both or in none. -/
  entry : ∀ n, isIgnored ignore n = false →
    (fs.entryAt? (l ++ [n])).map Entry.bare = (fs'.entryAt? (l ++ [n])).map Entry.bare ∨
      isPage n = true ∧ NoneOrFile fs (l ++ [n]) ∧ NoneOrFile fs' (l ++ [n]) ∧
        (isTooLong d n = true →
          (fs.entryAt? (l ++ [n])).isSome = (fs'.entryAt? (l ++ [n])).isSome)

/-- The names in the directory at `d` that are not passed over, in their order. -/
def shownNames (fs : FileSystem) (ignore : List String) (d : Path) : List String :=
  (((fs.entriesAt d).map Prod.fst).filter (!isIgnored ignore ·)).mergeSort

/-- Whether the path of an entry is no page that could be looked up. -/
def isKept (p : Path) : Bool := !isPage p.name || isTooLong p.parent p.name

theorem isKept_child : isKept (d.child n) = (!isPage n || isTooLong d n) := by
  rw [isKept, Path.parent_child, Path.name_child]

theorem pairwise_shownNames (hfs : fs.isProper = true) (d : Path) :
    (shownNames fs ignore d).Pairwise (· < ·) := by
  have hle := List.pairwise_mergeSort' (· ≤ ·)
    (((fs.entriesAt d).map Prod.fst).filter (!isIgnored ignore ·))
  have hnd : (shownNames fs ignore d).Nodup :=
    (List.mergeSort_perm ..).nodup_iff.2 ((nodup_entriesAt hfs d).filter _)
  exact hle.imp₂ (fun _ _ => lt_of_le_of_ne) hnd

namespace SameIn
variable {l : Location} (h : SameIn fs fs' ignore d l)

theorem symm (h : SameIn fs fs' ignore d l) : SameIn fs' fs ignore d l where
  lookup := h.lookup'
  lookup' := h.lookup
  noLink := h.noLink'
  noLink' := h.noLink
  entry n hn := by
    rcases h.entry n hn with hsame | ⟨hpage, hfile, hfile', hlong⟩
    · exact .inl hsame.symm
    · exact .inr ⟨hpage, hfile', hfile, fun hn => (hlong hn).symm⟩

include h

theorem mem_entriesAt (hfs : fs.isProper = true) {e : Entry} :
    (n, e) ∈ fs.entriesAt d ↔ fs.entryAt? (l ++ [n]) = some e := by
  obtain ⟨es, hd⟩ := h.lookup
  exact mem_entriesAt_of_lookup hfs hd

theorem mem_shownNames (hfs : fs.isProper = true) : n ∈ shownNames fs ignore d ↔
    isIgnored ignore n = false ∧ ∃ e, fs.entryAt? (l ++ [n]) = some e := by
  simp only [shownNames, List.mem_mergeSort, List.mem_filter, List.mem_map, Bool.not_eq_true']
  constructor
  · rintro ⟨⟨⟨n, e⟩, hm, rfl⟩, hi⟩
    exact ⟨hi, e, (h.mem_entriesAt hfs).1 hm⟩
  · rintro ⟨hi, e, he⟩
    exact ⟨⟨(n, e), (h.mem_entriesAt hfs).2 he, rfl⟩, hi⟩

/-- The path of an entry leads to this entry, unless it is too long. -/
theorem lookup_child (hfs : fs.isProper = true) {e : Entry}
    (he : fs.entryAt? (l ++ [n]) = some e) :
    fs.lookup (d.child n) = if isTooLong d n then .error .nameTooLong else .ok (l ++ [n], e) := by
  obtain ⟨es, hd⟩ := h.lookup
  have hes := lookup_of_entryAt?_child (entryAt?_of_lookup hd) he
  have hn := ((Entry.isProper_directory.1 (fs.isProper_of_lookup hfs hd)).2 n e
    (Entry.mem_of_lookup hes)).1
  exact lookup_child_eq hd hes hn fun t ht => h.noLink n t (ht ▸ he)

/-- What is not a page that could be looked up is in both or in none. -/
theorem isSome_eq_of_isKept (hi : isIgnored ignore n = false) (hk : isKept (d.child n) = true) :
    (fs.entryAt? (l ++ [n])).isSome = (fs'.entryAt? (l ++ [n])).isSome := by
  rcases h.entry n hi with hsame | ⟨hpage, -, -, hlong⟩
  · rw [← Option.isSome_map (f := Entry.bare), hsame, Option.isSome_map]
  · rw [isKept_child, hpage] at hk
    exact hlong hk

theorem same_of_isKept (hi : isIgnored ignore n = false) (hk : isKept (d.child n) = true)
    (hlong : isTooLong d n = false) :
    (fs.entryAt? (l ++ [n])).map Entry.bare = (fs'.entryAt? (l ++ [n])).map Entry.bare := by
  rcases h.entry n hi with hsame | ⟨hpage, -⟩
  · exact hsame
  · rw [isKept_child, hpage, hlong] at hk
    cases hk

section
variable (hfs : fs.isProper = true) (hfs' : fs'.isProper = true)
include hfs hfs'

theorem mem_shownNames_of_isKept (hn : n ∈ shownNames fs ignore d)
    (hk : isKept (d.child n) = true) : n ∈ shownNames fs' ignore d := by
  obtain ⟨hi, e, he⟩ := (h.mem_shownNames hfs).1 hn
  have hsome := h.isSome_eq_of_isKept hi hk
  rw [he, eq_comm] at hsome
  exact (h.symm.mem_shownNames hfs').2 ⟨hi, Option.isSome_iff_exists.1 hsome⟩

theorem filter_shownNames : (shownNames fs ignore d).filter (fun n => isKept (d.child n)) =
    (shownNames fs' ignore d).filter (fun n => isKept (d.child n)) := by
  refine eq_of_pairwise_lt ((pairwise_shownNames hfs d).filter _)
    ((pairwise_shownNames hfs' d).filter _) fun n => ?_
  rw [List.mem_filter, List.mem_filter]
  constructor
  · exact fun ⟨hn, hk⟩ => ⟨h.mem_shownNames_of_isKept hfs hfs' hn hk, hk⟩
  · exact fun ⟨hn, hk⟩ => ⟨h.symm.mem_shownNames_of_isKept hfs' hfs hn hk, hk⟩

theorem lookup_eq_of_isKept (hn : n ∈ shownNames fs ignore d) (hk : isKept (d.child n) = true) :
    bareOf (fs.lookup (d.child n)) = bareOf (fs'.lookup (d.child n)) := by
  obtain ⟨hi, e, he⟩ := (h.mem_shownNames hfs).1 hn
  obtain ⟨-, e', he'⟩ := (h.symm.mem_shownNames hfs').1 (h.mem_shownNames_of_isKept hfs hfs' hn hk)
  rw [h.lookup_child hfs he, h.symm.lookup_child hfs' he']
  cases hlong : isTooLong d n with
  | true => rfl
  | false =>
    have hsame := h.same_of_isKept hi hk hlong
    rw [he, he', Option.map_some, Option.map_some, Option.some.injEq] at hsame
    simp [bareOf, Except.map, hsame]

omit hfs' in
/-- The source of a directory does not depend on the pages in it that can be looked up. -/
theorem sourceAt_eq_filter : sourceAt fs ignore d =
    ((((shownNames fs ignore d).filter fun n => isKept (d.child n)).map d.child).filterM
      fun q => fs.leadsTo Entry.isFile q).map (sourceOf fs) := by
  have hkeep : ∀ p, isPage p.name = false → isKept p = true := by
    intro p hp
    rw [isKept, hp]
    rfl
  have hdropped : ∀ q ∈ (shownNames fs ignore d).map d.child, isKept q = false →
      ∃ b, fs.leadsTo Entry.isFile q = .ok b := by
    intro q hq hk
    obtain ⟨n, hn, rfl⟩ := List.mem_map.1 hq
    obtain ⟨-, e, he⟩ := (h.mem_shownNames hfs).1 hn
    rw [isKept_child, Bool.or_eq_false_iff] at hk
    rw [leadsTo, h.lookup_child hfs he, hk.2]
    exact ⟨e.isFile, rfl⟩
  have hfilter : ((shownNames fs ignore d).filter fun n => isKept (d.child n)).map d.child =
      ((shownNames fs ignore d).map d.child).filter isKept := by
    rw [List.filter_map]
    rfl
  rw [hfilter, filterM_filter hdropped, sourceAt, filesAt, ← shownNames]
  cases ((shownNames fs ignore d).map d.child).filterM fun q => fs.leadsTo Entry.isFile q with
  | error f => rfl
  | ok files =>
    show Except.ok _ = Except.ok _
    rw [sourceOf_filter hkeep]

theorem sourceAt_eq : sourceAt fs ignore d = sourceAt fs' ignore d := by
  rw [h.sourceAt_eq_filter hfs, h.symm.sourceAt_eq_filter hfs', ← h.filter_shownNames hfs hfs']
  have hsame : ∀ q ∈ ((shownNames fs ignore d).filter fun n => isKept (d.child n)).map d.child,
      bareOf (fs.lookup q) = bareOf (fs'.lookup q) := by
    intro q hq
    obtain ⟨n, hn, rfl⟩ := List.mem_map.1 hq
    obtain ⟨hn, hk⟩ := List.mem_filter.1 hn
    exact h.lookup_eq_of_isKept hfs hfs' hn hk
  rw [← filterM_congr fun q hq => leadsTo_isFile_eq (hsame q hq)]
  cases hfiles : (((shownNames fs ignore d).filter fun n => isKept (d.child n)).map
      d.child).filterM fun q => fs.leadsTo Entry.isFile q with
  | error f => rfl
  | ok files =>
    show Except.ok _ = Except.ok _
    rw [sourceOf_congr fun q hq => read_eq (hsame q (mem_of_filterM hfiles hq))]

theorem hasDirectory (hn : HasDirectory fs ignore d n) : HasDirectory fs' ignore d n := by
  obtain ⟨es, hm, hi⟩ := hn
  have he := (h.mem_entriesAt hfs).1 hm
  rcases h.entry n hi with hsame | ⟨-, hfile, -⟩
  · rw [he, Option.map_some] at hsame
    obtain ⟨e', he', hbare⟩ := Option.map_eq_some_iff.1 hsame.symm
    obtain ⟨es', rfl⟩ := Entry.bare_eq_directory.1 hbare
    exact ⟨es', (h.symm.mem_entriesAt hfs').2 he', hi⟩
  · cases hfile _ he

omit hfs' in
theorem lookup_directory (hn : HasDirectory fs ignore d n) (hlong : isTooLong d n = false) :
    ∃ es, fs.lookup (d.child n) = .ok (l ++ [n], .directory es) := by
  obtain ⟨es, hm, -⟩ := hn
  have hd := h.lookup_child hfs ((h.mem_entriesAt hfs).1 hm)
  rw [hlong] at hd
  exact ⟨es, hd⟩

omit hfs' in
theorem isTooLong_of_clear (hc : Clear fs ignore d) (hn : HasDirectory fs ignore d n) :
    isTooLong d n = false := by
  obtain ⟨es, hm, hi⟩ := hn
  have hd := h.lookup_child hfs ((h.mem_entriesAt hfs).1 hm)
  rw [← Bool.not_eq_true]
  intro hlong
  rw [if_pos hlong] at hd
  exact hc n _ hm hi hd

end
end SameIn

/-! ### Locations -/

/-- That `V` holds of every location that is gone through, and two file systems hold the same in the
directories there. -/
structure SameBelow (fs fs' : FileSystem) (ignore : List String) (root : Path)
    (V : Location → Prop) : Prop where
  next : ∀ l n, V l → isIgnored ignore n = false → V (l ++ [n])
  sameIn : ∀ d l, Reached fs ignore root d → V l → (∃ es, fs.lookup d = .ok (l, .directory es)) →
    (∃ es, fs'.lookup d = .ok (l, .directory es)) → SameIn fs fs' ignore d l

/-- That a path that is reached leads to a directory at one location in both file systems. -/
def ReachedAt (fs fs' : FileSystem) (ignore : List String) (root : Path) (V : Location → Prop)
    (d : Path) : Prop :=
  Reached fs ignore root d ∧ ∃ l, V l ∧ (∃ es, fs.lookup d = .ok (l, .directory es)) ∧
    ∃ es, fs'.lookup d = .ok (l, .directory es)

theorem SameBelow.agree {root : Path} {V : Location → Prop} (h : SameBelow fs fs' ignore root V)
    (hfs : fs.isProper = true) (hfs' : fs'.isProper = true) :
    Agree fs fs' ignore (ReachedAt fs fs' ignore root V) where
  source d := by
    rintro ⟨hd, l, hV, hl, hl'⟩
    exact (h.sameIn d l hd hV hl hl').sourceAt_eq hfs hfs'
  directory d := by
    rintro ⟨hd, l, hV, hl, hl'⟩ n
    have hsame := h.sameIn d l hd hV hl hl'
    exact ⟨hsame.hasDirectory hfs hfs', hsame.symm.hasDirectory hfs' hfs⟩
  child d := by
    rintro ⟨hd, l, hV, hl, hl'⟩ hc n hn
    have hsame := h.sameIn d l hd hV hl hl'
    have hlong := hsame.isTooLong_of_clear hfs hc hn
    have hn' := hsame.hasDirectory hfs hfs' hn
    have hi : isIgnored ignore n = false := hn.elim fun _ hx => hx.2
    exact ⟨hd.child hn, l ++ [n], h.next l n hV hi, hsame.lookup_directory hfs hn hlong,
      hsame.symm.lookup_directory hfs' hn' hlong⟩

end Index
end DocTree
