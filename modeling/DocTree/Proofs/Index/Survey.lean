import Mathlib
import DocTree.Proofs.Except
import DocTree.Proofs.FileSystem
import DocTree.Proofs.Index.Site
import DocTree.Proofs.Path

/-!
# What a survey finds

`Reached`, `filesIn` and `Clear` say, by looking up paths, which directories an index goes through,
which files it sees in one, and where a name is too long to be looked up. A survey goes through the
entries themselves. `survey_induct` ties the two: the site of a directory holds, by name, the sites
of the directories in it that are not passed over, and its own source is chosen from its files.
-/

namespace DocTree

/-- What holds of an entry if it holds of those in it holds of all entries. -/
@[elab_as_elim, induction_eliminator]
theorem Entry.induct {motive : Entry → Prop} (file : ∀ bs, motive (.file bs))
    (link : ∀ t, motive (.link t))
    (directory : ∀ es, (∀ x ∈ es, motive x.2) → motive (.directory es)) : ∀ e, motive e
  | .file bs => file bs
  | .link t => link t
  | .directory es => directory es fun (_, e) _ => induct file link directory e
decreasing_by
  have := List.sizeOf_lt_of_mem ‹_ ∈ es›
  simp_wf
  simp only [Prod.mk.sizeOf_spec] at this
  omega

namespace FileSystem

/-- What the directory at a path holds; nothing if the path leads to no directory. -/
def entriesAt (fs : FileSystem) (p : Path) : List (String × Entry) :=
  match fs.lookup p with
  | .ok (_, e) => e.children
  | .error _ => []

/-- Whether a path leads to a file. -/
def hasFile (fs : FileSystem) (p : Path) : Bool :=
  match fs.lookup p with
  | .ok (_, e) => e.isFile
  | .error _ => false

theorem hasFile_iff {fs : FileSystem} {p : Path} :
    fs.hasFile p = true ↔ ∃ l bs, fs.lookup p = .ok (l, .file bs) := by
  unfold hasFile
  cases hp : fs.lookup p with
  | error f => simp
  | ok r =>
    obtain ⟨l, e⟩ := r
    cases e <;> simp [Entry.isFile]

end FileSystem

namespace Index

section
variable (fs : FileSystem) (ignore : List String)

/-- That the directory at `d` holds a directory `n` that is not passed over; a link is none. -/
def HasDirectory (d : Path) (n : String) : Prop :=
  ∃ es, (n, .directory es) ∈ fs.entriesAt d ∧ isIgnored ignore n = false

/-- That a directory is reached from `root` through directories that are not passed over. -/
inductive Reached (root : Path) : Path → Prop
  | root : Reached root root
  | child {d : Path} {n : String} : Reached root d → HasDirectory fs ignore d n →
      Reached root (d.child n)

/-- The files in the directory at `d` that are not passed over, in the order of paths. -/
def filesIn (d : Path) : List Path :=
  (((((fs.entriesAt d).map Prod.fst).filter (!isIgnored ignore ·)).map d.child).filter
    fs.hasFile).mergeSort Path.le

/-- That no name in the directory at `d`, of those not passed over, is too long to be looked up. -/
def Clear (d : Path) : Prop :=
  ∀ n e, (n, e) ∈ fs.entriesAt d → isIgnored ignore n = false →
    fs.lookup (d.child n) ≠ .error .nameTooLong

end

section
variable {fs : FileSystem} {ignore : List String}

namespace Reached
variable {root d : Path} {n : String}

theorem atOrAbove (h : Reached fs ignore root d) : root.AtOrAbove d := by
  induction h with
  | root => exact .refl _
  | child _ _ ih => exact ih.trans (.child ..)

theorem of_child (hn : HasDirectory fs ignore root n) (h : Reached fs ignore (root.child n) d) :
    Reached fs ignore root d := by
  induction h with
  | root => exact .child .root hn
  | child _ hm ih => exact .child ih hm

/-- A directory that is reached is the root or reached from a directory in it. -/
theorem eq_or_child (h : Reached fs ignore root d) :
    d = root ∨ ∃ n, HasDirectory fs ignore root n ∧ Reached fs ignore (root.child n) d := by
  induction h with
  | root => exact .inl rfl
  | @child d m _ hm ih =>
    rcases ih with rfl | ⟨n, hn, h⟩
    · exact .inr ⟨m, hm, .root⟩
    · exact .inr ⟨n, hn, .child h hm⟩

end Reached

/-! ### The files in a directory -/

theorem leadsTo_isFile {p : Path} (h : fs.lookup p ≠ .error .nameTooLong) :
    fs.leadsTo Entry.isFile p = .ok (fs.hasFile p) := by
  unfold FileSystem.leadsTo FileSystem.hasFile
  cases hp : fs.lookup p with
  | ok r => rfl
  | error f =>
    cases f with
    | nameTooLong => exact absurd hp h
    | _ => rfl

theorem filter_mergeSort (p : String → Bool) (ns : List String) :
    ns.mergeSort.filter p = (ns.filter p).mergeSort := by
  have hperm : (ns.mergeSort.filter p).Perm (ns.filter p).mergeSort :=
    ((List.mergeSort_perm ..).filter p).trans (List.mergeSort_perm ..).symm
  exact hperm.eq_of_pairwise' ((List.pairwise_mergeSort' (· ≤ ·) ns).filter p)
    (List.pairwise_mergeSort' (· ≤ ·) _)

theorem filter_map_mergeSort (d : Path) (ns : List String) :
    (ns.mergeSort.map d.child).filter fs.hasFile =
      ((ns.map d.child).filter fs.hasFile).mergeSort Path.le := by
  rw [List.filter_map, List.filter_map, filter_mergeSort]
  exact List.map_mergeSort fun m _ n _ => (Path.le_child d m n).symm

theorem filesAt_of_clear {d : Path} (h : Clear fs ignore d) :
    filesAt fs ignore d ((fs.entriesAt d).map Prod.fst) = .ok (filesIn fs ignore d) := by
  have hlong : ∀ p ∈ (((fs.entriesAt d).map Prod.fst).filter (!isIgnored ignore ·)).mergeSort.map
      d.child, fs.lookup p ≠ .error .nameTooLong := by
    intro p hp
    obtain ⟨n, hn, rfl⟩ := List.mem_map.1 hp
    obtain ⟨hn, hi⟩ := List.mem_filter.1 (List.mem_mergeSort.1 hn)
    obtain ⟨⟨n, e⟩, hx, rfl⟩ := List.mem_map.1 hn
    exact h n e hx (by simpa using hi)
  rw [filesIn, ← filter_map_mergeSort, filesAt]
  exact filterM_eq_filter fun p hp => leadsTo_isFile (hlong p hp)

theorem filesAt_of_not_clear {d : Path} (h : ¬ Clear fs ignore d) :
    ∃ f, filesAt fs ignore d ((fs.entriesAt d).map Prod.fst) = .error f := by
  simp only [Clear, not_forall] at h
  obtain ⟨n, e, hx, hi, hlong⟩ := h
  have hmem : d.child n ∈ (((fs.entriesAt d).map Prod.fst).filter
      (!isIgnored ignore ·)).mergeSort.map d.child := by
    refine List.mem_map_of_mem (List.mem_mergeSort.2 (List.mem_filter.2 ⟨?_, by simp [hi]⟩))
    exact List.mem_map_of_mem hx
  refine exists_filterM_eq_error (e := ⟨.nameTooLong, (d.child n).text⟩) hmem ?_
  rw [FileSystem.leadsTo, not_not.1 hlong]

theorem not_clear_of_filesAt {d : Path} {f : FileFault}
    (h : filesAt fs ignore d ((fs.entriesAt d).map Prod.fst) = .error f) : ¬ Clear fs ignore d := by
  intro hc
  rw [filesAt_of_clear hc] at h
  cases h

/-! ### The sites in a directory -/

theorem mem_surveyAll {d : Path} {es : List (String × Entry)} {n : String} {s : Site} :
    (n, s) ∈ surveyAll fs ignore d es ↔ ∃ e, (n, e) ∈ es ∧ e.isDirectory = true ∧
      isIgnored ignore n = false ∧ s = survey fs ignore (d.child n) e := by
  induction es with
  | nil => simp [surveyAll]
  | cons x es ih =>
    obtain ⟨m, c⟩ := x
    rw [surveyAll]
    split
    · rename_i h
      rw [Bool.and_eq_true, Bool.not_eq_true'] at h
      rw [List.mem_cons, ih]
      constructor
      · rintro (h' | ⟨e, he, h'⟩)
        · cases h'
          exact ⟨c, List.mem_cons_self .., h.1, h.2, rfl⟩
        · exact ⟨e, List.mem_cons_of_mem _ he, h'⟩
      · rintro ⟨e, he, hd, hi, rfl⟩
        rcases List.mem_cons.1 he with he | he
        · cases he
          exact .inl rfl
        · exact .inr ⟨e, he, hd, hi, rfl⟩
    · rename_i h
      rw [ih]
      refine ⟨fun ⟨e, he, h'⟩ => ⟨e, List.mem_cons_of_mem _ he, h'⟩, fun ⟨e, he, hd, hi, hs⟩ => ?_⟩
      rcases List.mem_cons.1 he with he | he
      · cases he
        exact absurd (by simp [hd, hi]) h
      · exact ⟨e, he, hd, hi, hs⟩

theorem map_fst_surveyAll (d : Path) (es : List (String × Entry)) :
    ((surveyAll fs ignore d es).map Prod.fst).Sublist (es.map Prod.fst) := by
  induction es with
  | nil => exact .slnil
  | cons x es ih =>
    obtain ⟨m, c⟩ := x
    rw [surveyAll]
    split
    · exact ih.cons_cons m
    · exact ih.cons m

theorem pairwise_sites {d : Path} {es : List (String × Entry)} (hn : (es.map Prod.fst).Nodup) :
    ((surveyAll fs ignore d es).mergeSort goesFirst).Pairwise fun a b => a.1 < b.1 := by
  have hle : ((surveyAll fs ignore d es).mergeSort goesFirst).Pairwise
      fun a b => goesFirst a b = true := by
    refine List.pairwise_mergeSort ?_ ?_ _
    · simp only [goesFirst, decide_eq_true_eq]
      exact fun a b c => String.le_trans
    · simp only [goesFirst, Bool.or_eq_true, decide_eq_true_eq]
      exact fun a b => String.le_total a.1 b.1
  have hnd : (((surveyAll fs ignore d es).mergeSort goesFirst).map Prod.fst).Nodup := by
    refine (((List.mergeSort_perm _ _).map Prod.fst).nodup_iff).2 ?_
    exact (map_fst_surveyAll d es).nodup hn
  have hne := List.pairwise_map.1 hnd
  refine hle.imp₂ (fun a b hab hne => ?_) hne
  simp only [goesFirst, decide_eq_true_eq] at hab
  exact String.not_le.1 fun hba => hne (String.le_antisymm hab hba)

/-- What a survey finds at a directory that holds nothing but files, none of which is passed over. -/
theorem survey_of_files {d : Path} {es : List (String × Entry)}
    (h : ∀ x ∈ es, isIgnored ignore x.1 = false ∧ x.2.isDirectory = false ∧
      fs.leadsTo Entry.isFile (d.child x.1) = .ok true) :
    survey fs ignore d (.directory es) =
      .directory [] (sourceOf fs ((es.map Prod.fst).mergeSort.map d.child)) := by
  have hshown : (es.map Prod.fst).filter (!isIgnored ignore ·) = es.map Prod.fst := by
    refine List.filter_eq_self.2 fun n hn => ?_
    obtain ⟨x, hx, rfl⟩ := List.mem_map.1 hn
    rw [(h x hx).1, Bool.not_false]
  have hfiles : filesAt fs ignore d (es.map Prod.fst) =
      .ok ((es.map Prod.fst).mergeSort.map d.child) := by
    rw [filesAt, hshown, filterM_eq_filter (p := fun _ => true), List.filter_true]
    intro p hp
    obtain ⟨n, hn, rfl⟩ := List.mem_map.1 hp
    obtain ⟨x, hx, rfl⟩ := List.mem_map.1 (List.mem_mergeSort.1 hn)
    exact (h x hx).2.2
  have hnone : surveyAll fs ignore d es = [] := by
    refine List.eq_nil_iff_forall_not_mem.2 fun ⟨n, s⟩ hs => ?_
    obtain ⟨e, he, hdir, -⟩ := mem_surveyAll.1 hs
    rw [(h (n, e) he).2.1] at hdir
    cases hdir
  rw [survey, hfiles, hnone, List.mergeSort_nil, List.map_nil]

/-- What holds of a directory that cannot be looked through, and of a directory if it holds of those
in it that are not passed over, holds of what a survey of a proper file system finds. -/
theorem survey_induct {motive : Path → Site → Prop}
    (failed : ∀ d f, filesAt fs ignore d ((fs.entriesAt d).map Prod.fst) = .error f →
      motive d (.failed f))
    (directory : ∀ d (subs : List (String × Site)), Clear fs ignore d →
      subs.Pairwise (fun a b => a.1 < b.1) →
      (∀ n, HasDirectory fs ignore d n ↔ ∃ s, (n, s) ∈ subs) →
      (∀ n s, (n, s) ∈ subs → motive (d.child n) s) →
      motive d (.directory (subs.map Prod.snd) (sourceOf fs (filesIn fs ignore d)))) :
    ∀ e : Entry, e.isProper = true → e.isDirectory = true → ∀ d l, fs.lookup d = .ok (l, e) →
      motive d (survey fs ignore d e) := by
  intro e
  induction e with
  | file bs => exact fun _ h => absurd h (by simp [Entry.isDirectory])
  | link t => exact fun _ h => absurd h (by simp [Entry.isDirectory])
  | directory es ih =>
    intro hp _ d l hd
    obtain ⟨hnd, hproper⟩ := Entry.isProper_directory.1 hp
    have hes : fs.entriesAt d = es := by simp [FileSystem.entriesAt, hd, Entry.children]
    rcases Classical.em (Clear fs ignore d) with hc | hc
    · have hfiles := filesAt_of_clear hc
      rw [hes] at hfiles
      simp only [survey, hfiles]
      refine directory d _ hc (pairwise_sites hnd) (fun n => ?_) fun n s hs => ?_
      · simp only [List.mem_mergeSort, mem_surveyAll, HasDirectory, hes]
        constructor
        · rintro ⟨ds, hx, hi⟩
          exact ⟨_, _, hx, rfl, hi, rfl⟩
        · rintro ⟨-, e, hx, he, hi, -⟩
          cases e with
          | directory ds => exact ⟨ds, hx, hi⟩
          | file bs => cases he
          | link t => cases he
      · obtain ⟨e, hx, he, hi, rfl⟩ := mem_surveyAll.1 (List.mem_mergeSort.1 hs)
        obtain ⟨hname, he'⟩ := hproper n e hx
        refine ih (n, e) hx he' he (d.child n) (l ++ [n]) ?_
        refine fs.lookup_child hd (Entry.lookup_of_mem hnd hx) hname ?_ (hc n e (hes ▸ hx) hi)
        rintro t rfl
        cases he
    · obtain ⟨f, hf⟩ := filesAt_of_not_clear hc
      have hfail := failed d f hf
      rw [hes] at hf
      simp only [survey, hf]
      exact hfail

/-! ### The site of the root -/

theorem siteAt_eq_ok {st : Settings} {root : Path} {s : Site} (h : siteAt fs st root = .ok s) :
    ∃ l e, fs.lookup root = .ok (l, e) ∧ e.isDirectory = true ∧
      s = survey fs st.ignore root e := by
  unfold siteAt at h
  split at h
  · cases h
  · cases h
  · rename_i hd
    split at h
    · rename_i l e hl
      cases h
      refine ⟨l, e, hl, ?_, rfl⟩
      simpa [FileSystem.leadsTo, hl] using hd
    · cases h

theorem siteAt_of_lookup {st : Settings} {root : Path} {l : Location} {e : Entry}
    (h : fs.lookup root = .ok (l, e)) (he : e.isDirectory = true) :
    siteAt fs st root = .ok (survey fs st.ignore root e) := by
  simp only [siteAt, FileSystem.leadsTo, h, he]

section
variable {st : Settings} {root : Path} {s : Site}

theorem siteAt_induct {motive : Path → Site → Prop} (hfs : fs.isProper = true)
    (failed : ∀ d f, filesAt fs st.ignore d ((fs.entriesAt d).map Prod.fst) = .error f →
      motive d (.failed f))
    (directory : ∀ d (subs : List (String × Site)), Clear fs st.ignore d →
      subs.Pairwise (fun a b => a.1 < b.1) →
      (∀ n, HasDirectory fs st.ignore d n ↔ ∃ s, (n, s) ∈ subs) →
      (∀ n s, (n, s) ∈ subs → motive (d.child n) s) →
      motive d (.directory (subs.map Prod.snd) (sourceOf fs (filesIn fs st.ignore d))))
    (h : siteAt fs st root = .ok s) : motive root s := by
  obtain ⟨l, e, hl, he, rfl⟩ := siteAt_eq_ok h
  exact survey_induct failed directory e (fs.isProper_of_lookup hfs hl) he root l hl

/-- A survey meets no fault just if no name in a directory that is reached is too long. -/
theorem failures_eq_nil_iff (hfs : fs.isProper = true) (h : siteAt fs st root = .ok s) :
    s.failures = [] ↔ ∀ d, Reached fs st.ignore root d → Clear fs st.ignore d := by
  refine siteAt_induct (motive := fun root s => s.failures = [] ↔
    ∀ d, Reached fs st.ignore root d → Clear fs st.ignore d) hfs ?_ ?_ h
  · intro d f hf
    exact iff_of_false (by simp [Site.failures]) fun h => not_clear_of_filesAt hf (h d .root)
  · intro d subs hc _ hsubs ih
    simp only [Site.failures, List.eq_nil_iff_forall_not_mem, mem_failuresOf, List.mem_map] at ih ⊢
    constructor
    · intro h d' hd'
      rcases hd'.eq_or_child with rfl | ⟨n, hn, hd'⟩
      · exact hc
      · obtain ⟨s, hs⟩ := (hsubs n).1 hn
        exact (ih n s hs).1 (fun f hf => h f ⟨s, ⟨(n, s), hs, rfl⟩, hf⟩) d' hd'
    · rintro h f ⟨-, ⟨⟨n, s⟩, hs, rfl⟩, hf⟩
      exact (ih n s hs).2 (fun d' hd' => h d' (.of_child ((hsubs n).2 ⟨s, hs⟩) hd')) f hf

/-- The sources in the site of a directory are those of the directories reached from it. -/
theorem mem_sources_iff (hfs : fs.isProper = true) (h : siteAt fs st root = .ok s) {x : Source} :
    s.failures = [] → (x ∈ s.sources ↔
      ∃ d, Reached fs st.ignore root d ∧ sourceOf fs (filesIn fs st.ignore d) = some x) := by
  refine siteAt_induct (motive := fun root s => s.failures = [] → (x ∈ s.sources ↔
    ∃ d, Reached fs st.ignore root d ∧ sourceOf fs (filesIn fs st.ignore d) = some x)) hfs ?_ ?_ h
  · exact fun d f _ h => absurd h (by simp [Site.failures])
  · intro d subs _ _ hsubs ih hf
    simp only [Site.sources, List.mem_append, Option.mem_toList, mem_sourcesOf]
    constructor
    · rintro (hx | ⟨s, hs, hx⟩)
      · exact ⟨d, .root, hx⟩
      · obtain ⟨⟨n, s⟩, hns, rfl⟩ := List.mem_map.1 hs
        obtain ⟨d', hd', hx⟩ := (ih n s hns (failures_eq_nil_of_mem hf hs)).1 hx
        exact ⟨d', .of_child ((hsubs n).2 ⟨s, hns⟩) hd', hx⟩
    · rintro ⟨d', hd', hx⟩
      rcases hd'.eq_or_child with rfl | ⟨n, hn, hd'⟩
      · exact .inl hx
      · obtain ⟨s, hns⟩ := (hsubs n).1 hn
        have hs : s ∈ subs.map Prod.snd := List.mem_map_of_mem hns
        exact .inr ⟨s, hs, (ih n s hns (failures_eq_nil_of_mem hf hs)).2 ⟨d', hd', hx⟩⟩

end

end

/-! ### An example -/

/-- A directory with a Markdown file of no known type, and a tag in a directory below it. -/
def sample (a b : List UInt8) : FileSystem :=
  ⟨[("a.md", .file a), ("c", .directory [("tag.md", .file b)])], []⟩

/-- The sources that the example holds. -/
def sampleSite (a b : List UInt8) : Site :=
  .directory [.directory [] (some ⟨⟨.relative, ["c", "tag.md"]⟩, [], .ok b⟩)]
    (some ⟨⟨.relative, ["a.md"]⟩, [], .ok a⟩)

section
variable (a b : List UInt8)

theorem lookup_sample {ns : List String} (hnull : FileSystem.hasNull ⟨.relative, ns⟩ = false)
    (hsize : ¬ FileSystem.pathLimit ≤ (Path.text ⟨.relative, ns⟩).utf8ByteSize) :
    (sample a b).lookup ⟨.relative, ns⟩ = (sample a b).follow FileSystem.linkLimit [] ns := by
  rw [FileSystem.lookup, hnull, if_neg (by decide), if_neg hsize]
  rfl

theorem follow_sample (k : Nat) :
    (sample a b).follow k [] [] = .ok ([], (sample a b).root) ∧
    (sample a b).follow k [] ["a.md"] = .ok (["a.md"], .file a) ∧
    (sample a b).follow k [] ["c"] = .ok (["c"], .directory [("tag.md", .file b)]) ∧
    (sample a b).follow k [] ["c", "tag.md"] = .ok (["c", "tag.md"], .file b) := by
  have hsize : ∀ n ∈ ["a.md", "c", "tag.md"], ¬ FileSystem.nameLimit < n.utf8ByteSize := by
    decide +kernel
  simp only [List.forall_mem_cons] at hsize
  simp [FileSystem.follow, FileSystem.entryAt?, Entry.at?, Entry.children, FileSystem.root,
    sample, List.lookup, hsize]

theorem read_sample : (sample a b).read (Path.parse "a.md") = .ok a ∧
    (sample a b).read (Path.parse "c/tag.md") = .ok b := by
  obtain ⟨-, hmd, -, htag⟩ := follow_sample a b FileSystem.linkLimit
  rw [← lookup_sample a b (by decide +kernel) (by decide +kernel)] at hmd htag
  have hparse : Path.parse "a.md" = ⟨.relative, ["a.md"]⟩ := by decide +kernel
  have hparse' : Path.parse "c/tag.md" = ⟨.relative, ["c", "tag.md"]⟩ := by decide +kernel
  rw [FileSystem.read, hparse, hmd, FileSystem.read, hparse', htag]
  exact ⟨rfl, rfl⟩

theorem siteAt_sample (st : Settings) (h : st.ignore = []) :
    siteAt (sample a b) st (Path.parse ".") = .ok (sampleSite a b) := by
  obtain ⟨hroot, hmd, hdir, htag⟩ := follow_sample a b FileSystem.linkLimit
  rw [← lookup_sample a b (by decide +kernel) (by decide +kernel)] at hroot hmd hdir htag
  have hnames : ["a.md", "c"].mergeSort = ["a.md", "c"] :=
    List.mergeSort_of_pairwise (by decide +kernel)
  have hignore : ∀ n ∈ ["a.md", "c", "tag.md"], isIgnored [] n = false := by decide +kernel
  have hchoose : ∀ p ∈ [["a.md"], ["c", "tag.md"]],
      SourceFile.choose? [⟨.relative, p⟩] = some ⟨.relative, p⟩ := by decide +kernel
  simp only [List.forall_mem_cons] at hignore hchoose
  have hfiles : filesAt (sample a b) [] ⟨.relative, []⟩ ["a.md", "c"] =
      .ok [⟨.relative, ["a.md"]⟩] := by
    simp only [filesAt, List.filter_cons, hignore, hnames, Bool.not_false, if_true,
      List.filter_nil, List.map_cons, List.map_nil, List.filterM, List.filterAuxM, Path.child,
      FileSystem.leadsTo, List.nil_append, hmd, hdir, Entry.isFile]
    rfl
  have htags : filesAt (sample a b) [] ⟨.relative, ["c"]⟩ ["tag.md"] =
      .ok [⟨.relative, ["c", "tag.md"]⟩] := by
    simp only [filesAt, List.filter_cons, hignore, Bool.not_false, if_true, List.filter_nil,
      List.mergeSort_singleton, List.map_cons, List.map_nil, List.filterM, List.filterAuxM,
      Path.child, FileSystem.leadsTo, List.singleton_append, htag, Entry.isFile]
    rfl
  have hparse : Path.parse "." = ⟨.relative, []⟩ := by decide +kernel
  have hsite : survey (sample a b) [] ⟨.relative, []⟩ (sample a b).root = sampleSite a b := by
    have hroot : (sample a b).root = .directory
        [("a.md", .file a), ("c", .directory [("tag.md", .file b)])] := rfl
    rw [hroot]
    simp [survey, surveyAll, Entry.isDirectory, hignore, hfiles, htags, sourceOf, hchoose,
      furtherFiles, FileSystem.read, hmd, htag, Path.child, sampleSite]
  simp only [siteAt, FileSystem.leadsTo, hparse, hroot, h]
  exact congrArg Except.ok hsite

theorem topLevel_sample {st : Settings} (hi : st.ignore = []) (hu : st.skipUnknown = false)
    (hb : st.extractBlocks = false) : (topLevel (sample a b) st (Path.parse ".")).result =
      .ok [.node "a.md" [] [] [.node "c/tag.md" [] [] []]] := by
  have hmd : Path.text ⟨.relative, ["a.md"]⟩ = "a.md" := by decide +kernel
  have htag : Path.text ⟨.relative, ["c", "tag.md"]⟩ = "c/tag.md" := by decide +kernel
  refine topLevel_result_eq_ok.2 ⟨_, siteAt_sample a b st hi, ?_, rfl, by simp [Source.Stops, hb]⟩
  simp [sampleSite, Site.items, itemsOf, gather, Source.isDropped, Source.item, Source.blocks,
    Source.itemPath, hu, hb, hmd, htag]

end

end Index
end DocTree
