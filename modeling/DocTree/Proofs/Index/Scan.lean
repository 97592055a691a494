import Mathlib
import DocTree.Proofs.Index.Completion
import DocTree.Proofs.Index.Contents

/-!
# A scan from path to path

A survey goes through entries, which are a tree. A scan has paths only: it lists the directory at a
path, asks of each name what its path leads to, links followed, and goes down to the directories that
are not there by a link. So nothing but the test for links keeps it from going round in a circle.
`exists_scans`: a scan ends, whatever links there are, with fuel for each directory once, and it finds
what the survey finds. `topLevel_eq_scan` says so of an index, and that all items and files lie in
directories that are reached without links.
-/

namespace DocTree

namespace Entry

mutual

/-- How many directories there are at and below an entry. -/
def directoryCount : Entry → Nat
  | .directory es => directoryCountOf es + 1
  | _ => 0

def directoryCountOf : List (String × Entry) → Nat
  | [] => 0
  | (_, e) :: es => e.directoryCount + directoryCountOf es

end

theorem directoryCount_le_of_mem {n : String} {e : Entry} {es : List (String × Entry)}
    (h : (n, e) ∈ es) : e.directoryCount ≤ directoryCountOf es := by
  induction es with
  | nil => cases h
  | cons x es ih =>
    rw [directoryCountOf]
    rcases List.mem_cons.1 h with rfl | h
    · exact Nat.le_add_right ..
    · exact Nat.le_trans (ih h) (Nat.le_add_left ..)

theorem directoryCount_le_of_at? {l : Location} {e d : Entry} (h : e.at? l = some d) :
    d.directoryCount ≤ e.directoryCount := by
  induction l generalizing e with
  | nil =>
    cases h
    exact Nat.le_refl _
  | cons n l ih =>
    rw [at?] at h
    split at h
    · rename_i c hc
      cases e with
      | directory es =>
        have hle : c.directoryCount ≤ directoryCountOf es := directoryCount_le_of_mem (mem_of_lookup hc)
        exact Nat.le_succ_of_le (Nat.le_trans (ih h) hle)
      | file bs => cases hc
      | link t => cases hc
    · cases h

end Entry

/-- The path of what has these names below `p`. -/
def Path.join (p : Path) (ns : List String) : Path := { p with parts := p.parts ++ ns }

@[simp] theorem Path.join_nil (p : Path) : p.join [] = p := by simp [join]

theorem Path.join_child (p : Path) (n : String) (ns : List String) :
    (p.child n).join ns = p.join (n :: ns) := by
  simp [join, child]

namespace FileSystem
variable {fs : FileSystem}

/-- How many directories there are. -/
def directoryCount (fs : FileSystem) : Nat := fs.root.directoryCount

/-- Whether a link is at a path, whatever the link leads to. -/
def isLink (fs : FileSystem) (p : Path) : Bool :=
  match fs.lookup p.parent with
  | .ok (l, _) => match fs.entryAt? (l ++ [p.name]) with
    | some (.link _) => true
    | _ => false
  | .error _ => false

theorem isLink_child {d : Path} {l : Location} {e c : Entry} {n : String}
    (hd : fs.lookup d = .ok (l, c)) (he : fs.entryAt? (l ++ [n]) = some e) :
    fs.isLink (d.child n) = true ↔ ∃ t, e = .link t := by
  rw [isLink, Path.parent_child, Path.name_child, hd]
  simp only [he]
  cases e <;> simp

theorem directoryCount_le_of_lookup {p : Path} {l : Location} {e : Entry}
    (h : fs.lookup p = .ok (l, e)) : e.directoryCount ≤ fs.directoryCount :=
  Entry.directoryCount_le_of_at? (entryAt?_of_lookup h)

end FileSystem

namespace Index

/-! ### The scan -/

/-- What a scan finds at a directory, and the directories it goes into, in turn. -/
structure Scan where
  site : Site
  entered : List Path

/-- The paths, in a directory whose entries have these names, of the directories to go into. -/
def directoriesAt (fs : FileSystem) (ignore : List String) (p : Path) (names : List String) :
    Except FileFault (List Path) :=
  let paths := (names.filter (!isIgnored ignore ·)).mergeSort.map p.child
  paths.filterM fun q => do return (← fs.leadsTo Entry.isDirectory q) && !fs.isLink q

/-- A scan from the directory at a path on, unless it goes down further than `fuel`. -/
def scan (fs : FileSystem) (ignore : List String) : (fuel : Nat) → Path → Option Scan
  | 0, _ => none
  | fuel + 1, p =>
    let names := (fs.entriesAt p).map Prod.fst
    match filesAt fs ignore p names, directoriesAt fs ignore p names with
    | .error f, _ => some ⟨.failed f, [p]⟩
    | .ok _, .error f => some ⟨.failed f, [p]⟩
    | .ok files, .ok directories => do
      let below ← directories.mapM (scan fs ignore fuel)
      return ⟨.directory (below.map Scan.site) (sourceOf fs files),
        p :: below.flatMap Scan.entered⟩

/-- The index that a scan gives, with the directories it goes into. -/
def scanTopLevel (fs : FileSystem) (st : Settings) (fuel : Nat) (root : Path) :
    Option (Outcome (List ItemTree) × List Path) :=
  match fs.leadsTo Entry.isDirectory root with
  | .error f => some (⟨[], .error (.file f)⟩, [])
  | .ok false => some (⟨[], .error (.notDirectory root)⟩, [])
  | .ok true => do
    let r ← scan fs st.ignore fuel root
    return (.ofEvents (r.site.items st) (r.site.events st), r.entered)

/-! ### Counting sites -/

mutual

/-- How many directories are looked through for a site. -/
def Site.count : Site → Nat
  | .failed _ => 1
  | .directory below _ => countOf below + 1

def countOf : List Site → Nat
  | [] => 0
  | s :: ss => s.count + countOf ss

end

theorem countOf_eq_sum (ss : List Site) : countOf ss = (ss.map Site.count).sum := by
  induction ss with
  | nil => rfl
  | cons s ss ih => rw [countOf, ih, List.map_cons, List.sum_cons]

theorem count_le_of_mem {s : Site} {ss : List Site} (h : s ∈ ss) : s.count ≤ countOf ss := by
  rw [countOf_eq_sum]
  exact List.le_sum_of_mem (List.mem_map_of_mem h)

section
variable {fs : FileSystem} {ignore : List String} {d : Path} {n : String}

theorem count_survey_le (e : Entry) (he : e.isDirectory = true) (d : Path) :
    (survey fs ignore d e).count ≤ e.directoryCount := by
  induction e generalizing d with
  | file bs => cases he
  | link t => cases he
  | directory es ih =>
    have hall : countOf ((surveyAll fs ignore d es).map Prod.snd) ≤ Entry.directoryCountOf es := by
      clear he
      induction es with
      | nil => exact Nat.le_refl 0
      | cons x es ih' =>
        obtain ⟨n, c⟩ := x
        have hrest := ih' fun y hy => ih y (List.mem_cons_of_mem _ hy)
        rw [surveyAll, Entry.directoryCountOf]
        split
        · rename_i hc
          have hfirst := ih (n, c) (List.mem_cons_self ..) (Bool.and_eq_true_iff.1 hc).1 (d.child n)
          rw [List.map_cons, countOf]
          dsimp only at hfirst ⊢
          omega
        · omega
    -- the survey sorts what it finds, which changes no count
    have hperm : countOf (((surveyAll fs ignore d es).mergeSort goesFirst).map Prod.snd) =
        countOf ((surveyAll fs ignore d es).map Prod.snd) := by
      rw [countOf_eq_sum, countOf_eq_sum]
      exact (((List.mergeSort_perm _ _).map _).map _).sum_eq
    rw [survey, Entry.directoryCount]
    split
    · rw [Site.count]
      omega
    · rw [Site.count, hperm]
      omega

/-! ### What a scan meets in a directory -/

theorem isDirectory_and_not_isLink_iff (hfs : fs.isProper = true) (hc : Clear fs ignore d)
    (hn : n ∈ (fs.entriesAt d).map Prod.fst) (hi : isIgnored ignore n = false) :
    ∃ b, fs.leadsTo Entry.isDirectory (d.child n) = .ok b ∧
      ((b && !fs.isLink (d.child n)) = true ↔ HasDirectory fs ignore d n) := by
  obtain ⟨⟨n, e⟩, he, rfl⟩ := List.mem_map.1 hn
  obtain ⟨l, es, hd, hat⟩ := (FileSystem.mem_entriesAt hfs).1 he
  have hes := FileSystem.lookup_of_entryAt?_child (FileSystem.entryAt?_of_lookup hd) hat
  have hname := isEntryName_of_mem_entriesAt hfs he
  have hshort := hc n e he hi
  have hlink := FileSystem.isLink_child hd hat
  have hdirectory : HasDirectory fs ignore d n ↔ ∃ ds, e = .directory ds := by
    refine ⟨fun ⟨ds, hds, _⟩ => ⟨ds, ?_⟩, fun ⟨ds, hds⟩ => ⟨ds, hds ▸ he, hi⟩⟩
    obtain ⟨l', es', hd', hat'⟩ := (FileSystem.mem_entriesAt hfs).1 hds
    cases hd.symm.trans hd'
    exact Option.some.inj (hat.symm.trans hat')
  rw [hdirectory]
  cases e with
  | link t =>
    have hyes : fs.isLink (d.child n) = true := hlink.2 ⟨t, rfl⟩
    rw [hyes]
    unfold FileSystem.leadsTo
    split
    · exact ⟨_, rfl, by simp⟩
    · exact absurd ‹_› hshort
    · exact ⟨_, rfl, by simp⟩
  | file bs =>
    have hto := fs.lookup_child hd hes hname (by simp) hshort
    exact ⟨false, by rw [FileSystem.leadsTo, hto]; rfl, by simp⟩
  | directory ds =>
    have hto := fs.lookup_child hd hes hname (by simp) hshort
    have hno : fs.isLink (d.child n) = false := by
      rw [← Bool.not_eq_true, hlink]
      simp
    exact ⟨true, by rw [FileSystem.leadsTo, hto]; rfl, by simp [hno]⟩

/-- Where no name is too long, a scan goes into the directories that are there, in the order of
names. -/
theorem directoriesAt_eq (hfs : fs.isProper = true) (hc : Clear fs ignore d)
    {subs : List (String × Site)} (hnames : subs.Pairwise fun a b => a.1 < b.1)
    (hsubs : ∀ n, HasDirectory fs ignore d n ↔ ∃ s, (n, s) ∈ subs) :
    directoriesAt fs ignore d ((fs.entriesAt d).map Prod.fst) =
      .ok (subs.map fun x => d.child x.1) := by
  classical
  let names := ((fs.entriesAt d).map Prod.fst).filter (!isIgnored ignore ·)
  have hmem : ∀ n ∈ names.mergeSort, n ∈ (fs.entriesAt d).map Prod.fst ∧ isIgnored ignore n = false := by
    intro n hn
    obtain ⟨hn, hi⟩ := List.mem_filter.1 (List.mem_mergeSort.1 hn)
    exact ⟨hn, by simpa using hi⟩
  -- the scan sorts the names and then asks for directories, the survey the other way round
  have hfilter : (names.mergeSort.map d.child).filterM (fun q => do
      return (← fs.leadsTo Entry.isDirectory q) && !fs.isLink q) =
      .ok ((names.mergeSort.map d.child).filter fun q => decide (HasDirectory fs ignore d q.name)) := by
    refine filterM_eq_filter fun q hq => ?_
    obtain ⟨n, hn, rfl⟩ := List.mem_map.1 hq
    obtain ⟨b, hb, hiff⟩ := isDirectory_and_not_isLink_iff hfs hc (hmem n hn).1 (hmem n hn).2
    have hb' : (b && !fs.isLink (d.child n)) = decide (HasDirectory fs ignore d n) := by
      rw [Bool.eq_iff_iff, hiff, decide_eq_true_iff]
    rw [Path.name_child, hb, ← hb']
    rfl
  have hnodup : names.mergeSort.Nodup :=
    (List.mergeSort_perm _ _).nodup_iff.2 ((FileSystem.nodup_entriesAt hfs d).filter _)
  have hsorted : names.mergeSort.Pairwise (· < ·) :=
    ((List.pairwise_mergeSort' (· ≤ ·) names).and hnodup).imp fun h => lt_of_le_of_ne h.1 h.2
  have heq : names.mergeSort.filter (fun n => decide (HasDirectory fs ignore d n)) =
      subs.map Prod.fst := by
    refine eq_of_pairwise_lt (hsorted.filter _) (List.pairwise_map.2 hnames) fun n => ?_
    rw [List.mem_filter, decide_eq_true_iff, List.mem_mergeSort, hsubs, List.mem_map]
    constructor
    · rintro ⟨-, s, hs⟩
      exact ⟨(n, s), hs, rfl⟩
    · rintro ⟨⟨n, s⟩, hs, rfl⟩
      obtain ⟨es, he, hi⟩ := (hsubs n).2 ⟨s, hs⟩
      exact ⟨List.mem_filter.2 ⟨List.mem_map_of_mem he, by simp [hi]⟩, s, hs⟩
  show (names.mergeSort.map d.child).filterM _ = _
  rw [hfilter, List.filter_map]
  simp only [Function.comp_def, Path.name_child, heq, List.map_map]

/-! ### The end of a scan -/

/-- That a scan from the directory at `d` on, which lies at `l`, ends with a site, once there is as
much fuel as directories are looked through. It goes into those with the names `nss` below `d`, and
into none of them twice. -/
structure Scans (fs : FileSystem) (ignore : List String) (d : Path) (l : Location) (s : Site)
    (nss : List (List String)) : Prop where
  scan_eq : ∀ fuel, s.count ≤ fuel → scan fs ignore fuel d = some ⟨s, nss.map d.join⟩
  nodup : nss.Nodup
  length_eq : nss.length = s.count
  reached : ∀ ns ∈ nss, Reached fs ignore d (d.join ns)
  lookup : ∀ ns ∈ nss, ∃ es, fs.lookup (d.join ns) = .ok (l ++ ns, .directory es)

variable {l : Location}

theorem scans_failed {f : FileFault} {es : List (String × Entry)}
    (hd : fs.lookup d = .ok (l, .directory es))
    (hf : filesAt fs ignore d ((fs.entriesAt d).map Prod.fst) = .error f) :
    Scans fs ignore d l (.failed f) [[]] where
  scan_eq := by
    intro fuel hfuel
    rw [Site.count] at hfuel
    obtain ⟨k, rfl⟩ := Nat.exists_eq_add_of_le' hfuel
    simp [scan, hf]
  nodup := List.nodup_singleton _
  length_eq := rfl
  reached := by
    intro ns hns
    rw [List.mem_singleton.1 hns, Path.join_nil]
    exact .root
  lookup := by
    intro ns hns
    rw [List.mem_singleton.1 hns, Path.join_nil, List.append_nil]
    exact ⟨es, hd⟩

theorem mapM_eq_map {α β : Type} {f : α → Option β} {g : α → β} {xs : List α}
    (h : ∀ x ∈ xs, f x = some (g x)) : xs.mapM f = some (xs.map g) := by
  induction xs with
  | nil => rfl
  | cons x xs ih =>
    rw [List.mapM_cons, h x (List.mem_cons_self ..), ih fun y hy => h y (List.mem_cons_of_mem _ hy)]
    rfl

theorem scans_directory {es : List (String × Entry)} (hfs : fs.isProper = true)
    (hd : fs.lookup d = .ok (l, .directory es)) (hc : Clear fs ignore d)
    {subs : List (String × Site)} (hnames : subs.Pairwise fun a b => a.1 < b.1)
    (hsubs : ∀ n, HasDirectory fs ignore d n ↔ ∃ s, (n, s) ∈ subs)
    {g : String × Site → List (List String)}
    (hg : ∀ x ∈ subs, Scans fs ignore (d.child x.1) (l ++ [x.1]) x.2 (g x)) :
    Scans fs ignore d l (.directory (subs.map Prod.snd) (sourceOf fs (filesIn fs ignore d)))
      ([] :: subs.flatMap fun x => (g x).map (x.1 :: ·)) where
  scan_eq := by
    intro fuel hfuel
    rw [Site.count] at hfuel
    obtain ⟨k, rfl⟩ := Nat.exists_eq_add_of_le' (Nat.le_of_add_left_le hfuel)
    have hbelow : (subs.map fun x => d.child x.1).mapM (scan fs ignore k) =
        some (subs.map fun x => ⟨x.2, (g x).map (d.child x.1).join⟩) := by
      rw [List.mapM_map]
      refine mapM_eq_map fun x hx => (hg x hx).scan_eq k ?_
      have hle := count_le_of_mem (List.mem_map_of_mem (f := Prod.snd) hx)
      omega
    have hjoin : ∀ n, (d.child n).join = fun ns => d.join (n :: ns) :=
      fun n => funext (Path.join_child d n)
    rw [scan]
    simp only [filesAt_of_clear hc, directoriesAt_eq hfs hc hnames hsubs, hbelow]
    simp [List.map_flatMap, List.flatMap_map, hjoin, Function.comp_def]
  nodup := by
    refine List.nodup_cons.2 ⟨by simp, List.nodup_flatMap.2 ⟨fun x hx => ?_, ?_⟩⟩
    · exact (hg x hx).nodup.map fun _ _ h => (List.cons.inj h).2
    · -- what lies below different names differs in the first of them
      refine hnames.imp fun {x y} hxy => ?_
      intro ns hx hy
      obtain ⟨_, -, rfl⟩ := List.mem_map.1 hx
      obtain ⟨_, -, h⟩ := List.mem_map.1 hy
      rw [(List.cons.inj h).1] at hxy
      exact lt_irrefl _ hxy
  length_eq := by
    have hlength : (subs.map fun x => (g x).length) = (subs.map Prod.snd).map Site.count := by
      rw [List.map_map]
      exact List.map_congr_left fun x hx => (hg x hx).length_eq
    rw [List.length_cons, List.length_flatMap, Site.count, countOf_eq_sum, ← hlength]
    simp only [List.length_map]
  reached := by
    intro ns hns
    rcases List.mem_cons.1 hns with rfl | hns
    · rw [Path.join_nil]
      exact .root
    · obtain ⟨x, hx, hns⟩ := List.mem_flatMap.1 hns
      obtain ⟨ms, hms, rfl⟩ := List.mem_map.1 hns
      rw [← Path.join_child]
      exact .of_child ((hsubs x.1).2 ⟨x.2, hx⟩) ((hg x hx).reached ms hms)
  lookup := by
    intro ns hns
    rcases List.mem_cons.1 hns with rfl | hns
    · rw [Path.join_nil, List.append_nil]
      exact ⟨es, hd⟩
    · obtain ⟨x, hx, hns⟩ := List.mem_flatMap.1 hns
      obtain ⟨ms, hms, rfl⟩ := List.mem_map.1 hns
      obtain ⟨ds, hds⟩ := (hg x hx).lookup ms hms
      exact ⟨ds, by rw [← Path.join_child, hds, List.append_assoc, List.singleton_append]⟩

/-- A scan ends, whatever links there are, and finds what a survey finds. -/
theorem exists_scans (hfs : fs.isProper = true) {st : Settings} {root : Path} {s : Site}
    (h : siteAt fs st root = .ok s) : ∀ l es, fs.lookup root = .ok (l, .directory es) →
      ∃ nss, Scans fs st.ignore root l s nss := by
  refine siteAt_induct (motive := fun d s => ∀ l es, fs.lookup d = .ok (l, .directory es) →
    ∃ nss, Scans fs st.ignore d l s nss) hfs ?_ ?_ h
  · exact fun d f hf l es hd => ⟨_, scans_failed hd hf⟩
  · intro d subs hc hnames hsubs ih l es hd
    have hbelow : ∀ x : String × Site, ∃ nss, x ∈ subs →
        Scans fs st.ignore (d.child x.1) (l ++ [x.1]) x.2 nss := by
      intro x
      by_cases hx : x ∈ subs
      · obtain ⟨ds, hds, hi⟩ := (hsubs x.1).2 ⟨x.2, hx⟩
        obtain ⟨l', es', hd', hat⟩ := (FileSystem.mem_entriesAt hfs).1 hds
        cases hd.symm.trans hd'
        have hes := FileSystem.lookup_of_entryAt?_child (FileSystem.entryAt?_of_lookup hd) hat
        have hto := fs.lookup_child hd hes (isEntryName_of_mem_entriesAt hfs hds) (by simp)
          (hc _ _ hds hi)
        obtain ⟨nss, hnss⟩ := ih x.1 x.2 hx _ _ hto
        exact ⟨nss, fun _ => hnss⟩
      · exact ⟨[], fun h => absurd h hx⟩
    choose g hg using hbelow
    exact ⟨_, scans_directory hfs hd hc hnames hsubs hg⟩

end

/-! ### The scan of an index -/

section
variable {fs : FileSystem} {st : Settings} {root : Path}

theorem scanTopLevel_of_not_directory (h : fs.leadsTo Entry.isDirectory root ≠ .ok true) (fuel : Nat) :
    scanTopLevel fs st fuel root = some (topLevel fs st root, []) := by
  unfold scanTopLevel topLevel siteAt
  cases hleads : fs.leadsTo Entry.isDirectory root with
  | error f => rfl
  | ok b =>
    cases b with
    | false => rfl
    | true => exact absurd hleads h

theorem exists_scanTopLevel_of_directory (hfs : fs.isProper = true)
    (h : fs.leadsTo Entry.isDirectory root = .ok true) : ∃ entered,
      (∀ fuel, fs.directoryCount ≤ fuel →
        scanTopLevel fs st fuel root = some (topLevel fs st root, entered)) ∧
      ∃ ls : List Location, ls.Nodup ∧ ls.length ≤ fs.directoryCount ∧
        List.Forall₂ (fun p l => Reached fs st.ignore root p ∧
          ∃ es, fs.lookup p = .ok (l, .directory es)) entered ls := by
  obtain ⟨s, hs⟩ := (exists_siteAt_iff st).2 h
  obtain ⟨l, e, hl, he, hsurvey⟩ := siteAt_eq_ok hs
  obtain ⟨es, rfl⟩ : ∃ es, e = .directory es := by
    cases e with
    | directory es => exact ⟨es, rfl⟩
    | file bs => cases he
    | link t => cases he
  obtain ⟨nss, hscan⟩ := exists_scans hfs hs l es hl
  have hcount : s.count ≤ fs.directoryCount := by
    rw [hsurvey]
    exact Nat.le_trans (count_survey_le _ he _) (fs.directoryCount_le_of_lookup hl)
  refine ⟨nss.map root.join, fun fuel hfuel => ?_, nss.map (l ++ ·), ?_, ?_, ?_⟩
  · rw [scanTopLevel, h, topLevel, hs]
    simp only [hscan.scan_eq fuel (Nat.le_trans hcount hfuel)]
    rfl
  · exact hscan.nodup.map (List.append_right_injective l)
  · rw [List.length_map, hscan.length_eq]
    exact hcount
  · rw [List.forall₂_map_left_iff, List.forall₂_map_right_iff, List.forall₂_same]
    exact fun ns hns => ⟨hscan.reached ns hns, hscan.lookup ns hns⟩

/-- An item and its further files lie in one directory that is reached. -/
theorem reached_directory (hfs : fs.isProper = true) (hroot : root.IsProper) {ts : List ItemTree}
    (h : (topLevel fs st root).result = .ok ts) {t : ItemTree} (ht : t ∈ ItemTree.preorderAll ts) :
    Reached fs st.ignore root t.directory ∧
      ∀ f ∈ t.files, (Path.parse f).parent = t.directory := by
  obtain ⟨d, p, hd, hp, hpath, hfiles, -⟩ := exists_fields_of_mem hfs h ht
  have hparent : ∀ q ∈ filesIn fs st.ignore d, (Path.parse q.text).parent = d := by
    intro q hq
    rw [parse_text_of_mem_filesIn hfs hroot hd hq]
    obtain ⟨n, e, -, rfl⟩ := exists_child_of_mem_filesIn hq
    exact Path.parent_child d n
  have hdir : t.directory = d := by
    rw [ItemTree.directory, hpath]
    exact hparent p (SourceFile.mem_of_choose? hp)
  refine ⟨hdir ▸ hd, fun f hf => ?_⟩
  rw [hfiles] at hf
  obtain ⟨q, hq, rfl⟩ := List.mem_map.1 hf
  rw [hdir]
  exact hparent q (List.mem_filter.1 hq).1

end

/-- An index ends, whatever links there are: a scan with fuel for each directory once is as good as
the survey. It goes into no directory twice, and all items and files lie in directories that are
reached from the root through directories that are neither links nor passed over. -/
theorem topLevel_eq_scan {fs : FileSystem} (hfs : fs.isProper = true) (st : Settings) (root : String) :
    (∃ entered, (∀ fuel, fs.directoryCount ≤ fuel → scanTopLevel fs st fuel (Path.parse root) =
        some (topLevel fs st (Path.parse root), entered)) ∧
      ∃ ls : List Location, ls.Nodup ∧ ls.length ≤ fs.directoryCount ∧
        List.Forall₂ (fun p l => Reached fs st.ignore (Path.parse root) p ∧
          ∃ es, fs.lookup p = .ok (l, .directory es)) entered ls) ∧
    ∀ ts, (topLevel fs st (Path.parse root)).result = .ok ts → ∀ t ∈ ItemTree.preorderAll ts,
      Reached fs st.ignore (Path.parse root) t.directory ∧
        ∀ f ∈ t.files, Reached fs st.ignore (Path.parse root) (Path.parse f).parent := by
  constructor
  · rcases Classical.em (fs.leadsTo Entry.isDirectory (Path.parse root) = .ok true) with hdir | hdir
    · exact exists_scanTopLevel_of_directory hfs hdir
    · exact ⟨[], fun fuel _ => scanTopLevel_of_not_directory hdir fuel, [], List.nodup_nil,
        Nat.zero_le _, .nil⟩
  · intro ts h t ht
    obtain ⟨hd, hfiles⟩ := reached_directory hfs (Path.isProper_parse root) h ht
    exact ⟨hd, fun f hf => hfiles f hf ▸ hd⟩

/-- A directory with a link to itself, one to what is above it, two that lead to each other, and one
that leads nowhere; in a directory below there is one back. The root of the index is a link too. -/
def looped : FileSystem :=
  ⟨[("r", .link "d"), ("d", .directory [("tag.md", .file []), ("self", .link "self"),
    ("up", .link ".."), ("a", .link "b"), ("b", .link "a"), ("gone", .link "nowhere"),
    ("e", .directory [("tag.md", .link "../tag.md"), ("back", .link "../../d")])])], []⟩

theorem topLevel_eq_scan_looped :
    (∃ entered, scanTopLevel looped { ignore := [] } 3 (Path.parse "r") =
        some (topLevel looped { ignore := [] } (Path.parse "r"), entered) ∧ entered.length ≤ 3) ∧
      ∀ ts, (topLevel looped { ignore := [] } (Path.parse "r")).result = .ok ts →
        ∀ t ∈ ItemTree.preorderAll ts, Reached looped [] (Path.parse "r") t.directory := by
  have hproper : looped.isProper = true := by decide +kernel
  have hcount : looped.directoryCount = 3 := by decide +kernel
  obtain ⟨⟨entered, hscan, ls, -, hlength, hall⟩, hreached⟩ :=
    topLevel_eq_scan hproper { ignore := [] } "r"
  refine ⟨⟨entered, hscan 3 (Nat.le_of_eq hcount), ?_⟩, fun ts h t ht => (hreached ts h t ht).1⟩
  rw [hall.length_eq, ← hcount]
  exact hlength

end Index
end DocTree
