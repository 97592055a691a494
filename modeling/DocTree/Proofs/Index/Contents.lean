import Mathlib
import DocTree.Proofs.FileSystem.Kind
import DocTree.Proofs.Index.Structure

/-!
# What the contents of files decide

Two file systems that are alike but for the contents of files show the same directories and the same
files (`filesIn_eq_of_alike`), so an index of one is an index of the other up to the blocks. The sites
of both are compared by induction on what the survey of the first shows (`Shows`). The blocks of an
item follow from what reading its own source gives (`exists_source_of_mem`).
-/

namespace DocTree

namespace FileSystem
variable {fs fs' : FileSystem} {d : Path} {n : String}

theorem mem_entriesAt (hfs : fs.isProper = true) {e : Entry} : (n, e) ∈ fs.entriesAt d ↔
    ∃ l es, fs.lookup d = .ok (l, .directory es) ∧ fs.entryAt? (l ++ [n]) = some e := by
  unfold entriesAt
  cases hd : fs.lookup d with
  | error f => simp
  | ok r =>
    obtain ⟨l, c⟩ := r
    have hc := fs.isProper_of_lookup hfs hd
    have hl := entryAt?_of_lookup hd
    cases c with
    | file bs => simp [Entry.children]
    | link t => simp [Entry.children]
    | directory es =>
      have hnd := (Entry.isProper_directory.1 hc).1
      simp only [Entry.children, Except.ok.injEq, Prod.mk.injEq, Entry.directory.injEq]
      constructor
      · intro hm
        exact ⟨l, es, ⟨rfl, rfl⟩, entryAt?_child hl (Entry.lookup_of_mem hnd hm)⟩
      · rintro ⟨l', es', ⟨rfl, rfl⟩, he⟩
        exact Entry.mem_of_lookup (lookup_of_entryAt?_child hl he)

theorem nodup_entriesAt (hfs : fs.isProper = true) (d : Path) :
    ((fs.entriesAt d).map Prod.fst).Nodup := by
  unfold entriesAt
  split
  · rename_i l e hd
    cases e with
    | file bs => exact List.nodup_nil
    | link t => exact List.nodup_nil
    | directory es => exact (Entry.isProper_directory.1 (fs.isProper_of_lookup hfs hd)).1
  · exact List.nodup_nil

namespace Alike
variable (h : Alike fs fs')
include h

theorem hasFile_eq (p : Path) : fs.hasFile p = fs'.hasFile p := by
  unfold hasFile
  cases hp : fs.lookup p with
  | error f => rw [h.lookup_error hp]
  | ok r =>
    obtain ⟨e', hp', hk⟩ := h.lookup_ok hp
    rw [hp']
    exact (Entry.isFile_eq_of_kind_eq hk).symm

section
variable (hfs : fs.isProper = true) (hfs' : fs'.isProper = true)
include hfs hfs'

theorem exists_mem_entriesAt {e : Entry} (hm : (n, e) ∈ fs.entriesAt d) :
    ∃ e', (n, e') ∈ fs'.entriesAt d ∧ e'.kind = e.kind := by
  obtain ⟨l, es, hd, he⟩ := (mem_entriesAt hfs).1 hm
  obtain ⟨c, hd', hc⟩ := h.lookup_ok hd
  obtain ⟨es', rfl⟩ := Entry.kind_eq_directory.1 hc
  obtain ⟨e', he', hk⟩ := h.exists_entryAt? he
  exact ⟨e', (mem_entriesAt hfs').2 ⟨l, es', hd', he'⟩, hk⟩

theorem mem_names (hn : n ∈ (fs.entriesAt d).map Prod.fst) : n ∈ (fs'.entriesAt d).map Prod.fst := by
  obtain ⟨⟨n, e⟩, hm, rfl⟩ := List.mem_map.1 hn
  obtain ⟨e', hm', -⟩ := h.exists_mem_entriesAt hfs hfs' hm
  exact List.mem_map.2 ⟨(n, e'), hm', rfl⟩

theorem names_perm (d : Path) :
    ((fs.entriesAt d).map Prod.fst).Perm ((fs'.entriesAt d).map Prod.fst) := by
  refine (List.perm_ext_iff_of_nodup (nodup_entriesAt hfs d) (nodup_entriesAt hfs' d)).2 fun n => ?_
  exact ⟨h.mem_names hfs hfs', h.symm.mem_names hfs' hfs⟩

end
end Alike
end FileSystem

namespace ItemTree

mutual

/-- The tree with no blocks on its items. -/
def withoutBlocks : ItemTree → ItemTree
  | .node p fs _ ts => .node p fs [] (withoutBlocksAll ts)

/-- The forest with no blocks on its items. -/
def withoutBlocksAll : List ItemTree → List ItemTree
  | [] => []
  | t :: ts => t.withoutBlocks :: withoutBlocksAll ts

end

theorem withoutBlocksAll_append (ts us : List ItemTree) :
    withoutBlocksAll (ts ++ us) = withoutBlocksAll ts ++ withoutBlocksAll us := by
  induction ts with
  | nil => rfl
  | cons t ts ih => rw [List.cons_append, withoutBlocksAll, withoutBlocksAll, ih, List.cons_append]

end ItemTree

namespace Index
open FileSystem ItemTree

section
variable {fs fs' : FileSystem} {ignore : List String} {d : Path} {n : String}

theorem mergeSort_eq_of_perm {ns ms : List String} (h : ns.Perm ms) :
    ns.mergeSort = ms.mergeSort := by
  have hperm : ns.mergeSort.Perm ms.mergeSort :=
    (List.mergeSort_perm ..).trans (h.trans (List.mergeSort_perm ..).symm)
  exact hperm.eq_of_pairwise' (List.pairwise_mergeSort' (· ≤ ·) ns)
    (List.pairwise_mergeSort' (· ≤ ·) ms)

section
variable (h : Alike fs fs') (hfs : fs.isProper = true) (hfs' : fs'.isProper = true)
include h hfs hfs'

theorem filesIn_eq_of_alike (d : Path) : filesIn fs ignore d = filesIn fs' ignore d := by
  have hnames := (h.names_perm hfs hfs' d).filter (!isIgnored ignore ·)
  have hfile : fs.hasFile = fs'.hasFile := funext h.hasFile_eq
  rw [filesIn, filesIn, ← filter_map_mergeSort, ← filter_map_mergeSort,
    mergeSort_eq_of_perm hnames, hfile]

theorem hasDirectory_of_alike (hd : HasDirectory fs ignore d n) : HasDirectory fs' ignore d n := by
  obtain ⟨es, hm, hi⟩ := hd
  obtain ⟨e', hm', hk⟩ := h.exists_mem_entriesAt hfs hfs' hm
  obtain ⟨es', rfl⟩ := Entry.kind_eq_directory.1 hk
  exact ⟨es', hm', hi⟩

end

/-- What a survey finds at a directory: the sites of the directories in it, by name, and the source
that is chosen from its files; or a fault, if a name in it is too long. -/
inductive Shows (fs : FileSystem) (ignore : List String) : Path → Site → Prop
  | failed {d : Path} (f : FileFault) :
      filesAt fs ignore d ((fs.entriesAt d).map Prod.fst) = .error f → Shows fs ignore d (.failed f)
  | directory {d : Path} {subs : List (String × Site)} : Clear fs ignore d →
      subs.Pairwise (fun a b => a.1 < b.1) →
      (∀ n, HasDirectory fs ignore d n ↔ ∃ s, (n, s) ∈ subs) →
      (∀ n s, (n, s) ∈ subs → Shows fs ignore (d.child n) s) →
      Shows fs ignore d (.directory (subs.map Prod.snd) (sourceOf fs (filesIn fs ignore d)))

theorem shows_of_siteAt (hfs : fs.isProper = true) {st : Settings} {s : Site}
    (h : siteAt fs st d = .ok s) : Shows fs st.ignore d s := by
  refine siteAt_induct hfs (fun d f hf => .failed f hf) (fun d subs hc hnames hsubs ih => ?_) h
  exact .directory hc hnames hsubs ih

end

/-! ### The same items up to their blocks -/

section
variable {fs fs' : FileSystem} {st st' : Settings} {d : Path}

theorem gather_withoutBlocks (hu : st.skipUnknown = st'.skipUnknown) (files : List Path)
    {below below' : List ItemTree} (hb : withoutBlocksAll below = withoutBlocksAll below') :
    withoutBlocksAll (gather st (sourceOf fs files) below) =
      withoutBlocksAll (gather st' (sourceOf fs' files) below') := by
  unfold sourceOf
  cases SourceFile.choose? files with
  | none => exact hb
  | some p =>
    let x : Source := ⟨p, furtherFiles p files, fs.read p⟩
    let x' : Source := ⟨p, furtherFiles p files, fs'.read p⟩
    have hdrop : x.isDropped st = x'.isDropped st' := by
      rw [Source.isDropped, Source.isDropped, hu]
      rfl
    show withoutBlocksAll (if x.isDropped st then below else [x.item st below]) =
      withoutBlocksAll (if x'.isDropped st' then below' else [x'.item st' below'])
    rw [hdrop]
    split
    · exact hb
    · simp only [Source.item, withoutBlocksAll, withoutBlocks, hb]
      rfl

/-- Strictly increasing lists that hold the same are equal. -/
theorem eq_of_pairwise_lt {ns ms : List String} (hn : ns.Pairwise (· < ·)) (hm : ms.Pairwise (· < ·))
    (h : ∀ n, n ∈ ns ↔ n ∈ ms) : ns = ms := by
  have hperm : ns.Perm ms := (List.perm_ext_iff_of_nodup (hn.imp String.ne_of_lt)
    (hm.imp String.ne_of_lt)).2 h
  exact hperm.eq_of_pairwise' (hn.imp le_of_lt) (hm.imp le_of_lt)

theorem withoutBlocksAll_itemsOf {subs subs' : List (String × Site)}
    (hnames : subs.map Prod.fst = subs'.map Prod.fst)
    (h : ∀ n s s', (n, s) ∈ subs → (n, s') ∈ subs' →
      withoutBlocksAll (s.items st) = withoutBlocksAll (s'.items st')) :
    withoutBlocksAll (itemsOf st (subs.map Prod.snd)) =
      withoutBlocksAll (itemsOf st' (subs'.map Prod.snd)) := by
  induction subs generalizing subs' with
  | nil =>
    rw [List.map_nil, eq_comm, List.map_eq_nil_iff] at hnames
    rw [hnames]
    rfl
  | cons x subs ih =>
    obtain ⟨n, s⟩ := x
    cases subs' with
    | nil => cases hnames
    | cons x' subs' =>
      obtain ⟨n', s'⟩ := x'
      rw [List.map_cons, List.map_cons, List.cons.injEq] at hnames
      obtain ⟨hn, hnames⟩ := hnames
      obtain rfl : n = n' := hn
      have hhead := h n s s' (List.mem_cons_self ..) (List.mem_cons_self ..)
      have htail := ih hnames fun m r r' hr hr' =>
        h m r r' (List.mem_cons_of_mem _ hr) (List.mem_cons_of_mem _ hr')
      simp only [List.map_cons, itemsOf, withoutBlocksAll_append, hhead, htail]

/-- Two surveys of file systems that are alike give the same items, up to their blocks. -/
theorem Shows.withoutBlocks_items (h : Alike fs fs') (hfs : fs.isProper = true)
    (hfs' : fs'.isProper = true) (hu : st.skipUnknown = st'.skipUnknown) {ignore : List String}
    {s s' : Site} (hs : Shows fs ignore d s) (hs' : Shows fs' ignore d s') (hf : s.failures = [])
    (hf' : s'.failures = []) :
    withoutBlocksAll (s.items st) = withoutBlocksAll (s'.items st') := by
  -- both surveys show the same names, so their sites are compared name by name
  induction hs generalizing s' with
  | failed f => cases hf
  | @directory d subs _ hlt hnames _ ih =>
    cases hs' with
    | failed f => cases hf'
    | @directory _ subs' _ hlt' hnames' hsubs' =>
      have hfst : subs.map Prod.fst = subs'.map Prod.fst := by
        refine eq_of_pairwise_lt (List.pairwise_map.2 hlt) (List.pairwise_map.2 hlt') fun n => ?_
        have hn := (hnames n).symm.trans
          (Iff.trans ⟨hasDirectory_of_alike h hfs hfs', hasDirectory_of_alike h.symm hfs' hfs⟩
            (hnames' n))
        simpa using hn
      rw [Site.items, Site.items, filesIn_eq_of_alike h hfs hfs']
      refine gather_withoutBlocks hu _ (withoutBlocksAll_itemsOf hfst fun n r r' hr hr' => ?_)
      exact ih n r hr (hsubs' n r' hr') (failures_eq_nil_of_mem hf (List.mem_map_of_mem hr))
        (failures_eq_nil_of_mem hf' (List.mem_map_of_mem hr'))

end

/-! ### The blocks of an item -/

section
variable {fs : FileSystem} {st : Settings} {root d : Path}

/-- The text of a file's path, in a directory that is reached, names this file. -/
theorem parse_text_of_mem_filesIn (hfs : fs.isProper = true) (hroot : root.IsProper)
    (hd : Reached fs st.ignore root d) {q : Path} (hq : q ∈ filesIn fs st.ignore d) :
    Path.parse q.text = q := by
  obtain ⟨n, e, hmem, rfl⟩ := exists_child_of_mem_filesIn hq
  obtain ⟨hname, -, hslash, -⟩ := isEntryName_iff.1 (isEntryName_of_mem_entriesAt hfs hmem)
  exact Path.parse_text ((hd.isProper hfs hroot).child hname hslash)

/-- An item has the fields that the source of a directory gives, which is reached. -/
theorem exists_fields_of_mem (hfs : fs.isProper = true) {ts : List ItemTree}
    (h : (topLevel fs st root).result = .ok ts) {t : ItemTree} (ht : t ∈ preorderAll ts) :
    ∃ d p, Reached fs st.ignore root d ∧ SourceFile.choose? (filesIn fs st.ignore d) = some p ∧
      t.path = p.text ∧
        t.files = (furtherFiles p (filesIn fs st.ignore d)).map Path.text ∧
          t.blocks = (⟨p, furtherFiles p (filesIn fs st.ignore d), fs.read p⟩ : Source).blocks st := by
  obtain ⟨s, hs, rfl, hf, -⟩ := topLevel_result_eq_ok.1 h
  have hfields : t.fields ∈ (preorderAll (s.items st)).map ItemTree.fields :=
    List.mem_map_of_mem ht
  rw [Site.fields_items] at hfields
  obtain ⟨x, hx, hfields⟩ := List.mem_map.1 hfields
  simp only [ItemTree.fields, Prod.mk.injEq] at hfields
  obtain ⟨hpath, -, -, hfiles, hblocks⟩ := hfields
  obtain ⟨d, hd, hx⟩ := (mem_sources_iff hfs hs hf).1 (List.mem_filter.1 hx).1
  obtain ⟨p, hp, rfl⟩ := Option.map_eq_some_iff.1 hx
  exact ⟨d, p, hd, hp, hpath.symm, hfiles.symm, hblocks.symm⟩

/-- The blocks of an item are those of a source that holds what its own file holds. -/
theorem exists_source_of_mem (hfs : fs.isProper = true) (hroot : root.IsProper) {ts : List ItemTree}
    (h : (topLevel fs st root).result = .ok ts) {t : ItemTree} (ht : t ∈ preorderAll ts) :
    ∃ x : Source, x.content = fs.read (Path.parse t.path) ∧ t.blocks = x.blocks st := by
  obtain ⟨d, p, hd, hp, hpath, -, hblocks⟩ := exists_fields_of_mem hfs h ht
  refine ⟨_, ?_, hblocks⟩
  rw [hpath, parse_text_of_mem_filesIn hfs hroot hd (SourceFile.mem_of_choose? hp)]

end

/-- What the files hold does not show in an index but in blocks: two indexes of file systems that
are alike, made with settings that ignore and skip the same, are equal without their blocks. Under
the same settings an item has the same blocks in both if its own source holds the same. -/
theorem topLevel_alike {fs fs' : FileSystem} (h : fs.Alike fs') (hfs : fs.isProper = true)
    (hfs' : fs'.isProper = true) {st st' : Settings} (hi : st.ignore = st'.ignore)
    (hu : st.skipUnknown = st'.skipUnknown) {root : String} {ts ts' : List ItemTree}
    (hts : (topLevel fs st (Path.parse root)).result = .ok ts)
    (hts' : (topLevel fs' st' (Path.parse root)).result = .ok ts') :
    withoutBlocksAll ts = withoutBlocksAll ts' ∧
      (st = st' → ∀ t ∈ preorderAll ts, ∀ t' ∈ preorderAll ts', t.path = t'.path →
        fs.read (Path.parse t.path) = fs'.read (Path.parse t.path) → t.blocks = t'.blocks) := by
  refine ⟨?_, fun hst t ht t' ht' hpath hread => ?_⟩
  · obtain ⟨s, hs, rfl, hf, -⟩ := topLevel_result_eq_ok.1 hts
    obtain ⟨s', hs', rfl, hf', -⟩ := topLevel_result_eq_ok.1 hts'
    have hshows' := shows_of_siteAt hfs' hs'
    rw [← hi] at hshows'
    exact (shows_of_siteAt hfs hs).withoutBlocks_items h hfs hfs' hu hshows' hf hf'
  · obtain ⟨x, hx, hblocks⟩ := exists_source_of_mem hfs (Path.isProper_parse root) hts ht
    obtain ⟨x', hx', hblocks'⟩ := exists_source_of_mem hfs' (Path.isProper_parse root) hts' ht'
    have hcontent : x.content = x'.content := by rw [hx, hx', ← hpath, hread]
    rw [hblocks, hblocks', Source.blocks, Source.blocks, hcontent, hst]

/-- The example with other contents is alike. -/
theorem alike_sample (a b a' b' : List UInt8) : (sample a b).Alike (sample a' b') := by
  refine ⟨rfl, fun l => ?_⟩
  rcases l with _ | ⟨n, l⟩
  · rfl
  · simp only [entryAt?, Entry.at?, FileSystem.root, Entry.children, sample, List.lookup]
    cases n == "a.md" with
    | true => cases l <;> simp [Entry.at?, Entry.kind, Entry.children]
    | false =>
      cases n == "c" with
      | false => rfl
      | true =>
        rcases l with _ | ⟨m, l⟩
        · rfl
        · simp only [Entry.at?, Entry.children, List.lookup]
          cases m == "tag.md" with
          | false => rfl
          | true => cases l <;> simp [Entry.at?, Entry.kind, Entry.children]

/-- The index of the example is made if no source in it ends it. -/
theorem topLevel_sample_result {a b : List UInt8}
    (h : ∀ c ∈ [a, b], ∀ f, Population.blocks Extract.defaultPreset (.ok c) = .error f →
      f.isPassedOver = true) :
    (topLevel (sample a b) { ignore := [] } (Path.parse ".")).result =
      .ok ((sampleSite a b).items { ignore := [] }) := by
  refine topLevel_result_eq_ok.2 ⟨_, siteAt_sample a b _ rfl, rfl, rfl, fun x hx _ g hg => ?_⟩
  obtain ⟨-, hg, hpassed⟩ := hg
  have hc : ∃ c ∈ [a, b], x.content = .ok c := by
    simp only [sampleSite, Site.sources, sourcesOf, Option.toList, List.append_nil] at hx
    rcases List.mem_cons.1 hx with rfl | hx
    · exact ⟨a, by simp, rfl⟩
    · rw [List.mem_singleton.1 hx]
      exact ⟨b, by simp, rfl⟩
  obtain ⟨c, hc, hx⟩ := hc
  rw [hx] at hg
  rw [h c hc g hg] at hpassed
  cases hpassed

/-- The tag is no longer a text, and the document above it has the blocks it had. -/
theorem topLevel_alike_sample : ∃ ts ts' : List ItemTree,
    (topLevel (sample [] []) { ignore := [] } (Path.parse ".")).result = .ok ts ∧
      (topLevel (sample [] [255]) { ignore := [] } (Path.parse ".")).result = .ok ts' ∧
        withoutBlocksAll ts = withoutBlocksAll ts' ∧
          ∀ t ∈ preorderAll ts, ∀ t' ∈ preorderAll ts', t.path = "a.md" → t'.path = "a.md" →
            t.blocks = t'.blocks := by
  have hempty : ∀ f, Population.blocks Extract.defaultPreset (.ok []) = .error f →
      f.isPassedOver = true := by
    intro f hf
    have hok : (Population.blocks Extract.defaultPreset (.ok [])).isOk = true := by decide +kernel
    rw [hf] at hok
    cases hok
  have hts := topLevel_sample_result (a := []) (b := []) (by simpa using hempty)
  have hts' := topLevel_sample_result (a := []) (b := [255]) (by
    simp only [List.forall_mem_cons, List.not_mem_nil, false_imp_iff, implies_true, and_true]
    refine ⟨hempty, fun f hf => ?_⟩
    have hbad : Population.blocks Extract.defaultPreset (.ok [255]) =
        .error (.encoding ⟨0, [255], .badStart⟩) := rfl
    rw [hbad] at hf
    cases hf
    rfl)
  obtain ⟨hforest, hblocks⟩ := topLevel_alike (alike_sample [] [] [] [255]) (by decide +kernel)
    (by decide +kernel) rfl rfl hts hts'
  refine ⟨_, _, hts, hts', hforest, fun t ht t' ht' hpath hpath' => ?_⟩
  refine hblocks rfl t ht t' ht' (hpath.trans hpath'.symm) ?_
  rw [hpath, (read_sample [] []).1, (read_sample [] [255]).1]

end Index
end DocTree
