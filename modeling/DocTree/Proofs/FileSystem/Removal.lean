import Mathlib
import DocTree.Proofs.FileSystem.Kind

/-!
# File systems with entries taken out

Entries are taken out with all that is below them. What is kept is found at the location where it was
(`entryAt?_without_eq_some`), so a lookup that succeeds without the others succeeds with them
(`Part.lookup_ok`). Files are on the way to no directory: if two file systems differ in files alone, a
path leads to a directory in one if it does so in the other (`SameWays.directoryOf_lookup`).

File systems are `Identical` if they hold the same at every location, in whatever order a directory
lists its entries.
-/

namespace DocTree

namespace Entry

/-- What an entry is in itself: a directory without the entries in it. -/
def bare : Entry → Entry
  | .directory _ => .directory []
  | e => e

theorem kind_bare (e : Entry) : e.bare.kind = e.kind := by cases e <;> rfl

theorem bare_eq_directory {e : Entry} : e.bare = .directory [] ↔ ∃ es, e = .directory es := by
  cases e <;> simp [bare]

mutual

/-- The entry at `here` without the entries in it that `drop` tells to leave out. -/
def without (drop : Location → Entry → Bool) (here : Location) : Entry → Entry
  | .directory es => .directory (entriesWithout drop here es)
  | e => e

/-- The entries in the directory at `here` that are kept, each without those to leave out. -/
def entriesWithout (drop : Location → Entry → Bool) (here : Location) :
    List (String × Entry) → List (String × Entry)
  | [] => []
  | (n, e) :: es =>
    if drop (here ++ [n]) e then entriesWithout drop here es
    else (n, e.without drop (here ++ [n])) :: entriesWithout drop here es

end

variable {drop : Location → Entry → Bool} {here : Location} {e c : Entry}

theorem bare_without : (e.without drop here).bare = e.bare := by cases e <;> rfl

theorem lookup_entriesWithout {es : List (String × Entry)} (hn : (es.map Prod.fst).Nodup)
    (n : String) : (entriesWithout drop here es).lookup n = (es.lookup n).bind fun e =>
      if drop (here ++ [n]) e then none else some (e.without drop (here ++ [n])) := by
  induction es with
  | nil => rfl
  | cons x es ih =>
    obtain ⟨m, d⟩ := x
    rw [List.map_cons, List.nodup_cons] at hn
    have ih := ih hn.2
    rw [entriesWithout]
    by_cases hm : n = m
    · subst hm
      have hnone : es.lookup n = none := by
        cases h : es.lookup n with
        | none => rfl
        | some c => exact absurd (List.mem_map_of_mem (mem_of_lookup h)) hn.1
      rw [hnone] at ih
      split
      · rename_i hdrop
        rw [ih]
        simp [List.lookup, hdrop]
      · rename_i hdrop
        simp [List.lookup, hdrop]
    · have hne : (n == m) = false := beq_eq_false_iff_ne.2 hm
      split
      · rw [ih, List.lookup, hne]
      · rw [List.lookup, List.lookup, hne, ih]

/-- What is left at a location is what was there, if nothing on the way is taken out. -/
theorem at?_without_eq_some {l : Location} (he : e.isProper = true) :
    (e.without drop here).at? l = some c ↔
      (∀ m x, m ≠ [] → m <+: l → e.at? m = some x → drop (here ++ m) x = false) ∧
        ∃ d, e.at? l = some d ∧ d.without drop (here ++ l) = c := by
  induction l generalizing e here with
  | nil =>
    have hnil : ∀ m x, m ≠ [] → m <+: [] → e.at? m = some x → drop (here ++ m) x = false :=
      fun m _ hne hm => absurd (List.prefix_nil.1 hm) hne
    simpa [at?] using fun _ => hnil
  | cons n l ih =>
    cases e with
    | file bs => simp [without, at?, children]
    | link t => simp [without, at?, children]
    | directory es =>
      obtain ⟨hnodup, hproper⟩ := isProper_directory.1 he
      simp only [without, at?, children, lookup_entriesWithout hnodup]
      cases hd : es.lookup n with
      | none => simp
      | some d =>
        have hd' := (hproper n d (mem_of_lookup hd)).2
        have hfirst : (directory es).at? [n] = some d := by simp [at?, children, hd]
        cases hdrop : drop (here ++ [n]) d with
        | true =>
          simp only [Option.bind_some, hdrop, if_true, reduceCtorEq, false_iff, not_and]
          intro hkept
          have hkeep := hkept [n] d (by simp) (by simp) hfirst
          rw [hdrop] at hkeep
          cases hkeep
        | false =>
          simp only [Option.bind_some, hdrop, Bool.false_eq_true, if_false, ih hd',
            List.append_assoc, List.singleton_append]
          refine and_congr_left fun _ => ⟨fun h m x hne hm hx => ?_, fun h m x hne hm hx => ?_⟩
          · obtain ⟨k, m, rfl⟩ := List.exists_cons_of_ne_nil hne
            obtain ⟨rfl, htail⟩ := List.cons_prefix_cons.1 hm
            simp only [at?, children, hd] at hx
            rcases eq_or_ne m [] with rfl | hne
            · cases hx
              exact hdrop
            · exact h m x hne htail hx
          · refine h (n :: m) x (by simp) (List.cons_prefix_cons.2 ⟨rfl, hm⟩) ?_
            simpa only [at?, children, hd] using hx

end Entry

namespace FileSystem
variable {fs fs' g : FileSystem} {drop : Location → Entry → Bool} {p : Path} {l : Location}
  {e : Entry}

/-- That two file systems hold the same at every location. -/
structure Identical (fs fs' : FileSystem) : Prop where
  working : fs.working = fs'.working
  bare : ∀ l, (fs.entryAt? l).map Entry.bare = (fs'.entryAt? l).map Entry.bare

theorem Identical.refl (fs : FileSystem) : Identical fs fs := ⟨rfl, fun _ => rfl⟩

theorem Identical.symm (h : Identical fs fs') : Identical fs' fs :=
  ⟨h.working.symm, fun l => (h.bare l).symm⟩

theorem Identical.alike (h : Identical fs fs') : Alike fs fs' := by
  refine ⟨h.working, fun l => ?_⟩
  have hkind := congrArg (Option.map Entry.kind) (h.bare l)
  simpa only [Option.map_map, Function.comp_def, Entry.kind_bare] using hkind

/-- The file system without the entries that `drop` tells to leave out, and what is below them. -/
def without (fs : FileSystem) (drop : Location → Entry → Bool) : FileSystem :=
  { fs with entries := Entry.entriesWithout drop [] fs.entries }

/-- That no entry on the way to a location is left out, nor the one that is there. -/
def Keeps (fs : FileSystem) (drop : Location → Entry → Bool) (l : Location) : Prop :=
  ∀ m e, m ≠ [] → m <+: l → fs.entryAt? m = some e → drop m e = false

theorem entryAt?_without_eq_some (hfs : fs.isProper = true) :
    (fs.without drop).entryAt? l = some e ↔
      fs.Keeps drop l ∧ ∃ d, fs.entryAt? l = some d ∧ d.without drop l = e := by
  have h : (fs.root.without drop []).at? l = some e ↔ _ := Entry.at?_without_eq_some hfs
  simp only [List.nil_append] at h
  exact h

theorem bare_entryAt?_without (hfs : fs.isProper = true) (h : fs.Keeps drop l) :
    ((fs.without drop).entryAt? l).map Entry.bare = (fs.entryAt? l).map Entry.bare := by
  cases hl : fs.entryAt? l with
  | some d =>
    have hd := (entryAt?_without_eq_some hfs).2 ⟨h, d, hl, rfl⟩
    rw [hd, Option.map_some, Option.map_some, Entry.bare_without]
  | none =>
    cases hg : (fs.without drop).entryAt? l with
    | none => rfl
    | some c =>
      obtain ⟨-, d, hd, -⟩ := (entryAt?_without_eq_some hfs).1 hg
      rw [hl] at hd
      cases hd

/-- What is on the way to an entry is a directory. -/
theorem exists_directory_of_prefix {m : Location} (hl : fs.entryAt? l = some e) (hm : m <+: l)
    (hne : m ≠ l) : ∃ es, fs.entryAt? m = some (.directory es) := by
  obtain ⟨ns, rfl⟩ := hm
  have happ : fs.entryAt? (m ++ ns) = (fs.entryAt? m).bind (·.at? ns) := Entry.at?_append m ns _
  rw [happ] at hl
  obtain ⟨d, hd, hat⟩ := Option.bind_eq_some_iff.1 hl
  obtain ⟨n, ns, rfl⟩ := List.exists_cons_of_ne_nil (l := ns) (by simpa using hne)
  cases d with
  | directory es => exact ⟨es, hd⟩
  | file bs => cases hat
  | link t => cases hat

section
variable (hdrop : ∀ m e, drop m e = true → e.isFile = true)
include hdrop

theorem keeps_of_files (hl : fs.entryAt? l = some e) (he : drop l e = false) : fs.Keeps drop l := by
  intro m d _ hm hd
  rcases Classical.em (m = l) with rfl | hne
  · rw [hl] at hd
    cases hd
    exact he
  · obtain ⟨es, hes⟩ := exists_directory_of_prefix hl hm hne
    rw [hd] at hes
    cases hes
    rw [← Bool.not_eq_true]
    exact fun h => absurd (hdrop m _ h) (by simp [Entry.isFile])

/-- Where files alone are left out, all else stays where it is. -/
theorem bare_entryAt?_without_files (hfs : fs.isProper = true) (l : Location) :
    ((fs.without drop).entryAt? l).map Entry.bare =
      ((fs.entryAt? l).filter fun e => !drop l e).map Entry.bare := by
  cases hl : fs.entryAt? l with
  | none =>
    cases hg : (fs.without drop).entryAt? l with
    | none => rfl
    | some c =>
      obtain ⟨-, d, hd, -⟩ := (entryAt?_without_eq_some hfs).1 hg
      rw [hl] at hd
      cases hd
  | some e =>
    cases he : drop l e with
    | false =>
      rw [bare_entryAt?_without hfs (keeps_of_files hdrop hl he), hl]
      simp [he]
    | true =>
      cases hg : (fs.without drop).entryAt? l with
      | none => simp [he]
      | some c =>
        obtain ⟨hkeeps, -⟩ := (entryAt?_without_eq_some hfs).1 hg
        have hne : l ≠ [] := by
          rintro rfl
          cases hl
          exact absurd (hdrop _ _ he) (by simp [Entry.isFile, root])
        rw [hkeeps l e hne List.prefix_rfl hl] at he
        cases he

end

/-! ### Parts -/

/-- That the second file system holds what the first one does, and maybe more. -/
structure Part (g fs : FileSystem) : Prop where
  working : g.working = fs.working
  kind : ∀ l e, g.entryAt? l = some e → ∃ d, fs.entryAt? l = some d ∧ d.kind = e.kind

theorem Part.refl (fs : FileSystem) : Part fs fs := ⟨rfl, fun _ e h => ⟨e, h, rfl⟩⟩

theorem part_without (hfs : fs.isProper = true) : Part (fs.without drop) fs := by
  refine ⟨rfl, fun l e h => ?_⟩
  obtain ⟨-, d, hd, rfl⟩ := (entryAt?_without_eq_some hfs).1 h
  have hbare : (d.without drop l).bare = d.bare := Entry.bare_without
  exact ⟨d, hd, by rw [← Entry.kind_bare, ← hbare, Entry.kind_bare]⟩

theorem Part.follow_ok (h : Part g fs) {k : Nat} {here : Location} {ns : List String}
    (hg : g.follow k here ns = .ok (l, e)) :
    ∃ d, fs.follow k here ns = .ok (l, d) ∧ d.kind = e.kind := by
  fun_induction g.follow k here ns with
  | case1 k here c hc =>
    cases hg
    obtain ⟨d, hd, hk⟩ := h.kind _ _ hc
    exact ⟨d, by rw [follow, hd], hk⟩
  | case2 => cases hg
  | case3 k here ns ih =>
    rw [follow, if_pos rfl]
    exact ih hg
  | case4 k here ns hdot ih =>
    rw [follow, if_neg hdot, if_pos rfl]
    exact ih hg
  | case5 => cases hg
  | case6 => cases hg
  | case7 k here n ns h1 h2 h3 es hes ih =>
    obtain ⟨d, hd, hk⟩ := h.kind _ _ hes
    obtain ⟨ds, rfl⟩ := Entry.kind_eq_directory.1 hk
    rw [follow, if_neg h1, if_neg h2, if_neg h3, hd]
    exact ih hg
  | case8 k here n ns h1 h2 h3 bs hbs hns =>
    cases hg
    obtain ⟨d, hd, hk⟩ := h.kind _ _ hbs
    obtain ⟨cs, rfl⟩ := Entry.kind_eq_file.1 hk
    refine ⟨.file cs, ?_, rfl⟩
    rw [follow, if_neg h1, if_neg h2, if_neg h3, hd]
    exact if_pos hns
  | case9 => cases hg
  | case10 => cases hg
  | case11 here n ns h1 h2 h3 t ht k ih =>
    obtain ⟨d, hd, hk⟩ := h.kind _ _ ht
    obtain rfl := Entry.kind_eq_link.1 hk
    rw [follow, if_neg h1, if_neg h2, if_neg h3, hd]
    exact ih hg

theorem Part.lookup_ok (h : Part g fs) (hg : g.lookup p = .ok (l, e)) :
    ∃ d, fs.lookup p = .ok (l, d) ∧ d.kind = e.kind := by
  unfold lookup at hg ⊢
  split at hg
  · cases hg
  · rename_i hnull
    rw [if_neg hnull]
    split at hg
    · cases hg
    · rename_i hlong
      have hbase : g.base p = fs.base p := by rw [base, base, h.working]
      rw [if_neg hlong, ← hbase]
      exact h.follow_ok hg

/-! ### File systems that differ in files -/

/-- Where a lookup goes on from an entry: nowhere from a file. -/
def wayFrom : Entry → Option Entry.Kind
  | .file _ => none
  | e => some e.kind

/-- That two file systems have the same directories and links. -/
structure SameWays (fs fs' : FileSystem) : Prop where
  working : fs.working = fs'.working
  way : ∀ l, (fs.entryAt? l).bind wayFrom = (fs'.entryAt? l).bind wayFrom

/-- The location of the directory where a lookup ends, if it ends at one. That a name is too long is
a fault. -/
def directoryOf : Except LookupFault (Location × Entry) → Except LookupFault (Option Location)
  | .ok (l, .directory _) => .ok (some l)
  | .error .nameTooLong => .error .nameTooLong
  | _ => .ok none

theorem directoryOf_eq_some {r : Except LookupFault (Location × Entry)} :
    directoryOf r = .ok (some l) ↔ ∃ es, r = .ok (l, .directory es) := by
  cases r with
  | error f => cases f <;> simp [directoryOf]
  | ok x =>
    obtain ⟨m, e⟩ := x
    cases e <;> simp [directoryOf]

namespace SameWays
variable (h : SameWays fs fs')
include h

theorem exists_directory {es : List (String × Entry)} (hl : fs.entryAt? l = some (.directory es)) :
    ∃ es', fs'.entryAt? l = some (.directory es') := by
  have hway := h.way l
  rw [hl, Option.bind_some] at hway
  obtain ⟨e, he, hk⟩ := Option.bind_eq_some_iff.1 hway.symm
  cases e with
  | directory es' => exact ⟨es', he⟩
  | file bs => cases hk
  | link t => cases hk

theorem entryAt?_link {t : String} (hl : fs.entryAt? l = some (.link t)) :
    fs'.entryAt? l = some (.link t) := by
  have hway := h.way l
  rw [hl, Option.bind_some] at hway
  obtain ⟨e, he, hk⟩ := Option.bind_eq_some_iff.1 hway.symm
  cases e with
  | link t' =>
    cases hk
    exact he
  | file bs => cases hk
  | directory es => cases hk

theorem none_or_file (hl : (fs.entryAt? l).bind wayFrom = none) :
    fs'.entryAt? l = none ∨ ∃ bs, fs'.entryAt? l = some (.file bs) := by
  rw [h.way l] at hl
  cases hl' : fs'.entryAt? l with
  | none => exact .inl rfl
  | some e =>
    rw [hl', Option.bind_some] at hl
    cases e with
    | file bs => exact .inr ⟨bs, rfl⟩
    | link t => cases hl
    | directory es => cases hl

/-- One step to where there is no directory and no link leads to no directory. -/
theorem directoryOf_follow_cons {k : Nat} {here : Location} {n : String} {ns : List String}
    (h1 : n ≠ ".") (h2 : n ≠ "..") (h3 : ¬ nameLimit < n.utf8ByteSize)
    (hl : (fs.entryAt? (here ++ [n])).bind wayFrom = none) :
    directoryOf (fs'.follow k here (n :: ns)) = .ok none := by
  rw [follow, if_neg h1, if_neg h2, if_neg h3]
  rcases h.none_or_file hl with hl | ⟨bs, hl⟩
  · rw [hl]
    rfl
  · rw [hl]
    dsimp only
    split <;> rfl

theorem directoryOf_follow (k : Nat) (here : Location) (ns : List String) :
    directoryOf (fs.follow k here ns) = directoryOf (fs'.follow k here ns) := by
  fun_induction fs.follow k here ns with
  -- the path ends here
  | case1 k here e he =>
    rw [follow]
    cases e with
    | directory es =>
      obtain ⟨es', he'⟩ := h.exists_directory he
      rw [he']
      rfl
    | link t =>
      rw [h.entryAt?_link he]
    | file bs =>
      rcases h.none_or_file (l := here) (by rw [he]; rfl) with he' | ⟨bs', he'⟩
      · rw [he']
        rfl
      · rw [he']
        rfl
  | case2 k here he =>
    rw [follow]
    rcases h.none_or_file (l := here) (by rw [he]; rfl) with he' | ⟨bs', he'⟩
    · rw [he']
    · rw [he']
      rfl
  -- a dot, a double dot, a long name
  | case3 k here ns ih => rw [ih, follow.eq_2 fs' k here, if_pos rfl]
  | case4 k here ns hdot ih => rw [ih, follow.eq_2 fs' k here, if_neg hdot, if_pos rfl]
  | case5 k here n ns h1 h2 h3 => rw [follow, if_neg h1, if_neg h2, if_pos h3]
  -- nothing or a file, which no path leads through
  | case6 k here n ns h1 h2 h3 he =>
    rw [h.directoryOf_follow_cons h1 h2 h3 (by rw [he]; rfl)]
    rfl
  | case8 k here n ns h1 h2 h3 bs he =>
    rw [h.directoryOf_follow_cons h1 h2 h3 (by rw [he]; rfl)]
    rfl
  | case9 k here n ns h1 h2 h3 bs he =>
    rw [h.directoryOf_follow_cons h1 h2 h3 (by rw [he]; rfl)]
    rfl
  -- a directory, and a link
  | case7 k here n ns h1 h2 h3 es he ih =>
    obtain ⟨es', he'⟩ := h.exists_directory he
    rw [ih, follow.eq_2 fs' k here, if_neg h1, if_neg h2, if_neg h3, he']
  | case10 here n ns h1 h2 h3 t he =>
    rw [follow, if_neg h1, if_neg h2, if_neg h3, h.entryAt?_link he]
  | case11 here n ns h1 h2 h3 t he k ih =>
    simp only [dite_eq_ite] at ih
    rw [ih, follow.eq_2 fs' (k + 1) here, if_neg h1, if_neg h2, if_neg h3, h.entryAt?_link he]

theorem directoryOf_lookup (p : Path) : directoryOf (fs.lookup p) = directoryOf (fs'.lookup p) := by
  unfold lookup
  split
  · rfl
  · split
    · rfl
    · have hbase : fs.base p = fs'.base p := by rw [base, base, h.working]
      rw [hbase]
      exact h.directoryOf_follow _ _ _

end SameWays

/-- File systems that hold the same once files are left out have the same directories and links. -/
theorem Identical.sameWays (hfs : fs.isProper = true) (hfs' : fs'.isProper = true)
    (hdrop : ∀ m e, drop m e = true → e.isFile = true)
    (h : Identical (fs.without drop) (fs'.without drop)) : SameWays fs fs' := by
  have hway : ∀ fs : FileSystem, fs.isProper = true → ∀ l, (fs.entryAt? l).bind wayFrom =
      (((fs.without drop).entryAt? l).map Entry.bare).bind wayFrom := by
    intro fs hfs l
    rw [bare_entryAt?_without_files hdrop hfs]
    cases fs.entryAt? l with
    | none => rfl
    | some e =>
      cases hd : drop l e with
      | false => cases e <;> simp [Option.filter, hd, wayFrom, Entry.bare, Entry.kind]
      | true =>
        have hfile := hdrop l e hd
        cases e with
        | file bs => simp [Option.filter, hd, wayFrom]
        | link t => cases hfile
        | directory es => cases hfile
  exact ⟨h.working, fun l => by rw [hway fs hfs, hway fs' hfs', h.bare l]⟩

theorem leadsTo_isDirectory_eq (h : directoryOf (fs.lookup p) = directoryOf (fs'.lookup p)) :
    fs.leadsTo Entry.isDirectory p = fs'.leadsTo Entry.isDirectory p := by
  have hleads : ∀ fs : FileSystem, fs.leadsTo Entry.isDirectory p =
      ((directoryOf (fs.lookup p)).map Option.isSome).mapError fun f => ⟨f, p.text⟩ := by
    intro fs
    unfold leadsTo
    cases fs.lookup p with
    | error f => cases f <;> rfl
    | ok r =>
      obtain ⟨l, e⟩ := r
      cases e <;> rfl
  rw [hleads fs, hleads fs', h]

end FileSystem
end DocTree
