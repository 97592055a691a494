import Mathlib
import DocTree.FileSystem
import DocTree.Proofs.Text

/-!
# Lookup in proper file systems

A file system is proper if each directory in it holds distinct names, and none that means something
else in a path. In a proper file system the path of an entry that is no link leads to this entry
(`lookup_child`), unless path or name are too long.
-/

namespace DocTree

/-- Whether an entry may have this name: it is not empty, no dots, no slash and no null in it. -/
def isEntryName (n : String) : Bool :=
  Path.isName n && n != ".." && !n.toList.contains '/' && !n.toList.contains '\x00'

theorem isEntryName_iff {n : String} : isEntryName n = true ↔
    Path.isName n = true ∧ n ≠ ".." ∧ '/' ∉ n.toList ∧ '\x00' ∉ n.toList := by
  simp [isEntryName, and_assoc]

theorem ne_dot_of_isName {n : String} (h : Path.isName n = true) : n ≠ "." := by
  rintro rfl
  exact absurd h (by decide)

namespace Entry

mutual

/-- Whether every directory at or below the entry holds distinct names that entries may have. -/
def isProper : Entry → Bool
  | .directory es => decide (es.map Prod.fst).Nodup && areProper es
  | _ => true

/-- Whether the named entries are proper and may have these names. -/
def areProper : List (String × Entry) → Bool
  | [] => true
  | (n, e) :: es => isEntryName n && e.isProper && areProper es

end

theorem areProper_iff {es : List (String × Entry)} :
    areProper es = true ↔ ∀ n e, (n, e) ∈ es → isEntryName n = true ∧ e.isProper = true := by
  induction es with
  | nil => simp [areProper]
  | cons x es ih =>
    obtain ⟨n, e⟩ := x
    simp only [areProper, Bool.and_eq_true, ih, List.mem_cons, Prod.mk.injEq]
    constructor
    · rintro ⟨h, h'⟩ m d (⟨rfl, rfl⟩ | hm)
      · exact h
      · exact h' m d hm
    · exact fun h => ⟨h n e (.inl ⟨rfl, rfl⟩), fun m d hm => h m d (.inr hm)⟩

theorem isProper_directory {es : List (String × Entry)} : (directory es).isProper = true ↔
    (es.map Prod.fst).Nodup ∧ ∀ n e, (n, e) ∈ es → isEntryName n = true ∧ e.isProper = true := by
  rw [isProper, Bool.and_eq_true, decide_eq_true_iff, areProper_iff]

theorem lookup_of_mem {es : List (String × Entry)} (hn : (es.map Prod.fst).Nodup) {n : String}
    {e : Entry} (h : (n, e) ∈ es) : es.lookup n = some e := by
  induction es with
  | nil => cases h
  | cons x es ih =>
    obtain ⟨m, d⟩ := x
    rw [List.map_cons, List.nodup_cons] at hn
    rcases List.mem_cons.1 h with h | h
    · cases h
      simp [List.lookup]
    · have hmem : n ∈ es.map Prod.fst := List.mem_map_of_mem h
      have hne : n ≠ m := fun hm => hn.1 (hm ▸ hmem)
      rw [List.lookup, beq_eq_false_iff_ne.2 hne]
      exact ih hn.2 h

theorem mem_of_lookup {es : List (String × Entry)} {n : String} {e : Entry}
    (h : es.lookup n = some e) : (n, e) ∈ es := by
  induction es with
  | nil => cases h
  | cons x es ih =>
    obtain ⟨m, d⟩ := x
    rw [List.lookup] at h
    split at h
    · rename_i hm
      cases h
      rw [eq_of_beq hm]
      exact List.mem_cons_self ..
    · exact List.mem_cons_of_mem _ (ih h)

theorem isProper_of_at? {l : Location} {e d : Entry} (he : e.isProper = true)
    (h : e.at? l = some d) : d.isProper = true := by
  induction l generalizing e with
  | nil => cases h; exact he
  | cons n l ih =>
    rw [at?] at h
    split at h
    · rename_i c hc
      cases e with
      | directory es => exact ih ((isProper_directory.1 he).2 n c (mem_of_lookup hc)).2 h
      | file bs => simp [children] at hc
      | link t => simp [children] at hc
    · cases h

theorem at?_append (l m : Location) (e : Entry) : e.at? (l ++ m) = (e.at? l).bind (·.at? m) := by
  induction l generalizing e with
  | nil => simp [at?]
  | cons n l ih =>
    simp only [List.cons_append, at?]
    cases e.children.lookup n with
    | none => rfl
    | some d => exact ih d

end Entry

namespace FileSystem
variable {fs : FileSystem}

/-- Whether the file system is proper from its root on. -/
def isProper (fs : FileSystem) : Bool := fs.root.isProper

theorem entryAt?_child {l : Location} {es : List (String × Entry)} {n : String} {e : Entry}
    (hl : fs.entryAt? l = some (.directory es)) (hn : es.lookup n = some e) :
    fs.entryAt? (l ++ [n]) = some e := by
  rw [entryAt?, Entry.at?_append, ← entryAt?, hl]
  simp [Entry.at?, Entry.children, hn]

theorem lookup_of_entryAt?_child {l : Location} {n : String} {es : List (String × Entry)} {e : Entry}
    (hl : fs.entryAt? l = some (.directory es)) (he : fs.entryAt? (l ++ [n]) = some e) :
    es.lookup n = some e := by
  have hb : fs.entryAt? (l ++ [n]) = (fs.entryAt? l).bind (·.at? [n]) := Entry.at?_append l [n] _
  rw [hb, hl, Option.bind_some, Entry.at?] at he
  split at he
  · rename_i c hc
    cases he
    exact hc
  · cases he

theorem entryAt?_of_follow {links : Nat} {here l : Location} {ns : List String} {e : Entry}
    (h : fs.follow links here ns = .ok (l, e)) : fs.entryAt? l = some e := by
  fun_induction fs.follow links here ns with
  | case1 _ _ _ he => cases h; exact he
  | case2 => cases h
  | case3 _ _ _ ih => exact ih h
  | case4 _ _ _ _ ih => exact ih h
  | case5 => cases h
  | case6 => cases h
  | case7 _ _ _ _ _ _ _ _ _ ih => exact ih h
  | case8 _ _ _ _ _ _ _ _ he => cases h; exact he
  | case9 => cases h
  | case10 => cases h
  | case11 _ _ _ _ _ _ _ _ _ ih => exact ih h

/-- Names that lead to a directory can be followed on from there, with the links that are left. -/
theorem follow_append {links : Nat} {here l : Location} {ns : List String}
    {es : List (String × Entry)} (h : fs.follow links here ns = .ok (l, .directory es)) :
    ∃ k, ∀ ms, fs.follow links here (ns ++ ms) = fs.follow k l ms := by
  fun_induction fs.follow links here ns with
  | case1 links here e he =>
    cases h
    exact ⟨links, fun _ => rfl⟩
  | case2 => cases h
  | case3 links here names ih =>
    obtain ⟨k, hk⟩ := ih h
    refine ⟨k, fun ms => ?_⟩
    rw [List.cons_append, follow, if_pos rfl, hk]
  | case4 links here names hd ih =>
    obtain ⟨k, hk⟩ := ih h
    refine ⟨k, fun ms => ?_⟩
    rw [List.cons_append, follow, if_neg (by decide), if_pos rfl, hk]
  | case5 => cases h
  | case6 => cases h
  | case7 links here name names h1 h2 h3 ds hd ih =>
    obtain ⟨k, hk⟩ := ih h
    refine ⟨k, fun ms => ?_⟩
    rw [List.cons_append, follow, if_neg h1, if_neg h2, if_neg h3, hd]
    exact hk ms
  | case8 => cases h
  | case9 => cases h
  | case10 => cases h
  | case11 here name names h1 h2 h3 t ht links ih =>
    obtain ⟨k, hk⟩ := ih h
    refine ⟨k, fun ms => ?_⟩
    rw [List.cons_append, follow, if_neg h1, if_neg h2, if_neg h3, ht]
    simpa only [List.append_assoc, dite_eq_ite] using hk ms

theorem follow_singleton {k : Nat} {l : Location} {es : List (String × Entry)} {n : String}
    {e : Entry} (hl : fs.entryAt? l = some (.directory es)) (he : es.lookup n = some e)
    (hn : isEntryName n = true) (ht : ∀ t, e ≠ .link t) :
    fs.follow k l [n] =
      if nameLimit < n.utf8ByteSize then .error .nameTooLong else .ok (l ++ [n], e) := by
  obtain ⟨h1, h2, -⟩ := isEntryName_iff.1 hn
  rw [follow, if_neg (ne_dot_of_isName h1), if_neg h2, entryAt?_child hl he]
  cases e with
  | file bs => rfl
  | link t => exact absurd rfl (ht t)
  | directory ds => simp only [follow, entryAt?_child hl he]

theorem follow_ne_nullCharacter (links : Nat) (here : Location) (ns : List String) :
    fs.follow links here ns ≠ .error .nullCharacter := by
  fun_induction fs.follow links here ns with
  | case1 => nofun
  | case2 => nofun
  | case3 _ _ _ ih => exact ih
  | case4 _ _ _ _ ih => exact ih
  | case5 => nofun
  | case6 => nofun
  | case7 _ _ _ _ _ _ _ _ _ ih => exact ih
  | case8 => nofun
  | case9 => nofun
  | case10 => nofun
  | case11 _ _ _ _ _ _ _ _ _ ih => exact ih

theorem lookup_eq_nullCharacter (fs : FileSystem) (p : Path) :
    fs.lookup p = .error .nullCharacter ↔ hasNull p = true := by
  unfold lookup
  split
  · rename_i hnull
    exact iff_of_true rfl hnull
  · rename_i hnull
    split
    · exact iff_of_false nofun hnull
    · exact iff_of_false (follow_ne_nullCharacter _ _ _) hnull

theorem hasNull_parse (s : String) : hasNull (Path.parse s) = true ↔ '\x00' ∈ s.toList := by
  have hne : '\x00' ≠ '/' := by decide
  rw [Text.mem_iff_mem_splitAt hne, hasNull, List.any_eq_true]
  simp only [Path.parse, List.mem_filter, String.partsAt, List.mem_map, List.contains_iff_mem]
  constructor
  · rintro ⟨n, ⟨⟨p, hp, rfl⟩, -⟩, hnull⟩
    rw [String.toList_ofList] at hnull
    exact ⟨p, hp, hnull⟩
  · rintro ⟨p, hp, hnull⟩
    refine ⟨.ofList p, ⟨⟨p, hp, rfl⟩, ?_⟩, by rwa [String.toList_ofList]⟩
    have hempty : String.ofList p ≠ "" := fun h =>
      absurd (String.ofList_eq_empty_iff.1 h ▸ hnull) List.not_mem_nil
    have hdot : String.ofList p ≠ "." := fun h => by
      rw [← String.toList_ofList (l := p), h] at hnull
      exact absurd hnull (by decide)
    simp [Path.isName, hempty, hdot]

theorem follow_of_lookup {p : Path} {r : Location × Entry} (h : fs.lookup p = .ok r) :
    fs.follow linkLimit (fs.base p) p.parts = .ok r := by
  unfold lookup at h
  split at h
  · cases h
  · split at h
    · cases h
    · exact h

theorem entryAt?_of_lookup {p : Path} {l : Location} {e : Entry} (h : fs.lookup p = .ok (l, e)) :
    fs.entryAt? l = some e :=
  entryAt?_of_follow (follow_of_lookup h)

theorem isProper_of_lookup (hfs : fs.isProper = true) {p : Path} {l : Location} {e : Entry}
    (h : fs.lookup p = .ok (l, e)) : e.isProper = true :=
  Entry.isProper_of_at? hfs (entryAt?_of_lookup h)

/-- Whether the path of the entry `n` in the directory at `p` is too long to be looked up, or `n` is. -/
def isTooLong (p : Path) (n : String) : Bool :=
  decide (pathLimit ≤ (p.child n).text.utf8ByteSize) || decide (nameLimit < n.utf8ByteSize)

/-- The path of an entry in a directory leads to this entry, unless it is a link or too long. -/
theorem lookup_child_eq {p : Path} {l : Location} {es : List (String × Entry)} {n : String} {e : Entry}
    (hp : fs.lookup p = .ok (l, .directory es)) (he : es.lookup n = some e)
    (hn : isEntryName n = true) (ht : ∀ t, e ≠ .link t) :
    fs.lookup (p.child n) =
      if isTooLong p n then .error .nameTooLong else .ok (l ++ [n], e) := by
  have hnull : hasNull p = false := by
    cases h : hasNull p with
    | false => rfl
    | true => simp [lookup, h] at hp
  have hnull' : hasNull (p.child n) = false := by
    obtain ⟨-, -, -, h⟩ := isEntryName_iff.1 hn
    simpa [hasNull, Path.child, h] using hnull
  have hfollow := follow_of_lookup hp
  obtain ⟨k, hk⟩ := follow_append hfollow
  have hchild : fs.follow linkLimit (fs.base (p.child n)) (p.child n).parts =
      if nameLimit < n.utf8ByteSize then .error .nameTooLong else .ok (l ++ [n], e) := by
    rw [← follow_singleton (k := k) (entryAt?_of_follow hfollow) he hn ht, ← hk]
    rfl
  rw [lookup, hnull', if_neg (by decide), hchild, isTooLong]
  by_cases hpath : pathLimit ≤ (p.child n).text.utf8ByteSize
  · simp [hpath]
  · simp [hpath]

theorem lookup_child {p : Path} {l : Location} {es : List (String × Entry)} {n : String} {e : Entry}
    (hp : fs.lookup p = .ok (l, .directory es)) (he : es.lookup n = some e)
    (hn : isEntryName n = true) (ht : ∀ t, e ≠ .link t)
    (hlong : fs.lookup (p.child n) ≠ .error .nameTooLong) :
    fs.lookup (p.child n) = .ok (l ++ [n], e) := by
  have h := lookup_child_eq hp he hn ht
  split at h
  · exact absurd h hlong
  · exact h

/-- What is found under a name in a directory is an entry of it. -/
theorem exists_mem_of_lookup_child {p : Path} {l : Location} {es : List (String × Entry)}
    {n : String} {r : Location × Entry} (hp : fs.lookup p = .ok (l, .directory es))
    (hn : isEntryName n = true) (h : fs.lookup (p.child n) = .ok r) : ∃ e, (n, e) ∈ es := by
  obtain ⟨k, hk⟩ := follow_append (follow_of_lookup hp)
  have hchild : fs.follow k l [n] = .ok r := (hk [n]).symm.trans (follow_of_lookup h)
  obtain ⟨h1, h2, -⟩ := isEntryName_iff.1 hn
  rw [follow, if_neg (ne_dot_of_isName h1), if_neg h2] at hchild
  split at hchild
  · cases hchild
  · cases he : fs.entryAt? (l ++ [n]) with
    | none =>
      rw [he] at hchild
      cases hchild
    | some e =>
      exact ⟨e, Entry.mem_of_lookup (lookup_of_entryAt?_child (entryAt?_of_lookup hp) he)⟩

/-! ### Where nothing is above -/

theorem lookup_working (hw : fs.working = []) :
    fs.lookup ⟨.relative, []⟩ = .ok ([], .directory fs.entries) := by
  rw [lookup, if_neg (by decide), if_neg (by decide +kernel)]
  simp [base, hw, follow, entryAt?, Entry.at?, root]

/-- A name that is not too long leads to the file of this name. -/
theorem read_name (hw : fs.working = []) {n : String} {bs : List UInt8}
    (he : fs.entries.lookup n = some (.file bs)) (hn : isEntryName n = true)
    (hshort : isTooLong ⟨.relative, []⟩ n = false) : fs.read ⟨.relative, [n]⟩ = .ok bs := by
  have hlookup : fs.lookup ⟨.relative, [n]⟩ = .ok ([n], .file bs) := by
    have h := lookup_child_eq (lookup_working hw) he hn fun t => nofun
    rwa [hshort, if_neg (by decide)] at h
  rw [read, hlookup]

end FileSystem
end DocTree
