import Mathlib
import DocTree.Proofs.Digest
import DocTree.Proofs.Report

/-!
# Fingerprints of sources

A source that can be read has a fingerprint of twelve digits, and any other one the empty text
(`fingerprint_eq_ok_iff`). The one path without a fingerprint is one with a null in it. So a report
breaks off only there, and else has a row with the fingerprint of each item, also where an item stands
twice (`hash_of_isTree`).
-/

namespace DocTree

/-- That a text is the fingerprint of a source: of its bytes if its path leads to a file, and else
empty. -/
structure FileSystem.HasFingerprint (fs : FileSystem) (path hash : String) : Prop where
  file : ∀ l bytes, fs.lookup (Path.parse path) = .ok (l, .file bytes) →
    hash = .ofList (Text.hexOfBytes ((Digest.sha1 bytes).take 6)) ∧ hash.length = 12 ∧
      ∀ c ∈ hash.toList, c ∈ Text.hexLetters
  other : (∀ l bytes, fs.lookup (Path.parse path) ≠ .ok (l, .file bytes)) → hash = ""

namespace FileSystem
variable {fs : FileSystem} {path hash hash' : String}

theorem HasFingerprint.eq (h : fs.HasFingerprint path hash) (h' : fs.HasFingerprint path hash') :
    hash = hash' := by
  by_cases hfile : ∃ l bytes, fs.lookup (Path.parse path) = .ok (l, .file bytes)
  · obtain ⟨l, bytes, hfile⟩ := hfile
    rw [(h.file l bytes hfile).1, (h'.file l bytes hfile).1]
  · have hother : ∀ l bytes, fs.lookup (Path.parse path) ≠ .ok (l, .file bytes) :=
      fun l bytes hl => hfile ⟨l, bytes, hl⟩
    rw [h.other hother, h'.other hother]

theorem hasFingerprint_of_read {bytes : List UInt8} (h : fs.read (Path.parse path) = .ok bytes) :
    fs.HasFingerprint path (Digest.fingerprint bytes) := by
  have hfile : ∃ l, fs.lookup (Path.parse path) = .ok (l, .file bytes) := by
    unfold read at h
    split at h
    · rename_i l bs hl
      cases h
      exact ⟨l, hl⟩
    · cases h
    · cases h
  obtain ⟨l, hl⟩ := hfile
  refine ⟨fun l' bytes' hl' => ?_, fun hother => absurd hl (hother l bytes)⟩
  cases hl.symm.trans hl'
  exact ⟨Digest.fingerprint_eq bytes, Digest.length_fingerprint bytes,
    fun c hc => Digest.mem_fingerprint hc⟩

theorem hasFingerprint_empty {f : FileFault} (h : fs.read (Path.parse path) = .error f) :
    fs.HasFingerprint path "" := by
  refine ⟨fun l bytes hl => ?_, fun _ => rfl⟩
  rw [read, hl] at h
  cases h

end FileSystem

namespace Item
variable {fs : FileSystem} {it : Item} {hash : String}

theorem hasFingerprint_of_fingerprint (h : it.fingerprint fs = .ok hash) :
    fs.HasFingerprint it.path hash := by
  unfold fingerprint at h
  split at h
  · rename_i bytes hread
    cases h
    exact FileSystem.hasFingerprint_of_read hread
  · rename_i f hread
    split at h
    · cases h
    · cases h
      exact FileSystem.hasFingerprint_empty hread

theorem fingerprint_eq_ok_iff :
    it.fingerprint fs = .ok hash ↔ '\x00' ∉ it.path.toList ∧ fs.HasFingerprint it.path hash := by
  constructor
  · intro h
    exact ⟨(exists_fingerprint_iff fs it).1 ⟨hash, h⟩, hasFingerprint_of_fingerprint h⟩
  · rintro ⟨hnull, hhash⟩
    obtain ⟨hash', h⟩ := (exists_fingerprint_iff fs it).2 hnull
    rwa [hhash.eq (hasFingerprint_of_fingerprint h)]

end Item

namespace Report
variable {s : Store} {fs : FileSystem} {base : String}

/-- An outline has the items of a tree in pre-order, be it that some stand twice. -/
theorem exists_outline_of_isTree {t : Rose Nat} (h : s.IsTree t) : ∃ items,
    outline s t.root = .ok items ∧
      List.Forall₂ (fun i y => s.get? i = some y.2) t.preorder items := by
  refine ⟨_, bind_eq_ok.2 ⟨_, Store.walk_of_isTree "walk" t h, rfl⟩, ?_⟩
  have hget := Store.exists_get?_of_isTree t h
  generalize depths s t.preorder = d
  generalize t.preorder = ids at hget
  induction ids with
  | nil => exact .nil
  | cons i ids ih =>
    obtain ⟨it, hit⟩ := hget i (List.mem_cons_self ..)
    rw [List.filterMap_cons, hit]
    exact .cons hit (ih fun j hj => hget j (List.mem_cons_of_mem _ hj))

/-- The paths in an outline are those that the numbers have. -/
theorem forall_items_iff {P : String → Prop} {ids : List Nat} {items : List (Nat × Item)}
    (h : List.Forall₂ (fun i y => s.get? i = some y.2) ids items) :
    (∀ y ∈ items, P y.2.path) ↔ ∀ i ∈ ids, ∀ p, s.path? i = some p → P p := by
  induction h with
  | nil => simp
  | @cons i y ids items hit _ ih =>
    have hpath : s.path? i = some y.2.path := by rw [Store.path?, hit, Option.map_some]
    rw [List.forall_mem_cons, List.forall_mem_cons, ih, hpath]
    simp

/-- That a row tells the path of an item, and the fingerprint of its source. -/
def HasHash (s : Store) (fs : FileSystem) (i : Nat) (r : Row) : Prop :=
  s.path? i = some r.path ∧ fs.HasFingerprint r.path r.hash

theorem HasHash.eq {i : Nat} {r : Row} {path hash : String} (h : HasHash s fs i r)
    (hi : s.path? i = some path) (hhash : fs.HasFingerprint path hash) :
    r.path = path ∧ r.hash = hash := by
  have hpath : r.path = path := Option.some.inj (h.1.symm.trans hi)
  exact ⟨hpath, (hpath ▸ h.2).eq hhash⟩

theorem hasHash_of_row {n i : Nat} {it : Item} {r : Row} (hit : s.get? i = some it)
    (h : row fs base n it = .ok r) : HasHash s fs i r := by
  obtain ⟨hash, hhash, ⟨⟩⟩ := bind_eq_ok.1 h
  refine ⟨?_, Item.hasFingerprint_of_fingerprint hhash⟩
  rw [Store.path?, hit, Option.map_some]

/-- An item has a fingerprint, that of its file or the empty text, if and only if its path holds no
null. There are rows of a tree, where items may stand twice, if and only if no path in it does; then
there is one for each item, in pre-order, with its fingerprint. -/
theorem hash_of_isTree (fs : FileSystem) :
    (∀ (it : Item) (hash : String), it.fingerprint fs = .ok hash ↔
      '\x00' ∉ it.path.toList ∧ fs.HasFingerprint it.path hash) ∧
    (∀ it : Item, (∃ hash, it.fingerprint fs = .ok hash) ↔ '\x00' ∉ it.path.toList) ∧
    ∀ (s : Store) (t : Rose Nat), s.IsTree t → ∀ base : String,
      ((∃ rs, rows s fs t.root base = .ok rs) ↔
        ∀ i ∈ t.preorder, ∀ p, s.path? i = some p → '\x00' ∉ p.toList) ∧
      ∀ rs, rows s fs t.root base = .ok rs → List.Forall₂ (HasHash s fs) t.preorder rs := by
  refine ⟨fun it hash => Item.fingerprint_eq_ok_iff, Item.exists_fingerprint_iff fs, ?_⟩
  intro s t h base
  obtain ⟨items, hitems, hall⟩ := exists_outline_of_isTree h
  simp only [rows_eq_ok hitems]
  constructor
  · rw [exists_mapM_iff, ← forall_items_iff hall]
    simp only [exists_row_iff]
  · intro rs hrs
    refine forall₂_trans ?_ hall (mapM_eq_ok.1 hrs)
    exact fun i y r hit hr => hasHash_of_row hit hr

/-- A tag that has another one below it twice. -/
def doubled : Store :=
  (Store.empty.add "a/tag.md" [] [] []).add "tag.md" [] [] [⟨0, by decide⟩, ⟨0, by decide⟩]

theorem isTree_doubled : doubled.IsTree (.node 1 [.node 0 [], .node 0 []]) :=
  ⟨⟨_, rfl, rfl⟩, ⟨⟨_, rfl, rfl⟩, trivial⟩, ⟨⟨_, rfl, rfl⟩, trivial⟩, trivial⟩

/-- The first six bytes of the digest of nothing. -/
theorem fingerprint_nil : Digest.fingerprint [] = "da39a3ee5e6b" := by decide +kernel

/-- The source of the root is there and empty, that of the tag below leads nowhere. The tag has a row
for each place. -/
theorem hash_of_isTree_sample : ∃ rs, rows doubled ⟨[("tag.md", .file [])], []⟩ 1 "" = .ok rs ∧
    rs.map Row.path = ["tag.md", "a/tag.md", "a/tag.md"] ∧
    rs.map Row.hash = ["da39a3ee5e6b", "", ""] := by
  let fs : FileSystem := ⟨[("tag.md", .file [])], []⟩
  have hnull : ∀ i ∈ [1, 0, 0], ∀ p, doubled.path? i = some p → '\x00' ∉ p.toList := by
    have hall : ∀ p ∈ ["tag.md", "a/tag.md", "a/tag.md"], '\x00' ∉ p.toList := by decide
    intro i hi p hp
    have hmem : some p ∈ [1, 0, 0].map doubled.path? := List.mem_map.2 ⟨i, hi, hp⟩
    exact hall p ((List.mem_map_of_injective (Option.some_injective _)).1 hmem)
  have hfile : fs.HasFingerprint "tag.md" "da39a3ee5e6b" := by
    have hparse : Path.parse "tag.md" = ⟨.relative, ["tag.md"]⟩ := by decide +kernel
    rw [← fingerprint_nil]
    refine FileSystem.hasFingerprint_of_read ?_
    rw [hparse]
    exact FileSystem.read_name rfl rfl (by decide +kernel) (by decide +kernel)
  have hmissing : fs.HasFingerprint "a/tag.md" "" := by
    have hparse : Path.parse "a/tag.md" = ⟨.relative, ["a", "tag.md"]⟩ := by decide +kernel
    have hlookup : fs.lookup ⟨.relative, ["a", "tag.md"]⟩ = .error .missing := by
      have hshort : ¬ FileSystem.nameLimit < "a".utf8ByteSize := by decide +kernel
      rw [FileSystem.lookup, if_neg (by decide), if_neg (by decide +kernel)]
      simp [fs, FileSystem.follow, FileSystem.base, FileSystem.entryAt?, Entry.at?, FileSystem.root,
        Entry.children, hshort, List.lookup]
    have hread : fs.read (Path.parse "a/tag.md") = .error ⟨.missing, "a/tag.md"⟩ := by
      rw [FileSystem.read, hparse, hlookup]
      rfl
    exact FileSystem.hasFingerprint_empty hread
  obtain ⟨hrows, hhash⟩ := (hash_of_isTree fs).2.2 doubled _ isTree_doubled ""
  obtain ⟨rs, hrs⟩ := hrows.2 hnull
  refine ⟨rs, hrs, ?_⟩
  obtain _ | ⟨h₁, _ | ⟨h₂, _ | ⟨h₃, _ | _⟩⟩⟩ := hhash rs hrs
  have hroot : doubled.path? 1 = some "tag.md" := rfl
  have hbelow : doubled.path? 0 = some "a/tag.md" := rfl
  obtain ⟨hp₁, hh₁⟩ := h₁.eq hroot hfile
  obtain ⟨hp₂, hh₂⟩ := h₂.eq hbelow hmissing
  obtain ⟨hp₃, hh₃⟩ := h₃.eq hbelow hmissing
  simp only [List.map_cons, List.map_nil, hp₁, hp₂, hp₃, hh₁, hh₂, hh₃, and_self]

/-- A path with a null has no fingerprint, not even the empty one. -/
theorem not_forall_fingerprint : ¬ ∀ (fs : FileSystem) (it : Item),
    ∃ hash, it.fingerprint fs = .ok hash ∧ fs.HasFingerprint it.path hash := by
  intro h
  obtain ⟨hash, hhash, -⟩ := h ⟨[], []⟩ (.ofPath "\x00/tag.md" [] [] [])
  exact (Item.fingerprint_eq_ok_iff.1 hhash).1 (by decide)

end Report
end DocTree
