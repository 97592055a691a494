import Mathlib
import DocTree.Value

/-!
# Entries of mappings

What a lookup of a text finds among the entries of a mapping, and after one more entry was put in. Of
which values entries are taken at all (`entriesOr`): of mappings, and of what counts as absent.
-/

namespace DocTree.Value

theorem lookup_cons (k : Key) (e : Value × Value) (es : List (Value × Value)) :
    lookup k (e :: es) = if e.1.key? = some k then some e.2 else lookup k es := by
  unfold lookup
  by_cases h : e.1.key? = some k
  · simp [h]
  · have hb : (e.1.key? == some k) = false := beq_eq_false_iff_ne.2 h
    simp [hb, h]

theorem key?_eq_str {v : Value} {s : String} : v.key? = some (.str s) ↔ v = .str s := by
  constructor
  · intro h
    cases v with
    | str t => simpa [key?] using h
    | float x =>
      rw [key?, Option.some.injEq] at h
      cases hx : Number.wholeOf? x <;> rw [hx] at h <;> cases h
    | datetime t =>
      rw [key?] at h
      split at h <;> cases h
    | _ => cases h
  · rintro rfl
    rfl

/-- An entry put in changes what is found under its own key, and under no other. -/
theorem lookup_insertEntry (m n : String) (v : Value) (es : List (Value × Value)) :
    lookup (.str m) (insertEntry (.str n) v es) = if n = m then some v else lookup (.str m) es := by
  induction es with
  | nil =>
    have hkey : (str n).key? = some (.str m) ↔ n = m := by simp [key?]
    rw [insertEntry, lookup_cons]
    simp only [hkey]
  | cons e es ih =>
    obtain ⟨k, w⟩ := e
    have hstr : (str n).key? = some (.str n) := rfl
    rw [insertEntry, hstr]
    by_cases hk : k.key? = some (.str n)
    · have hkm : k.key? = some (.str m) ↔ n = m := by simp [hk]
      rw [hk, beq_self_eq_true, if_pos rfl, lookup_cons, lookup_cons]
      simp only [hkm]
      split <;> rfl
    · have hb : (k.key? == some (.str n)) = false := beq_eq_false_iff_ne.2 hk
      rw [hb, if_neg (by decide), lookup_cons, lookup_cons, ih]
      by_cases hnm : n = m
      · subst hnm
        rw [if_neg hk, if_pos rfl, if_pos rfl]
      · rw [if_neg hnm, if_neg hnm]

theorem insertEntry_of_ne {k : Value} {es : List (Value × Value)}
    (h : ∀ e ∈ es, e.1.key? ≠ k.key?) (v : Value) : insertEntry k v es = es ++ [(k, v)] := by
  induction es with
  | nil => rfl
  | cons e es ih =>
    obtain ⟨hk, hes⟩ := List.forall_mem_cons.1 h
    rw [insertEntry, beq_eq_false_iff_ne.2 hk, if_neg (by decide), ih hes, List.cons_append]

/-- Entries under keys that are all different are put in as they come. -/
theorem foldl_insertEntry {acc es : List (Value × Value)}
    (h : ((acc ++ es).map fun e => e.1.key?).Nodup) :
    es.foldl (fun acc e => insertEntry e.1 e.2 acc) acc = acc ++ es := by
  induction es generalizing acc with
  | nil => exact (List.append_nil _).symm
  | cons e es ih =>
    have hnew : ∀ e' ∈ acc, e'.1.key? ≠ e.1.key? := by
      intro e' he' heq
      rw [List.map_append, List.nodup_append] at h
      exact h.2.2 _ (List.mem_map_of_mem he') _ (List.mem_map_of_mem (List.mem_cons_self ..)) heq
    rw [List.append_cons] at h
    rw [List.foldl_cons, insertEntry_of_ne hnew, ih h, ← List.append_cons]

/-- The entries of a mapping with texts as keys. -/
def named (es : List (String × Value)) : List (Value × Value) := es.map fun e => (.str e.1, e.2)

theorem foldl_insertEntry_named {es : List (String × Value)} (h : (es.map Prod.fst).Nodup) :
    (named es).foldl (fun acc e => insertEntry e.1 e.2 acc) [] = named es := by
  refine foldl_insertEntry ?_
  have hkeys : (named es).map (fun e => e.1.key?) = (es.map Prod.fst).map fun n => some (.str n) := by
    rw [named, List.map_map, List.map_map]
    rfl
  rw [List.nil_append, hkeys]
  refine h.map fun m n heq => ?_
  cases heq
  rfl

/-! ### What is taken for a mapping -/

theorem kindName_bare (v : Value) : v.bare.kindName = v.kindName := by
  fun_induction bare v with
  | case1 id v ih => exact ih
  | case2 => rfl

/-- Besides null, what counts as absent is a false, a zero, or something empty. -/
theorem isFalsy_iff {v : Value} : v.isFalsy = true ↔
    v.bare ∈ [null, bool false, int 0, str "", bytes [], list [], tuple [], map [], set []] ∨
      ∃ x, v.bare = float x ∧ (x == 0) = true := by
  unfold isFalsy
  cases v.bare <;> simp

section
variable {ε : Type} {kind : String → ε} {v : Value} {es : List (Value × Value)}

/-- The entries of a value that is to be a mapping, with none for what counts as absent; `kind` tells
of any other value. -/
def entriesOr (kind : String → ε) (v : Value) : Except ε (List (Value × Value)) :=
  if v.isFalsy then .ok []
  else match v.bare with
    | .map es => .ok es
    | v => .error (kind v.kindName)

theorem entriesOr_of_isFalsy (h : v.isFalsy = true) : v.entriesOr kind = .ok [] := if_pos h

theorem entriesOr_of_bare (h : v.bare = .map es) : v.entriesOr kind = .ok es := by
  have hfalsy : v.isFalsy = es.isEmpty := by rw [isFalsy, h]
  rw [entriesOr, hfalsy, h]
  split
  · rename_i hempty
    rw [List.isEmpty_iff.1 hempty]
  · rfl

theorem entriesOr_eq_error (hfalsy : v.isFalsy = false) (h : ∀ es, v.bare ≠ .map es) :
    v.entriesOr kind = .error (kind v.kindName) := by
  rw [entriesOr, hfalsy, if_neg (by decide), ← kindName_bare]
  split
  · exact absurd ‹_› (h _)
  · rfl

/-- That a value is a mapping with these entries, or null, which has none. -/
def HasEntries (v : Value) (es : List (Value × Value)) : Prop :=
  v.bare = .map es ∨ v = .null ∧ es = []

theorem entriesOr_of_hasEntries (h : v.HasEntries es) : v.entriesOr kind = .ok es := by
  rcases h with h | ⟨rfl, rfl⟩
  · exact entriesOr_of_bare h
  · rfl

theorem entriesOr_of_not_hasEntries (hfalsy : v.isFalsy = true → ∃ es, v.HasEntries es)
    (h : ∀ es, ¬v.HasEntries es) : v.entriesOr kind = .error (kind v.kindName) := by
  refine entriesOr_eq_error ?_ fun es hes => h es (.inl hes)
  rw [← Bool.not_eq_true]
  intro hv
  obtain ⟨es, hes⟩ := hfalsy hv
  exact h es hes

theorem entriesOr_eq_ok (hfalsy : v.isFalsy = true → ∃ es, v.HasEntries es) :
    v.entriesOr kind = .ok es ↔ v.HasEntries es := by
  refine ⟨fun h => ?_, entriesOr_of_hasEntries⟩
  by_cases hany : ∃ fs, v.HasEntries fs
  · obtain ⟨fs, hfs⟩ := hany
    obtain rfl := Except.ok.inj (h.symm.trans (entriesOr_of_hasEntries hfs))
    exact hfs
  · rw [entriesOr_of_not_hasEntries hfalsy (not_exists.1 hany)] at h
    cases h

end

end DocTree.Value
