import Mathlib
import DocTree.Proofs.Except
import DocTree.Proofs.Value
import DocTree.Proofs.Yaml.Load

/-!
# Texts that are a mapping

A document whose root is a mapping with texts for keys has the mapping of these to the values of its
entries (`Node.value_of_stands`). So a mapping of plain texts without aliases is read as written
(`load_eq_map`), and so is one with such mappings in it, if no key comes twice (`load_of_fits`).
-/

namespace DocTree.Yaml

namespace Node

/-- The text of a node that is one. -/
def plainText? : Node → Option String
  | .scalar t s _ => if t = Tag.str then some s else none
  | _ => none

def plainEntry? (e : Node × Node) : Option (String × String) :=
  match e.1.plainText?, e.2.plainText? with
  | some k, some v => some (k, v)
  | _, _ => none

/-- The entries of a mapping of texts. -/
def plainEntries? : Node → Option (List (String × String))
  | .mapping _ t es _ => if t = Tag.map then es.mapM plainEntry? else none
  | _ => none

theorem plainText?_eq_some {n : Node} {s : String} (h : n.plainText? = some s) :
    ∃ m, n = .scalar Tag.str s m := by
  cases n with
  | scalar t s' m =>
    rw [plainText?] at h
    split at h
    · rename_i ht
      cases h
      exact ⟨m, by rw [ht]⟩
    · cases h
  | unpaired => cases h
  | sequence => cases h
  | mapping => cases h
  | enclosing => cases h

/-! ### Mappings under texts -/

section
variable {depth : Nat} {free : List Nat} {e : Node × Node} {es : List (Node × Node)}
  {p : Value × Value} {ps : List (Value × Value)}

/-- That an entry has a text for its key, and these for the values of its key and of itself. -/
structure Stands (depth : Nat) (free : List Nat) (e : Node × Node) (p : Value × Value) : Prop where
  tag : e.1.tag = Tag.str
  key : e.1.scalar? = .ok (some p.1)
  value : e.2.value [] (depth + 1) free = .ok p.2

theorem plainKey_of_tag (h : e.1.tag = Tag.str) : plainKey e = e := by
  obtain ⟨k, v⟩ := e
  cases k with
  | scalar t s m =>
    obtain rfl : t = Tag.str := h
    rfl
  | unpaired t us m =>
    obtain rfl : t = Tag.str := h
    rfl
  | _ => rfl

theorem mergeAll_of_tags (knots : Knots) (free : List Nat) (m : Mark)
    (h : ∀ e ∈ es, e.1.tag = Tag.str) : mergeAll knots free m es = .ok ([], es) := by
  induction es with
  | nil => rw [mergeAll]
  | cons e es ih =>
    obtain ⟨he, hes⟩ := List.forall_mem_cons.1 h
    have hkey : (e.1.tag == Tag.merge) = false := by
      rw [he]
      decide
    rw [mergeAll, hkey, if_neg (by decide), ih hes, plainKey_of_tag he]
    rfl

/-- No key of such entries is a collection. -/
theorem forIn_of_scalars (m : Mark) (h : ∀ e ∈ es, ∃ v, e.1.scalar? = .ok (some v)) :
    (forIn es PUnit.unit fun e _ => do
      if (← e.1.scalar?).isNone then unhashable m e.1
      return ForInStep.yield PUnit.unit : Except Error PUnit) = .ok PUnit.unit := by
  induction es with
  | nil => rfl
  | cons e es ih =>
    obtain ⟨⟨v, hv⟩, hes⟩ := List.forall_mem_cons.1 h
    rw [List.forIn_cons, hv]
    exact ih hes

theorem forall_of_stands {q : Node × Node → Prop} (h : List.Forall₂ (Stands depth free) es ps)
    (hq : ∀ e p, Stands depth free e p → q e) : ∀ e ∈ es, q e := by
  induction h with
  | nil => exact fun e he => absurd he List.not_mem_nil
  | cons h _ ih => exact List.forall_mem_cons.2 ⟨hq _ _ h, ih⟩

theorem mapEntries_of_stands (id : Nat) (t : String) (m : Mark)
    (h : List.Forall₂ (Stands depth free) es ps) :
    value.mapEntries [] (mapping id t es m) = .ok es := by
  have hmerge : entriesOf [] [] (mapping id t es m) = .ok es := by
    rw [entriesOf, List.erase_nil, mergeAll_of_tags [] [] m (forall_of_stands h fun _ _ => Stands.tag)]
    rfl
  rw [value.mapEntries, List.map_nil, hmerge]
  exact congrArg (· >>= fun _ => pure es)
    (forIn_of_scalars m (forall_of_stands h fun _ _ h => ⟨_, h.key⟩))

theorem mapM_of_stands (h : List.Forall₂ (Stands depth free) es ps) :
    (es.mapM fun e => do
      return (← e.1.value [] (depth + 1) free, ← e.2.value [] (depth + 1) free) :
        Except Error (List (Value × Value))) = .ok ps := by
  refine mapM_eq_ok.2 (h.imp fun e p h => ?_)
  rw [value_eq_ok h.key, h.value]
  rfl

/-- The value of a mapping is made of the values of its keys and entries. -/
theorem value_of_stands (id : Nat) (m : Mark) (h : List.Forall₂ (Stands depth free) es ps) :
    (mapping id Tag.map es m).value [] (depth + 2) free = .ok (.map (mappingOf ps)) := by
  have hscalar : (mapping id Tag.map es m).scalar? = .ok none := rfl
  have hkind : Collection.ofTag? (mapping id Tag.map es m).tag = some .map := rfl
  have hinside : value.inside [] (depth + 1) free (mapping id Tag.map es m) =
      .ok (.map (mappingOf ps)) := by
    unfold value.inside
    simp only [hkind, mapEntries_of_stands id Tag.map m h]
    exact congrArg (fun x : Except Error (List (Value × Value)) =>
      x >>= fun qs => pure (Value.map (mappingOf qs))) (mapM_of_stands h)
  rw [Node.value, hscalar]
  exact hinside

end

theorem scalar?_text (s : String) (m : Mark) : (scalar Tag.str s m).scalar? = .ok (some (.str s)) :=
  rfl

theorem plainEntry?_eq_some {e : Node × Node} {p : String × String} (h : plainEntry? e = some p) :
    ∃ m m', e = (.scalar Tag.str p.1 m, .scalar Tag.str p.2 m') := by
  obtain ⟨k, v⟩ := e
  unfold plainEntry? at h
  split at h
  · rename_i s t hs ht
    cases h
    obtain ⟨m, rfl⟩ := plainText?_eq_some hs
    obtain ⟨m', rfl⟩ := plainText?_eq_some ht
    exact ⟨m, m', rfl⟩
  · cases h

/-- The entries of a mapping of texts. -/
theorem forall₂_stands (depth : Nat) (free : List Nat) {es : List (Node × Node)}
    {ps : List (String × String)} (h : es.mapM plainEntry? = some ps) :
    List.Forall₂ (Stands depth free) es (ps.map fun p => (.str p.1, .str p.2)) := by
  induction es generalizing ps with
  | nil =>
    cases h
    exact .nil
  | cons e es ih =>
    rw [List.mapM_cons] at h
    obtain ⟨p, hp, h⟩ := Option.bind_eq_some_iff.1 h
    obtain ⟨qs, hqs, h⟩ := Option.bind_eq_some_iff.1 h
    cases h
    obtain ⟨m, m', rfl⟩ := plainEntry?_eq_some hp
    exact .cons ⟨rfl, scalar?_text p.1 m, value_eq_ok (scalar?_text p.2 m') ..⟩ (ih hqs)

end Node

/-- The value of a mapping of texts. -/
def mappingOfTexts (ps : List (String × String)) : Value :=
  .map (Node.mappingOf (ps.map fun p => (.str p.1, .str p.2)))

/-- Under keys that are all different nothing is put together. -/
theorem mappingOf_texts {ps : List (String × String)} (h : (ps.map Prod.fst).Nodup) :
    Node.mappingOf (ps.map fun p => (.str p.1, .str p.2)) =
      ps.map fun p => (.str p.1, .str p.2) := by
  have hnamed : (ps.map fun p => (Value.str p.1, Value.str p.2)) =
      Value.named (ps.map fun p => (p.1, .str p.2)) := by
    rw [Value.named, List.map_map]
    rfl
  rw [hnamed]
  refine Value.foldl_insertEntry_named ?_
  rwa [List.map_map]

theorem Node.value_texts {n : Node} {ps : List (String × String)} (h : n.plainEntries? = some ps)
    (depth : Nat) (free : List Nat) : n.value [] (depth + 2) free = .ok (mappingOfTexts ps) := by
  cases n with
  | scalar => cases h
  | unpaired => cases h
  | sequence => cases h
  | enclosing => cases h
  | mapping id t es m =>
    rw [plainEntries?] at h
    split at h
    · rename_i ht
      subst ht
      exact value_of_stands id m (forall₂_stands depth free h)
    · cases h

theorem Document.value_texts {n : Node} {ps : List (String × String)}
    (h : n.plainEntries? = some ps) : Document.value ⟨n, []⟩ = .ok (mappingOfTexts ps) := by
  have hcount : 1 ≤ n.count := by
    cases n <;> simp [Node.count]
  obtain ⟨k, hk⟩ : ∃ k, n.count + Node.countAll [] + 1 = k + 2 := ⟨n.count - 1, by
    rw [Node.countAll]
    omega⟩
  have hvalue := Node.value_texts h k []
  unfold Document.value
  simp only [List.map_nil, List.length_nil, Nat.mul_zero, Nat.zero_add, Nat.one_mul, hk,
    List.append_nil, hvalue]

/-- The entries of a text, if it is a mapping of texts without aliases. -/
def textEntries? (s : List Char) : Option (List (String × String)) :=
  match Document.ofEvents (.ofTokens (.ofText s)) with
  | .ok (some ⟨n, []⟩) => n.plainEntries?
  | _ => none

theorem load_eq_map {s : List Char} (hs : s.all isAllowed = true) {ps : List (String × String)}
    (h : textEntries? s = some ps) : load s = .ok (mappingOfTexts ps) := by
  have hnone : s.findIdx? (!isAllowed ·) = none := by simpa using hs
  unfold textEntries? at h
  split at h
  · rename_i n hn
    simp only [load, hnone, hn]
    exact Document.value_texts h
  · cases h

/-! ### Mappings in mappings -/

namespace Node

mutual

/-- Whether the node is a text or a mapping with just this value, under keys that are all different. -/
def fits : Node → Value → Bool
  | .scalar t s _, v => match v with
    | .str s' => t == Tag.str && s == s'
    | _ => false
  | .unpaired t us _, v => match v with
    | .unpaired us' => t == Tag.str && us == us'
    | _ => false
  | .mapping _ t es _, v => match v with
    | .map ps => t == Tag.map && decide (ps.map fun p => p.1.key?).Nodup && entriesFit es ps
    | _ => false
  | _, _ => false

def entriesFit : List (Node × Node) → List (Value × Value) → Bool
  | [], ps => ps.isEmpty
  | (k, n) :: es, ps => match ps with
    | [] => false
    | (j, v) :: ps => k.kind == .scalar && fits k j && fits n v && entriesFit es ps

end

theorem scalar?_of_fits {n : Node} {v : Value} (hkind : n.kind = .scalar) (h : n.fits v = true) :
    n.tag = Tag.str ∧ n.scalar? = .ok (some v) := by
  cases n with
  | scalar t s m =>
    cases v <;> simp [fits] at h
    obtain ⟨rfl, rfl⟩ := h
    exact ⟨rfl, rfl⟩
  | unpaired t us m =>
    cases v <;> simp [fits] at h
    obtain ⟨rfl, rfl⟩ := h
    exact ⟨rfl, rfl⟩
  | enclosing => simp [fits] at h
  | _ => cases hkind

mutual

theorem value_of_fits : ∀ (n : Node) (v : Value), n.fits v = true → ∀ (depth : Nat)
    (free : List Nat), n.count < depth → n.value [] depth free = .ok v
  | .scalar t s m, v, h, depth + 1, free, _ =>
    value_eq_ok (scalar?_of_fits rfl h).2 ..
  | .unpaired t us m, v, h, depth + 1, free, _ =>
    value_eq_ok (scalar?_of_fits rfl h).2 ..
  | .mapping id t es m, v, h, depth, free, hdepth => by
    cases v <;> simp only [fits, Bool.false_eq_true] at h
    rename_i ps
    simp only [Bool.and_eq_true, beq_iff_eq, decide_eq_true_eq] at h
    obtain ⟨⟨rfl, hnodup⟩, hes⟩ := h
    rw [count] at hdepth
    obtain ⟨depth, rfl⟩ : ∃ d, depth = d + 2 := ⟨depth - 2, by omega⟩
    have hstands := stands_of_entriesFit es ps hes depth free (by omega)
    rw [value_of_stands id m hstands, mappingOf, Value.foldl_insertEntry (by simpa using hnodup)]
    rfl
  | .sequence .., _, h, _, _, _ => by simp [fits] at h
  | .enclosing .., _, h, _, _, _ => by simp [fits] at h

theorem stands_of_entriesFit : ∀ (es : List (Node × Node)) (ps : List (Value × Value)),
    entriesFit es ps = true → ∀ (depth : Nat) (free : List Nat), countEntries es ≤ depth →
      List.Forall₂ (Stands depth free) es ps
  | [], ps, h, _, _, _ => by
    obtain rfl : ps = [] := by simpa [entriesFit] using h
    exact .nil
  | (k, n) :: es, [], h, _, _, _ => by simp [entriesFit] at h
  | (k, n) :: es, (j, v) :: ps, h, depth, free, hdepth => by
    simp only [entriesFit, Bool.and_eq_true, beq_iff_eq] at h
    obtain ⟨⟨⟨hkind, hkey⟩, hvalue⟩, hes⟩ := h
    rw [countEntries] at hdepth
    obtain ⟨htag, hscalar⟩ := scalar?_of_fits hkind hkey
    exact .cons ⟨htag, hscalar, value_of_fits n v hvalue (depth + 1) free (by omega)⟩
      (stands_of_entriesFit es ps hes depth free (by omega))

end

end Node

theorem Document.value_of_fits {n : Node} {v : Value} (h : n.fits v = true) :
    Document.value ⟨n, []⟩ = .ok v := by
  have hvalue := Node.value_of_fits n v h (n.count + 1) [] (Nat.lt_succ_self _)
  unfold Document.value
  simp only [List.map_nil, List.length_nil, Nat.mul_zero, Nat.zero_add, Nat.one_mul, Node.countAll,
    Nat.add_zero, List.append_nil, hvalue]

/-- Whether the text is a mapping with just this value, of texts and such mappings, without aliases. -/
def fits (s : List Char) (v : Value) : Bool :=
  match Document.ofEvents (.ofTokens (.ofText s)) with
  | .ok (some ⟨n, []⟩) => n.fits v
  | _ => false

theorem load_of_fits {s : List Char} (hs : s.all isAllowed = true) {v : Value}
    (h : fits s v = true) : load s = .ok v := by
  have hnone : s.findIdx? (!isAllowed ·) = none := by simpa using hs
  unfold fits at h
  split at h
  · rename_i n hn
    simp only [load, hnone, hn]
    exact Document.value_of_fits h
  · cases h

end DocTree.Yaml
