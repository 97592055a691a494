import Mathlib
import DocTree.Index
import DocTree.Proofs.Store
import DocTree.Proofs.Store.Blocks
import DocTree.Proofs.Validation
import DocTree.Proofs.Value

/-!
# Fields that follow from the path

Items keep a type and the path of a page, and both follow from their own path (`Item.Derived`). Data
that could be read from JSON gives only such items, whatever it holds for the two fields and however
deep the items lie in it (`derived_of_ofValue`); a path in bytes would not do. No call changes what an
item keeps, so the items of every store that calls make are such (`derived_run`).
-/

namespace DocTree

namespace Value

mutual

/-- Whether a value is one that JSON can hold. -/
def isJson : Value → Bool
  | .null => true
  | .bool _ => true
  | .int _ => true
  | .float _ => true
  | .str _ => true
  | .list vs => areJson vs
  | .map es => isJsonObject es
  | _ => false

def areJson : List Value → Bool
  | [] => true
  | v :: vs => v.isJson && areJson vs

/-- Whether the keys are texts, and the values such as JSON can hold. -/
def isJsonObject : List (Value × Value) → Bool
  | [] => true
  | (.str _, v) :: es => v.isJson && isJsonObject es
  | _ => false

end

theorem isJsonObject_cons {k v : Value} {es : List (Value × Value)}
    (h : isJsonObject ((k, v) :: es) = true) : v.isJson = true ∧ isJsonObject es = true := by
  cases k with
  | str n => rwa [isJsonObject, Bool.and_eq_true] at h
  | _ => simp [isJsonObject] at h

theorem isJson_of_lookup {es : List (Value × Value)} {k : Key} {v : Value}
    (h : isJsonObject es = true) (hv : lookup k es = some v) : v.isJson = true := by
  induction es with
  | nil => cases hv
  | cons e es ih =>
    obtain ⟨hhead, htail⟩ := isJsonObject_cons h
    rw [lookup_cons] at hv
    split at hv
    · cases hv
      exact hhead
    · exact ih htail hv

theorem eq_str_of_text {v : Value} {s : String} (hv : v.isJson = true)
    (h : Validation.text v = .ok s) : v = .str s := by
  cases v with
  | str t =>
    cases h
    rfl
  | unpaired us => simp [isJson] at hv
  | bytes bs => simp [isJson] at hv
  | _ => cases h

end Value

theorem ItemType.ofValue_name (t : ItemType) : ItemType.ofValue (.str t.name) = .ok t := by
  cases t <;> rfl

/-! ### Data -/

namespace ItemData

mutual

/-- That the item and all below it keep what follows from their paths. -/
def Derived : ItemData → Prop
  | .node p r t _ _ ds => r = DocTree.renderedPath p ∧ t = ItemType.ofPath p ∧ AllDerived ds

def AllDerived : List ItemData → Prop
  | [] => True
  | d :: ds => d.Derived ∧ AllDerived ds

end

mutual

theorem derived_ofTree : ∀ t : ItemTree, (ofTree t).Derived
  | .node _ _ _ ts => ⟨rfl, rfl, allDerived_ofTrees ts⟩

theorem allDerived_ofTrees : ∀ ts : List ItemTree, AllDerived (ofTrees ts)
  | [] => trivial
  | t :: ts => ⟨derived_ofTree t, allDerived_ofTrees ts⟩

end

section
variable {es : List (Value × Value)} {p : String}

theorem lookup_path_derive :
    Value.lookup (.str "path") (derive es) = Value.lookup (.str "path") es := by
  unfold derive
  split
  · rw [Value.lookup_insertEntry, Value.lookup_insertEntry, if_neg (by decide),
      if_neg (by decide)]
  · rfl

theorem lookup_derive {t : Text.Raw}
    (h : (Value.lookup (.str "path") es).bind Value.raw? = some t) :
    Value.lookup (.str "rendered_path") (derive es) = some (.str (DocTree.renderedPath t.shown)) ∧
      Value.lookup (.str "type") (derive es) = some (.str (ItemType.ofPath t.shown).name) := by
  unfold derive
  rw [h]
  dsimp only
  rw [Value.lookup_insertEntry, Value.lookup_insertEntry, Value.lookup_insertEntry,
    if_neg (by decide), if_pos rfl, if_pos rfl]
  exact ⟨rfl, rfl⟩

/-- The fields that follow from the path are put in before the fields are checked, so what was given
for them is not even looked at. -/
theorem derived_of_ofFields {children : Validation.Checked (List ItemData)} {d : ItemData}
    (hes : Value.isJsonObject es = true) (hchildren : ∀ ds, children = .ok ds → AllDerived ds)
    (h : ofFields (derive es) children = .ok d) : d.Derived := by
  unfold ofFields at h
  simp only [Validation.both_eq_ok] at h
  obtain ⟨-, -, ⟨-, fs, ⟨-, t, ⟨p, r, hp, hr, rfl⟩, ht, rfl⟩, -, rfl⟩,
    ⟨ds, bs, hds, -, rfl⟩, rfl⟩ := h
  obtain ⟨v, hv, htext⟩ : ∃ v, Value.lookup (.str "path") es = some v ∧
      Validation.text v = .ok p := by
    rw [Validation.required, Validation.within_eq_ok, lookup_path_derive] at hp
    cases hv : Value.lookup (.str "path") es with
    | none =>
      rw [hv] at hp
      cases hp
    | some v =>
      rw [hv] at hp
      exact ⟨v, rfl, hp⟩
  obtain rfl := Value.eq_str_of_text (Value.isJson_of_lookup hes hv) htext
  obtain ⟨hpage, htype⟩ := lookup_derive (t := .text p) (by rw [hv]; rfl)
  rw [Validation.optional, hpage] at hr
  rw [Validation.optional, htype] at ht
  have hr' := Validation.within_eq_ok.1 hr
  have ht' := Validation.within_eq_ok.1 ht
  rw [ItemType.ofValue_name] at ht'
  rw [Validation.text] at hr'
  exact ⟨(Except.ok.inj hr').symm, (Except.ok.inj ht').symm, hchildren ds hds⟩

end

mutual

/-- What data gives keeps what follows from the paths, at every depth. -/
theorem derived_of_ofValue : ∀ (v : Value), v.isJson = true → ∀ d, ofValue v = .ok d → d.Derived
  | .map es, hes, _, h => derived_of_ofFields hes (allDerived_of_childrenIn es hes) h

theorem allDerived_of_childrenIn : ∀ (es : List (Value × Value)), Value.isJsonObject es = true →
    ∀ ds, childrenIn es = .ok ds → AllDerived ds
  | [], _, _, h => by
    cases h
    trivial
  | (k, v) :: es, hes, ds, h => by
    obtain ⟨hv, hes⟩ := Value.isJsonObject_cons hes
    rw [childrenIn.eq_def] at h
    dsimp only at h
    split at h
    · have h' := Validation.within_eq_ok.1 h
      split at h'
      · rename_i vs
        exact allDerived_of_childrenFrom 0 vs hv ds h'
      · cases h'
    · exact allDerived_of_childrenIn es hes ds h

theorem allDerived_of_childrenFrom : ∀ (i : Nat) (vs : List Value), Value.areJson vs = true →
    ∀ ds, childrenFrom i vs = .ok ds → AllDerived ds
  | _, [], _, _, h => by
    cases h
    trivial
  | i, v :: vs, hvs, ds, h => by
    rw [Value.areJson, Bool.and_eq_true] at hvs
    rw [childrenFrom] at h
    obtain ⟨e, es, he, hes, rfl⟩ := Validation.both_eq_ok.1 h
    exact ⟨derived_of_ofValue v hvs.1 e (Validation.within_eq_ok.1 he),
      allDerived_of_childrenFrom (i + 1) vs hvs.2 es hes⟩

end

end ItemData

/-- That an item keeps what follows from its path. -/
structure Item.Derived (it : Item) : Prop where
  type : it.type = ItemType.ofPath it.path
  renderedPath : it.renderedPath = DocTree.renderedPath it.path

theorem Item.type_ofPath (path files blocks children) :
    (Item.ofPath path files blocks children).type = ItemType.ofPath path := by
  simp only [Item.ofPath]

theorem Item.derived_ofPath (path files blocks children) :
    (Item.ofPath path files blocks children).Derived := by
  constructor <;> simp only [Item.ofPath]

namespace Store
variable {s t : Store} {it : Item} {id : Nat}

/-- That every item keeps what follows from its path. -/
def Derived (s : Store) : Prop := ∀ id it, s.get? id = some it → it.Derived

theorem derived_empty : Store.empty.Derived := by
  intro id it h
  simp [get?, empty] at h

/-! ### Making items -/

theorem forall_addItem {P : Item → Prop} (hs : ∀ id it, s.get? id = some it → P it) (hit : P it)
    (h) : ∀ id it', (s.addItem it h).get? id = some it' → P it' := by
  intro id it' hid
  unfold get? addItem at hid
  rw [Array.getElem?_push] at hid
  split at hid
  · cases hid
    exact hit
  · exact hs id it' hid

mutual

theorem derived_plantData : ∀ (s : Store) (d : ItemData), s.Derived → d.Derived →
    (s.plantData d).1.1.Derived
  | s, .node p r t fs bs ds, hs, ⟨hr, ht, hds⟩ => by
    have hall := derived_plantAllData s ds hs hds
    rw [plantData]
    generalize s.plantAllData ds = x at *
    obtain ⟨⟨s₁, ids⟩, hsize, hids⟩ := x
    have hbelow : ∀ c ∈ (Slot.ofList ids).owned, c < s₁.size := by
      rw [Slot.owned_ofList]
      exact hids
    exact forall_addItem hall ⟨ht, hr⟩ hbelow

theorem derived_plantAllData : ∀ (s : Store) (ds : List ItemData), s.Derived →
    ItemData.AllDerived ds → (s.plantAllData ds).1.1.Derived
  | s, [], hs, _ => by
    rw [plantAllData]
    exact hs
  | s, d :: ds, hs, ⟨hd, hds⟩ => by
    have hfirst := derived_plantData s d hs hd
    have hrest := derived_plantAllData (s.plantData d).1.1 ds hfirst hds
    rw [plantAllData]
    generalize s.plantData d = x at *
    obtain ⟨⟨s₁, id⟩, hsize, hid⟩ := x
    dsimp only at *
    generalize s₁.plantAllData ds = y at *
    obtain ⟨⟨s₂, ids⟩, hsize', hids⟩ := y
    exact hrest

end

/-- A new item has what it was given, also if it is attached to a fault, and it is so just if its type
is not known. -/
theorem newItem_spec (s : Store) (path : String) (files : List String)
    (children : List (Fin s.size)) :
    (s.newItem path files children).1.get? (s.newItem path files children).2.id =
        some (.ofPath path files [] (children.map (·.val))) ∧
      ((∃ id, (s.newItem path files children).2 = .raised id) ↔
        ItemType.ofFileName (Path.baseName path) = .unknown) := by
  have hget : (s.newItem path files children).1.get? s.size =
      some (.ofPath path files [] (children.map (·.val))) := by
    rw [newItem, add]
    dsimp only
    rw [get?_addItem]
  have hmade : (s.newItem path files children).2 =
      if ItemType.ofPath path == .unknown then .raised s.size else .returned s.size := by
    rw [newItem]
    dsimp only
    rw [Item.type_ofPath]
  rw [hmade, ← ItemType.ofPath]
  by_cases hunknown : ItemType.ofPath path = .unknown
  · rw [hunknown, beq_self_eq_true, if_pos rfl]
    exact ⟨hget, iff_of_true ⟨_, rfl⟩ rfl⟩
  · rw [beq_eq_false_iff_ne.2 hunknown, if_neg (by decide)]
    exact ⟨hget, iff_of_false (by simp) hunknown⟩

theorem derived_newItem (hs : s.Derived) (path files children) :
    (s.newItem path files children).1.Derived := by
  rw [newItem, add]
  dsimp only
  exact forall_addItem hs (Item.derived_ofPath ..) _

/-! ### Changing items -/

theorem forall_modify {P : Item → Prop} (hs : ∀ id it, s.get? id = some it → P it) {f : Item → Item}
    {keeps} (hf : ∀ it, P it → P (f it)) :
    ∀ i it, (s.modify id f keeps).get? i = some it → P it := by
  intro i it hi
  unfold get? modify at hi
  rw [Array.getElem?_modify] at hi
  split at hi
  · obtain ⟨it', hit', rfl⟩ := Option.map_eq_some_iff.1 hi
    exact hf it' (hs i it' hit')
  · exact hs i it hi

theorem forall_rewrites {P : Item → Prop} (hs : ∀ id it, s.get? id = some it → P it)
    (hP : ∀ it bs, P it → P { it with blocks := bs }) (h : s.Rewrites id t) :
    ∀ i it, t.get? i = some it → P it := by
  rcases h with rfl | ⟨bs, rfl⟩
  · exact hs
  · exact forall_modify hs fun it hit => hP it bs hit

theorem assign_of_frozen {field : String} (h : field ∈ frozenFields) (s : Store) (id : Nat)
    (v : Value) : s.assign id field v = .error (.frozen ⟨.frozen, [.field field], v⟩) := by
  unfold assign
  rw [if_pos (List.contains_iff_mem.2 h)]

theorem derived_assign (hs : s.Derived) {field : String} {v : Value}
    (h : s.assign id field v = .ok t) : t.Derived := by
  unfold assign at h
  split at h
  · cases h
  · split at h
    · cases h
      exact forall_modify hs fun _ hit => ⟨hit.type, hit.renderedPath⟩
    · split at h
      · cases h
        exact forall_modify hs fun _ hit => ⟨hit.type, hit.renderedPath⟩
      · split at h
        · cases h
          exact forall_modify hs fun _ hit => ⟨hit.type, hit.renderedPath⟩
        · split at h
          · cases h
            exact hs
          · cases h

/-! ### Calls -/

/-- A call that makes items or changes one; each meets a file system of its own. -/
inductive Call
  | newItem (path : String) (files : List String) (children : List Nat)
  | construct (data : List (Value × Value))
  | assign (id : Nat) (field : String) (v : Value)
  | addBlock (id : Nat) (name value : Value)
  | populate (fs : FileSystem) (id : Nat) (preset : String)
  | index (fs : FileSystem) (st : Settings) (root : Path)

/-- The store that a call gives; one that fails leaves the store as it was. -/
def orKeep {ε : Type} (s : Store) : Except ε Store → Store
  | .ok t => t
  | .error _ => s

/-- The numbers that are those of items. -/
def present (s : Store) (ids : List Nat) : List (Fin s.size) :=
  ids.filterMap fun i => if h : i < s.size then some ⟨i, h⟩ else none

/-- The store after a call. The item that a failed `newItem` is about is kept. -/
def perform (s : Store) : Call → Store
  | .newItem path files children => (s.newItem path files (s.present children)).1
  | .construct es => s.orKeep ((s.construct (.map es)).map Prod.fst)
  | .assign id field v => s.orKeep (s.assign id field v)
  | .addBlock id name value => s.orKeep (s.addBlock id name value)
  | .populate fs id preset => (s.populate fs id preset).1
  | .index fs st root =>
    s.orKeep ((Index.topLevel fs st root).result.map fun ts => (s.plantAll ts).1.1)

/-- The store after calls in turn, none of an item before them. -/
def run (cs : List Call) : Store := cs.foldl perform .empty

/-- The item whose blocks a call is about. -/
def Call.target? : Call → Option Nat
  | .addBlock id _ _ => some id
  | .populate _ id _ => some id
  | _ => none

/-- What a call makes of the store. -/
inductive Performs (s : Store) : Call → Store → Prop
  | refused (c : Call) : Performs s c s
  | newItem (path : String) (files : List String) (children : List Nat) :
    Performs s (.newItem path files children) (s.newItem path files (s.present children)).1
  | construct {es : List (Value × Value)} {d : ItemData} (h : ItemData.ofValue (.map es) = .ok d) :
    Performs s (.construct es) (s.plantData d).1.1
  | assign {id : Nat} {field : String} {v : Value} {t : Store} (h : s.assign id field v = .ok t) :
    Performs s (.assign id field v) t
  | rewrites {c : Call} {id : Nat} {t : Store} (hid : c.target? = some id) (h : s.Rewrites id t) :
    Performs s c t
  | index (fs : FileSystem) (st : Settings) (root : Path) (ts : List ItemTree) :
    Performs s (.index fs st root) (s.plantAll ts).1.1

theorem performs_orKeep {ε : Type} {c : Call} {x : Except ε Store}
    (h : ∀ t, x = .ok t → s.Performs c t) : s.Performs c (s.orKeep x) := by
  cases x with
  | ok t => exact h t rfl
  | error e => exact .refused c

theorem performs_perform (s : Store) (c : Call) : s.Performs c (s.perform c) := by
  cases c with
  | newItem path files children => exact .newItem path files children
  | construct es =>
    refine performs_orKeep fun t ht => ?_
    obtain ⟨⟨u, id⟩, hu, rfl⟩ := map_eq_ok.1 ht
    obtain ⟨d, hd, hplant⟩ := map_eq_ok.1 hu
    have hconstruct := Performs.construct (s := s) hd
    rwa [hplant] at hconstruct
  | assign id field v => exact performs_orKeep fun t => .assign
  | addBlock id name value =>
    exact performs_orKeep fun t ht => .rewrites rfl (rewrites_addBlock ht)
  | populate fs id preset => exact .rewrites rfl (rewrites_populate s fs id preset)
  | index fs st root =>
    refine performs_orKeep fun t ht => ?_
    obtain ⟨ts, -, rfl⟩ := map_eq_ok.1 ht
    exact .index fs st root ts

/-- What a call leaves behind keeps what follows from the paths, if what it reads is JSON. -/
theorem derived_perform (hs : s.Derived) {c : Call}
    (hc : ∀ es, c = .construct es → (Value.map es).isJson = true) : (s.perform c).Derived := by
  have hperforms := performs_perform s c
  generalize s.perform c = t at hperforms ⊢
  cases hperforms with
  | refused => exact hs
  | newItem path files children => exact derived_newItem hs path files _
  | construct hd =>
    exact derived_plantData s _ hs (ItemData.derived_of_ofValue _ (hc _ rfl) _ hd)
  | assign h => exact derived_assign hs h
  | rewrites hid h => exact forall_rewrites hs (fun _ _ hit => ⟨hit.type, hit.renderedPath⟩) h
  | index fs st root ts => exact derived_plantAllData s _ hs (ItemData.allDerived_ofTrees ts)

theorem derived_foldl_perform (hs : s.Derived) (cs : List Call)
    (hcs : ∀ es, Call.construct es ∈ cs → (Value.map es).isJson = true) :
    (cs.foldl perform s).Derived := by
  induction cs generalizing s with
  | nil => exact hs
  | cons c cs ih =>
    have hstep : (s.perform c).Derived := by
      refine derived_perform hs fun es hc => hcs es ?_
      rw [hc]
      exact List.mem_cons_self ..
    exact ih hstep fun es hmem => hcs es (List.mem_cons_of_mem _ hmem)

/-- Whatever calls are made, with whatever is given for the fields that follow from a path: every item
has the type and the page of its path. To assign one of these fields, or the path, is refused and
changes nothing. A new item is refused just if its type is not known, and holds what it was given all
the same. -/
theorem derived_run (cs : List Call)
    (hcs : ∀ es, Call.construct es ∈ cs → (Value.map es).isJson = true) :
    (∀ id it, (run cs).get? id = some it →
      it.type = ItemType.ofFileName (Path.baseName it.path) ∧
        it.renderedPath = DocTree.renderedPath it.path) ∧
    (∀ id v, ∀ field ∈ ["path", "rendered_path", "type"],
      (run cs).assign id field v = .error (.frozen ⟨.frozen, [.field field], v⟩) ∧
        run (cs ++ [.assign id field v]) = run cs) ∧
    ∀ path files children, ∃ t made, (run cs).newItem path files children = (t, made) ∧
      ((∃ id, made = .raised id) ↔ ItemType.ofFileName (Path.baseName path) = .unknown) ∧
        ∃ it, t.get? made.id = some it ∧ it.path = path ∧ it.files = .ofList files ∧
          it.children = .ofList (children.map (·.val)) ∧ it.blocks = .ofList [] := by
  refine ⟨fun id it hit => ?_, fun id v field hfield => ?_, fun path files children => ?_⟩
  · obtain ⟨htype, hpage⟩ := derived_foldl_perform derived_empty cs hcs id it hit
    exact ⟨htype, hpage⟩
  · have hfrozen := assign_of_frozen hfield (run cs) id v
    refine ⟨hfrozen, ?_⟩
    rw [run, List.foldl_append]
    show (run cs).orKeep ((run cs).assign id field v) = run cs
    rw [hfrozen]
    rfl
  · obtain ⟨hget, hraised⟩ := newItem_spec (run cs) path files children
    refine ⟨_, _, Prod.mk.eta.symm, hraised, _, hget, ?_⟩
    simp only [Item.ofPath, and_self]

/-- A new item of no known type, one from data that give it another type, with one in it that is given
another page, and an assignment that is refused. -/
def sampleCalls : List Call :=
  [.newItem "a.md" [] [],
    .construct [(.str "path", .str "tag.md"), (.str "type", .str "message"),
      (.str "child_items",
        .list [.map [(.str "path", .str "x/readme.md"), (.str "rendered_path", .str "y")]])],
    .assign 2 "type" (.str "message")]

theorem derived_run_sample : (run sampleCalls).size = 3 ∧
    ∀ id it, (run sampleCalls).get? id = some it →
      it.type = ItemType.ofFileName (Path.baseName it.path) ∧
        it.renderedPath = DocTree.renderedPath it.path := by
  refine ⟨by decide +kernel, (derived_run sampleCalls fun es hes => ?_).1⟩
  simp only [sampleCalls, List.mem_cons, reduceCtorEq, Call.construct.injEq, false_or,
    List.not_mem_nil, or_false] at hes
  rw [hes]
  rfl

end Store
end DocTree
