import Mathlib
import DocTree.Proofs.Derived
import DocTree.Proofs.Extract
import DocTree.Proofs.FileSystem

/-!
# Blocks by name

Blocks are only ever added behind those an item has, so the first of a name stays the first: whatever
is added later, by hand or from a source, does not change what is found under the name
(`keepsFirst_foldl_perform`). A block that is refused leaves nothing behind, and no call about the
blocks of one item changes another.
-/

namespace DocTree

theorem Value.isFalsy_str_eq_false {s : String} : (Value.str s).isFalsy = false ↔ s ≠ "" := by
  rw [← Bool.not_eq_true]
  exact not_congr String.isEmpty_iff

theorem Value.text_eq_error {v : Value} (hv : v.isJson = true) (h : ∀ s, v ≠ .str s) :
    Validation.text v = Validation.issue .noText v := by
  cases v with
  | str s => exact absurd rfl (h s)
  | unpaired us => simp [isJson] at hv
  | bytes bs => simp [isJson] at hv
  | _ => rfl

theorem Value.raw_eq_text {v : Value} (hv : v.isJson = true) :
    Validation.raw v = (Validation.text v).map .text := by
  cases v with
  | unpaired us => simp [isJson] at hv
  | _ => rfl

theorem Value.encodedText_eq_text {v : Value} (hv : v.isJson = true) :
    Validation.encodedText v = Validation.text v := by
  cases v with
  | unpaired us => simp [isJson] at hv
  | _ => rfl

namespace Block
variable {name value : Value}

/-- The block that a name and a value are accepted as: two texts, of which the name is not empty. -/
def accepted? : Value → Value → Option Block
  | .str n, .str v => if n = "" then none else some ⟨n, v⟩
  | _, _ => none

theorem accepted?_eq_some {b : Block} : accepted? name value = some b ↔
    ∃ n v, name = .str n ∧ value = .str v ∧ n ≠ "" ∧ b = ⟨n, .text v⟩ := by
  unfold accepted?
  split
  · rename_i n v
    split
    · simp_all
    · simp only [Option.some.injEq, Value.str.injEq]
      constructor
      · rintro rfl
        exact ⟨n, v, rfl, rfl, ‹_›, rfl⟩
      · rintro ⟨n, v, rfl, rfl, -, rfl⟩
        rfl
  · rename_i h
    simp only [reduceCtorEq, false_iff]
    rintro ⟨n, v, rfl, rfl, -⟩
    exact h n v rfl rfl

/-- The value of the first block of a name, in any case of letters; nothing if there is none. -/
def valueOf (bs : List Block) (name : String) : Text.Raw :=
  ((bs.find? fun b => b.name.lowerCase == name.lowerCase).map Block.value).getD ""

theorem valueOf_append {bs : List Block} {name : String}
    (h : ∃ b ∈ bs, b.name.lowerCase = name.lowerCase) (cs : List Block) :
    valueOf (bs ++ cs) name = valueOf bs name := by
  obtain ⟨first, hfirst⟩ : ∃ first, (bs.find? fun b => b.name.lowerCase == name.lowerCase) =
      some first := by
    rw [← Option.isSome_iff_exists, List.find?_isSome]
    simpa only [beq_iff_eq] using h
  rw [valueOf, valueOf, List.find?_append, hfirst, Option.some_or]

/-! ### Why a block is refused -/

theorem make_of_isFalsy (h : name.isFalsy = true) (value : Value) :
    make name value = .error .noName := if_pos h

theorem make_of_not_isFalsy (h : name.isFalsy = false) (value : Value) : make name value =
    (Validation.both Block.mk (Validation.within (.field "name") (checkName name))
      (Validation.within (.field "value") (Validation.raw value))).mapError .invalid :=
  if_neg (by rw [h]; decide)

theorem checkName_of_ne {n : String} (h : n ≠ "") : checkName (.str n) = .ok n :=
  if_neg (by rwa [String.isEmpty_iff])

/-- Any text is accepted under a name that is not empty. -/
theorem make_of_ne {n : String} (h : n ≠ "") (text : Text.Raw) :
    make (.str n) (.ofRaw text) = .ok ⟨n, text⟩ := by
  have haccepted : (Text.Raw.text n).isAccepted = true := by simpa [Text.Raw.isAccepted] using h
  exact Text.Raw.make_of_isAccepted haccepted text

theorem make_of_accepted? {b : Block} (h : accepted? name value = some b) :
    make name value = .ok b := by
  obtain ⟨n, v, rfl, rfl, hne, rfl⟩ := accepted?_eq_some.1 h
  exact make_of_ne hne (.text v)

/-- The issues with a field that asks for a text. -/
def textIssues (field : String) : Value → List Validation.Issue
  | .str _ => []
  | v => [⟨.noText, [.field field], v⟩]

theorem textIssues_of_ne {v : Value} (h : ∀ s, v ≠ .str s) (field : String) :
    textIssues field v = [⟨.noText, [.field field], v⟩] := by
  cases v with
  | str s => exact absurd rfl (h s)
  | _ => rfl

/-- Where a field asks for a name, what is no text is an issue with it. -/
theorem within_checkName_eq_error {v : Value} (hv : v.isJson = true) (h : ∀ s, v ≠ .str s)
    (field : String) : Validation.within (.field field) (checkName v) =
      .error (textIssues field v) := by
  rw [checkName, Value.encodedText_eq_text hv, Value.text_eq_error hv h, textIssues_of_ne h]
  rfl

theorem within_raw_eq_error {v : Value} (hv : v.isJson = true) (h : ∀ s, v ≠ .str s)
    (field : String) : Validation.within (.field field) (Validation.raw v) =
      .error (textIssues field v) := by
  rw [Value.raw_eq_text hv, Value.text_eq_error hv h, textIssues_of_ne h]
  rfl

theorem make_eq_invalid (hname : name.isJson = true) (hvalue : value.isJson = true)
    (hfalsy : name.isFalsy = false) (h : (∀ n, name ≠ .str n) ∨ ∀ v, value ≠ .str v) :
    make name value =
      .error (.invalid (textIssues "name" name ++ textIssues "value" value)) := by
  rw [make_of_not_isFalsy hfalsy]
  by_cases htext : ∀ n, name ≠ .str n
  · rw [within_checkName_eq_error hname htext]
    by_cases hvalue' : ∀ v, value ≠ .str v
    · rw [within_raw_eq_error hvalue hvalue']
      rfl
    · push Not at hvalue'
      obtain ⟨v, rfl⟩ := hvalue'
      rw [textIssues, List.append_nil]
      rfl
  · have hvalue' := h.resolve_left htext
    push Not at htext
    obtain ⟨n, rfl⟩ := htext
    rw [checkName_of_ne (Value.isFalsy_str_eq_false.1 hfalsy), within_raw_eq_error hvalue hvalue']
    rfl

theorem exists_make_eq_error (hname : name.isJson = true) (hvalue : value.isJson = true)
    (h : accepted? name value = none) : ∃ f, make name value = .error f := by
  cases hfalsy : name.isFalsy with
  | true => exact ⟨_, make_of_isFalsy hfalsy value⟩
  | false =>
    refine ⟨_, make_eq_invalid hname hvalue hfalsy ?_⟩
    by_contra htexts
    push Not at htexts
    obtain ⟨⟨n, rfl⟩, v, rfl⟩ := htexts
    have hsome : accepted? (.str n) (.str v) = some ⟨n, v⟩ :=
      accepted?_eq_some.2 ⟨n, v, rfl, rfl, Value.isFalsy_str_eq_false.1 hfalsy, rfl⟩
    rw [h] at hsome
    cases hsome

end Block

namespace Population

/-- A source gives no block without a name. -/
theorem name_ne_empty_of_mem_blocks {preset : String} {content : Except FileFault (List UInt8)}
    {bs : List Block} (h : blocks preset content = .ok bs) : ∀ b ∈ bs, b.name ≠ "" := by
  obtain ⟨ns, -, haccepted, rfl⟩ := blocks_eq_ok.1 h
  intro b hb
  obtain ⟨n, hn, rfl⟩ := List.mem_map.1 hb
  exact Text.Raw.shown_ne_empty (haccepted n hn)

end Population

namespace Store

/-! ### Calls about blocks -/

namespace Call

/-- Whether a call is about blocks; what is given for one is JSON. -/
def isOfBlocks : Call → Bool
  | .addBlock _ name value => name.isJson && value.isJson
  | .populate .. => true
  | _ => false

/-- The blocks that a call about an item of this path adds. -/
def added (path : String) : Call → List Block
  | .addBlock _ name value => (Block.accepted? name value).toList
  | .populate fs _ preset => Population.madeBlocks preset (fs.read (Path.parse path))
  | _ => []

theorem exists_target? {c : Call} (hc : c.isOfBlocks = true) : ∃ id, c.target? = some id := by
  cases c with
  | addBlock id name value => exact ⟨id, rfl⟩
  | populate fs id preset => exact ⟨id, rfl⟩
  | _ => cases hc

end Call

variable {s : Store} {id : Nat} {it : Item} {bs : List Block} {c : Call} {cs : List Call}

theorem rewrites_perform (hid : c.target? = some id) : s.Rewrites id (s.perform c) := by
  have hperforms := performs_perform s c
  generalize s.perform c = t at hperforms ⊢
  cases hperforms with
  | refused => exact .inl rfl
  | rewrites hid' h =>
    cases hid.symm.trans hid'
    exact h
  | _ => cases hid

theorem get?_perform_of_ne (hc : c.isOfBlocks = true) {j : Nat} (hj : c.target? ≠ some j) :
    (s.perform c).get? j = s.get? j := by
  obtain ⟨id, hid⟩ := Call.exists_target? hc
  rw [hid] at hj
  exact (rewrites_perform hid).get?_of_ne fun h => hj (congrArg some h)

theorem size_perform (hc : c.isOfBlocks = true) : (s.perform c).size = s.size := by
  obtain ⟨id, hid⟩ := Call.exists_target? hc
  exact (rewrites_perform hid).size_eq

theorem size_foldl_perform (hcs : ∀ c ∈ cs, c.isOfBlocks = true) :
    (cs.foldl perform s).size = s.size := by
  induction cs generalizing s with
  | nil => rfl
  | cons c cs ih =>
    obtain ⟨hc, hcs⟩ := List.forall_mem_cons.1 hcs
    rw [List.foldl_cons, ih hcs, size_perform hc]

theorem get?_foldl_perform_of_ne (hcs : ∀ c ∈ cs, c.isOfBlocks = true) {j : Nat}
    (hj : ∀ c ∈ cs, c.target? ≠ some j) : (cs.foldl perform s).get? j = s.get? j := by
  induction cs generalizing s with
  | nil => rfl
  | cons c cs ih =>
    obtain ⟨hc, hcs⟩ := List.forall_mem_cons.1 hcs
    obtain ⟨hne, hj⟩ := List.forall_mem_cons.1 hj
    rw [List.foldl_cons, ih hcs hj, get?_perform_of_ne hc hne]

theorem perform_of_target? (hc : c.isOfBlocks = true) (hid : c.target? = some id)
    (hit : s.get? id = some it) (hbs : it.blocks = .ofList bs) :
    s.perform c = s.setBlocks id (.ofList (bs ++ c.added it.path)) := by
  -- what a refused call comes to
  have hkeep : s.setBlocks id (.ofList (bs ++ [])) = s := by
    rw [List.append_nil, ← hbs]
    exact setBlocks_self hit
  cases c with
  | addBlock i name value =>
    cases hid
    rw [perform, addBlock_of_ofList hit hbs, Call.added]
    cases h : Block.accepted? name value with
    | some b =>
      rw [Block.make_of_accepted? h]
      rfl
    | none =>
      rw [Call.isOfBlocks, Bool.and_eq_true] at hc
      obtain ⟨f, hf⟩ := Block.exists_make_eq_error hc.1 hc.2 h
      rw [hf]
      exact hkeep.symm
  | populate fs i preset =>
    cases hid
    rw [perform, populate_of_ofList hit hbs, Call.added]
  | _ => cases hid

/-- The blocks of an item after calls. -/
def blocksAfter (cs : List Call) (id : Nat) (path : String) (bs : List Block) : List Block :=
  bs ++ (cs.filter fun c => c.target? == some id).flatMap (Call.added path)

theorem get?_foldl_perform (hcs : ∀ c ∈ cs, c.isOfBlocks = true) (hit : s.get? id = some it)
    (hbs : it.blocks = .ofList bs) : (cs.foldl perform s).get? id =
      some { it with blocks := .ofList (blocksAfter cs id it.path bs) } := by
  induction cs generalizing s it bs with
  | nil =>
    rw [blocksAfter, List.filter_nil, List.flatMap_nil, List.append_nil, ← hbs]
    exact hit
  | cons c cs ih =>
    obtain ⟨hc, hcs⟩ := List.forall_mem_cons.1 hcs
    rw [List.foldl_cons, blocksAfter, List.filter_cons]
    by_cases hid : c.target? = some id
    · have hstep : (s.perform c).get? id =
          some { it with blocks := .ofList (bs ++ c.added it.path) } := by
        rw [perform_of_target? hc hid hit hbs, get?_setBlocks, if_pos rfl, hit, Option.map_some]
      rw [if_pos (beq_iff_eq.2 hid), List.flatMap_cons, ← List.append_assoc]
      have hrest := ih hcs hstep rfl
      exact hrest
    · rw [if_neg (mt beq_iff_eq.1 hid)]
      exact ih hcs ((get?_perform_of_ne hc hid).trans hit) hbs

theorem blocksAfter_append (cs ds : List Call) (id : Nat) (path : String) (bs : List Block) :
    blocksAfter (cs ++ ds) id path bs =
      blocksAfter ds id path (blocksAfter cs id path bs) := by
  simp only [blocksAfter, List.filter_append, List.flatMap_append, List.append_assoc]

theorem foldl_addBlock (hit : s.get? id = some it) (hbs : it.blocks = .ofList bs) {as : List Block}
    (has : ∀ b ∈ as, b.name ≠ "") :
    (as.map fun b => Call.addBlock id (.str b.name) (.ofRaw b.value)).foldl perform s =
      s.setBlocks id (.ofList (bs ++ as)) := by
  -- each block finds those before it in the item, so the item changes with the store
  induction as generalizing s it bs with
  | nil =>
    rw [List.append_nil, ← hbs, setBlocks_self hit]
    rfl
  | cons b as ih =>
    obtain ⟨hb, has⟩ := List.forall_mem_cons.1 has
    have hstep : s.perform (.addBlock id (.str b.name) (.ofRaw b.value)) =
        s.setBlocks id (.ofList (bs ++ [b])) := by
      rw [perform, addBlock_of_ofList hit hbs, Block.make_of_ne hb]
      rfl
    have hrest := ih (s := s.setBlocks id (.ofList (bs ++ [b]))) (by
      rw [get?_setBlocks, if_pos rfl, hit]
      rfl) rfl has
    rw [List.map_cons, List.foldl_cons, hstep, hrest, setBlocks_setBlocks, List.append_assoc]
    rfl

/-! ### What is found by name -/

/-- What becomes of a block of this name and value that is to be added to an item with these blocks. -/
structure Adds (s : Store) (id : Nat) (bs : List Block) (name value : Value) : Prop where
  noName : name.isFalsy = true → s.addBlock id name value = .error (.block .noName)
  noText : name.isFalsy = false → (∀ n, name ≠ .str n) ∨ (∀ v, value ≠ .str v) →
    s.addBlock id name value = .error (.block (.invalid
      (Block.textIssues "name" name ++ Block.textIssues "value" value)))
  behind : ∀ n v, name = .str n → n ≠ "" → value = .str v →
    s.addBlock id name value = .ok (s.setBlocks id (.ofList (bs ++ [⟨n, v⟩])))
  kept : ∀ f, s.addBlock id name value = .error f → s.perform (.addBlock id name value) = s

theorem adds_of_ofList (hit : s.get? id = some it) (hbs : it.blocks = .ofList bs)
    {name value : Value} (hname : name.isJson = true) (hvalue : value.isJson = true) :
    s.Adds id bs name value := by
  constructor
  · intro hfalsy
    rw [addBlock_of_ofList hit hbs, Block.make_of_isFalsy hfalsy]
    rfl
  · intro hfalsy htexts
    rw [addBlock_of_ofList hit hbs, Block.make_eq_invalid hname hvalue hfalsy htexts]
    rfl
  · rintro n v rfl hne rfl
    rw [addBlock_of_ofList hit hbs, Block.make_of_accepted? (b := ⟨n, v⟩)
      (Block.accepted?_eq_some.2 ⟨n, v, rfl, rfl, hne, rfl⟩)]
    rfl
  · intro f hf
    rw [perform, hf]
    rfl

/-- That an item has just these blocks, with what follows from it for the next call about them. -/
structure KeepsFirst (s : Store) (id : Nat) (it : Item) (bs : List Block) : Prop where
  item : s.get? id = some { it with blocks := .ofList bs }
  value : ∀ name, blockValue { it with blocks := .ofList bs } name = .ok (Block.valueOf bs name)
  adds : ∀ name value, name.isJson = true → value.isJson = true → s.Adds id bs name value
  populates : ∀ fs preset as, Population.blocks preset (fs.read (Path.parse it.path)) = .ok as →
    s.perform (.populate fs id preset) =
      (as.map fun b => Call.addBlock id (.str b.name) (.ofRaw b.value)).foldl perform s

theorem keepsFirst_of_get? (hit : s.get? id = some { it with blocks := .ofList bs }) :
    s.KeepsFirst id it bs where
  item := hit
  value name := blockValue_ofList rfl name
  adds _ _ := adds_of_ofList hit rfl
  populates fs preset as has := by
    rw [foldl_addBlock hit rfl (Population.name_ne_empty_of_mem_blocks has),
      perform_of_target? rfl rfl hit rfl, Call.added, Population.madeBlocks_of_blocks has]

/-- Whatever calls about blocks are made, on whatever items: an item has the blocks that it had, and
behind them those accepted for it, in turn. Under a name the first of them is found, so no later call
changes what is found under a name that is there. Calls about other items change nothing in it. -/
theorem keepsFirst_foldl_perform (s : Store) (hcs : ∀ c ∈ cs, c.isOfBlocks = true) :
    (cs.foldl perform s).size = s.size ∧
    (∀ j, (∀ c ∈ cs, c.target? ≠ some j) → (cs.foldl perform s).get? j = s.get? j) ∧
    ∀ id it bs, s.get? id = some it → it.blocks = .ofList bs →
      (cs.foldl perform s).KeepsFirst id it (blocksAfter cs id it.path bs) ∧
      ∀ ds, (∀ c ∈ ds, c.isOfBlocks = true) → ∀ name,
        (∃ b ∈ blocksAfter cs id it.path bs, b.name.lowerCase = name.lowerCase) →
          ∃ it', ((cs ++ ds).foldl perform s).get? id = some it' ∧
            blockValue it' name = .ok (Block.valueOf (blocksAfter cs id it.path bs) name) := by
  refine ⟨size_foldl_perform hcs, fun j => get?_foldl_perform_of_ne hcs, ?_⟩
  intro id it bs hit hbs
  refine ⟨keepsFirst_of_get? (get?_foldl_perform hcs hit hbs), fun ds hds name hname => ?_⟩
  have hall : ∀ c ∈ cs ++ ds, c.isOfBlocks = true := List.forall_mem_append.2 ⟨hcs, hds⟩
  have hkeeps := keepsFirst_of_get? (get?_foldl_perform hall hit hbs)
  refine ⟨_, hkeeps.item, ?_⟩
  rw [hkeeps.value, blocksAfter_append, blocksAfter, Block.valueOf_append hname]

/-- An item with a page of its own, which another item has for a child. -/
def sampleParent : Store := sampleStore.add "x/tag.md" [] [] [⟨0, by decide⟩]

/-- A block that is refused, and those of the page. -/
def sampleFirst : List Call :=
  [.addBlock 0 (.str "") (.str "x"), .populate sampleFiles 0 Extract.defaultPreset]

/-- One more that is refused, one of a name that is there, and those of the page again. -/
def sampleLater : List Call :=
  [.addBlock 0 (.int 3) .null, .addBlock 0 (.str "TITLE") (.str "later"),
    .populate sampleFiles 0 Extract.defaultPreset]

theorem keepsFirst_foldl_perform_sample :
    (∃ it, ((sampleFirst ++ sampleLater).foldl perform sampleParent).get? 0 = some it ∧
      blockValue it "Title" = .ok "Other") ∧
    (sampleFirst.foldl perform sampleParent).get? 1 = sampleParent.get? 1 := by
  have hit : sampleParent.get? 0 = some (.ofPath "tag.md" [] [] []) := rfl
  have hfirst : ∀ c ∈ sampleFirst, c.isOfBlocks = true := by decide
  have hlater : ∀ c ∈ sampleLater, c.isOfBlocks = true := by decide
  have hpage : Call.added "tag.md" (.populate sampleFiles 0 Extract.defaultPreset) =
      [⟨"tag", "a"⟩, ⟨"title", "Other"⟩, ⟨"description", ""⟩, ⟨"content", "# Other"⟩] := by
    rw [Call.added, Population.madeBlocks_of_blocks blocks_sample]
  have hafter : blocksAfter sampleFirst 0 "tag.md" [] =
      [⟨"tag", "a"⟩, ⟨"title", "Other"⟩, ⟨"description", ""⟩, ⟨"content", "# Other"⟩] := by
    show Call.added "tag.md" (.populate sampleFiles 0 Extract.defaultPreset) ++ [] = _
    rw [hpage, List.append_nil]
  obtain ⟨-, hothers, hall⟩ := keepsFirst_foldl_perform sampleParent hfirst
  obtain ⟨it, hget, hvalue⟩ := (hall 0 _ [] hit rfl).2 sampleLater hlater "Title" (by
    show ∃ b ∈ blocksAfter sampleFirst 0 "tag.md" [], _
    rw [hafter]
    decide +kernel)
  refine ⟨⟨it, hget, ?_⟩, hothers 1 (by decide)⟩
  have htitle : Block.valueOf (blocksAfter sampleFirst 0 "tag.md" []) "Title" = "Other" := by
    rw [hafter]
    decide +kernel
  rw [hvalue]
  exact congrArg Except.ok htitle

end Store
end DocTree
