import Mathlib
import DocTree.Command
import DocTree.Proofs.Target

/-!
# How a command runs

A command first looks at the file it names, then makes settings, then does its work with them. `Runs`
tells the ways in which it comes to its outcome, and `RunsWithIndex` those of the commands that make an
index. What is recorded does not depend on how much is asked to be shown: that only chooses among the
records (`records_run?`).
-/

namespace DocTree.Command
variable {fs : FileSystem} {environment : List (String × String)}

/-! ### Texts -/

/-- A text is only not written for the halves in it. -/
theorem exists_echo_iff {t : Text.Raw} : (∃ o, echo t = .ok o) ↔ ∀ n, .half n ∉ t.points := by
  have hnone : Text.unencodable? (fun _ => false) 0 t.points = none ↔ ∀ n, .half n ∉ t.points := by
    rw [Text.unencodable?_eq_none_iff]
    simp only [Bool.false_eq_true, imp_false]
  rw [← hnone]
  unfold echo
  cases Text.unencodable? (fun _ => false) 0 t.points <;> simp

theorem eq_say_of_echo {t : Text.Raw} {o : Output} (h : echo t = .ok o) : o = say t.shown := by
  unfold echo at h
  split at h
  · exact (Except.ok.inj h).symm
  · cases h

theorem halves_ne_nil_of_echo {t : Text.Raw} {f : Text.Unencodable} (h : echo t = .error f) :
    f.halves ≠ [] := by
  unfold echo at h
  split at h
  · cases h
  · rename_i f hf
    have hne := Text.halves_ne_nil hf
    cases h
    exact hne

/-- A character that begins no code is kept. -/
theorem plain_cons {ch : Char} (h : ch ≠ '\x1b') (cs : List Char) :
    plain (ch :: cs) = ch :: plain cs := by
  rw [plain.eq_def]
  split
  · rename_i heq
    rw [List.cons.injEq] at heq
    exact absurd heq.1 h
  · rename_i heq
    rw [List.cons.injEq] at heq
    rw [heq.1, heq.2]
  · rename_i heq
    cases heq

theorem plain_append {s : List Char} (h : '\x1b' ∉ s) (t : List Char) :
    plain (s ++ t) = s ++ plain t := by
  induction s with
  | nil => rfl
  | cons ch s ih =>
    rw [List.mem_cons, not_or] at h
    rw [List.cons_append, plain_cons (Ne.symm h.1), ih h.2, List.cons_append]

theorem plain_of_not_mem {s : List Char} (h : '\x1b' ∉ s) : plain s = s := by
  have hplain := plain_append h []
  have hnil : plain [] = [] := by rw [plain]
  rwa [hnil, List.append_nil] at hplain

/-! ### Commands -/

/-- Whether the file that a command names can be named to it. -/
def named (fs : FileSystem) : Command → Bool
  | .blocks file _ _ => isFile fs file
  | _ => true

/-- What a command asks of the settings. -/
def askedFor : Command → List (String × Value)
  | .tree root skip preset _ => asked [("root", root.map .str), ("skip_unknown", skip.map .bool),
      ("parser_config", preset.map .str)]
  | .status root _ skip _ => asked [("root", root.map .str), ("skip_unknown", skip.map .bool),
      ("extract_blocks", some (.bool false))]
  | .blocks _ preset _ => asked [("parser_config", preset.map .str)]

/-- What a command does with its settings. -/
def carryOut (fs : FileSystem) : Command → Settings → List Output × Ending
  | .tree _ _ _ verbose, st => withIndex fs verbose st (treeOutput fs)
  | .status _ json _ verbose, st => withIndex fs verbose st (statusOutput fs json)
  | .blocks file _ verbose, st => blocksOutput fs (Path.parse file) verbose st

theorem run?_eq (c : Command) : run? fs environment c =
    if c.named fs then some (withSettings fs environment c.askedFor (c.carryOut fs)) else none := by
  cases c <;> rfl

/-- The ways a command that runs comes to its outcome. -/
inductive Runs (fs : FileSystem) (environment : List (String × String)) (c : Command) :
    Outcome → Prop
  /-- There are no settings, and it is told why. -/
  | told (e : Config.Fault) (hnamed : c.named fs = true)
      (hload : Config.load fs environment c.askedFor = .error e) (htold : e.isTold = true) :
    Runs fs environment c ⟨tell e.message none, .failed, false⟩
  /-- There are no settings, and it is not told why. -/
  | mute (e : Config.Fault) (hnamed : c.named fs = true)
      (hload : Config.load fs environment c.askedFor = .error e) (hmute : e.isTold = false) :
    Runs fs environment c ⟨[], .escaped (.config e), false⟩
  /-- It is carried out with its settings. -/
  | carried (st : Settings) (hnamed : c.named fs = true)
      (hload : Config.load fs environment c.askedFor = .ok st) :
    Runs fs environment c ⟨(c.carryOut fs st).1, (c.carryOut fs st).2, st.logJson⟩

theorem runs_of_run? {c : Command} {o : Outcome} (h : run? fs environment c = some o) :
    Runs fs environment c o := by
  rw [run?_eq] at h
  split at h
  · rename_i hnamed
    cases h
    unfold withSettings
    cases hload : Config.load fs environment c.askedFor with
    | ok st => exact .carried st hnamed hload
    | error e =>
      cases he : e.isTold with
      | true =>
        simp only [he, if_true]
        exact .told e hnamed hload he
      | false =>
        simp only [he, Bool.false_eq_true, if_false]
        exact .mute e hnamed hload he
  · cases h

theorem run?_of_runs {c : Command} {o : Outcome} (h : Runs fs environment c o) :
    run? fs environment c = some o := by
  cases h with
  | told e hnamed hload htold => simp only [run?_eq, hnamed, withSettings, hload, htold, if_true]
  | mute e hnamed hload hmute =>
    simp only [run?_eq, hnamed, withSettings, hload, hmute, Bool.false_eq_true, if_true, if_false]
  | carried st hnamed hload => simp only [run?_eq, hnamed, withSettings, hload, if_true]

/-- What is said of an index without items. -/
def nothingFound (st : Settings) : Text.Raw := st.root.between "No items found under " "."

/-- The ways a command on an index comes to its output. -/
inductive RunsWithIndex (fs : FileSystem) (verbose : Nat) (st : Settings)
    (f : Store → Nat → String → List Output × Ending) : List Output × Ending → Prop
  /-- The root is not found. -/
  | unresolved (e : RootFault) (hroot : fs.target st.root = .error e) :
    RunsWithIndex fs verbose st f ([], .escaped (.root e))
  /-- The root is a path that no entry can have. -/
  | nowhere (why : String) (hroot : fs.target st.root = .ok (.nowhere why)) :
    RunsWithIndex fs verbose st f
      (tell ("Cannot index " ++ st.root.escaped) (some why), .failed)
  /-- A source stops the index. -/
  | stopped (root : Path) (e : Population.Fault) (hroot : fs.target st.root = .ok (.path root))
      (hindex : (Index.topLevel fs st root).result = .error (.population e)) :
    RunsWithIndex fs verbose st f
      (shown st verbose (Index.topLevel fs st root).records, .escaped (.population e))
  /-- There is no index, and it is told why. -/
  | told (root : Path) (e : Index.Fault) (hroot : fs.target st.root = .ok (.path root)) :
    RunsWithIndex fs verbose st f (shown st verbose (Index.topLevel fs st root).records ++
      tell ("Cannot index " ++ st.root.escaped) (some e.message), .failed)
  /-- The index has no items. -/
  | empty (root : Path) (hroot : fs.target st.root = .ok (.path root)) :
    RunsWithIndex fs verbose st f (shown st verbose (Index.topLevel fs st root).records ++
      [say (nothingFound st).shown], .failed)
  /-- The index has no items, and its root cannot be written. -/
  | unsaid (root : Path) (e : Text.Unencodable) (hroot : fs.target st.root = .ok (.path root))
      (hindex : (Index.topLevel fs st root).result = .ok [])
      (hecho : echo (nothingFound st) = .error e) : RunsWithIndex fs verbose st f
      (shown st verbose (Index.topLevel fs st root).records, .escaped (.encoding e))
  /-- It goes on with the first tree. -/
  | first (root : Path) (t : ItemTree) (ts : List ItemTree)
      (hroot : fs.target st.root = .ok (.path root))
      (hindex : (Index.topLevel fs st root).result = .ok (t :: ts)) : RunsWithIndex fs verbose st f
      (shown st verbose (Index.topLevel fs st root).records ++ notes st.root.escaped t ts ++
        (f (Store.empty.plant t).1.1 (Store.empty.plant t).1.2 root.text).1,
          (f (Store.empty.plant t).1.1 (Store.empty.plant t).1.2 root.text).2)

theorem runsWithIndex {verbose : Nat} {st : Settings}
    {f : Store → Nat → String → List Output × Ending} {r : List Output × Ending}
    (h : withIndex fs verbose st f = r) : RunsWithIndex fs verbose st f r := by
  rw [← h]
  unfold withIndex
  cases hroot : fs.target st.root with
  | error e => exact .unresolved e hroot
  | ok target =>
    cases target with
    | nowhere why => exact .nowhere why hroot
    | path root =>
      cases hindex : (Index.topLevel fs st root).result with
      | error e =>
        cases e with
        | population e =>
          simp only [hindex]
          exact .stopped root e hroot hindex
        | notDirectory r =>
          simp only [hindex]
          exact .told root (.notDirectory r) hroot
        | file e =>
          simp only [hindex]
          exact .told root (.file e) hroot
      | ok ts =>
        cases ts with
        | nil =>
          cases hecho : echo (nothingFound st) with
          | error e =>
            rw [nothingFound] at hecho
            simp only [hindex, hecho]
            exact .unsaid root e hroot hindex hecho
          | ok o =>
            obtain rfl := eq_say_of_echo hecho
            rw [nothingFound] at hecho
            simp only [hindex, hecho]
            exact .empty root hroot
        | cons t ts =>
          simp only [hindex]
          exact .first root t ts hroot hindex

/-- How often a command asks for more to be shown. -/
def verbosity : Command → Nat
  | .tree _ _ _ verbose => verbose
  | .status _ _ _ verbose => verbose
  | .blocks _ _ verbose => verbose

/-- The command with another number of requests for more. -/
def withVerbosity (n : Nat) : Command → Command
  | .tree root skip preset _ => .tree root skip preset n
  | .status root json skip _ => .status root json skip n
  | .blocks file preset _ => .blocks file preset n

section
variable (c : Command) (n : Nat)

@[simp] theorem verbosity_withVerbosity : (c.withVerbosity n).verbosity = n := by cases c <;> rfl

@[simp] theorem named_withVerbosity : (c.withVerbosity n).named fs = c.named fs := by cases c <;> rfl

@[simp] theorem askedFor_withVerbosity : (c.withVerbosity n).askedFor = c.askedFor := by
  cases c <;> rfl

end

/-! ### Records -/

def Output.record? : Output → Option Log.Record
  | .log r => some r
  | _ => none

/-- The log records among what is printed. -/
def recordsOf (os : List Output) : List Log.Record := os.filterMap Output.record?

/-- The least level that is shown. -/
def threshold (st : Settings) (verbose : Nat) : Log.Level :=
  .ofChoice (Log.levelFor verbose st.logLevel.name)

/-- The records of an index of the root that is set. -/
def indexRecords (fs : FileSystem) (st : Settings) : List Log.Record :=
  match fs.target st.root with
  | .ok (.path root) => (Index.topLevel fs st root).records
  | _ => []

/-- The record of the blocks of a file, if it gives any. -/
def blocksRecords (fs : FileSystem) (st : Settings) (file : Path) : List Log.Record :=
  match Population.blocks st.preset (fs.read file) with
  | .ok bs => [Population.addedRecord file.text bs.length]
  | .error _ => []

/-- The records that a command makes, shown or not. -/
def made (fs : FileSystem) (st : Settings) : Command → List Log.Record
  | .tree .. => indexRecords fs st
  | .status .. => indexRecords fs st
  | .blocks file _ _ => blocksRecords fs st (Path.parse file)

@[simp] theorem made_withVerbosity (st : Settings) (c : Command) (n : Nat) :
    made fs st (c.withVerbosity n) = made fs st c := by cases c <;> rfl

theorem recordsOf_append (os ps : List Output) :
    recordsOf (os ++ ps) = recordsOf os ++ recordsOf ps := List.filterMap_append

theorem recordsOf_eq_nil {os : List Output} (h : ∀ o ∈ os, o.record? = none) : recordsOf os = [] :=
  List.filterMap_eq_nil_iff.2 h

theorem recordsOf_shown (st : Settings) (verbose : Nat) (rs : List Log.Record) :
    recordsOf (shown st verbose rs) = rs.filter (Log.Record.isShown (threshold st verbose)) := by
  rw [recordsOf, shown, List.filterMap_map]
  exact List.filterMap_some

theorem exists_note_of_mem_notes {root : String} {t : ItemTree} {ts : List ItemTree} {o : Output}
    (h : o ∈ notes root t ts) : ∃ s, o = note s := by
  unfold notes at h
  split at h
  · cases h
  · rcases List.mem_cons.1 h with rfl | h
    · exact ⟨_, rfl⟩
    · obtain ⟨u, -, rfl⟩ := List.mem_map.1 h
      exact ⟨_, rfl⟩

theorem recordsOf_notes (root : String) (t : ItemTree) (ts : List ItemTree) :
    recordsOf (notes root t ts) = [] := by
  refine recordsOf_eq_nil fun o ho => ?_
  obtain ⟨s, rfl⟩ := exists_note_of_mem_notes ho
  rfl

theorem recordsOf_say (s : String) (os : List Output) : recordsOf (say s :: os) = recordsOf os := rfl

theorem recordsOf_tell (what : String) (cause : Option String) : recordsOf (tell what cause) = [] := by
  cases cause <;> rfl

theorem recordsOf_withIndex (verbose : Nat) (st : Settings)
    {f : Store → Nat → String → List Output × Ending}
    (hf : ∀ s id base, recordsOf (f s id base).1 = []) : recordsOf (withIndex fs verbose st f).1 =
      (indexRecords fs st).filter (Log.Record.isShown (threshold st verbose)) := by
  generalize h : withIndex fs verbose st f = r
  unfold indexRecords
  cases runsWithIndex h with
  | unresolved e hroot =>
    rw [hroot]
    rfl
  | nowhere why hroot =>
    rw [hroot]
    exact recordsOf_tell ..
  | stopped root e hroot => simp only [hroot, recordsOf_shown]
  | told root e hroot =>
    simp only [hroot, recordsOf_append, recordsOf_shown, recordsOf_tell, List.append_nil]
  | empty root hroot =>
    simp only [hroot, recordsOf_append, recordsOf_shown, recordsOf_say]
    exact List.append_nil _
  | unsaid root e hroot => simp only [hroot, recordsOf_shown]
  | first root t ts hroot =>
    simp only [hroot, recordsOf_append, recordsOf_shown, recordsOf_notes, hf, List.append_nil]

theorem recordsOf_treeOutput (s : Store) (id : Nat) (base : String) :
    recordsOf (treeOutput fs s id base).1 = [] := by
  unfold treeOutput
  split
  · refine recordsOf_eq_nil fun o ho => ?_
    obtain ⟨l, -, rfl⟩ := List.mem_map.1 ho
    rfl
  · rfl

theorem recordsOf_statusOutput (json : Bool) (s : Store) (id : Nat) (base : String) :
    recordsOf (statusOutput fs json s id base).1 = [] := by
  unfold statusOutput
  split
  · rfl
  · split
    · rfl
    · refine recordsOf_eq_nil fun o ho => ?_
      rcases List.mem_append.1 ho with ho | ho
      · obtain ⟨r, -, rfl⟩ := List.mem_map.1 ho
        rfl
      · rw [List.mem_singleton.1 ho]
        rfl

theorem recordsOf_printBlocks (bs : List Block) : recordsOf (printBlocks bs).1 = [] := by
  induction bs with
  | nil => rfl
  | cons b bs ih =>
    unfold printBlocks
    cases hecho : echo b.value with
    | error f => rfl
    | ok o =>
      obtain rfl := eq_say_of_echo hecho
      exact ih

theorem recordsOf_blocksOutput (file : Path) (verbose : Nat) (st : Settings) :
    recordsOf (blocksOutput fs file verbose st).1 =
      (blocksRecords fs st file).filter (Log.Record.isShown (threshold st verbose)) := by
  have hwarning : recordsOf (if ItemType.ofPath file.text == .unknown then
      [note ("Warning: " ++ ItemTree.unknownMessage file.text)] else []) = [] := by
    split <;> rfl
  unfold blocksOutput blocksRecords
  cases Population.blocks st.preset (fs.read file) with
  | error f =>
    cases hf : f.isPassedOver with
    | false =>
      simp only [hf, Bool.false_eq_true, if_false]
      exact hwarning
    | true =>
      simp only [hf, if_true, recordsOf_append, hwarning, recordsOf_tell, List.append_nil]
      rfl
  | ok bs =>
    simp only [recordsOf_append, hwarning, recordsOf_shown, recordsOf_say, recordsOf_printBlocks,
      List.nil_append,
      List.append_nil]

theorem recordsOf_carryOut (c : Command) (st : Settings) : recordsOf (c.carryOut fs st).1 =
    (made fs st c).filter (Log.Record.isShown (threshold st c.verbosity)) := by
  cases c with
  | tree root skip preset verbose => exact recordsOf_withIndex verbose st recordsOf_treeOutput
  | status root json skip verbose => exact recordsOf_withIndex verbose st (recordsOf_statusOutput json)
  | blocks file preset verbose => exact recordsOf_blocksOutput (Path.parse file) verbose st

/-- What a command shows of what it records is chosen by the settings and the requests for more. -/
theorem records_run? {c : Command} {o : Outcome} (h : run? fs environment c = some o) :
    recordsOf o.output = match Config.load fs environment c.askedFor with
      | .ok st => (made fs st c).filter (Log.Record.isShown (threshold st c.verbosity))
      | .error _ => [] := by
  cases runs_of_run? h with
  | told e _ hload _ =>
    rw [hload]
    exact recordsOf_tell _ _
  | mute e _ hload _ =>
    rw [hload]
    rfl
  | carried st _ hload =>
    rw [hload]
    exact recordsOf_carryOut c st

end DocTree.Command
