import Mathlib
import DocTree.Proofs.Command.Run
import DocTree.Proofs.Status

/-!
# How a command ends

The command line ends by itself (`EndsWell`) if it is done, if it refuses its arguments, or if it
prints what has failed. Everything else is a fault that escapes. Which faults do, and when, is told by
`Escapes`, and nothing but these keeps the command line from ending well (`endsWell_iff`). A report is
made of every index, so no fault of a report is among them.
-/

namespace DocTree.Command
variable {fs : FileSystem} {environment : List (String × String)} {c : Command}

/-- What comes of the arguments, if they name a command that runs. -/
def outcome? (fs : FileSystem) (environment : List (String × String)) (args : List String) :
    Option Outcome :=
  match request args with
  | .command c => run? fs environment c
  | _ => none

/-- The code that the command line ends with. -/
def exitCode (fs : FileSystem) (environment : List (String × String)) (args : List String) : Nat :=
  match request args with
  | .help => 0
  | .unclear => usageCode
  | .command c => match run? fs environment c with
    | some o => o.ending.code
    | none => usageCode

/-- Whether it is printed that something failed, or that there is nothing to show. -/
def TellsFailure (os : List Output) : Prop :=
  (∃ t, .err ("Error: " ++ t) ∈ os) ∨ ∃ t, .out ("No items found under " ++ t) ∈ os

/-- That the command line ends by itself: done, with its arguments refused, or with a message of what
has failed and no fault that escapes. -/
def EndsWell (fs : FileSystem) (environment : List (String × String)) (args : List String) : Prop :=
  exitCode fs environment args = 0 ∨ exitCode fs environment args = usageCode ∨
    exitCode fs environment args = 1 ∧
      ∃ o, outcome? fs environment args = some o ∧ o.ending = .failed ∧ TellsFailure o.output

/-- The faults that escape from a command. -/
inductive Escapes (fs : FileSystem) (environment : List (String × String)) :
    Command → Fault → Prop
  /-- The configuration has a fault that is not told. -/
  | settings {c : Command} {f : Config.Fault} (hnamed : c.named fs = true)
      (hload : Config.load fs environment c.askedFor = .error f) (hmute : f.isTold = false) :
    Escapes fs environment c (.config f)
  /-- The root has a null character or a half that is no byte, or a loop of links on its way. -/
  | root {c : Command} {st : Settings} {f : RootFault} (hcommand : ∀ file p v, c ≠ .blocks file p v)
      (hload : Config.load fs environment c.askedFor = .ok st)
      (hroot : fs.target st.root = .error f) : Escapes fs environment c (.root f)
  /-- There are no items, and the root cannot be written. -/
  | nothing {c : Command} {st : Settings} {root : Path} {f : Text.Unencodable}
      (hcommand : ∀ file p v, c ≠ .blocks file p v)
      (hload : Config.load fs environment c.askedFor = .ok st)
      (hroot : fs.target st.root = .ok (.path root))
      (hindex : (Index.topLevel fs st root).result = .ok [])
      (hecho : echo (nothingFound st) = .error f) : Escapes fs environment c (.encoding f)
  /-- A source stops the index. -/
  | index {path : Option String} {skip : Option Bool} {preset : Option String} {verbose : Nat}
      {st : Settings} {root : Path} {f : Population.Fault}
      (hload : Config.load fs environment (tree path skip preset verbose).askedFor = .ok st)
      (hroot : fs.target st.root = .ok (.path root))
      (hindex : (Index.topLevel fs st root).result = .error (.population f)) :
    Escapes fs environment (.tree path skip preset verbose) (.population f)
  /-- A source is asked for that would stop an index. -/
  | source {file : String} {preset : Option String} {verbose : Nat} {st : Settings}
      {f : Population.Fault} (hfile : isFile fs file = true)
      (hload : Config.load fs environment (blocks file preset verbose).askedFor = .ok st)
      (hblocks : Population.blocks st.preset (fs.read (Path.parse file)) = .error f)
      (hmute : f.isPassedOver = false) :
    Escapes fs environment (.blocks file preset verbose) (.population f)
  /-- A block is asked for that cannot be written, and those in front of it can. -/
  | value {file : String} {preset : Option String} {verbose : Nat} {st : Settings}
      {as cs : List Block} {b : Block} {f : Text.Unencodable} (hfile : isFile fs file = true)
      (hload : Config.load fs environment (blocks file preset verbose).askedFor = .ok st)
      (hblocks : Population.blocks st.preset (fs.read (Path.parse file)) = .ok (as ++ b :: cs))
      (hbefore : ∀ a ∈ as, ∀ n, .half n ∉ a.value.points) (hecho : echo b.value = .error f) :
    Escapes fs environment (.blocks file preset verbose) (.encoding f)

/-! ### What is printed of a failure -/

theorem note_append {s : String} (h : '\x1b' ∉ s.toList) (t : String) :
    note (s ++ t) = .err (s ++ .ofList (plain t.toList)) := by
  rw [note, String.toList_append, plain_append h, String.ofList_append, String.ofList_toList]

theorem say_append {s : String} (h : '\x1b' ∉ s.toList) (t : String) :
    say (s ++ t) = .out (s ++ .ofList (plain t.toList)) := by
  rw [say, String.toList_append, plain_append h, String.ofList_append, String.ofList_toList]

theorem tellsFailure_tell (before : List Output) (what : String) (cause : Option String) :
    TellsFailure (before ++ tell what cause) := by
  refine .inl ⟨.ofList (plain what.toList), List.mem_append_right _ ?_⟩
  rw [← note_append (by decide)]
  exact List.mem_cons_self ..

theorem tellsFailure_say (before : List Output) (st : Settings) :
    TellsFailure (before ++ [say (nothingFound st).shown]) := by
  refine .inr ⟨.ofList (plain (st.root.shown ++ ".").toList), List.mem_append_right _ ?_⟩
  rw [← say_append (by decide), nothingFound, Text.Raw.shown_between, String.append_assoc]
  exact List.mem_cons_self ..

/-! ### Single commands -/

/-- The ways a command on an index ends, if nothing goes wrong behind the index. -/
theorem withIndex_cases {st : Settings} (hcommand : ∀ file p v, c ≠ .blocks file p v)
    (hload : Config.load fs environment c.askedFor = .ok st) (verbose : Nat)
    {g : Store → Nat → String → List Output × Ending}
    (hg : ∀ root t ts, fs.target st.root = .ok (.path root) →
      (Index.topLevel fs st root).result = .ok (t :: ts) →
        (g (Store.empty.plant t).1.1 (Store.empty.plant t).1.2 root.text).2 = .done) :
    (withIndex fs verbose st g).2 = .done ∨
      ((withIndex fs verbose st g).2 = .failed ∧ TellsFailure (withIndex fs verbose st g).1) ∨
      (∃ f, (withIndex fs verbose st g).2 = .escaped f ∧ Escapes fs environment c f) ∨
      ∃ root f, fs.target st.root = .ok (.path root) ∧
        (Index.topLevel fs st root).result = .error (.population f) ∧
          (withIndex fs verbose st g).2 = .escaped (.population f) := by
  generalize h : withIndex fs verbose st g = r
  cases runsWithIndex h with
  | unresolved f hroot => exact .inr (.inr (.inl ⟨_, rfl, .root hcommand hload hroot⟩))
  | nowhere why _ => exact .inr (.inl ⟨rfl, tellsFailure_tell [] ..⟩)
  | stopped root f hroot hindex => exact .inr (.inr (.inr ⟨root, f, hroot, hindex, rfl⟩))
  | told root e _ => exact .inr (.inl ⟨rfl, tellsFailure_tell ..⟩)
  | empty root _ => exact .inr (.inl ⟨rfl, tellsFailure_say ..⟩)
  | unsaid root f hroot hindex hecho =>
    exact .inr (.inr (.inl ⟨_, rfl, .nothing hcommand hload hroot hindex hecho⟩))
  | first root t ts hroot hindex => exact .inl (hg root t ts hroot hindex)

theorem treeOutput_plant (t : ItemTree) (base : String) :
    (treeOutput fs (Store.empty.plant t).1.1 (Store.empty.plant t).1.2 base).2 = .done := by
  obtain ⟨items, hitems, -⟩ := Store.outline_of_holds (Store.holds_plant Store.empty t).2
  have hlines : Report.treeLines (Store.empty.plant t).1.1 fs (Store.empty.plant t).1.2 base =
      .ok (items.map fun x => Report.treeLine fs base x.1 x.2) := bind_eq_ok.2 ⟨items, hitems, rfl⟩
  rw [treeOutput, hlines]

section
variable (hfs : fs.isProper = true) (hw : ∀ n ∈ fs.working, isEntryName n = true)
include hfs hw

/-- A status of the first tree of an index is always done: its sources were found, so they have rows. -/
theorem statusOutput_plant {st : Settings} {root : Path}
    (hroot : fs.target st.root = .ok (.path root)) {t : ItemTree} {ts : List ItemTree}
    (hindex : (Index.topLevel fs st root).result = .ok (t :: ts)) (json : Bool) :
    (statusOutput fs json (Store.empty.plant t).1.1 (Store.empty.plant t).1.2 root.text).2 = .done := by
  obtain ⟨habs, hproper, hdots⟩ := FileSystem.target_eq_path hw hroot
  obtain ⟨-, hitems⟩ := exists_hasItem_of_topLevel hfs hproper hindex
  obtain ⟨rs, hrs, -⟩ := Report.exists_rows hfs habs hproper hdots
    (Store.holds_plant Store.empty t).2 fun u hu => ⟨_, hitems u
      (ItemTree.mem_preorderAll.2 ⟨t, List.mem_cons_self .., hu⟩)⟩
  rw [statusOutput_eq hrs]

end

/-- What an index is stopped by is the fault of a source. -/
theorem exists_stops_of_topLevel {st : Settings} {root : Path} {f : Population.Fault}
    (h : (Index.topLevel fs st root).result = .error (.population f)) :
    ∃ x : Index.Source, x.Stops st f := by
  unfold Index.topLevel at h
  cases hs : Index.siteAt fs st root with
  | error g =>
    rw [hs] at h
    cases h
    unfold Index.siteAt at hs
    split at hs
    · cases hs
    · cases hs
    · split at hs <;> cases hs
  | ok s =>
    rw [hs] at h
    have hmem := Index.Outcome.fault_mem_of_result h
    rcases Index.Site.fault_mem_events.1 hmem with ⟨g, -, ⟨⟩⟩ | ⟨x, -, -, g, hg, hstops⟩
    cases hg
    exact ⟨x, hstops⟩

theorem extractBlocks_of_status {path : Option String} {json : Bool} {skip : Option Bool}
    {verbose : Nat} {st : Settings}
    (h : Config.load fs environment (status path json skip verbose).askedFor = .ok st) :
    st.extractBlocks = false := by
  have hcheck := Config.check_of_askedFor? (nodup_statusAsked path skip) h (f := .extractBlocks)
    (v := .bool false) (by cases path <;> cases skip <;> rfl)
  exact (Except.ok.inj hcheck).symm

/-- Blocks are printed up to the first that cannot be written. -/
theorem printBlocks_cases (bs : List Block) : (printBlocks bs).2 = .done ∨
    ∃ as b cs f, bs = as ++ b :: cs ∧ (∀ a ∈ as, ∀ n, .half n ∉ a.value.points) ∧
      echo b.value = .error f ∧ (printBlocks bs).2 = .escaped (.encoding f) := by
  induction bs with
  | nil => exact .inl rfl
  | cons b bs ih =>
    unfold printBlocks
    cases hecho : echo b.value with
    | error f => exact .inr ⟨[], b, bs, f, rfl, List.forall_mem_nil _, hecho, rfl⟩
    | ok o =>
      rcases ih with hdone | ⟨as, b', cs, f, rfl, hbefore, hecho', hescaped⟩
      · exact .inl hdone
      · refine .inr ⟨b :: as, b', cs, f, rfl, ?_, hecho', hescaped⟩
        exact List.forall_mem_cons.2 ⟨exists_echo_iff.1 ⟨o, hecho⟩, hbefore⟩

theorem printBlocks_append {as : List Block} (h : ∀ a ∈ as, ∀ n, .half n ∉ a.value.points)
    (bs : List Block) : (printBlocks (as ++ bs)).2 = (printBlocks bs).2 := by
  induction as with
  | nil => rfl
  | cons a as ih =>
    obtain ⟨ha, has⟩ := List.forall_mem_cons.1 h
    obtain ⟨o, ho⟩ := exists_echo_iff.2 ha
    rw [List.cons_append, printBlocks, ho]
    exact ih has

/-- The ways a command on a source ends. -/
theorem blocksOutput_cases {file : String} {preset : Option String} {verbose : Nat} {st : Settings}
    (hfile : isFile fs file = true)
    (hload : Config.load fs environment (blocks file preset verbose).askedFor = .ok st) :
    (blocksOutput fs (Path.parse file) verbose st).2 = .done ∨
      ((blocksOutput fs (Path.parse file) verbose st).2 = .failed ∧
        TellsFailure (blocksOutput fs (Path.parse file) verbose st).1) ∨
      ∃ f, (blocksOutput fs (Path.parse file) verbose st).2 = .escaped f ∧
        Escapes fs environment (blocks file preset verbose) f := by
  unfold blocksOutput
  cases hblocks : Population.blocks st.preset (fs.read (Path.parse file)) with
  | ok bs =>
    rcases printBlocks_cases bs with hdone | ⟨as, b, cs, f, rfl, hbefore, hecho, hescaped⟩
    · exact .inl hdone
    · exact .inr (.inr ⟨_, hescaped, .value hfile hload hblocks hbefore hecho⟩)
  | error f =>
    cases hf : f.isPassedOver with
    | true =>
      simp only [hf, if_true]
      exact .inr (.inl ⟨trivial, tellsFailure_tell ..⟩)
    | false =>
      refine .inr (.inr ⟨.population f, ?_, .source hfile hload hblocks hf⟩)
      simp only [hf, Bool.false_eq_true, if_false]

/-! ### All commands -/

section
variable (hfs : fs.isProper = true) (hw : ∀ n ∈ fs.working, isEntryName n = true)
include hfs hw

/-- The ways a command ends that has its settings. -/
theorem carryOut_cases {st : Settings} (hnamed : c.named fs = true)
    (hload : Config.load fs environment c.askedFor = .ok st) :
    (c.carryOut fs st).2 = .done ∨
      ((c.carryOut fs st).2 = .failed ∧ TellsFailure (c.carryOut fs st).1) ∨
      ∃ f, (c.carryOut fs st).2 = .escaped f ∧ Escapes fs environment c f := by
  cases c with
  | tree path skip preset verbose =>
    rcases withIndex_cases (by simp) hload verbose
        (fun root t ts _ _ => treeOutput_plant t root.text) with
      h | h | h | ⟨root, f, hroot, hindex, h⟩
    · exact .inl h
    · exact .inr (.inl h)
    · exact .inr (.inr h)
    · exact .inr (.inr ⟨_, h, .index hload hroot hindex⟩)
  | status path json skip verbose =>
    rcases withIndex_cases (by simp) hload verbose
        (fun root t ts hroot hindex => statusOutput_plant hfs hw hroot hindex json) with
      h | h | h | ⟨root, f, hroot, hindex, h⟩
    · exact .inl h
    · exact .inr (.inl h)
    · exact .inr (.inr h)
    · -- a status asks for no blocks, and only they stop an index
      obtain ⟨x, hblocks, -⟩ := exists_stops_of_topLevel hindex
      rw [extractBlocks_of_status hload] at hblocks
      cases hblocks
  | blocks file preset verbose => exact blocksOutput_cases hnamed hload

/-- The ways a command ends. -/
theorem run?_cases {o : Outcome} (h : run? fs environment c = some o) :
    o.ending = .done ∨ (o.ending = .failed ∧ TellsFailure o.output) ∨
      ∃ f, o.ending = .escaped f ∧ Escapes fs environment c f := by
  cases runs_of_run? h with
  | told e _ _ _ => exact .inr (.inl ⟨rfl, tellsFailure_tell [] ..⟩)
  | mute e hnamed hload hmute => exact .inr (.inr ⟨_, rfl, .settings hnamed hload hmute⟩)
  | carried st hnamed hload => exact carryOut_cases hfs hw hnamed hload

end

/-- Each fault that is said to escape does. -/
theorem exists_run?_of_escapes {f : Fault} (h : Escapes fs environment c f) :
    ∃ o, run? fs environment c = some o ∧ o.ending = .escaped f := by
  cases h with
  | settings hnamed hload hmute => exact ⟨_, run?_of_runs (.mute _ hnamed hload hmute), rfl⟩
  | @root c st f hcommand hload hroot =>
    cases c with
    | blocks file preset verbose => exact absurd rfl (hcommand file preset verbose)
    | _ =>
      refine ⟨_, run?_of_runs (.carried st rfl hload), ?_⟩
      simp only [carryOut, withIndex, hroot]
  | @nothing c st root f hcommand hload hroot hindex hecho =>
    rw [nothingFound] at hecho
    cases c with
    | blocks file preset verbose => exact absurd rfl (hcommand file preset verbose)
    | _ =>
      refine ⟨_, run?_of_runs (.carried st rfl hload), ?_⟩
      simp only [carryOut, withIndex, hroot, hindex, hecho]
  | index hload hroot hindex =>
    refine ⟨_, run?_of_runs (.carried _ rfl hload), ?_⟩
    simp only [carryOut, withIndex, hroot, hindex]
  | source hfile hload hblocks hmute =>
    refine ⟨_, run?_of_runs (.carried _ hfile hload), ?_⟩
    simp only [carryOut, blocksOutput, hblocks, hmute, Bool.false_eq_true, if_false]
  | value hfile hload hblocks hbefore hecho =>
    refine ⟨_, run?_of_runs (.carried _ hfile hload), ?_⟩
    simp only [carryOut, blocksOutput, hblocks, printBlocks_append hbefore]
    rw [printBlocks, hecho]

/-- What no message is made of: a fault in a configuration or a source that is none of what they are
expected to have, a root that cannot be looked up, and a text that cannot be written. -/
def Fault.IsMute : Fault → Prop
  | .config f => f.isTold = false
  | .root f => f.IsMute
  | .population f => f.isPassedOver = false
  | .report _ => False
  | .encoding f => f.halves ≠ []

theorem isMute_of_escapes {f : Fault} (h : Escapes fs environment c f) : f.IsMute := by
  cases h with
  | settings _ _ hmute => exact hmute
  | root _ _ hroot => exact FileSystem.isMute_of_target hroot
  | nothing _ _ _ _ hecho => exact halves_ne_nil_of_echo hecho
  | index _ _ hindex =>
    obtain ⟨x, -, -, hmute⟩ := exists_stops_of_topLevel hindex
    exact hmute
  | source _ _ _ hmute => exact hmute
  | value _ _ _ _ hecho => exact halves_ne_nil_of_echo hecho

/-- With a fault that escapes, the command line does not end by itself. -/
theorem not_endsWell_of_escapes {args : List String} {f : Fault} (hrequest : request args = .command c)
    (h : Escapes fs environment c f) : ¬ EndsWell fs environment args := by
  obtain ⟨o, hrun, hescaped⟩ := exists_run?_of_escapes h
  simp [EndsWell, exitCode, outcome?, hrequest, hrun, hescaped, Ending.code, usageCode]

theorem endsWell_of_not_escapes (hfs : fs.isProper = true)
    (hw : ∀ n ∈ fs.working, isEntryName n = true) {args : List String}
    (h : ∀ c, request args = .command c → ∀ f, ¬ Escapes fs environment c f) :
    EndsWell fs environment args := by
  unfold EndsWell exitCode outcome?
  cases hrequest : request args with
  | help => exact .inl rfl
  | unclear => exact .inr (.inl rfl)
  | command c =>
    cases hrun : run? fs environment c with
    | none => exact .inr (.inl (by simp only [hrun]))
    | some o =>
      simp only [hrun]
      rcases run?_cases hfs hw hrun with hdone | ⟨hfailed, htells⟩ | ⟨f, -, hescapes⟩
      · exact .inl (congrArg Ending.code hdone)
      · exact .inr (.inr ⟨congrArg Ending.code hfailed, o, rfl, hfailed, htells⟩)
      · exact absurd hescapes (h c hrequest f)

end DocTree.Command
