import Mathlib
import DocTree.Proofs.Command.Run
import DocTree.Proofs.Population
import DocTree.Proofs.Status

/-!
# Asking for more

How many log records a command shows, as more is asked for. One request shows the records from the
level of information on and two show all, whatever the settings say. So more is shown each time, but
for a first request where the settings let records for debugging show: these are hidden by it
(`records_sublist`).
-/

namespace DocTree.Command
variable {fs : FileSystem} {environment : List (String × String)} {c : Command} {m n : Nat}
  {st : Settings}

/-! ### Arguments -/

/-- What is given, with `n` more requests to show more. -/
def Given.more (n : Nat) (g : Given) : Given := { g with verbose := g.verbose + n }

theorem Given.set_more (n : Nat) (g : Given) (f : Flag) : (g.more n).set f = (g.set f).more n := by
  cases f with
  | verbose =>
    rw [set, more, more, set, Nat.add_right_comm]
  | _ => rfl

theorem read?_more (flags : List Flag) (n : Nat) (g : Given) (args : List String) :
    read? flags (g.more n) args = (read? flags g args).map (·.more n) := by
  fun_induction read? flags g args with
  | case1 g => rfl
  | case2 g a rest ha =>
    rw [read?.eq_def]
    simp only [ha, if_true]
    rfl
  | case3 g a rest ha hoption name hflag v hname ih =>
    rw [read?.eq_def]
    simp only [ha, hoption, hname, hflag, if_true, if_false, Bool.false_eq_true]
    exact ih
  | case4 g a ha hoption name hflag v rest hname ih =>
    rw [read?.eq_def]
    simp only [ha, hoption, hname, hflag, if_true, if_false, Bool.false_eq_true]
    exact ih
  | case5 g a ha hoption name hflag hname =>
    rw [read?.eq_def]
    simp only [ha, hoption, hname, hflag, if_true, if_false, Bool.false_eq_true]
    rfl
  | case6 g a rest ha hoption name value hname f hf hflag hvalue =>
    rw [read?.eq_def]
    simp only [ha, hoption, hname, hflag, hvalue, if_true, if_false, Bool.false_eq_true]
    rfl
  | case7 g a rest ha hoption name value hname f hf hflag hvalue ih =>
    rw [read?.eq_def]
    simp only [ha, hoption, hname, hflag, hvalue, if_true, if_false, Bool.false_eq_true,
      Given.set_more, ih]
  | case8 g a rest ha hoption name value hname hflag k hk ih =>
    have hadd : ({ g.more n with verbose := (g.more n).verbose + k } : Given) =
        ({ g with verbose := g.verbose + k } : Given).more n := by
      rw [Given.more, Given.more, Nat.add_right_comm]
    rw [read?.eq_def]
    simp only [ha, hoption, hname, hflag, hk, if_true, if_false, Bool.false_eq_true, hadd]
    exact ih
  | case9 g a rest ha hoption name value hname hflag hk =>
    rw [read?.eq_def]
    simp only [ha, hoption, hname, hflag, hk, if_true, if_false, Bool.false_eq_true]
    rfl
  | case10 g a rest ha hoption ih =>
    rw [read?.eq_def]
    simp only [ha, hoption, if_false, Bool.false_eq_true]
    exact ih

theorem read?_replicate (flags : List Flag) (n : Nat) (g : Given) (args : List String) :
    read? flags g (List.replicate n "-v" ++ args) = read? flags (g.more n) args := by
  induction n generalizing g with
  | zero => rfl
  | succ n ih =>
    have hflag : flags.find? (fun f => f.name == "-v") = none := by
      rw [List.find?_eq_none]
      intro f _
      cases f <;> decide
    have hdashes : ("-v" == "--") = false := by decide
    have hoption : isOption "-v" = true := by decide
    have hname : nameAndValue "-v" = ("-v", none) := by decide
    have hshort : shortVerbose? "-v" = some 1 := by decide
    have hmore : (g.more 1).more n = g.more (n + 1) := by
      rw [Given.more, Given.more, Given.more, Nat.add_assoc, Nat.add_comm 1 n]
    rw [List.replicate_succ, List.cons_append, read?.eq_def]
    simp only [hdashes, hoption, hname, hflag, hshort, if_true, if_false, Bool.false_eq_true]
    rw [← hmore, ← ih]
    rfl

theorem requestOf_replicate {flags : List Flag} {make : Given → Option Command}
    (hmake : ∀ g n, make (g.more n) = (make g).map fun c => c.withVerbosity (c.verbosity + n))
    {args : List String} (h : requestOf flags make args = .command c) (n : Nat) :
    requestOf flags make (List.replicate n "-v" ++ args) =
      .command (c.withVerbosity (c.verbosity + n)) := by
  unfold requestOf at h ⊢
  rw [read?_replicate, read?_more]
  cases hg : read? (.help :: flags) {} args with
  | none =>
    rw [hg] at h
    cases h
  | some g =>
    rw [hg] at h
    show (if g.help then Request.help else ((make (g.more n)).map Request.command).getD .unclear) = _
    rw [hmake]
    cases hhelp : g.help with
    | true =>
      simp only [hhelp, if_true] at h
      cases h
    | false =>
      simp only [hhelp, Bool.false_eq_true, if_false] at h ⊢
      cases hc : make g with
      | none =>
        rw [hc] at h
        cases h
      | some d =>
        rw [hc] at h
        cases h
        rfl

/-- Each flag in front of the other arguments of a command asks once more. -/
theorem request_replicate {name : String} (hname : name ∈ ["tree", "status", "blocks"])
    {args : List String} (h : request (name :: args) = .command c) (n : Nat) :
    request (name :: (List.replicate n "-v" ++ args)) =
      .command (c.withVerbosity (c.verbosity + n)) := by
  rcases List.mem_cons.1 hname with rfl | hname
  · refine requestOf_replicate (fun g k => ?_) h n
    show (atMostOne? g.values).map _ = ((atMostOne? g.values).map _).map _
    cases atMostOne? g.values <;> rfl
  rcases List.mem_cons.1 hname with rfl | hname
  · refine requestOf_replicate (fun g k => ?_) h n
    show (atMostOne? g.values).map _ = ((atMostOne? g.values).map _).map _
    cases atMostOne? g.values <;> rfl
  rcases List.mem_cons.1 hname with rfl | hname
  · refine requestOf_replicate (fun g k => ?_) h n
    obtain ⟨verbose, skip, preset, json, help, values⟩ := g
    rcases values with _ | ⟨file, _ | ⟨further, values⟩⟩ <;> rfl
  · cases hname

/-! ### Levels -/

theorem threshold_one (st : Settings) : threshold st 1 = .info := by
  show Log.Level.ofChoice "info" = .info
  decide

theorem threshold_of_two_le (st : Settings) (h : 2 ≤ n) : threshold st n = .debug := by
  have hlevel : Log.levelFor n st.logLevel.name = "debug" := by
    unfold Log.levelFor
    rw [if_neg (by omega), if_neg (by omega)]
    rfl
  rw [threshold, hlevel]
  decide

theorem number_threshold_zero (st : Settings) :
    10 ≤ (threshold st 0).number ∧ ((threshold st 0).number < 20 → st.logLevel = .debug) := by
  have hlevel : Log.levelFor ((0 : Nat) : Int) st.logLevel.name = st.logLevel.name := rfl
  rw [threshold, hlevel]
  cases st.logLevel <;> decide

/-- More requests never raise the least level that is shown, but for the first one. -/
theorem number_threshold_le (h : n ≤ m) (hfirst : ¬ (n = 0 ∧ m = 1 ∧ st.logLevel = .debug)) :
    (threshold st m).number ≤ (threshold st n).number := by
  obtain ⟨hleast, hdebug⟩ := number_threshold_zero st
  have hone : (threshold st 1).number = 20 := by
    rw [threshold_one]
    rfl
  have htwo {k : Nat} (hk : 2 ≤ k) : (threshold st k).number = 10 := by
    rw [threshold_of_two_le st hk]
    rfl
  rcases Nat.lt_or_ge m 2 with hm | hm
  · rcases Nat.eq_or_lt_of_le h with rfl | hlt
    · exact Nat.le_refl _
    · -- only a first request is left
      obtain rfl : n = 0 := by omega
      obtain rfl : m = 1 := by omega
      rw [hone]
      by_contra hgt
      exact hfirst ⟨rfl, rfl, hdebug (by omega)⟩
  · rw [htwo hm]
    rcases Nat.lt_or_ge n 2 with hn | hn
    · rcases Nat.eq_zero_or_pos n with rfl | hpos
      · exact hleast
      · obtain rfl : n = 1 := by omega
        rw [hone]
        omega
    · rw [htwo hn]

/-! ### Records -/

/-- Whether the settings of a command let records for debugging show. -/
def ShowsDebug (fs : FileSystem) (environment : List (String × String)) (c : Command) : Prop :=
  ∃ st, Config.load fs environment c.askedFor = .ok st ∧ st.logLevel = .debug

theorem isShown_iff (l : Log.Level) (r : Log.Record) :
    r.isShown l = true ↔ l.number ≤ r.level.number := decide_eq_true_iff

/-- From the level of information on all records are shown but those for debugging. -/
theorem filter_isShown_info (rs : List Log.Record) : rs.filter (Log.Record.isShown .info) =
    (rs.filter (Log.Record.isShown .debug)).filter fun r => r.level != .debug := by
  rw [List.filter_filter]
  refine List.filter_congr fun r _ => ?_
  cases hr : r.level <;> simp [Log.Record.isShown, hr] <;> decide

/-- Whether a command runs at all does not depend on how much is asked for. -/
theorem exists_run?_withVerbosity {o : Outcome}
    (h : run? fs environment (c.withVerbosity n) = some o) (m : Nat) :
    ∃ o', run? fs environment (c.withVerbosity m) = some o' := by
  rw [run?_eq, named_withVerbosity] at h ⊢
  split at h
  · rename_i hnamed
    exact ⟨_, if_pos hnamed⟩
  · cases h

/-- A command shows no fewer records if more is asked for: those with fewer requests are among those
with more, in the same order. Only a first request, where the settings let records for debugging show,
hides just these. -/
theorem records_sublist (h : n ≤ m) {o : Outcome}
    (hn : run? fs environment (c.withVerbosity n) = some o) :
    ∃ o', run? fs environment (c.withVerbosity m) = some o' ∧
      (¬ (n = 0 ∧ m = 1 ∧ c.ShowsDebug fs environment) →
        (recordsOf o.output).Sublist (recordsOf o'.output)) ∧
      (n = 0 ∧ m = 1 ∧ c.ShowsDebug fs environment →
        recordsOf o'.output = (recordsOf o.output).filter fun r => r.level != .debug) := by
  obtain ⟨o', hm⟩ := exists_run?_withVerbosity hn m
  refine ⟨o', hm, ?_⟩
  have hrecords := records_run? hn
  have hrecords' := records_run? hm
  rw [askedFor_withVerbosity] at hrecords hrecords'
  simp only [made_withVerbosity, verbosity_withVerbosity] at hrecords hrecords'
  rw [hrecords, hrecords']
  cases hload : Config.load fs environment c.askedFor with
  | error e => exact ⟨fun _ => .slnil, fun _ => rfl⟩
  | ok st =>
    constructor
    · intro hfirst
      have hle := number_threshold_le h fun ⟨hn, hm, hd⟩ => hfirst ⟨hn, hm, st, hload, hd⟩
      refine List.monotone_filter_right _ fun r hr => ?_
      rw [isShown_iff] at hr ⊢
      exact Nat.le_trans hle hr
    · rintro ⟨rfl, rfl, st', hst', hdebug⟩
      cases hload.symm.trans hst'
      have hall : threshold st 0 = .debug := by
        rw [threshold, hdebug]
        decide
      show (made fs st c).filter (Log.Record.isShown (threshold st 1)) =
        ((made fs st c).filter (Log.Record.isShown (threshold st 0))).filter _
      rw [threshold_one, hall, filter_isShown_info]

/-! ### A first request for more -/

/-- An environment in which records for debugging are shown. -/
def debugging : List (String × String) := [("MDINDEX_LOG_LEVEL", "debug")]

theorem lookup_sample_tag : sample.lookupText "tag.md" = .ok (["w", "tag.md"], .file []) ∧
    sample.lookup (Path.parse "tag.md") = .ok (["w", "tag.md"], .file []) := by
  have hparse : Path.parse "tag.md" = ⟨.relative, ["tag.md"]⟩ := by decide +kernel
  have hsteps : Path.steps "tag.md" = ["tag.md"] := by decide +kernel
  have hname : ¬FileSystem.nameLimit < "tag.md".utf8ByteSize := by decide +kernel
  have hfollow : sample.follow FileSystem.linkLimit ["w"] ["tag.md"] =
      .ok (["w", "tag.md"], .file []) := by
    simp [FileSystem.follow, FileSystem.entryAt?, Entry.at?, Entry.children, FileSystem.root, sample,
      List.lookup, hname]
  constructor
  · rw [FileSystem.lookupText, if_neg (by decide +kernel), if_neg (by decide +kernel),
      if_neg (by decide +kernel), if_neg (by decide +kernel), hsteps]
    exact hfollow
  · rw [hparse, FileSystem.lookup, if_neg (by decide +kernel), if_neg (by decide +kernel)]
    exact hfollow

theorem load_debugging : Config.load sample debugging (blocks "tag.md" none 0).askedFor =
    .ok { logLevel := .debug } := by
  refine (Config.load_eq_ok_iff fileHolds_sample (by simp [askedFor, asked])).2 fun f => ?_
  cases f <;> rfl

theorem made_sample : made sample { logLevel := .debug } (blocks "tag.md" none 0) =
    [Population.addedRecord "tag.md" 3] := by
  have hread : sample.read (Path.parse "tag.md") = .ok [] := by
    rw [FileSystem.read, lookup_sample_tag.2]
  have htext : (Path.parse "tag.md").text = "tag.md" := by decide +kernel
  show blocksRecords sample { logLevel := .debug } (Path.parse "tag.md") = _
  rw [blocksRecords, hread, Population.blocks_empty, htext]
  rfl

/-- The record of the blocks of a tag is shown without requests and with two. -/
theorem exists_run?_sample (n : Nat) :
    ∃ o, run? sample debugging ((blocks "tag.md" none 0).withVerbosity n) = some o ∧
      recordsOf o.output = [Population.addedRecord "tag.md" 3].filter
        (Log.Record.isShown (threshold { logLevel := .debug } n)) := by
  have hnamed : named sample ((blocks "tag.md" none 0).withVerbosity n) = true := by
    rw [named_withVerbosity, named, isFile, lookup_sample_tag.1]
    rfl
  have hrun : run? sample debugging ((blocks "tag.md" none 0).withVerbosity n) = _ := run?_eq _
  rw [if_pos hnamed] at hrun
  refine ⟨_, hrun, ?_⟩
  rw [records_run? hrun, askedFor_withVerbosity, load_debugging]
  show (made _ _ _).filter _ = _
  rw [made_withVerbosity, made_sample, verbosity_withVerbosity]

theorem records_sublist_sample : ∃ o o',
    run? sample debugging (.blocks "tag.md" none 1) = some o ∧
    run? sample debugging (.blocks "tag.md" none 2) = some o' ∧
    recordsOf o.output = [] ∧ recordsOf o'.output = [Population.addedRecord "tag.md" 3] ∧
    (recordsOf o.output).Sublist (recordsOf o'.output) := by
  obtain ⟨o, hrun, hnone⟩ := exists_run?_sample 1
  obtain ⟨o', hrun', hsublist, -⟩ := records_sublist (show 1 ≤ 2 by decide) hrun
  obtain ⟨o'', hrun'', hone⟩ := exists_run?_sample 2
  cases hrun'.symm.trans hrun''
  exact ⟨o, o', hrun, hrun', hnone, hone, hsublist fun h => absurd h.1 (by decide)⟩

theorem not_forall_records_sublist : ¬ ∀ (fs : FileSystem) (environment : List (String × String))
    (c : Command) (n m : Nat) (o o' : Outcome), n ≤ m →
      run? fs environment (c.withVerbosity n) = some o →
      run? fs environment (c.withVerbosity m) = some o' →
      (recordsOf o.output).Sublist (recordsOf o'.output) := by
  intro h
  obtain ⟨o, hrun, hone⟩ := exists_run?_sample 0
  obtain ⟨o', hrun', hnone⟩ := exists_run?_sample 1
  have hsublist := h _ _ _ 0 1 o o' (by decide) hrun hrun'
  rw [hone, hnone] at hsublist
  have hlength : 1 ≤ 0 := hsublist.length_le
  omega

end DocTree.Command
