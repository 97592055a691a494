import Mathlib
import DocTree.Config
import DocTree.Proofs.Except
import DocTree.Proofs.FileSystem
import DocTree.Proofs.Settings
import DocTree.Proofs.Value
import DocTree.Proofs.Yaml.Mapping

/-!
# Which value a setting gets

What is asked for goes before the environment, the environment before the configuration file, and
the file before the default (`effective`). Each layer of `load` is described by what a lookup finds
once the layer is put over the entries below it; settings are then made of the effective values one
by one, and of nothing else (`load_eq_ok_iff_effective`).
-/

namespace DocTree.Config
variable {fs : FileSystem} {environment : List (String × String)} {asked : List (String × Value)}
  {es file : List (Value × Value)}

/-- What is asked for under a name. Null asks for nothing. -/
def askedFor? (asked : List (String × Value)) (name : String) : Option Value :=
  (asked.lookup name).filter fun v => match v with
    | .null => false
    | _ => true

/-- What the environment has for a setting. An empty variable has nothing. -/
def fromEnvironment? (environment : List (String × String)) (name : String) : Option String :=
  (environment.lookup (variableOf name)).filter fun s => !s.isEmpty

/-- The value that a setting gets. A null of the configuration file is a value. -/
def effective (environment : List (String × String)) (file : List (Value × Value))
    (asked : List (String × Value)) (f : Setting) : Value :=
  match askedFor? asked f.name, fromEnvironment? environment f.name, Value.lookup (.str f.name) file with
  | some v, _, _ => v
  | none, some s, _ => .str s
  | none, none, some v => v
  | none, none, none => f.default

/-- That these are the entries of the configuration file: none if there is no file or its text stands
for null, else those of the mapping that it stands for, whose keys are texts. -/
inductive FileHolds (fs : FileSystem) : List (Value × Value) → Prop
  | absent (h : fs.leadsTo (fun _ => true) (Path.parse fileName) = .ok false) : FileHolds fs []
  | null {bytes : List UInt8} {text : List Char} (hread : fs.read (Path.parse fileName) = .ok bytes)
      (htext : Utf8.readText bytes = .ok text) (h : Yaml.load text = .ok .null) : FileHolds fs []
  | mapping {bytes : List UInt8} {text : List Char} {v : Value} {es : List (Value × Value)}
      (hread : fs.read (Path.parse fileName) = .ok bytes) (htext : Utf8.readText bytes = .ok text)
      (h : Yaml.load text = .ok v) (hv : v.bare = .map es) (hnamed : es.all isNamed = true) :
      FileHolds fs es

theorem leadsTo_of_read {p : Path} {bytes : List UInt8} (h : fs.read p = .ok bytes) :
    fs.leadsTo (fun _ => true) p = .ok true := by
  unfold FileSystem.read at h
  unfold FileSystem.leadsTo
  split at h
  · rename_i hp
    rw [hp]
  · cases h
  · cases h

theorem fileEntries_of_read {bytes : List UInt8} {text : List Char}
    (hread : fs.read (Path.parse fileName) = .ok bytes) (htext : Utf8.readText bytes = .ok text) :
    fileEntries fs = entriesOf text := by
  unfold fileEntries
  simp only [leadsTo_of_read hread, hread]
  show ((Utf8.readText bytes).mapError Fault.encoding >>= entriesOf) = entriesOf text
  rw [htext]
  rfl

theorem entriesOf_of_load {text : List Char} {v : Value} (h : Yaml.load text = .ok v) :
    entriesOf text = v.entriesOr .kind := by
  rw [entriesOf, h]
  rfl

namespace FileHolds

theorem fileEntries_eq (h : FileHolds fs file) : fileEntries fs = .ok file := by
  cases h with
  | absent h =>
    unfold fileEntries
    simp only [h]
    rfl
  | null hread htext h =>
    rw [fileEntries_of_read hread htext, entriesOf, h]
    rfl
  | mapping hread htext h hv =>
    rw [fileEntries_of_read hread htext, entriesOf_of_load h, Value.entriesOr_of_bare hv]

theorem all_isNamed (h : FileHolds fs file) : file.all isNamed = true := by
  cases h with
  | absent => rfl
  | null => rfl
  | mapping _ _ _ _ hnamed => exact hnamed

end FileHolds

/-! ## The layers -/

theorem all_isNamed_insertEntry (n : String) (v : Value) (h : es.all isNamed = true) :
    (Value.insertEntry (.str n) v es).all isNamed = true := by
  induction es with
  | nil => rfl
  | cons e es ih =>
    obtain ⟨k, w⟩ := e
    rw [List.all_cons, Bool.and_eq_true] at h
    rw [Value.insertEntry]
    split
    · rw [List.all_cons, Bool.and_eq_true]
      exact h
    · rw [List.all_cons, Bool.and_eq_true]
      exact ⟨h.1, ih h.2⟩

def withVariable (environment : List (String × String)) (es : List (Value × Value)) (n : String) :
    List (Value × Value) :=
  match fromEnvironment? environment n with
  | some s => Value.insertEntry (.str n) (.str s) es
  | none => es

theorem withVariables_eq (environment : List (String × String)) (es : List (Value × Value)) :
    withVariables environment es = Settings.names.foldl (withVariable environment) es := by
  have hstep : (fun es n => match environment.lookup (variableOf n) with
      | some s => if s.isEmpty then es else Value.insertEntry (.str n) (.str s) es
      | none => es) = withVariable environment := by
    funext es n
    unfold withVariable fromEnvironment?
    cases environment.lookup (variableOf n) with
    | none => rfl
    | some s => cases h : s.isEmpty <;> simp [Option.filter, h]
  exact congrArg (fun step => Settings.names.foldl step es) hstep

theorem lookup_withVariable (environment : List (String × String)) (es : List (Value × Value))
    (m n : String) : Value.lookup (.str m) (withVariable environment es n) =
      if n = m then ((fromEnvironment? environment m).map .str).or (Value.lookup (.str m) es)
      else Value.lookup (.str m) es := by
  unfold withVariable
  by_cases hnm : n = m
  · subst hnm
    cases fromEnvironment? environment n with
    | none => simp
    | some s => simp [Value.lookup_insertEntry]
  · cases fromEnvironment? environment n with
    | none => simp [hnm]
    | some s => simp [Value.lookup_insertEntry, hnm]

theorem lookup_foldl_withVariable (ns : List String) (es : List (Value × Value)) (m : String) :
    Value.lookup (.str m) (ns.foldl (withVariable environment) es) =
      if m ∈ ns then ((fromEnvironment? environment m).map .str).or (Value.lookup (.str m) es)
      else Value.lookup (.str m) es := by
  induction ns generalizing es with
  | nil => simp
  | cons n ns ih =>
    rw [List.foldl_cons, ih, lookup_withVariable]
    by_cases hnm : n = m
    · subst hnm
      cases fromEnvironment? environment n <;> simp
    · simp [hnm, Ne.symm hnm]

theorem lookup_withVariables (f : Setting) :
    Value.lookup (.str f.name) (withVariables environment es) =
      ((fromEnvironment? environment f.name).map .str).or (Value.lookup (.str f.name) es) := by
  rw [withVariables_eq, lookup_foldl_withVariable, if_pos f.name_mem]

theorem all_isNamed_withVariables (h : es.all isNamed = true) :
    (withVariables environment es).all isNamed = true := by
  rw [withVariables_eq]
  generalize Settings.names = ns
  induction ns generalizing es with
  | nil => exact h
  | cons n ns ih =>
    refine ih ?_
    unfold withVariable
    split
    · exact all_isNamed_insertEntry n _ h
    · exact h

theorem lookup_withAsked (hasked : (asked.map Prod.fst).Nodup) (m : String) :
    Value.lookup (.str m) (withAsked asked es) =
      (askedFor? asked m).or (Value.lookup (.str m) es) := by
  induction asked generalizing es with
  | nil => rfl
  | cons a asked ih =>
    obtain ⟨n, v⟩ := a
    rw [List.map_cons, List.nodup_cons] at hasked
    have hrest : Value.lookup (.str m) (withAsked asked (withAsked [(n, v)] es)) =
        (askedFor? asked m).or (Value.lookup (.str m) (withAsked [(n, v)] es)) := ih hasked.2
    by_cases hnm : n = m
    · subst hnm
      -- the names are distinct, so nothing further on is asked for under this one
      have hnone : asked.lookup n = none := by
        rw [List.lookup_eq_none_iff]
        intro p hp
        exact bne_iff_ne.2 fun h => hasked.1 (List.mem_map.2 ⟨p, hp, h.symm⟩)
      have hlater : askedFor? asked n = none := by rw [askedFor?, hnone]; rfl
      rw [hlater, Option.none_or] at hrest
      refine hrest.trans ?_
      cases v <;> simp [withAsked, askedFor?, Option.filter, Value.lookup_insertEntry]
    · have hne : (m == n) = false := beq_eq_false_iff_ne.2 (Ne.symm hnm)
      have hhere : askedFor? ((n, v) :: asked) m = askedFor? asked m := by
        simp only [askedFor?, List.lookup_cons, hne]
      rw [hhere]
      refine hrest.trans ?_
      cases v <;> simp [withAsked, Value.lookup_insertEntry, hnm]

theorem all_isNamed_withAsked (h : es.all isNamed = true) :
    (withAsked asked es).all isNamed = true := by
  induction asked generalizing es with
  | nil => exact h
  | cons a asked ih =>
    obtain ⟨n, v⟩ := a
    refine ih ?_
    cases v <;> first | exact h | exact all_isNamed_insertEntry n _ h

/-! ## Settings from all layers -/

/-- The entries that the settings are made of. -/
def given (environment : List (String × String)) (file : List (Value × Value))
    (asked : List (String × Value)) : List (Value × Value) :=
  withAsked asked (withVariables environment file)

theorem getD_lookup_given (hasked : (asked.map Prod.fst).Nodup) (f : Setting) :
    (Value.lookup (.str f.name) (given environment file asked)).getD f.default =
      effective environment file asked f := by
  rw [given, lookup_withAsked hasked, lookup_withVariables, effective]
  cases askedFor? asked f.name <;> cases fromEnvironment? environment f.name <;>
    cases Value.lookup (.str f.name) file <;> rfl

theorem ofEntries_given (hasked : (asked.map Prod.fst).Nodup) (f : Setting) :
    f.ofEntries (given environment file asked) =
      Validation.within (.field f.name) (f.check (effective environment file asked f)) := by
  rw [Setting.ofEntries_eq, getD_lookup_given hasked]

theorem load_eq (hfile : FileHolds fs file) : load fs environment asked =
    (Settings.ofEntries (given environment file asked)).mapError .invalid := by
  have hnamed : (given environment file asked).all isNamed = true :=
    all_isNamed_withAsked (all_isNamed_withVariables hfile.all_isNamed)
  unfold given at hnamed
  unfold load given
  simp only [hfile.fileEntries_eq]
  show (if !_ then _ else _) = _
  rw [hnamed]
  rfl

/-- Settings are what the checks make of the effective values, be the configuration file what it may. -/
theorem exists_check_of_load (hasked : (asked.map Prod.fst).Nodup) {st : Settings}
    (h : load fs environment asked = .ok st) : ∃ file, fileEntries fs = .ok file ∧
      ∀ f : Setting, f.check (effective environment file asked f) = .ok (f.of st) := by
  obtain ⟨file, hfile, h⟩ := bind_eq_ok.1 h
  have hst : Settings.ofEntries (given environment file asked) = .ok st := by
    dsimp only at h
    split at h
    · cases h
    · exact mapError_eq_ok.1 h
  refine ⟨file, hfile, fun f => ?_⟩
  have hf := Settings.ofEntries_eq_ok.1 hst f
  rwa [ofEntries_given hasked, Validation.within_eq_ok] at hf

/-- What is asked for is checked and taken, whatever the configuration file and the environment say. -/
theorem check_of_askedFor? (hasked : (asked.map Prod.fst).Nodup) {st : Settings}
    (h : load fs environment asked = .ok st) {f : Setting} {v : Value}
    (hv : askedFor? asked f.name = some v) : f.check v = .ok (f.of st) := by
  obtain ⟨file, -, hst⟩ := exists_check_of_load hasked h
  have hf := hst f
  rwa [effective, hv] at hf

/-- A setting depends, in one place, on nothing but what is asked for under its own name. -/
theorem of_eq_of_load {asked' : List (String × Value)} (hasked : (asked.map Prod.fst).Nodup)
    (hasked' : (asked'.map Prod.fst).Nodup) {st st' : Settings}
    (h : load fs environment asked = .ok st) (h' : load fs environment asked' = .ok st')
    {f : Setting} (hf : askedFor? asked f.name = askedFor? asked' f.name) : f.of st = f.of st' := by
  obtain ⟨file, hfile, hst⟩ := exists_check_of_load hasked h
  obtain ⟨file', hfile', hst'⟩ := exists_check_of_load hasked' h'
  obtain rfl : file = file' := Except.ok.inj (hfile.symm.trans hfile')
  have heffective : effective environment file asked f = effective environment file asked' f := by
    rw [effective, effective, hf]
  exact Except.ok.inj ((hst f).symm.trans (heffective ▸ hst' f))

theorem load_eq_ok_iff (hfile : FileHolds fs file) (hasked : (asked.map Prod.fst).Nodup)
    {st : Settings} : load fs environment asked = .ok st ↔
      ∀ f : Setting, f.check (effective environment file asked f) = .ok (f.of st) := by
  rw [load_eq hfile, mapError_eq_ok, Settings.ofEntries_eq_ok]
  simp only [ofEntries_given hasked, Validation.within_eq_ok]

/-- Settings are made just if each effective value passes the check of its own setting, which then is
what this check makes of it. Neither settings nor faults depend on anything but these values. -/
theorem load_eq_ok_iff_effective (hfile : FileHolds fs file)
    (hasked : (asked.map Prod.fst).Nodup) :
    (∀ st, load fs environment asked = .ok st ↔
      ∀ f : Setting, f.check (effective environment file asked f) = .ok (f.of st)) ∧
    ((∃ st, load fs environment asked = .ok st) ↔
      ∀ f : Setting, ∃ a, f.check (effective environment file asked f) = .ok a) ∧
    ∀ (fs' : FileSystem) (environment' : List (String × String)) (file' : List (Value × Value))
      (asked' : List (String × Value)), FileHolds fs' file' → (asked'.map Prod.fst).Nodup →
        (∀ f, effective environment' file' asked' f = effective environment file asked f) →
          load fs' environment' asked' = load fs environment asked := by
  have hok : ∀ st, load fs environment asked = .ok st ↔
      ∀ f : Setting, f.check (effective environment file asked f) = .ok (f.of st) :=
    fun st => load_eq_ok_iff hfile hasked
  refine ⟨hok, ⟨?_, ?_⟩, ?_⟩
  · rintro ⟨st, hst⟩ f
    exact ⟨f.of st, (hok st).1 hst f⟩
  · intro h
    choose a ha using h
    obtain ⟨st, hst⟩ := Settings.exists_of_eq a
    exact ⟨st, (hok st).2 fun f => (ha f).trans (by rw [hst f])⟩
  · intro fs' environment' file' asked' hfile' hasked' heq
    rw [load_eq hfile, load_eq hfile']
    have hsame : Settings.ofEntries (given environment' file' asked') =
        Settings.ofEntries (given environment file asked) :=
      Settings.ofEntries_congr fun f => by
        rw [ofEntries_given hasked', ofEntries_given hasked, heq f]
    rw [hsame]

/-- A configuration file with a level that is none. -/
def sample : FileSystem := ⟨[(fileName, .file "log_level: loud\n".toUTF8.toList)], []⟩

theorem fileHolds_sample : FileHolds sample [(.str "log_level", .str "loud")] := by
  have hparse : Path.parse fileName = ⟨.relative, [fileName]⟩ := by decide +kernel
  have hread : sample.read (Path.parse fileName) = .ok "log_level: loud\n".toUTF8.toList := by
    rw [hparse]
    exact FileSystem.read_name rfl rfl (by decide +kernel) (by decide +kernel)
  have htext : Utf8.readText "log_level: loud\n".toUTF8.toList = .ok "log_level: loud\n".toList := by
    decide +kernel
  have hload : Yaml.load "log_level: loud\n".toList =
      .ok (Yaml.mappingOfTexts [("log_level", "loud")]) :=
    Yaml.load_eq_map (by decide +kernel) (by decide +kernel)
  exact .mapping hread htext hload rfl rfl

/-- The level in the file is masked by the environment, and leaves the other settings alone; not so
when the variable is empty. -/
theorem load_masked_level :
    load sample [("MDINDEX_LOG_LEVEL", "debug")] [("root", .null), ("extract_blocks", .bool false)] =
        .ok { extractBlocks := false, logLevel := .debug } ∧
      ¬∃ st, load sample [("MDINDEX_LOG_LEVEL", "")] [] = .ok st := by
  constructor
  · refine ((load_eq_ok_iff_effective fileHolds_sample (by decide)).1 _).2 fun f => ?_
    cases f <;> rfl
  · intro h
    obtain ⟨a, ha⟩ := (load_eq_ok_iff_effective fileHolds_sample (by decide)).2.1.1 h .logLevel
    cases ha

end DocTree.Config
