import Mathlib
import DocTree.Proofs.Validation
import DocTree.Settings

/-!
# Settings one by one

The settings as a family: the name of each, what it holds, its check and its default. Settings are
made of entries just if each of them is, and each is made of the value under its own name
(`ofEntries_eq_ok`).
-/

namespace DocTree

inductive Setting
  | root
  | ignore
  | skipUnknown
  | extractBlocks
  | preset
  | logLevel
  | logJson
  deriving DecidableEq, Repr

namespace Setting

def name : Setting → String
  | .root => "root"
  | .ignore => "ignore"
  | .skipUnknown => "skip_unknown"
  | .extractBlocks => "extract_blocks"
  | .preset => "parser_config"
  | .logLevel => "log_level"
  | .logJson => "log_json"

def Content : Setting → Type
  | .root => Text.Raw
  | .preset => String
  | .ignore => List String
  | .skipUnknown | .extractBlocks | .logJson => Bool
  | .logLevel => Log.Level

def of (st : Settings) : (f : Setting) → f.Content
  | .root => st.root
  | .ignore => st.ignore
  | .skipUnknown => st.skipUnknown
  | .extractBlocks => st.extractBlocks
  | .preset => st.preset
  | .logLevel => st.logLevel
  | .logJson => st.logJson

def check : (f : Setting) → Value → Validation.Checked f.Content
  | .root => Validation.raw
  | .preset => Validation.text
  | .ignore => Settings.checkIgnore
  | .skipUnknown | .extractBlocks | .logJson => Validation.bool
  | .logLevel => Settings.checkLevel

/-- The value that stands for a setting that is not given. -/
def default : Setting → Value
  | .root => .str "."
  | .ignore => .list [.str "node_modules", .str "__pycache__"]
  | .skipUnknown | .logJson => .bool false
  | .extractBlocks => .bool true
  | .preset => .str "gfm-like"
  | .logLevel => .str "warning"

/-- Every default passes its own check. -/
theorem check_default (f : Setting) : f.check f.default = .ok (f.of {}) := by
  cases f <;> rfl

theorem name_mem (f : Setting) : f.name ∈ Settings.names := by
  cases f <;> simp [name, Settings.names]

def ofEntries (f : Setting) (es : List (Value × Value)) : Validation.Checked f.Content :=
  Validation.optional es f.name (f.of {}) f.check

theorem ofEntries_eq (f : Setting) (es : List (Value × Value)) : f.ofEntries es =
    Validation.within (.field f.name)
      (f.check ((Value.lookup (.str f.name) es).getD f.default)) :=
  Validation.optional_eq f.check_default

end Setting

namespace Settings

theorem ofEntries_eq (es : List (Value × Value)) : ofEntries es =
    Validation.both
      (fun ((r, i), s, e) ((p, l), j) => (⟨r, i, s, e, p, l, j⟩ : Settings))
      (Validation.both Prod.mk
        (Validation.both Prod.mk (Setting.ofEntries .root es) (Setting.ofEntries .ignore es))
        (Validation.both Prod.mk (Setting.ofEntries .skipUnknown es)
          (Setting.ofEntries .extractBlocks es)))
      (Validation.both Prod.mk
        (Validation.both Prod.mk (Setting.ofEntries .preset es) (Setting.ofEntries .logLevel es))
        (Setting.ofEntries .logJson es)) := rfl

theorem ofEntries_eq_ok {es : List (Value × Value)} {st : Settings} :
    ofEntries es = .ok st ↔ ∀ f : Setting, f.ofEntries es = .ok (f.of st) := by
  rw [ofEntries_eq]
  simp only [Validation.both_eq_ok]
  constructor
  · rintro ⟨-, -, ⟨-, -, ⟨r, i, hr, hi, rfl⟩, ⟨s, e, hs, he, rfl⟩, rfl⟩,
      ⟨-, j, ⟨p, l, hp, hl, rfl⟩, hj, rfl⟩, rfl⟩ f
    cases f with
    | root => exact hr
    | ignore => exact hi
    | skipUnknown => exact hs
    | extractBlocks => exact he
    | preset => exact hp
    | logLevel => exact hl
    | logJson => exact hj
  · intro h
    exact ⟨_, _, ⟨_, _, ⟨_, _, h .root, h .ignore, rfl⟩,
      ⟨_, _, h .skipUnknown, h .extractBlocks, rfl⟩, rfl⟩,
      ⟨_, _, ⟨_, _, h .preset, h .logLevel, rfl⟩, h .logJson, rfl⟩, rfl⟩

theorem exists_of_eq (g : (f : Setting) → f.Content) : ∃ st : Settings, ∀ f, f.of st = g f := by
  refine ⟨⟨g .root, g .ignore, g .skipUnknown, g .extractBlocks, g .preset, g .logLevel,
    g .logJson⟩, fun f => ?_⟩
  cases f <;> rfl

/-- Settings, or what is wrong with them, follow from what each setting is made of. -/
theorem ofEntries_congr {es es' : List (Value × Value)}
    (h : ∀ f : Setting, f.ofEntries es = f.ofEntries es') : ofEntries es = ofEntries es' := by
  rw [ofEntries_eq, ofEntries_eq, h .root, h .ignore, h .skipUnknown, h .extractBlocks, h .preset,
    h .logLevel, h .logJson]

end Settings
end DocTree
