import DocTree.Extract
import DocTree.Log
import DocTree.Validation

/-!
# Settings

What an index is made with, and the checks that each setting must pass.
-/

namespace DocTree

/-- What to index and how, and which log records to show. -/
structure Settings where
  root : Text.Raw := "."
  ignore : List String := ["node_modules", "__pycache__"]
  skipUnknown : Bool := false
  extractBlocks : Bool := true
  preset : String := Extract.defaultPreset
  logLevel : Log.Level := .warning
  logJson : Bool := false
  deriving DecidableEq, Repr, Inhabited

namespace Settings

/-- The names of the settings, in their order. -/
def names : List String :=
  ["root", "ignore", "skip_unknown", "extract_blocks", "parser_config", "log_level", "log_json"]

/-- The names in a list with commas: blanks around them are dropped, and empty ones. -/
def ignoreNames (s : String) : List String :=
  ((s.partsAt ',').map String.trimBlank).filter (· != "")

/-- The names to ignore: a list of texts, or one text with commas. -/
def checkIgnore (v : Value) : Validation.Checked (List String) :=
  match v with
  | .str s => .ok (ignoreNames s)
  | .unpaired us => .ok (ignoreNames (Text.shownText us))
  | v => Validation.list Validation.text v

def checkLevel (v : Value) : Validation.Checked Log.Level :=
  match Validation.encodedText v with
  | .error is => .error is
  | .ok s => match Log.Level.choices.find? fun l => l.name == s with
    | some l => .ok l
    | none => Validation.issue .noMatch v

/-- Settings from untyped data; names that are no setting are passed over. -/
def ofEntries (es : List (Value × Value)) : Validation.Checked Settings :=
  let d : Settings := {}
  let root := Validation.optional es "root" d.root Validation.raw
  let ignore := Validation.optional es "ignore" d.ignore checkIgnore
  let skip := Validation.optional es "skip_unknown" d.skipUnknown Validation.bool
  let extract := Validation.optional es "extract_blocks" d.extractBlocks Validation.bool
  let preset := Validation.optional es "parser_config" d.preset Validation.text
  let level := Validation.optional es "log_level" d.logLevel checkLevel
  let json := Validation.optional es "log_json" d.logJson Validation.bool
  let scan := Validation.both Prod.mk (Validation.both Prod.mk root ignore)
    (Validation.both Prod.mk skip extract)
  let rest := Validation.both Prod.mk (Validation.both Prod.mk preset level) json
  Validation.both (fun ((r, i), s, e) ((p, l), j) => ⟨r, i, s, e, p, l, j⟩) scan rest

/-- What is wrong with settings, issue by issue. -/
def report (is : List Validation.Issue) : String := Validation.report "Settings" is

end Settings
end DocTree
