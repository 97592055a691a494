import DocTree.FileSystem
import DocTree.Settings
import DocTree.Yaml.Load

/-!
# Configuration

Where the settings come from: for each one what the caller asks for, else its environment variable,
else the configuration file, else its default.
-/

namespace DocTree.Config

def fileName : String := "config.yaml"

/-- Why there are no settings. -/
inductive Fault
  | file (f : FileFault)
  | encoding (f : Utf8.Fault)
  | yaml (text : String) (e : Yaml.Error)
  | kind (found : String)
  | noName
  | invalid (is : List Validation.Issue)
  deriving BEq, Repr

/-- What is wrong with the configuration. A scalar that its tag does not fit speaks for itself. -/
def Fault.message : Fault → String
  | .file f => f.message
  | .encoding f => f.message
  | .yaml text e => match e with
    | .scalar f => f.message
    | e => "Invalid " ++ fileName ++ ": " ++ e.message text.toList
  | .kind found => "Invalid " ++ fileName ++ ": expected a mapping, got " ++ found
  | .noName => "keywords must be strings"
  | .invalid is => Settings.report is

/-- Whether the command line tells the fault to its user; any other one ends it. -/
def Fault.isTold : Fault → Bool
  | .file _ => false
  | .encoding _ => true
  | .yaml _ e => match e with
    | .scalar f => f.isPassedOver
    | _ => true
  | .kind _ => true
  | .noName => false
  | .invalid _ => true

def entriesOf (text : List Char) : Except Fault (List (Value × Value)) :=
  match Yaml.load text with
  | .error e => .error (.yaml (.ofList text) e)
  | .ok v =>
    if v.isFalsy then .ok []
    else match v.bare with
      | .map es => .ok es
      | v => .error (.kind v.kindName)

/-- The entries of the configuration file; none if there is no such file. -/
def fileEntries (fs : FileSystem) : Except Fault (List (Value × Value)) := do
  let path := Path.parse fileName
  if !(← (fs.leadsTo (fun _ => true) path).mapError .file) then return []
  let bytes ← (fs.read path).mapError .file
  let text ← (Utf8.readText bytes).mapError .encoding
  entriesOf text

/-- The environment variable of a setting. -/
def variableOf (name : String) : String :=
  .ofList ("MDINDEX_".toList ++ name.toList.map Char.toUpper)

/-- The entries with the settings that the environment sets. An empty variable sets nothing. -/
def withVariables (environment : List (String × String)) (es : List (Value × Value)) :
    List (Value × Value) :=
  Settings.names.foldl (fun es n => match environment.lookup (variableOf n) with
    | some s => if s.isEmpty then es else Value.insertEntry (.str n) (.str s) es
    | none => es) es

/-- The entries with what is asked for. Null asks for nothing. -/
def withAsked (asked : List (String × Value)) (es : List (Value × Value)) : List (Value × Value) :=
  asked.foldl (fun es (n, v) => match v with
    | .null => es
    | v => Value.insertEntry (.str n) v es) es

def isNamed (e : Value × Value) : Bool :=
  match e.1 with
  | .str _ => true
  | .unpaired _ => true
  | _ => false

/-- The settings, from the configuration file, the environment and what is asked for, each put over
the one before. -/
def load (fs : FileSystem) (environment : List (String × String)) (asked : List (String × Value)) :
    Except Fault Settings := do
  let file ← fileEntries fs
  let given := withAsked asked (withVariables environment file)
  if !given.all isNamed then throw .noName
  (Settings.ofEntries given).mapError .invalid

end DocTree.Config
