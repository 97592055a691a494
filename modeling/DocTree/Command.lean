import DocTree.Command.Arguments
import DocTree.Config
import DocTree.Index
import DocTree.Report
import DocTree.Target

/-!
# Commands

What the commands print, and how they end. Failures that a user can mend are told as errors; all
others end the command.
-/

namespace DocTree.Command

/-- A piece of output: a text for the reader, a text about what happened, or a log record. -/
inductive Output
  | out (text : String)
  | err (text : String)
  | log (r : Log.Record)
  deriving BEq, Repr

/-- A fault that the command does not tell of itself. -/
inductive Fault
  | config (f : Config.Fault)
  | root (f : RootFault)
  | population (f : Population.Fault)
  | report (f : Report.Fault)
  | encoding (f : Text.Unencodable)
  deriving BEq, Repr

def Fault.message : Fault → String
  | .config f => f.message
  | .root f => f.message
  | .population f => f.message
  | .report f => f.message
  | .encoding f => f.message

/-- How a command ends. -/
inductive Ending
  | done
  | failed
  | escaped (f : Fault)
  deriving BEq, Repr

/-- What a command prints and how it ends; `json` tells that log records are written as JSON. -/
structure Outcome where
  output : List Output
  ending : Ending
  json : Bool := false
  deriving BEq, Repr

/-- The text without the codes that style a terminal: an escape and a bracket, numbers and marks, and
a letter. -/
def plain (s : List Char) : List Char :=
  match s with
  | '\x1b' :: '[' :: cs =>
    let code := cs.dropWhile fun c => c.isDigit || c == ';' || c == '?'
    match _h : code with
    | c :: rest => if c.isAlpha then plain rest else '\x1b' :: plain ('[' :: cs)
    | [] => s
  | c :: cs => c :: plain cs
  | [] => []
termination_by s.length
decreasing_by
  · have : code.length ≤ cs.length := (List.dropWhile_sublist _).length_le
    simp only [_h, List.length_cons] at this ⊢
    omega
  · simp
  · simp

def Ending.code : Ending → Nat
  | .done => 0
  | _ => 1

/-- The code for arguments that cannot be understood. -/
def usageCode : Nat := 2

def say (s : String) : Output := .out (.ofList (plain s.toList))

/-- The output of a text that may hold halves, which cannot be written. Their position is counted in
what is written. -/
def echo (t : Text.Raw) : Except Text.Unencodable Output :=
  match Text.unencodable? (fun _ => false) 0 t.points with
  | none => .ok (say t.shown)
  | some f =>
    let before := plain ((t.points.take f.position).map Text.CodePoint.shown)
    .error { f with position := before.length }

def note (s : String) : Output := .err (.ofList (plain s.toList))

/-- An error, and what caused it. -/
def tell (what : String) (cause : Option String) : List Output :=
  note ("Error: " ++ what) :: (cause.map fun c => note ("  " ++ c)).toList

/-- The records that settings and requests for more let show. -/
def shown (st : Settings) (verbose : Nat) (rs : List Log.Record) : List Output :=
  let threshold := Log.Level.ofChoice (Log.levelFor verbose st.logLevel.name)
  (rs.filter (Log.Record.isShown threshold)).map .log

def withSettings (fs : FileSystem) (environment : List (String × String))
    (asked : List (String × Value)) (f : Settings → List Output × Ending) : Outcome :=
  match Config.load fs environment asked with
  | .ok st =>
    let (output, ending) := f st
    ⟨output, ending, st.logJson⟩
  | .error e =>
    if e.isTold then ⟨tell e.message none, .failed, false⟩ else ⟨[], .escaped (.config e), false⟩

/-- What is said of items at the top besides the one that is shown. -/
def notes (root : String) (shown : ItemTree) (others : List ItemTree) : List Output :=
  if others.isEmpty then []
  else
    note ("Note: " ++ root ++ " has no root item; showing " ++ shown.path ++ ", skipping:")
      :: others.map fun t => note ("  " ++ t.path)

/-- Runs `f` with a store, the number of the first item in it, and the path that was indexed. -/
def withIndex (fs : FileSystem) (verbose : Nat) (st : Settings)
    (f : Store → Nat → String → List Output × Ending) : List Output × Ending :=
  let told := fun why => tell ("Cannot index " ++ st.root.escaped) (some why)
  match fs.target st.root with
  | .error e => ([], .escaped (.root e))
  | .ok (.nowhere why) => (told why, .failed)
  | .ok (.path root) =>
    let o := Index.topLevel fs st root
    let logs := shown st verbose o.records
    match o.result with
    | .error (.population e) => (logs, .escaped (.population e))
    | .error e => (logs ++ told e.message, .failed)
    | .ok [] => match echo (st.root.between "No items found under " ".") with
      | .ok o => (logs ++ [o], .failed)
      | .error f => (logs, .escaped (.encoding f))
    | .ok (t :: ts) =>
      let ⟨(s, id), _⟩ := Store.empty.plant t
      let (output, ending) := f s id root.text
      (logs ++ notes st.root.escaped t ts ++ output, ending)

def treeOutput (fs : FileSystem) (s : Store) (id : Nat) (base : String) : List Output × Ending :=
  match Report.treeLines s fs id base with
  | .ok lines => (lines.map say, .done)
  | .error m => ([], .escaped (.report (.misuse m)))

/-- The output of the status of items, in columns or as JSON. -/
def statusOutput (fs : FileSystem) (json : Bool) (s : Store) (id : Nat) (base : String) :
    List Output × Ending :=
  match Report.rows s fs id base with
  | .error f => ([], .escaped (.report f))
  | .ok rows =>
    if json then ([say (Report.jsonText rows)], .done)
    else (rows.map (fun r => say r.line) ++ [say (Report.summaryLine rows)], .done)

/-- The output of blocks, up to a value that cannot be written. -/
def printBlocks : List Block → List Output × Ending
  | [] => ([], .done)
  | b :: bs =>
    let head := say ("[" ++ b.name ++ "]")
    match echo b.value with
    | .ok o =>
      let (os, ending) := printBlocks bs
      (head :: o :: os, ending)
    | .error f => ([head], .escaped (.encoding f))

def blocksOutput (fs : FileSystem) (file : Path) (verbose : Nat) (st : Settings) :
    List Output × Ending :=
  let path := file.text
  let type := ItemType.ofPath path
  let warning :=
    if type == .unknown then [note ("Warning: " ++ ItemTree.unknownMessage path)] else []
  match Population.blocks st.preset (fs.read file) with
  | .ok bs =>
    let logs := shown st verbose [Population.addedRecord path bs.length]
    let (os, ending) := printBlocks bs
    (warning ++ logs ++ say ("type: " ++ type.name) :: os, ending)
  | .error f =>
    if f.isPassedOver then
      (warning ++ tell ("Cannot extract blocks from " ++ path) (some f.message), .failed)
    else (warning, .escaped (.population f))

/-- Whether a file can be named to a command: there is one, and it is no directory. -/
def isFile (fs : FileSystem) (file : String) : Bool :=
  match fs.lookupText file with
  | .ok (_, e) => e.isFile
  | .error _ => false

/-- What is asked for by options that were given. -/
def asked (options : List (String × Option Value)) : List (String × Value) :=
  options.filterMap fun (n, v) => v.map (n, ·)

/-- Runs a command; none if a file it names is not there. -/
def run? (fs : FileSystem) (environment : List (String × String)) : Command → Option Outcome
  | .tree root skip preset verbose =>
    some (withSettings fs environment
      (asked [("root", root.map .str), ("skip_unknown", skip.map .bool),
        ("parser_config", preset.map .str)])
      fun st => withIndex fs verbose st (treeOutput fs))
  | .status root json skip verbose =>
    some (withSettings fs environment
      (asked [("root", root.map .str), ("skip_unknown", skip.map .bool),
        ("extract_blocks", some (.bool false))])
      fun st => withIndex fs verbose st (statusOutput fs json))
  | .blocks file preset verbose =>
    if isFile fs file then
      some (withSettings fs environment (asked [("parser_config", preset.map .str)])
        (blocksOutput fs (Path.parse file) verbose))
    else none

end DocTree.Command
