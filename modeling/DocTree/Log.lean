import DocTree.Json
import DocTree.Text.Blank
import DocTree.Text.Search

/-!
# Log records

Records with a level and named fields, which of them are shown, and the line that shows one.
-/

namespace DocTree.Log

inductive Level
  | debug
  | info
  | warning
  | error
  | critical
  deriving DecidableEq, Repr

namespace Level

def name : Level → String
  | .debug => "debug"
  | .info => "info"
  | .warning => "warning"
  | .error => "error"
  | .critical => "critical"

/-- The number of the level; a weightier one has a greater. -/
def number : Level → Nat
  | .debug => 10
  | .info => 20
  | .warning => 30
  | .error => 40
  | .critical => 50

/-- The levels from which on records can be asked for. -/
def choices : List Level := [.debug, .info, .warning, .error]

/-- The level that a choice names; for any other name it is that of warnings. -/
def ofChoice (name : String) : Level := (choices.find? fun l => l.name == name).getD .warning

end Level

/-- The name of the level for a number of requests for more; without any it is `usual`. -/
def levelFor (requests : Int) (usual : String) : String :=
  if requests ≤ 0 then usual else if requests = 1 then Level.info.name else Level.debug.name

structure Record where
  logger : String
  level : Level
  event : String
  fields : List (String × Value)
  deriving BEq, Repr

namespace Record

/-- Whether the record is shown where `threshold` is the least level asked for. -/
def isShown (threshold : Level) (r : Record) : Bool := threshold.number ≤ r.level.number

/-- Whether a text is written without quotes. -/
def isPlain (s : String) : Bool :=
  s.toList.all fun c => !Text.isBlank c && c != '=' && c != '"' && c != '\'' && Text.isPrintable c

/-- The value of a field in a line. -/
def valueText : Value → String
  | .str s => if isPlain s then s else s.quotedText
  | v => (v.expression? []).getD ""

/-- The record as a line, the fields by name; `stamp` tells when it was made. -/
def line (stamp : String) (r : Record) : String :=
  let fields := r.fields.mergeSort fun a b => decide (a.1 ≤ b.1)
  stamp ++ " [" ++ r.level.name.paddedTo 9 ++ "] " ++ r.event.paddedTo 30 ++ " [" ++ r.logger ++ "]"
    ++ .join (fields.map fun (n, v) => " " ++ n ++ "=" ++ valueText v)

/-- The record as JSON on one line. -/
def jsonLine (stamp : String) (r : Record) : String :=
  Json.line (.map ((r.fields.map fun (n, v) => (Value.str n, v)) ++
    [(.str "event", .str r.event), (.str "level", .str r.level.name), (.str "logger", .str r.logger),
      (.str "timestamp", .str stamp)]))

end Record
end DocTree.Log
