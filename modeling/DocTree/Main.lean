import DocTree.Command
import DocTree.Snapshot

/-!
# The command line

Reads a snapshot of a directory tree as YAML from standard input, runs the command that the arguments
ask for, and prints what it says. Settings come from the environment too.
-/

namespace DocTree.Main

/-- All bytes that are left in a stream. -/
partial def readAll (input : IO.FS.Stream) (before : ByteArray) : IO ByteArray := do
  let chunk ← input.read 65536
  if chunk.isEmpty then return before else readAll input (before ++ chunk)

/-- The snapshot in bytes. -/
def snapshot? (bytes : List UInt8) : Except String FileSystem := do
  let text ← (Utf8.readText bytes).mapError Utf8.Fault.message
  let v ← (Yaml.load text).mapError fun e => e.message text
  match FileSystem.ofValue? v with
  | some fs => return fs
  | none => throw "The snapshot is not a mapping of names to files and directories."

/-- The environment variables of the settings. -/
def environment : IO (List (String × String)) :=
  (Settings.names.map Config.variableOf).filterMapM fun n => do
    return (← IO.getEnv n).map (n, ·)

def print (json : Bool) : Command.Output → IO Unit
  | .out t => IO.println t
  | .err t => IO.eprintln t
  | .log r => do
    let stamp := Number.natText (← IO.monoMsNow)
    IO.eprintln (if json then r.jsonLine stamp else r.line stamp)

def finish (o : Command.Outcome) : IO UInt32 := do
  o.output.forM (print o.json)
  match o.ending with
  | .escaped f => IO.eprintln f.message
  | _ => pure ()
  return o.ending.code.toUInt32

def refuse : IO UInt32 := do
  Command.usage.forM IO.eprintln
  return Command.usageCode.toUInt32

/-- Runs a command on the snapshot in the standard input. -/
def run (c : Command) : IO UInt32 := do
  let bytes ← readAll (← IO.getStdin) .empty
  match snapshot? bytes.toList with
  | .error e =>
    IO.eprintln e
    return Command.usageCode.toUInt32
  | .ok fs => match Command.run? fs (← environment) c with
    | some o => finish o
    | none => refuse

end DocTree.Main

def main (args : List String) : IO UInt32 := do
  match DocTree.Command.request args with
  | .help =>
    DocTree.Command.usage.forM IO.println
    return 0
  | .unclear => DocTree.Main.refuse
  | .command c => DocTree.Main.run c
