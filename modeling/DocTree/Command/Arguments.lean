import DocTree.Text.Search

/-!
# Command line arguments

The commands and their options. Options and other arguments may be mixed; behind two hyphens there
are no more options.
-/

namespace DocTree

inductive Command
  | tree (root : Option String) (skipUnknown : Option Bool) (preset : Option String) (verbose : Nat)
  | status (root : Option String) (json : Bool) (skipUnknown : Option Bool) (verbose : Nat)
  | blocks (file : String) (preset : Option String) (verbose : Nat)
  deriving DecidableEq, Repr

namespace Command

inductive Flag
  | verbose
  | skipUnknown
  | keepUnknown
  | json
  | preset
  | help
  deriving DecidableEq, Repr

def Flag.name : Flag → String
  | .verbose => "--verbose"
  | .skipUnknown => "--skip-unknown"
  | .keepUnknown => "--keep-unknown"
  | .json => "--json"
  | .preset => "--parser-config"
  | .help => "--help"

/-- What the arguments of a command say. -/
structure Given where
  verbose : Nat := 0
  skipUnknown : Option Bool := none
  preset : Option String := none
  json : Bool := false
  help : Bool := false
  values : List String := []
  deriving DecidableEq, Repr

namespace Given

/-- What is given, with an option that takes no value. -/
def set (g : Given) : Flag → Given
  | .verbose => { g with verbose := g.verbose + 1 }
  | .skipUnknown => { g with skipUnknown := some true }
  | .keepUnknown => { g with skipUnknown := some false }
  | .json => { g with json := true }
  | .preset => g
  | .help => { g with help := true }

end Given

def isOption (a : String) : Bool :=
  match a.toList with
  | '-' :: _ :: _ => true
  | _ => false

/-- The name of an option and the value behind an equals sign, if there is one. -/
def nameAndValue (a : String) : String × Option String :=
  let name := a.toList.takeWhile (· != '=')
  (.ofList name, match a.toList.dropWhile (· != '=') with
    | [] => none
    | _ :: v => some (.ofList v))

/-- How often an argument of one hyphen asks for more to be shown, if it asks for nothing else. -/
def shortVerbose? (a : String) : Option Nat :=
  match a.toList with
  | '-' :: cs => if cs.all (· == 'v') then some cs.length else none
  | _ => none

/-- What arguments say, if only these options occur. -/
def read? (flags : List Flag) (g : Given) : List String → Option Given
  | [] => some g
  | a :: rest =>
    if a == "--" then some { g with values := g.values ++ rest }
    else if isOption a then
      let (name, value) := nameAndValue a
      match flags.find? fun f => f.name == name with
      | some .preset => match value with
        | some v => read? flags { g with preset := some v } rest
        | none => match rest with
          | v :: rest => read? flags { g with preset := some v } rest
          | [] => none
      | some f => if value.isSome then none else read? flags (g.set f) rest
      | none => match shortVerbose? a with
        | some n => read? flags { g with verbose := g.verbose + n } rest
        | none => none
    else read? flags { g with values := g.values ++ [a] } rest

def usage : List String :=
  ["tree [PATH] [--skip-unknown | --keep-unknown] [--parser-config NAME] [-v]",
    "status [PATH] [--json] [--skip-unknown | --keep-unknown] [-v]",
    "blocks FILE [--parser-config NAME] [-v]"]

/-- What the command line asks for: help, a command, or nothing that can be understood. -/
inductive Request
  | help
  | command (c : Command)
  | unclear
  deriving DecidableEq, Repr

/-- The request in the arguments of a command. -/
def requestOf (flags : List Flag) (make : Given → Option Command) (args : List String) : Request :=
  match read? (.help :: flags) {} args with
  | none => .unclear
  | some g => if g.help then .help else ((make g).map Request.command).getD .unclear

/-- The only value, if there is one, and none if there are several. -/
def atMostOne? : List String → Option (Option String)
  | [] => some none
  | [v] => some (some v)
  | _ => none

def treeRequest : List String → Request :=
  requestOf [.verbose, .skipUnknown, .keepUnknown, .preset] fun g =>
    (atMostOne? g.values).map fun root => .tree root g.skipUnknown g.preset g.verbose

def statusRequest : List String → Request :=
  requestOf [.verbose, .skipUnknown, .keepUnknown, .json] fun g =>
    (atMostOne? g.values).map fun root => .status root g.json g.skipUnknown g.verbose

def blocksRequest : List String → Request :=
  requestOf [.verbose, .preset] fun g => match g.values with
    | [file] => some (.blocks file g.preset g.verbose)
    | _ => none

/-- The request behind the options in front of the command. -/
def commandRequest : List String → Request
  | "tree" :: args => treeRequest args
  | "status" :: args => statusRequest args
  | "blocks" :: args => blocksRequest args
  | _ => .unclear

def request : List String → Request
  | [] => .unclear
  | "--" :: args => commandRequest args
  | "--help" :: args =>
    match args with
    | a :: _ => if isOption a && a != "--" then request args else .help
    | [] => .help
  | args => commandRequest args

end Command
end DocTree
