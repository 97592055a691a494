import DocTree.Text.Blank
import DocTree.Text.Search

/-!
# Paths

Paths as texts, and as a root with the names below it. Reading a path drops empty names and single
dots; a normal path has double dots only at the front of a relative one.
-/

namespace DocTree

/-- Where a path begins: at the working directory, at the root, or at the root with two slashes. -/
inductive Root
  | relative
  | single
  | double
  deriving DecidableEq, Repr, Inhabited

/-- The slashes a path begins with. -/
def Root.text : Root → String
  | .relative => ""
  | .single => "/"
  | .double => "//"

/-- A path: its beginning and the names below it. -/
structure Path where
  root : Root
  parts : List String
  deriving DecidableEq, Repr, Inhabited

namespace Path

/-- The beginning of a path's text; three slashes and more count as one. -/
def rootOf : List Char → Root
  | '/' :: '/' :: '/' :: _ => .single
  | '/' :: '/' :: _ => .double
  | '/' :: _ => .single
  | _ => .relative

/-- Whether a part of a path's text is a name: neither empty nor a single dot. -/
def isName (name : String) : Bool := name != "" && name != "."

def parse (s : String) : Path :=
  ⟨rootOf s.toList, (s.partsAt '/').filter isName⟩

/-- Whether a path's text begins at the root. -/
def isAbsolute (s : String) : Bool := rootOf s.toList != .relative

/-- The steps of a path's text, each name one and each single dot one. A slash at the end is a step on
the spot, which only a directory allows. -/
def steps (s : String) : List String :=
  (s.partsAt '/').map fun n => if n.isEmpty then "." else n

def text (p : Path) : String :=
  if p.root = .relative && p.parts.isEmpty then "."
  else p.root.text ++ "/".intercalate p.parts

def name (p : Path) : String := p.parts.getLast?.getD ""

/-- The path of the entry `name` below `p`. -/
def child (p : Path) (name : String) : Path := { p with parts := p.parts ++ [name] }

/-- The last name from its last dot on, if the dot is neither first nor last in it. -/
def suffix (p : Path) : String :=
  let cs := p.name.toList
  let tail := (cs.reverse.takeWhile (· != '.')).reverse
  if tail.length + 1 < cs.length && !tail.isEmpty then .ofList ('.' :: tail) else ""

/-- The names that decide the order of paths: the root counts as one. -/
def orderKey (p : Path) : List String :=
  if p.root = .relative then p.parts else p.root.text :: p.parts

/-- Whether `p` comes no later than `q`: name by name, in the order of code points. -/
def le (p q : Path) : Bool := !decide (q.orderKey < p.orderKey)

/-- The names with double dots resolved, onto the reversed names before them. -/
def resolveDots (root : Root) : (before : List String) → List String → List String
  | before, [] => before.reverse
  | before, ".." :: names =>
    match before with
    | [] => if root = .relative then resolveDots root [".."] names else resolveDots root [] names
    | ".." :: _ => resolveDots root (".." :: before) names
    | _ :: up => resolveDots root up names
  | before, n :: names => resolveDots root (n :: before) names

/-- The path with double dots resolved as far as possible, names alone considered. -/
def normal (p : Path) : Path := { p with parts := resolveDots p.root [] p.parts }

/-- What a path's text has behind the last slash. -/
def baseName (s : String) : String := ((s.partsAt '/').getLast?).getD ""

/-- What a path's text has in front of its last name: slashes at the end are dropped, unless there
is nothing else. -/
def dirName (s : String) : String :=
  let head := Text.dropEndWhile (· != '/') s.toList
  let bare := Text.dropEndWhile (· == '/') head
  .ofList (if bare.isEmpty then head else bare)

end Path
end DocTree
