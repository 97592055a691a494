import DocTree.Text.Search
import DocTree.Yaml.Load

/-!
# Front matter

The YAML header between two lines of three hyphens at the start of a text, and the body behind it.
Blanks may follow the hyphens; blank lines behind a delimiter belong to it.
-/

namespace DocTree.FrontMatter

/-- Why front matter cannot be read. -/
inductive Fault
  | yaml (header : String) (e : Yaml.Error)
  | kind (found : String)
  deriving DecidableEq, Repr

/-- What stands behind the line ends in the blanks that `s` begins with, the last one first. -/
def afterLineEnds : List Char → List (List Char)
  | [] => []
  | c :: cs =>
    if !Text.isBlank c then []
    else if c = '\n' then afterLineEnds cs ++ [cs] else afterLineEnds cs

/-- What stands behind the delimiter that `s` begins with. -/
def afterDelimiter (s : List Char) : List (List Char) :=
  match Text.stripStart? ['-', '-', '-'] s with
  | some rest => afterLineEnds rest
  | none => []

/-- What stands in front of the first closing delimiter, and behind it. -/
def cut? : List Char → Option (List Char × List Char)
  | [] => none
  | c :: cs =>
    match if c = '\n' then (afterDelimiter cs).head? else none with
    | some body => some ([], body)
    | none => (cut? cs).map fun (header, body) => (c :: header, body)

/-- The header and the body of a text that has front matter. -/
def header? (s : List Char) : Option (List Char × List Char) :=
  (afterDelimiter s).findSome? cut?

/-- The entries that a header stands for, with the body behind it. -/
def read (header body : List Char) : Except Fault (List (Value × Value) × String) :=
  match Yaml.load header with
  | .error e => .error (.yaml (.ofList header) e)
  | .ok v =>
    if v.isFalsy then .ok ([], .ofList body)
    else match v.bare with
      | .map es => .ok (es, .ofList body)
      | v => .error (.kind v.kindName)

def split (text : String) : Except Fault (List (Value × Value) × String) :=
  match header? text.toList with
  | none => .ok ([], text)
  | some (header, body) => read header body

/-- What is wrong with the front matter. A scalar that its tag does not fit speaks for itself. -/
def Fault.message : Fault → String
  | .yaml header e => match e with
    | .scalar f => f.message
    | e => "Invalid YAML frontmatter: " ++ e.message header.toList
  | .kind found => "Invalid YAML frontmatter: expected a mapping, got " ++ found

end DocTree.FrontMatter
