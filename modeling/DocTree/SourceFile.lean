import DocTree.ItemType

/-!
# The source of an item

Which of the files in a directory defines its item: a marker file if there is one, else the least
Markdown file.
-/

namespace DocTree.SourceFile

/-- The last path whose name is `name` in any case of letters. -/
def named? (ps : List Path) (name : String) : Option Path :=
  ps.reverse.find? fun p => p.name.lowerCase == name

/-- The marker that wins among the paths. -/
def marker? (ps : List Path) : Option Path :=
  ItemType.markers.findSome? fun m => named? ps m.1

def isMarkdown (p : Path) : Bool := p.suffix.lowerCase == ".md"

/-- The least path; of equals, the first. -/
def least? : List Path → Option Path
  | [] => none
  | p :: ps => match least? ps with
    | none => some p
    | some q => some (if p.le q then p else q)

/-- The path that defines the item, if one does. -/
def choose? (ps : List Path) : Option Path :=
  (marker? ps).or (least? (ps.filter isMarkdown))

end DocTree.SourceFile
