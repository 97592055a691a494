import DocTree.Path
import DocTree.Text.Case

/-!
# Item types

The types of item, the marker files that tell them, and the path of the rendered page beside a
source file.
-/

namespace DocTree

/-- What an item is. -/
inductive ItemType
  | unknown
  | document
  | presentation
  | collection
  | message
  | imagegallery
  | location
  | comment
  | tag
  | repository
  deriving DecidableEq, Repr, Inhabited

namespace ItemType

def all : List ItemType :=
  [.unknown, .document, .presentation, .collection, .message, .imagegallery, .location, .comment,
    .tag, .repository]

def name : ItemType → String
  | .unknown => "unknown"
  | .document => "document"
  | .presentation => "presentation"
  | .collection => "collection"
  | .message => "message"
  | .imagegallery => "imagegallery"
  | .location => "location"
  | .comment => "comment"
  | .tag => "tag"
  | .repository => "repository"

/-- The files that mark a directory as an item of a type, those that win first. -/
def markers : List (String × ItemType) :=
  [("document.md", .document), ("readme.md", .document), ("presentation.md", .presentation),
    ("collection.md", .collection), ("message.md", .message), ("imagegallery.md", .imagegallery),
    ("location.md", .location), ("comment.md", .comment), ("tag.md", .tag),
    ("repository.md", .repository)]

/-- The type that a file's name tells, in any case of letters. -/
def ofFileName (name : String) : ItemType := (markers.lookup name.lowerCase).getD .unknown

def ofPath (path : String) : ItemType := ofFileName (Path.baseName path)

end ItemType

def renderedName : String := "index.html"

/-- The path of the rendered page beside the source file. -/
def renderedPath (path : String) : String :=
  ((Path.parse (Path.dirName path)).child renderedName).normal.text

end DocTree
