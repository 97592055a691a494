import DocTree.Digest
import DocTree.FileSystem
import DocTree.Json
import DocTree.Store

/-!
# Reports on a tree of items

For every item of a tree, those above before those below: how deep it lies, where its rendered page
is, whether that exists, and the fingerprint of its source.
-/

namespace DocTree

namespace Item

def isRendered (fs : FileSystem) (it : Item) : Bool := fs.holds (Path.parse it.renderedPath)

/-- The fingerprint of the source; empty if the source cannot be read. -/
def fingerprint (fs : FileSystem) (it : Item) : Except FileFault String :=
  match fs.read (Path.parse it.path) with
  | .ok bytes => .ok (Digest.fingerprint bytes)
  | .error f => if f.cause = .nullCharacter then .error f else .ok ""

end Item

namespace Report

/-- What is told of an item. -/
structure Row where
  depth : Nat
  type : ItemType
  path : String
  relativePath : String
  hash : String
  rendered : Bool
  deriving DecidableEq, Repr

/-- Why there is no report. -/
inductive Fault
  | misuse (m : Misuse)
  | file (f : FileFault)
  deriving DecidableEq, Repr

def Fault.message : Fault → String
  | .misuse m => m.message
  | .file f => f.message

/-- The depths with that of `id` set. -/
def setDepth (d : Nat → Nat) (id n : Nat) : Nat → Nat := fun i => if i = id then n else d i

/-- The depths after a visit: the children of `id` lie one deeper than `id`. -/
def visitChildren (s : Store) (d : Nat → Nat) (id : Nat) : Nat → Nat :=
  let below := ((s.get? id).map fun it => it.children.owned).getD []
  below.foldl (fun d' c => setDepth d' c (d id + 1)) d

/-- The depths after visits in turn. -/
def depths (s : Store) (visits : List Nat) : Nat → Nat :=
  visits.foldl (visitChildren s) fun _ => 0

/-- The items of a tree with their depths. -/
def outline (s : Store) (root : Nat) : Except Misuse (List (Nat × Item)) := do
  let visits ← s.walk "walk" root
  let d := depths s visits
  return visits.filterMap fun id => (s.get? id).map fun it => (d id, it)

def row (fs : FileSystem) (base : String) (depth : Nat) (it : Item) : Except FileFault Row := do
  let hash ← it.fingerprint fs
  return ⟨depth, it.type, it.path, it.relativePath base, hash, it.isRendered fs⟩

def rows (s : Store) (fs : FileSystem) (root : Nat) (base : String) : Except Fault (List Row) := do
  let items ← (outline s root).mapError .misuse
  (items.mapM fun (d, it) => row fs base d it).mapError .file

/-- An item as a line of an indented tree; rendered ones have a star. -/
def treeLine (fs : FileSystem) (base : String) (depth : Nat) (it : Item) : String :=
  "".paddedTo (2 * depth) ++ it.type.name ++ "  " ++ it.relativePath base
    ++ (if it.isRendered fs then " *" else "")

def treeLines (s : Store) (fs : FileSystem) (root : Nat) (base : String) :
    Except Misuse (List String) := do
  let items ← outline s root
  return items.map fun (d, it) => treeLine fs base d it

namespace Row

/-- The row as a line of columns. -/
def line (r : Row) : String :=
  (if r.hash.isEmpty then "-" else r.hash).paddedTo 12 ++ "  "
    ++ (if r.rendered then "rendered" else "pending").paddedTo 8 ++ "  "
    ++ r.type.name.paddedTo 12 ++ "  " ++ r.relativePath

def toValue (r : Row) : Value :=
  .map [(.str "depth", .int r.depth), (.str "type", .str r.type.name), (.str "path", .str r.path),
    (.str "relative_path", .str r.relativePath), (.str "hash", .str r.hash),
    (.str "rendered", .bool r.rendered)]

end Row

/-- The line that counts the rows, and those without a rendered page. -/
def summaryLine (rs : List Row) : String :=
  Number.natText rs.length ++ " item(s), "
    ++ Number.natText (rs.filter fun r => !r.rendered).length ++ " pending"

/-- The rows as JSON text. -/
def jsonText (rs : List Row) : String := Json.pretty (.list (rs.map Row.toValue))

end Report
end DocTree
