import DocTree.Path
import DocTree.Text.Quoted
import DocTree.Number.Shortest

/-!
# File systems

A tree of directories, files and symbolic links, with a working directory. Looking up a path follows
links, at most forty of them.
-/

namespace DocTree

/-- What a directory holds under a name. -/
inductive Entry
  | file (bytes : List UInt8)
  | link (target : String)
  | directory (entries : List (String × Entry))
  deriving Repr, Inhabited

/-- Why a path leads to nothing. -/
inductive LookupFault
  | missing
  | notDirectory
  | isDirectory
  | nameTooLong
  | tooManyLinks
  | nullCharacter
  | linkLoop
  deriving DecidableEq, Repr

/-- A fault and the path that was looked up. -/
structure FileFault where
  cause : LookupFault
  path : String
  deriving DecidableEq, Repr

/-- The names from the root of the file system to an entry, links resolved. -/
abbrev Location := List String

/-- A file system: what its root holds, and where its working directory is. -/
structure FileSystem where
  entries : List (String × Entry)
  working : Location
  deriving Repr, Inhabited

namespace Entry

def children : Entry → List (String × Entry)
  | .directory es => es
  | _ => []

def isDirectory : Entry → Bool
  | .directory _ => true
  | _ => false

def isFile : Entry → Bool
  | .file _ => true
  | _ => false

/-- The entry below this one, no link followed. -/
def at? : Entry → Location → Option Entry
  | e, [] => some e
  | e, n :: ns => match e.children.lookup n with
    | some d => d.at? ns
    | none => none

end Entry

def FileFault.message (f : FileFault) : String :=
  let numbered := fun (n : Nat) what =>
    "[Errno " ++ Number.natText n ++ "] " ++ what ++ ": " ++ f.path.quotedText
  match f.cause with
  | .missing => numbered 2 "No such file or directory"
  | .notDirectory => numbered 20 "Not a directory"
  | .isDirectory => numbered 21 "Is a directory"
  | .nameTooLong => numbered 36 "File name too long"
  | .tooManyLinks => numbered 40 "Too many levels of symbolic links"
  | .nullCharacter => "embedded null byte"
  | .linkLoop => "Symlink loop from " ++ f.path.quotedText

namespace FileSystem

def root (fs : FileSystem) : Entry := .directory fs.entries

def entryAt? (fs : FileSystem) (l : Location) : Option Entry := fs.root.at? l

/-- How many links a lookup may follow. -/
def linkLimit : Nat := 40

/-- How many bytes a name may have. -/
def nameLimit : Nat := 255

/-- How many bytes a path may have, the null at its end included. -/
def pathLimit : Nat := 4096

/-- Follows names from a directory, and at most `links` links on the way. A dot stays where it is. -/
def follow (fs : FileSystem) : (links : Nat) → (here : Location) → (names : List String) →
    Except LookupFault (Location × Entry)
  | _, here, [] => match fs.entryAt? here with
    | some e => .ok (here, e)
    | none => .error .missing
  | links, here, name :: names =>
    if name = "." then fs.follow links here names
    else if name = ".." then fs.follow links here.dropLast names
    else if nameLimit < name.utf8ByteSize then .error .nameTooLong
    else match fs.entryAt? (here ++ [name]) with
      | none => .error .missing
      | some (.directory _) => fs.follow links (here ++ [name]) names
      | some (.file bs) =>
        if names.isEmpty then .ok (here ++ [name], .file bs) else .error .notDirectory
      | some (.link target) => match links with
        | 0 => .error .tooManyLinks
        | links + 1 =>
          fs.follow links (if Path.isAbsolute target then [] else here)
            (Path.steps target ++ names)
termination_by links _ names => (links, names.length)

/-- The location where a path begins. -/
def base (fs : FileSystem) (p : Path) : Location :=
  if p.root = .relative then fs.working else []

def hasNull (p : Path) : Bool := p.parts.any fun n => n.toList.contains '\x00'

/-- What a path leads to, links followed. -/
def lookup (fs : FileSystem) (p : Path) : Except LookupFault (Location × Entry) :=
  if hasNull p then .error .nullCharacter
  else if pathLimit ≤ p.text.utf8ByteSize then .error .nameTooLong
  else fs.follow linkLimit (fs.base p) p.parts

/-- What a path leads to that is given as text, with the dots and the last slash that it has. -/
def lookupText (fs : FileSystem) (s : String) : Except LookupFault (Location × Entry) :=
  if s.toList.contains '\x00' then .error .nullCharacter
  else if s.isEmpty then .error .missing
  else if pathLimit ≤ s.utf8ByteSize then .error .nameTooLong
  else fs.follow linkLimit (if Path.isAbsolute s then [] else fs.working) (Path.steps s)

/-- Whether a path leads to anything. -/
def holds (fs : FileSystem) (p : Path) : Bool := (fs.lookup p).isOk

/-- Whether a path leads to an entry that `q` accepts. A name that is too long is a fault. -/
def leadsTo (fs : FileSystem) (q : Entry → Bool) (p : Path) : Except FileFault Bool :=
  match fs.lookup p with
  | .ok (_, e) => .ok (q e)
  | .error .nameTooLong => .error ⟨.nameTooLong, p.text⟩
  | .error _ => .ok false

/-- The bytes of the file that a path leads to. -/
def read (fs : FileSystem) (p : Path) : Except FileFault (List UInt8) :=
  match fs.lookup p with
  | .ok (_, .file bs) => .ok bs
  | .ok _ => .error ⟨.isDirectory, p.text⟩
  | .error e => .error ⟨e, p.text⟩

/-! ## Resolving links -/

mutual

def linkCount : Entry → Nat
  | .file _ => 0
  | .link _ => 1
  | .directory es => linkCountOf es

def linkCountOf : List (String × Entry) → Nat
  | [] => 0
  | (_, e) :: es => linkCount e + linkCountOf es

end

/-- The location that a path names if no link is followed. -/
def locate (fs : FileSystem) (p : Path) : Location :=
  Path.resolveDots .single (fs.base p).reverse p.parts

/-- The path one step up. A relative path that has no name to drop gets double dots. -/
def stepUp (p : Path) : Path :=
  if p.root = .relative && (p.parts.isEmpty || p.parts.getLast? == some "..") then p.child ".."
  else { p with parts := p.parts.dropLast }

/-- The path of names with links resolved as far as they lead, and whether no loop was met. What does
not exist is taken as it stands; `seen` are the links under way, by the paths that led to them. -/
def unlink (fs : FileSystem) : (depth : Nat) → (seen : List Path) → (here : Path) →
    (names : List String) → Path × Bool
  | _, _, here, [] => (here, true)
  | depth, seen, here, name :: names =>
    if name = ".." then fs.unlink depth seen (stepUp here) names
    else
      let there := here.child name
      match fs.entryAt? (fs.locate there) with
      | some (.link target) =>
        if there ∈ seen then (names.foldl Path.child there, false)
        else match depth with
          | 0 => (names.foldl Path.child there, false)
          | depth + 1 =>
            let t := Path.parse target
            let start := if t.root = .relative then here else ⟨.single, []⟩
            let (q, ok) := fs.unlink depth (there :: seen) start t.parts
            if ok then fs.unlink (depth + 1) seen q names else (names.foldl Path.child q, false)
      | _ => fs.unlink depth seen there names
termination_by depth _ _ names => (depth, names.length)

/-- How many links may be under way at once: each link once for every way to write its path. -/
def linkDepth (fs : FileSystem) : Nat := (linkCountOf fs.entries) * (fs.working.length + 2)

/-- The path with links resolved as far as they lead. -/
def unlinked (fs : FileSystem) (p : Path) : Path :=
  (fs.unlink fs.linkDepth [] ⟨if p.root = .relative then .relative else .single, []⟩ p.parts).1

/-- The location of a path with links resolved as far as they lead. -/
def resolved (fs : FileSystem) (p : Path) : Location := fs.locate (fs.unlinked p)

/-- The path without links, from the root on. -/
def resolve (fs : FileSystem) (p : Path) : Except FileFault Path :=
  if hasNull p then .error ⟨.nullCharacter, p.text⟩
  else
    let q : Path := ⟨.single, fs.resolved p⟩
    match fs.lookup q with
    | .error .tooManyLinks => .error ⟨.linkLoop, q.text⟩
    | _ => .ok q

/-! ## Changes -/

/-- The entries with `e` under a name, or without the name. -/
def setName (name : String) (e : Option Entry) : List (String × Entry) → List (String × Entry)
  | [] => e.toList.map (name, ·)
  | (n, d) :: es =>
    if n = name then e.toList.map (name, ·) ++ es else (n, d) :: setName name e es

/-- The entries with `e` at a location, directories made on the way, or without that location. -/
def setAt (e : Option Entry) : Location → List (String × Entry) → List (String × Entry)
  | [], es => es
  | [n], es => setName n e es
  | n :: ns, es =>
    let below := ((es.lookup n).map Entry.children).getD []
    setName n (some (.directory (setAt e ns below))) es

/-- The location of a path whose last name is not looked up. -/
def place (fs : FileSystem) (p : Path) : Location :=
  fs.resolved { p with parts := p.parts.dropLast } ++ p.parts.getLast?.toList

/-- The file system with `e` at a path, directories made on the way. -/
def put (fs : FileSystem) (p : Path) (e : Entry) : FileSystem :=
  { fs with entries := setAt (some e) (fs.place p) fs.entries }

/-- The file system with a file of these bytes at a path; a link that is there leads to the file. -/
def write (fs : FileSystem) (p : Path) (bytes : List UInt8) : FileSystem :=
  { fs with entries := setAt (some (.file bytes)) (fs.resolved p) fs.entries }

/-- The file system with a directory at a path; one that is there is kept. -/
def makeDirectory (fs : FileSystem) (p : Path) : FileSystem :=
  match fs.lookup p with
  | .ok (_, .directory _) => fs
  | _ => fs.put p (.directory [])

def remove (fs : FileSystem) (p : Path) : FileSystem :=
  { fs with entries := setAt none (fs.place p) fs.entries }

end FileSystem
end DocTree
