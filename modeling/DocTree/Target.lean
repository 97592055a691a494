import DocTree.FileSystem
import DocTree.Text.Raw
import DocTree.Text.Utf8

/-!
# Where a root leads

A path that is given as data may hold halves of surrogate pairs. Those that stand for bytes are
looked up as these bytes: the bytes of a text are that text, and no entry has any others for a name.
With other halves nothing can be looked up.
-/

namespace DocTree

/-- Why a root leads to no path. -/
inductive RootFault
  | file (f : FileFault)
  | encoding (f : Text.Unencodable)
  deriving DecidableEq, Repr

def RootFault.message : RootFault → String
  | .file f => f.message
  | .encoding f => f.message

/-- What a root leads to: a path, or none that an entry could have, and what is told of that. -/
inductive Target
  | path (p : Path)
  | nowhere (why : String)
  deriving DecidableEq, Repr

/-- A name in a path, as data gives it. -/
abbrev RawName := List Text.CodePoint

namespace RawName

/-- The names in a path: what stands between slashes, but for single dots. -/
def all (us : List Text.CodePoint) : List RawName :=
  let isSlash := fun u : Text.CodePoint => u == .char '/'
  (us.splitBy fun u v => isSlash u == isSlash v).filter fun n =>
    n.head? != some (.char '/') && n != [.char '.']

/-- The text that the bytes of a name are, if they are one. -/
def text? (n : RawName) : Option String :=
  match Utf8.decode (Text.bytesOf n) with
  | .ok cs => some (.ofList cs)
  | .error _ => none

/-- The path of names below `p`. -/
def below (p : Path) (ns : List RawName) : List Text.CodePoint :=
  Text.pointsOf (p.child "").text ++ [.char '/'].intercalate ns

end RawName

namespace FileSystem

/-- What is told of names below `p`, of which no entry can have the first. -/
def absence (fs : FileSystem) (p : Path) (ns : List RawName) : String :=
  let us := RawName.below p ns
  let isLong := match fs.leadsTo Entry.isDirectory p with
    | .ok isDirectory => pathLimit ≤ (Text.bytesOf us).length
        || isDirectory && nameLimit < (Text.bytesOf (ns.headD [])).length
    | .error _ => true
  if isLong then "[Errno 36] File name too long: " ++ .ofList (Text.quotedPoints us)
  else "Not a directory: " ++ (Text.Raw.unpaired us).escaped

/-- Where names lead from `here`, each looked up with what is in front of it. Behind `here` are the
names `beyond`, of which no entry can have the first; double dots take the last of them back. -/
def seek (fs : FileSystem) (here : String) (beyond : List RawName) :
    List RawName → Except RootFault Target
  | [] => do
    let p ← (fs.resolve (Path.parse here)).mapError .file
    return if beyond.isEmpty then .path p else .nowhere (fs.absence p beyond)
  | n :: ns =>
    let us := RawName.below (fs.unlinked (Path.parse here)) (beyond ++ [n])
    match Text.unencodable? Text.isByte 0 us with
    | some f => .error (.encoding f)
    | none =>
      if n.contains (.char '\x00') then .error (.file ⟨.nullCharacter, Text.shownText us⟩)
      else if beyond.isEmpty then
        match n.text? with
        | some s => fs.seek (here ++ s ++ "/") [] ns
        | none => fs.seek here [n] ns
      else if n == [.char '.', .char '.'] then fs.seek here beyond.dropLast ns
      else fs.seek here (beyond ++ [n]) ns

/-- What a root leads to. -/
def target (fs : FileSystem) (root : Text.Raw) : Except RootFault Target :=
  match root with
  | .text s => ((fs.resolve (Path.parse s)).mapError .file).map .path
  | .unpaired us =>
    fs.seek (Text.shownText (us.takeWhile (· == .char '/'))) [] (RawName.all us)

end FileSystem
end DocTree
