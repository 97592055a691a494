import DocTree.Extract
import DocTree.FileSystem
import DocTree.Log
import DocTree.Store

/-!
# Blocks from a source

The blocks that the file of an item gives, and why it may give none.
-/

namespace DocTree

namespace Population

/-- Why the blocks of a source are not made. If one of them is refused, those in front of it are. -/
inductive Fault
  | file (f : FileFault)
  | encoding (f : Utf8.Fault)
  | extract (f : Extract.Fault)
  | refused (made : List Block) (f : BlockFault)
  deriving BEq, Repr

def Fault.message : Fault → String
  | .file f => f.message
  | .encoding f => f.message
  | .extract f => f.message
  | .refused _ f => f.message

/-- Whether an index of many sources goes on after the fault. -/
def Fault.isPassedOver : Fault → Bool
  | .file _ => true
  | .encoding _ => true
  | .extract f => match f with
    | .frontMatter (.yaml _ (.scalar f)) => f.isPassedOver
    | .frontMatter _ => true
    | .longNumber => true
    | .unknownPreset _ => false
  | .refused _ _ => true

/-- The blocks that are made in spite of the fault. -/
def Fault.made : Fault → List Block
  | .refused made _ => made
  | _ => []

/-- The named texts of a source, from what reading it gives. -/
def named (preset : String) (content : Except FileFault (List UInt8)) :
    Except Fault (List (Text.Raw × Text.Raw)) := do
  let bytes ← content.mapError .file
  let text ← (Utf8.readText bytes).mapError .encoding
  (Extract.named (.ofList text) preset).mapError .extract

/-- Blocks for named texts, made one after the other up to one that is refused. -/
def makeEach : List (Text.Raw × Text.Raw) → List Block × Except BlockFault Unit
  | [] => ([], .ok ())
  | (name, text) :: ns =>
    match Block.make (.ofRaw name) (.ofRaw text) with
    | .ok b =>
      let (bs, r) := makeEach ns
      (b :: bs, r)
    | .error f => ([], .error f)

/-- The blocks of a source, from what reading it gives. -/
def blocks (preset : String) (content : Except FileFault (List UInt8)) :
    Except Fault (List Block) := do
  let (bs, r) := makeEach (← named preset content)
  (r.mapError (.refused bs)).map fun _ => bs

/-- The blocks of a source that are made: all of them, or those in front of one that is refused. -/
def madeBlocks (preset : String) (content : Except FileFault (List UInt8)) : List Block :=
  match blocks preset content with
  | .ok bs => bs
  | .error f => f.made

/-- The record of an item that got its blocks; `count` is how many it then has. -/
def addedRecord (path : String) (count : Nat) : Log.Record :=
  ⟨"mdindex.core.parse", .debug, "parse.blocks_added", [("path", .str path), ("count", .int count)]⟩

end Population

namespace Store

/-- Why an item does not get its blocks. -/
inductive PopulateFault
  | source (f : Population.Fault)
  | add (f : AddFault)
  deriving BEq, Repr

/-- The store with a block in an item for each of the named texts in turn. Those in front of one that
is refused stay. -/
def addEach (s : Store) (id : Nat) :
    List (Text.Raw × Text.Raw) → Store × Except AddFault Unit
  | [] => (s, .ok ())
  | (name, text) :: ns =>
    match s.addBlock id (.ofRaw name) (.ofRaw text) with
    | .ok t => t.addEach id ns
    | .error f => (s, .error f)

/-- The store with the blocks of its source added to an item, and what is recorded of it. -/
def populate (s : Store) (fs : FileSystem) (id : Nat) (preset : String) :
    Store × Except PopulateFault (List Log.Record) :=
  match s.get? id with
  | none => (s, .ok [])
  | some it =>
    match Population.named preset (fs.read (Path.parse it.path)) with
    | .error f => (s, .error (.source f))
    | .ok ns =>
      let (t, r) := s.addEach id ns
      let count := ((t.get? id).map fun it => it.blocks.length).getD 0
      (t, (r.mapError .add).map fun _ => [Population.addedRecord it.path count])

end Store
end DocTree
