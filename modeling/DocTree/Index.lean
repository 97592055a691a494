import DocTree.Population
import DocTree.Settings
import DocTree.SourceFile

/-!
# The index of a directory tree

First the tree is looked through: a site is what one directory shows, with the sites below it. From
the sites follow the items: a directory without a source hands the items below it up to its own
parent. What is recorded on the way follows from the sites too, those below first.
-/

namespace DocTree

namespace Index

/-- The source of an item: its path, the further files beside it, and what reading it gives. -/
structure Source where
  path : Path
  files : List Path
  content : Except FileFault (List UInt8)

/-- What is found at a directory: the sites below it, and its own source if it has one. -/
inductive Site
  | failed (f : FileFault)
  | directory (below : List Site) (own : Option Source)

/-- Why an index is not made. -/
inductive Fault
  | notDirectory (root : Path)
  | file (f : FileFault)
  | population (f : Population.Fault)
  deriving BEq, Repr

def Fault.message : Fault → String
  | .notDirectory root => "Not a directory: " ++ root.text
  | .file f => f.message
  | .population f => f.message

/-- What happens while an index is made. -/
inductive Event
  | record (r : Log.Record)
  | fault (f : Fault)

/-- The records made, and what came of it. -/
structure Outcome (α : Type) where
  records : List Log.Record
  result : Except Fault α

/-- The outcome of events: the first fault ends it, else it is `a`. -/
def Outcome.ofEvents {α : Type} (a : α) : List Event → Outcome α
  | [] => ⟨[], .ok a⟩
  | .fault f :: _ => ⟨[], .error f⟩
  | .record r :: es =>
    let o := ofEvents a es
    ⟨r :: o.records, o.result⟩

/-! ## Looking through -/

/-- Whether a name is passed over. -/
def isIgnored (ignore : List String) (name : String) : Bool :=
  name.toList.head? == some '.' || ignore.contains name

/-- The further files beside a source: all but rendered pages. -/
def furtherFiles (source : Path) (files : List Path) : List Path :=
  files.filter fun p => p != source && p.name.lowerCase != renderedName

/-- The source among files, with the further files. -/
def sourceOf (fs : FileSystem) (files : List Path) : Option Source :=
  (SourceFile.choose? files).map fun p => ⟨p, furtherFiles p files, fs.read p⟩

/-- What stands in front of `b` if names go first by code points. -/
def goesFirst {α : Type} (a b : String × α) : Bool := decide (a.1 ≤ b.1)

/-- The paths of the files in a directory whose entries have these names. -/
def filesAt (fs : FileSystem) (ignore : List String) (p : Path) (names : List String) :
    Except FileFault (List Path) :=
  let paths := (names.filter (!isIgnored ignore ·)).mergeSort.map p.child
  paths.filterM fun q => fs.leadsTo Entry.isFile q

mutual

/-- The site at the path of an entry. -/
def survey (fs : FileSystem) (ignore : List String) (p : Path) : Entry → Site
  | .directory es =>
    match filesAt fs ignore p (es.map (·.1)) with
    | .error f => .failed f
    | .ok files =>
      .directory (((surveyAll fs ignore p es).mergeSort goesFirst).map (·.2)) (sourceOf fs files)
  | _ => .directory [] none

/-- The sites of the directories among entries, with their names. Links are not followed. -/
def surveyAll (fs : FileSystem) (ignore : List String) (p : Path) :
    List (String × Entry) → List (String × Site)
  | [] => []
  | (n, e) :: es =>
    if e.isDirectory && !isIgnored ignore n then
      (n, survey fs ignore (p.child n) e) :: surveyAll fs ignore p es
    else surveyAll fs ignore p es

end

/-! ## Items -/

namespace Source

def itemPath (s : Source) : String := s.path.text

def type (s : Source) : ItemType := ItemType.ofPath s.itemPath

/-- Whether no item is made of the source. -/
def isDropped (st : Settings) (s : Source) : Bool := s.type == .unknown && st.skipUnknown

/-- The blocks of the item: those that are made. -/
def blocks (st : Settings) (s : Source) : List Block :=
  if st.extractBlocks then Population.madeBlocks st.preset s.content else []

def item (st : Settings) (s : Source) (children : List ItemTree) : ItemTree :=
  .node s.itemPath (s.files.map Path.text) (s.blocks st) children

end Source

/-- The items of a directory, from those below it. -/
def gather (st : Settings) (own : Option Source) (below : List ItemTree) : List ItemTree :=
  match own with
  | none => below
  | some s => if s.isDropped st then below else [s.item st below]

mutual

/-- How many items a site has at its top. -/
def Site.width (st : Settings) : Site → Nat
  | .failed _ => 0
  | .directory below own => match own with
    | none => widthOf st below
    | some s => if s.isDropped st then widthOf st below else 1

def widthOf (st : Settings) : List Site → Nat
  | [] => 0
  | s :: ss => s.width st + widthOf st ss

end

mutual

def Site.items (st : Settings) : Site → List ItemTree
  | .failed _ => []
  | .directory below own => gather st own (itemsOf st below)

def itemsOf (st : Settings) : List Site → List ItemTree
  | [] => []
  | s :: ss => s.items st ++ itemsOf st ss

end

mutual

theorem Site.length_items (st : Settings) : ∀ s : Site, (s.items st).length = s.width st
  | .failed _ => by simp [Site.items, Site.width]
  | .directory below own => by
    have ih := length_itemsOf st below
    cases own with
    | none => simp [Site.items, Site.width, gather, ih]
    | some s => by_cases h : s.isDropped st <;> simp [Site.items, Site.width, gather, h, ih]

theorem length_itemsOf (st : Settings) : ∀ ss : List Site, (itemsOf st ss).length = widthOf st ss
  | [] => rfl
  | s :: ss => by simp [itemsOf, widthOf, Site.length_items st s, length_itemsOf st ss]

end

/-! ## Records -/

def record (level : Log.Level) (event : String) (fields : List (String × Value)) : Event :=
  .record ⟨"mdindex.core.indexer", level, event, fields⟩

/-- What happens when the blocks of a source are made. -/
def populationEvents (st : Settings) (s : Source) : List Event :=
  if st.extractBlocks then
    match Population.blocks st.preset s.content with
    | .ok bs => [.record (Population.addedRecord s.itemPath bs.length)]
    | .error f =>
      if f.isPassedOver then
        [record .warning "indexer.blocks_failed"
          [("path", .str s.itemPath), ("error", .str f.message)]]
      else [.fault (.population f)]
  else []

/-- What happens when the items of a directory are made, `count` being the number of those below. -/
def ownEvents (st : Settings) (count : Nat) : Option Source → List Event
  | none => []
  | some s =>
    let path := ("path", Value.str s.itemPath)
    let unknown := if s.type == .unknown then
        [record .warning "indexer.unknown_item" [path, ("skipped", .bool st.skipUnknown)]]
      else []
    if s.isDropped st then unknown
    else
      unknown ++ populationEvents st s ++ [record .debug "indexer.item"
        [path, ("type", .str s.type.name), ("children", .int count)]]

mutual

def Site.events (st : Settings) : Site → List Event
  | .failed f => [.fault (.file f)]
  | .directory below own => eventsOf st below ++ ownEvents st (widthOf st below) own

def eventsOf (st : Settings) : List Site → List Event
  | [] => []
  | s :: ss => s.events st ++ eventsOf st ss

end

/-! ## The index -/

/-- The site of the directory that is indexed. -/
def siteAt (fs : FileSystem) (st : Settings) (root : Path) : Except Fault Site :=
  match fs.leadsTo Entry.isDirectory root with
  | .error f => .error (.file f)
  | .ok false => .error (.notDirectory root)
  | .ok true => match fs.lookup root with
    | .ok (_, e) => .ok (survey fs st.ignore root e)
    | .error _ => .error (.notDirectory root)

/-- All items at the top of the directory tree below `root`. -/
def topLevel (fs : FileSystem) (st : Settings) (root : Path) : Outcome (List ItemTree) :=
  match siteAt fs st root with
  | .error f => ⟨[], .error f⟩
  | .ok s => .ofEvents (s.items st) (s.events st)

/-- What happens when one of the items at the top is taken. -/
def choiceRecords (root : Path) : List ItemTree → List Log.Record
  | [] => [⟨"mdindex.core.indexer", .info, "indexer.empty", [("root", .str root.text)]⟩]
  | [_] => []
  | t :: ts => [⟨"mdindex.core.indexer", .warning, "indexer.multiple_roots",
      [("root", .str root.text), ("kept", .str t.path),
        ("dropped", .list (ts.map fun t => .str t.path))]⟩]

/-- The first item at the top of the directory tree below `root`. -/
def first (fs : FileSystem) (st : Settings) (root : Path) : Outcome (Option ItemTree) :=
  let o := topLevel fs st root
  match o.result with
  | .error f => ⟨o.records, .error f⟩
  | .ok ts => ⟨o.records ++ choiceRecords root ts, .ok ts.head?⟩

end Index
end DocTree
