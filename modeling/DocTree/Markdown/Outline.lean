import DocTree.Markdown.Opening
import DocTree.Markdown.Reference

/-!
# Outlines

The blocks of a markdown text, as far as they are headings or paragraphs of its own. What stands in
quotations and list items is read only to see how many lines it takes.
-/

namespace DocTree.Markdown

/-- A block of a text: a heading or a paragraph with its text, or something else. -/
inductive Block
  | heading (text : String)
  | paragraph (text : String)
  | other
  deriving DecidableEq, Repr

/-- How many of the lines the blocks take that stand in a scope. -/
abbrev Extent := Scope → List Line → Nat

/-! ## Leaves -/

/-- How many lines of code follow; empty lines count only between them. -/
def codeLines (sc : Scope) : List Line → Nat
  | [] => 0
  | l :: ls =>
    if l.isEmpty then
      match codeLines sc ls with
      | 0 => 0
      | n + 1 => n + 2
    else if sc.isCode l then 1 + codeLines sc ls
    else 0

/-- How many lines follow the first of a fence of `n` marks `c`, its end included. -/
def fenceLines (sc : Scope) (c : Char) (n : Nat) : List Line → Nat
  | [] => 0
  | l :: ls =>
    if !l.isEmpty && sc.isOutside l then 0
    else if !sc.isCode l && closesFence c n l.rest then 1
    else 1 + fenceLines sc c n ls

/-- How many lines follow the first of a block of HTML, its end included. -/
def htmlLines (sc : Scope) (k : Html.Start) : List Line → Nat
  | [] => 0
  | l :: ls =>
    if sc.isOutside l then 0
    else if k.endsAt l.rest then (if l.isEmpty then 0 else 1)
    else 1 + htmlLines sc k ls

/-- How many rows follow in a table of `n` columns, in which `missing` cells are missing. -/
def tableRows (sc : Scope) (n : Nat) (missing : Int) : List Line → Nat
  | [] => 0
  | l :: ls =>
    let missing := missing + (n - (Table.cells l.rest).length)
    if sc.isOutside l || sc.ends .quotation l ls || (Text.trim l.rest).isEmpty || sc.isCode l
      || Table.missingLimit < missing then 0
    else 1 + tableRows sc n missing ls

/-- Whether the line continues a paragraph whatever it holds. -/
def Scope.continuesFreely (sc : Scope) (l : Line) : Bool :=
  3 < l.indent - sc.column || l.indent < 0

/-- How many lines continue a paragraph. -/
def paragraphLines (sc : Scope) : List Line → Nat
  | [] => 0
  | l :: ls =>
    if l.isEmpty || !(sc.continuesFreely l) && sc.ends .paragraph l ls then 0
    else 1 + paragraphLines sc ls

/-- How many lines stand between the first of a heading and its underline. -/
def underlined? (sc : Scope) : List Line → Option Nat
  | [] => none
  | l :: ls =>
    if l.isEmpty then none
    else if l.indent - sc.column ≤ 3 && !sc.isOutside l && isUnderline l.rest then some 0
    else if !(sc.continuesFreely l) && sc.ends .paragraph l ls then none
    else (underlined? sc ls).map (· + 1)

/-- The lines that may continue a link reference definition. -/
def referenceLines (sc : Scope) : List Line → List (List Char)
  | [] => []
  | l :: ls =>
    if l.isEmpty || !(sc.isCode l || l.indent < 0) && sc.ends .reference l ls then []
    else (l.rest ++ ['\n']) :: referenceLines sc ls

/-- How many lines the link reference definition takes that begins with the line. -/
def reference? (sc : Scope) (l : Line) (later : List Line) : Option Nat :=
  if l.first? == some '[' then
    Reference.lineCount? (l.rest ++ ['\n']) (referenceLines sc later)
  else none

/-- The text of lines, trimmed. -/
def textOf (ls : List Line) : String :=
  .ofList (Text.trim (Text.joinWith ['\n'] (ls.map (·.raw))))

/-! ## Quotations and lists -/

/-- A line of a quotation without its mark and one space behind it. -/
def unquote (l : Line) : Line :=
  let after := l.rest.drop 1
  let col := l.indent.toNat + 1
  match after with
  | c :: r =>
    if c == ' ' || (c == '\t' && (l.base + col) % 4 == 3) then
      let col' := advanceAll l.base (col + 1) (r.takeWhile isSpace)
      ⟨r, r.dropWhile isSpace, col' - (col + 1 : Nat), l.indent.toNat + 2⟩
    else
      let tab := if c == '\t' then 1 else 0
      let col' := advanceAll (l.base + tab) col (after.takeWhile isSpace)
      ⟨after, after.dropWhile isSpace, col' - (col : Nat), l.indent.toNat + 1 + tab⟩
  | [] => ⟨[], [], 0, l.indent.toNat + 1⟩

/-- The lines of a quotation without their marks. `open'` tells that the last of them is not empty,
so that a line without mark may continue its paragraph. -/
def quotedLines (sc : Scope) (open' : Bool) : List Line → List Line
  | [] => []
  | l :: ls =>
    if l.isEmpty then []
    else if l.first? == some '>' && !sc.isOutside l then
      let q := unquote l
      q :: quotedLines sc (!q.isEmpty) ls
    else if !open' || sc.ends .quotation l ls then []
    else l.lazy :: quotedLines sc true ls

/-- The content of a list item on its first line, and the column where it begins. -/
def itemContent (m : Marker) (l : Line) : Line × Int :=
  let after := l.rest.drop m.width
  let start := l.indent.toNat + m.width
  let col := advanceAll l.base start (after.takeWhile isSpace)
  let rest := after.dropWhile isSpace
  let gap := if rest.isEmpty || 4 < col - start then 1 else col - start
  (⟨after, rest, col, l.base⟩, start + gap)

/-- How many lines a list item takes, whose content `inner` measures. An item that begins with two
empty lines has no content. -/
def itemLines (inner : Extent) (sc : Scope) (m : Marker) (l : Line) (later : List Line) : Nat :=
  let (first, column) := itemContent m l
  match later with
  | below :: _ =>
    if first.isEmpty && below.isEmpty then 2
    else inner { sc with column := column, outer := sc.column } (first :: later)
  | [] => inner { sc with column := column, outer := sc.column } [first]

/-- How many lines a list takes that began with the mark `m`; the first `busy` belong to an item. -/
def listLines (inner : Extent) (sc : Scope) (m : Marker) : (busy : Nat) → List Line → Nat
  | _, [] => 0
  | busy + 1, _ :: ls => 1 + listLines inner sc m busy ls
  | 0, l :: ls =>
    if sc.isOutside l || sc.isCode l || sc.beginsPlain l then 0
    else match marker? l.rest with
      | some n =>
        if m.continues n then
          1 + listLines inner sc m (itemLines inner sc n l ls - 1) ls
        else 0
      | none => 0

/-! ## Blocks -/

/-- The block that the line begins, and how many lines follow it in the block. Quotations and lists
are measured by `quote` and `list`. -/
def blockAt (quote list : Extent) (sc : Scope) (l : Line) (later : List Line) : Block × Nat :=
  let paragraph :=
    let n := paragraphLines sc later
    (Block.paragraph (textOf (l :: later.take n)), n)
  if !sc.options.blocks then paragraph
  else if let some n := sc.table? l later then (.other, 1 + tableRows sc n 0 (later.drop 1))
  else if sc.isCode l then (.other, codeLines sc later)
  else if let some (c, n) := fence? l.rest then (.other, fenceLines sc c n later)
  else if l.first? == some '>' then
    (.other, quote { sc with column := 0 } (quotedLines sc false (l :: later)) - 1)
  else if isRule l.rest then (.other, 0)
  else if let some m := sc.item? false l then (.other, listLines list sc m 0 (l :: later) - 1)
  else if let some n := reference? sc l later then (.other, n - 1)
  else if let some k := sc.html? l then
    (.other, if k.endsAt l.rest then 0 else htmlLines sc k later)
  else if let some text := heading? l.rest then (.heading (.ofList text), 0)
  else if let some n := underlined? sc later then
    (.heading (textOf (l :: later.take n)), n + 1)
  else paragraph

/-- The blocks in a scope, up to a line that is indented too little, and how many lines they take.
The first `busy` lines belong to a block already read. -/
def blocksFrom (quote list : Extent) (sc : Scope) : (busy : Nat) → List Line → List Block × Nat
  | _, [] => ([], 0)
  | busy + 1, _ :: ls =>
    let (bs, n) := blocksFrom quote list sc busy ls
    (bs, n + 1)
  | 0, l :: ls =>
    if l.isEmpty then
      let (bs, n) := blocksFrom quote list sc 0 ls
      (bs, n + 1)
    else if sc.isOutside l then ([], 0)
    else
      let (b, k) := blockAt quote list sc l ls
      let (bs, n) := blocksFrom quote list sc k ls
      (b :: bs, n + 1)

/-- The extent of what is nested too deep: all lines, unless the first with text is indented too
little. -/
def allLines (sc : Scope) (ls : List Line) : Nat :=
  let n := (ls.takeWhile (·.isEmpty)).length
  match ls.drop n with
  | l :: _ => if sc.isOutside l then n else ls.length
  | [] => ls.length

/-- The extents inside `depth` further levels of nesting, and inside one level less. A quotation is one
level deep, a list and its item are two. -/
def extents : (depth : Nat) → Extent × Extent
  | 0 => (allLines, allLines)
  | depth + 1 =>
    let (near, far) := extents depth
    (fun sc ls => (blocksFrom near far sc 0 ls).2, near)

def blocksOf (p : Preset) (text : String) : List Block :=
  let o := p.options
  let (near, far) := extents (o.maxNesting - 1)
  (blocksFrom near far (.top o) 0 (linesOf text.toList)).1

def firstHeading (bs : List Block) : String :=
  (bs.findSome? fun b => match b with
    | .heading t => some t
    | _ => none).getD ""

def firstParagraph (bs : List Block) : String :=
  (bs.findSome? fun b => match b with
    | .paragraph t => some t
    | _ => none).getD ""

end DocTree.Markdown
