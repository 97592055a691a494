import DocTree.Markdown.Html
import DocTree.Markdown.Preset
import DocTree.Markdown.Table
import DocTree.Number.Reading

/-!
# Openings

How a line begins a block, and which lines end the paragraph in front of them.
-/

namespace DocTree.Markdown

/-- What surrounds a block: the options, the column where the content of the list item begins that
it is in, and that of the item around it. -/
structure Scope where
  options : Options
  column : Int
  outer : Int
  deriving Repr

namespace Scope

def top (o : Options) : Scope := ⟨o, 0, -1⟩

/-- Whether the line is indented so far that it is code. -/
def isCode (sc : Scope) (l : Line) : Bool := sc.options.blocks && l.indent - sc.column ≥ 4

/-- Whether the line is indented less than the content around it. -/
def isOutside (sc : Scope) (l : Line) : Bool := l.indent < sc.column

end Scope

/-! ## Single lines -/

/-- The mark of a fence and its length, three at least. What follows a fence of backticks holds none. -/
def fence? (s : List Char) : Option (Char × Nat) :=
  match s with
  | c :: _ =>
    let n := (s.takeWhile (· == c)).length
    if (c == '~' || c == '\x60') && 3 ≤ n && !(c == '\x60' && (s.drop n).contains c) then some (c, n)
    else none
  | [] => none

/-- Whether the text closes a fence of `n` marks `c`. -/
def closesFence (c : Char) (n : Nat) (s : List Char) : Bool :=
  let k := (s.takeWhile (· == c)).length
  n ≤ k && (s.drop k).all isSpace

/-- Whether the text is a line across: three or more equal marks, and spaces. -/
def isRule (s : List Char) : Bool :=
  match s with
  | c :: _ =>
    (c == '*' || c == '-' || c == '_') && s.all (fun d => d == c || isSpace d) && 3 ≤ s.count c
  | [] => false

/-- Whether the text underlines a heading. -/
def isUnderline (s : List Char) : Bool :=
  match s with
  | c :: _ => (c == '-' || c == '=') && (s.dropWhile (· == c)).all isSpace
  | [] => false

/-- The text of a heading behind one to six number signs; those at its end that follow a space are
cut off. -/
def heading? (s : List Char) : Option (List Char) :=
  let level := (s.takeWhile (· == '#')).length
  let text := s.drop level
  if level == 0 || 6 < level || !(text.head?.all isSpace) then none
  else
    let text := Text.dropEndWhile isSpace text
    let cut := Text.dropEndWhile (· == '#') text
    some (Text.trim (if (cut.getLast?.map isSpace).getD false then cut else text))

/-- The mark in front of a list item: the character that ends it, its width, and the number that
an ordered list begins with. -/
structure Marker where
  mark : Char
  width : Nat
  number : Option Nat
  deriving DecidableEq, Repr

/-- The mark of a list item at the start of the text. -/
def marker? (s : List Char) : Option Marker :=
  let digits := s.takeWhile Char.isDigit
  let closed := fun r : List Char => r.head?.all isSpace
  match s.drop digits.length with
  | c :: r =>
    if !closed r then none
    else if digits.isEmpty then
      if c == '-' || c == '*' || c == '+' then some ⟨c, 1, none⟩ else none
    else if digits.length ≤ 9 && (c == '.' || c == ')') then
      some ⟨c, digits.length + 1, some (Number.ofDigits 10 (digits.filterMap Number.digitValue?))⟩
    else none
  | [] => none

/-- Whether a further item with the mark `n` belongs to a list that began with `m`. -/
def Marker.continues (m n : Marker) : Bool :=
  m.mark == n.mark && m.number.isSome == n.number.isSome

/-! ## Lines in their scope -/

/-- What a line may end: a paragraph, a link reference definition, or a quotation or table. -/
inductive Caller
  | paragraph
  | reference
  | quotation
  deriving DecidableEq, Repr

/-- The mark of the list item that the line begins. A line far to the right of the list around it,
but left of the item's content, begins none. A paragraph is ended only by an item that is not empty
and, in an ordered list, is the first. -/
def Scope.item? (sc : Scope) (interrupting : Bool) (l : Line) : Option Marker := do
  if sc.isCode l then failure
  if 0 ≤ sc.outer && 4 ≤ l.indent - sc.outer && sc.isOutside l then failure
  let m ← marker? l.rest
  if interrupting && !sc.isOutside l then
    if (m.number.getD 1) != 1 then failure
    if (l.rest.drop m.width).all isSpace then failure
  return m

/-- Whether the line begins a fence, a quotation or a line across. -/
def Scope.beginsPlain (sc : Scope) (l : Line) : Bool :=
  !sc.isCode l && ((fence? l.rest).isSome || l.first? == some '>' || isRule l.rest)

/-- How the line begins a block of HTML. -/
def Scope.html? (sc : Scope) (l : Line) : Option Html.Start :=
  if sc.options.html && !sc.isCode l then Html.start? l.rest else none

def Scope.heading? (sc : Scope) (l : Line) : Option (List Char) :=
  if sc.isCode l then none else Markdown.heading? l.rest

/-- How many columns the table has that the line begins together with the next. -/
def Scope.table? (sc : Scope) (l : Line) (later : List Line) : Option Nat :=
  match later with
  | below :: _ =>
    if !sc.options.tables || sc.isOutside below || sc.isCode below || sc.isCode l then none
    else Table.columns? l.rest below.rest
  | [] => none

/-- Whether the line ends what stands in front of it. -/
def Scope.ends (sc : Scope) (caller : Caller) (l : Line) (later : List Line) : Bool :=
  sc.options.blocks
    && ((caller ≠ .quotation && (sc.table? l later).isSome) || sc.beginsPlain l
      || (sc.item? (caller = .paragraph) l).isSome || (sc.html? l).any Html.Start.interrupts
      || (sc.heading? l).isSome)

end DocTree.Markdown
