import DocTree.Markdown.Line

/-!
# Tables

The head row of a table, the row of alignments below it, and the cells of a row.
-/

namespace DocTree.Markdown.Table

/-- The parts of a row between the bars that are not escaped. -/
def cellsFrom (escaped : Bool) : List Char → List (List Char)
  | [] => [[]]
  | c :: s =>
    if c == '|' && !escaped then [] :: cellsFrom false s
    else match cellsFrom (c == '\\') s with
      | [] => [[c]]
      | p :: ps => (c :: p) :: ps

/-- The cells of a row. Nothing in front of the first bar or behind the last is no cell. -/
def cells (row : List Char) : List (List Char) :=
  let cs := cellsFrom false (Text.trim row)
  let cs := match cs with
    | [] :: r => r
    | cs => cs
  if cs.getLast? == some [] then cs.dropLast else cs

/-- Whether the text is hyphens, with a colon at either end or none. -/
def isAlignment (s : List Char) : Bool :=
  let s := match s with
    | ':' :: r => r
    | s => s
  let s := if s.getLast? == some ':' then s.dropLast else s
  !s.isEmpty && s.all (· == '-')

/-- Whether the line may be a row of alignments: bars, hyphens, colons and spaces, of which neither
the first is a space nor the second behind a hyphen. -/
def mayAlign (s : List Char) : Bool :=
  let isMark := fun c => c == '|' || c == '-' || c == ':'
  match s with
  | a :: b :: r =>
    isMark a && (isMark b || isSpace b) && !(a == '-' && isSpace b)
      && r.all fun c => isMark c || isSpace c
  | _ => false

/-- How many columns a row of alignments has. -/
def alignmentCount? (s : List Char) : Option Nat :=
  let cs := (Text.splitAt '|' (Text.trim s)).map Text.trim
  let inner := (cs.drop 1).dropLast
  if inner.any (·.isEmpty) then none
  else
    let own := cs.filter (!·.isEmpty)
    if own.all isAlignment then some own.length else none

/-- How many columns the table has that begins with these two lines. -/
def columns? (head below : List Char) : Option Nat := do
  if !mayAlign below then failure
  let n ← alignmentCount? below
  if !(Text.trim head).contains '|' then failure
  if n == 0 || (cells head).length != n then failure
  return n

/-- How many cells that are missing in rows a table may have. -/
def missingLimit : Int := 65536

end DocTree.Markdown.Table
