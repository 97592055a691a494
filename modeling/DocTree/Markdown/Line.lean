import DocTree.Text.Blank
import DocTree.Text.Search

/-!
# Lines

The lines of a markdown text. A line is looked at from its first character that is no space or tab;
how far it is indented is counted in columns, with a tab stop at every fourth.
-/

namespace DocTree.Markdown

def isSpace (c : Char) : Bool := c == ' ' || c == '\t'

/-- The column behind the character `c` at column `col`, in a line that begins at column `base`. -/
def advance (base col : Nat) (c : Char) : Nat :=
  if c == '\t' then col + (4 - (col + base) % 4) else col + 1

/-- The column behind the spaces `s` that begin at column `col`. -/
def advanceAll (base col : Nat) (s : List Char) : Nat := s.foldl (advance base) col

/-- A line: all of it, what follows its indentation, how far it is indented, and the column where
it begins. A line that continues a paragraph of a quotation without its mark has indentation `-1`. -/
structure Line where
  raw : List Char
  rest : List Char
  indent : Int
  base : Nat
  deriving DecidableEq, Repr

namespace Line

def ofChars (s : List Char) : Line :=
  ⟨s, s.dropWhile isSpace, advanceAll 0 0 (s.takeWhile isSpace), 0⟩

/-- Whether the line holds spaces and tabs only. -/
def isEmpty (l : Line) : Bool := l.rest.isEmpty

def first? (l : Line) : Option Char := l.rest.head?

/-- The line as it continues a paragraph without a mark. -/
def lazy (l : Line) : Line := { l with indent := -1 }

end Line

/-- A text with line feeds as line ends and without null characters. -/
def normalise : List Char → List Char
  | '\r' :: '\n' :: cs => '\n' :: normalise cs
  | '\r' :: cs => '\n' :: normalise cs
  | '\x00' :: cs => '\ufffd' :: normalise cs
  | c :: cs => c :: normalise cs
  | [] => []

/-- The lines without the last one, if that is empty. -/
def dropLastEmpty : List Line → List Line
  | [] => []
  | [l] => if l.isEmpty then [] else [l]
  | l :: ls => l :: dropLastEmpty ls

/-- The lines of a text. An empty line without line end does not count. -/
def linesOf (s : List Char) : List Line :=
  dropLastEmpty ((Text.splitAt '\n' (normalise s)).map Line.ofChars)

end DocTree.Markdown
