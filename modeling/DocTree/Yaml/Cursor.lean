import DocTree.Yaml.Error

/-!
# Reading positions

The rest of a text together with its place, and the steps forward that keep the place right.
-/

namespace DocTree.Yaml

/-- The rest of a text and where it starts. -/
structure Cursor where
  rest : List Char
  mark : Mark
  deriving Repr, Inhabited

def isLineEnd (c : Char) : Bool := c == '\x00' || isBreak c

def isSpaceOrEnd (c : Char) : Bool := c == ' ' || isLineEnd c

def isGap (c : Char) : Bool := c == '\t' || isSpaceOrEnd c

def isWordChar (c : Char) : Bool :=
  ('0' ≤ c && c ≤ '9') || ('A' ≤ c && c ≤ 'Z') || ('a' ≤ c && c ≤ 'z') || c == '-' || c == '_'

namespace Cursor

def start (s : List Char) : Cursor := ⟨s, ⟨0, 0, 0⟩⟩

/-- The `n`-th character ahead, a null character behind the end. -/
def peekAt (c : Cursor) (n : Nat) : Char := (c.rest.drop n).headD '\x00'

/-- The next character, a null character at the end. -/
def peek (c : Cursor) : Char := c.rest.headD '\x00'

/-- The line and column behind a character that is followed by `rest`. -/
def markAfter (m : Mark) (ch : Char) (rest : List Char) : Mark :=
  if isBreak ch && !(ch == '\r' && rest.head? == some '\n') then ⟨m.index + 1, m.line + 1, 0⟩
  else if ch == '\ufeff' then ⟨m.index + 1, m.line, m.column⟩
  else ⟨m.index + 1, m.line, m.column + 1⟩

def next (c : Cursor) : Cursor :=
  match c.rest with
  | [] => c
  | ch :: rest => ⟨rest, markAfter c.mark ch rest⟩

def skip (c : Cursor) : (n : Nat) → Cursor
  | 0 => c
  | n + 1 => c.next.skip n

/-- The run of characters in `p` that starts here. -/
def run (p : Char → Bool) (c : Cursor) : List Char := c.rest.takeWhile p

/-- The place behind the run of characters in `p`. -/
def skipWhile (p : Char → Bool) (c : Cursor) : Cursor := c.skip (c.run p).length

/-- A line end as the character it counts for, and the place behind it. -/
def lineBreak (c : Cursor) : List Char × Cursor :=
  match c.rest with
  | '\r' :: '\n' :: _ => (['\n'], c.skip 2)
  | ch :: _ =>
    if ch == '\r' || ch == '\n' || ch == '\x85' then (['\n'], c.next)
    else if ch == '\u2028' || ch == '\u2029' then ([ch], c.next)
    else ([], c)
  | [] => ([], c)

/-- Whether a line of three `ch` stands here. -/
def isThree (ch : Char) (c : Cursor) : Bool :=
  c.rest.take 3 == [ch, ch, ch] && isGap (c.peekAt 3)

/-- Whether a line that separates documents stands here. -/
def isSeparator (c : Cursor) : Bool := c.isThree '-' || c.isThree '.'

/-- The place behind a comment, if one stands here. -/
def skipComment (c : Cursor) : Cursor :=
  if c.peek == '#' then c.skipWhile fun ch => !isLineEnd ch else c

end Cursor
end DocTree.Yaml
