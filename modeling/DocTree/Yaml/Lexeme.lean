import DocTree.Text.Utf8
import DocTree.Yaml.Cursor
import DocTree.Yaml.Token

/-!
# Lexemes

Reading one directive, anchor, tag or scalar at a place of the text. Each function gives what was
read and the place behind it.
-/

namespace DocTree.Yaml.Lexeme
open Text (CodePoint)

/-- A fault found at `c` while reading something that started at `start`. -/
def fail {α : Type} (context : String) (start : Mark) (problem : String) (c : Cursor) :
    Except Error α :=
  .error (.marked (some (context, some start)) problem c.mark)

/-- The character that was found where another was expected. -/
def found (ch : Char) : String := ", but found " ++ .ofList (Text.quoted [ch])

/-- A run of word characters that is not empty and stands before one of `follow`. -/
def word (context : String) (start : Mark) (follow : Char → Bool) (c : Cursor) :
    Except Error (String × Cursor) :=
  let bad := fun c : Cursor =>
    fail context start ("expected alphabetic or numeric character" ++ found c.peek) c
  let name := c.run isWordChar
  let c' := c.skip name.length
  if name.isEmpty then bad c
  else if follow c'.peek then .ok (.ofList name, c')
  else bad c'

/-- An alias or anchor behind its mark. -/
def anchor (kind : String) (c : Cursor) : Except Error (String × Cursor) :=
  word ("while scanning an " ++ kind) c.mark
    (fun ch => isGap ch || "?:,]\x7d%@`".toList.contains ch) c.next

def isUriChar (ch : Char) : Bool :=
  isWordChar ch || ";/?:@&=+$,.!~*'()[]".toList.contains ch

/-- The bytes of a run of escapes such as `%c3%a9`. -/
def uriBytes (context : String) (start : Mark) (c : Cursor) :
    (fuel : Nat) → Except Error (List UInt8 × Cursor)
  | 0 => .ok ([], c)
  | fuel + 1 =>
    if c.peek != '%' then .ok ([], c)
    else
      let c := c.next
      match Number.digitValue? c.peek, Number.digitValue? (c.peekAt 1) with
      | some a, some b =>
        if a < 16 && b < 16 then do
          let (bs, c) ← uriBytes context start (c.skip 2) fuel
          return (.ofNat (a * 16 + b) :: bs, c)
        else bad c (if a < 16 then c.peekAt 1 else c.peek)
      | none, _ => bad c c.peek
      | some a, none => bad c (if a < 16 then c.peekAt 1 else c.peek)
where
  bad (c : Cursor) (ch : Char) : Except Error (List UInt8 × Cursor) :=
    fail context start ("expected URI escape sequence of 2 hexadecimal numbers" ++ found ch) c

/-- The parts of a tag, plain runs and escapes in turn. -/
def uriParts (name : String) (start : Mark) (c : Cursor) :
    (fuel : Nat) → Except Error (List Char × Cursor)
  | 0 => .ok ([], c)
  | fuel + 1 =>
    let plain := c.run isUriChar
    let c := c.skip plain.length
    if c.peek != '%' then .ok (plain, c)
    else do
      let context := "while scanning a " ++ name
      let (bs, c') ← uriBytes context start c c.rest.length
      match Utf8.decode bs with
      | .error f => fail context start f.message c
      | .ok part =>
        let (more, c') ← uriParts name start c' fuel
        return (plain ++ part ++ more, c')

/-- A tag or the start of one. -/
def uri (name : String) (start : Mark) (c : Cursor) : Except Error (String × Cursor) := do
  let (s, c') ← uriParts name start c (c.rest.length + 1)
  if s.isEmpty then
    fail ("while parsing a " ++ name) start ("expected URI" ++ found c.peek) c
  else return (.ofList s, c')

/-- A tag handle: a word, possibly none, between exclamation marks, or one such mark. -/
def handle (name : String) (start : Mark) (c : Cursor) : Except Error (String × Cursor) :=
  let bad := fun c : Cursor =>
    fail ("while scanning a " ++ name) start ("expected '!'" ++ found c.peek) c
  if c.peek != '!' then bad c
  else
    let c' := c.next
    if c'.peek == ' ' then .ok ("!", c')
    else
      let w := c'.run isWordChar
      let c' := c'.skip w.length
      if c'.peek == '!' then .ok (.ofList ('!' :: w ++ ['!']), c'.next) else bad c'

/-- A tag: written out between angle brackets, a lone mark, or a handle with a suffix. -/
def tag (c : Cursor) : Except Error ((Option String × String) × Cursor) := do
  let start := c.mark
  let (value, c') ←
    if c.peekAt 1 == '<' then do
      let (suffix, c') ← uri "tag" start (c.skip 2)
      if c'.peek != '>' then
        fail "while parsing a tag" start ("expected '>'" ++ found c'.peek) c'
      else .ok ((none, suffix), c'.next)
    else if isGap (c.peekAt 1) then .ok ((none, "!"), c.next)
    else do
      let hasHandle := (c.next.run fun ch => !isSpaceOrEnd ch).contains '!'
      let (h, c') ← if hasHandle then handle "tag" start c else .ok ("!", c.next)
      let (suffix, c') ← uri "tag" start c'
      .ok ((some h, suffix), c')
  if isSpaceOrEnd c'.peek then return (value, c')
  else fail "while scanning a tag" start ("expected ' '" ++ found c'.peek) c'

def versionNumber (start : Mark) (c : Cursor) : Except Error (Nat × Cursor) :=
  let ds := c.run Char.isDigit
  if ds.isEmpty then
    fail "while scanning a directive" start ("expected a digit" ++ found c.peek) c
  else .ok (Number.ofDigits 10 (ds.filterMap Number.digitValue?), c.skip ds.length)

/-- The blanks and the comment behind something that fills its line, and the end of that line. -/
def restOfLine (context : String) (start : Mark) (c : Cursor) : Except Error Cursor :=
  let c := (c.skipWhile (· == ' ')).skipComment
  if isLineEnd c.peek then .ok c.lineBreak.2
  else fail context start ("expected a comment or a line break" ++ found c.peek) c

/-- A directive; the places where it starts and stops, and the place behind its line. -/
def directive (c : Cursor) : Except Error (Directive × Mark × Cursor) := do
  let start := c.mark
  let context := "while scanning a directive"
  let (name, c) ← word context start isSpaceOrEnd c.next
  let (d, c) ←
    if name == "YAML" then do
      let (major, c) ← versionNumber start (c.skipWhile (· == ' '))
      if c.peek != '.' then
        fail context start ("expected a digit or '.'" ++ found c.peek) c
      else do
        let (minor, c) ← versionNumber start c.next
        if isSpaceOrEnd c.peek then .ok (.version major minor, c)
        else fail context start ("expected a digit or ' '" ++ found c.peek) c
    else if name == "TAG" then do
      let (h, c) ← handle "directive" start (c.skipWhile (· == ' '))
      if c.peek != ' ' then fail context start ("expected ' '" ++ found c.peek) c
      else do
        let (s, c) ← uri "directive" start (c.skipWhile (· == ' '))
        if isSpaceOrEnd c.peek then .ok (.tag h s, c)
        else fail context start ("expected ' '" ++ found c.peek) c
    else .ok (.other name, c)
  let stop := c.mark
  let c := match d with
    | .other _ => c.skipWhile fun ch => !isLineEnd ch
    | _ => c
  return (d, stop, ← restOfLine context start c)

/-! ## Block scalars -/

/-- What becomes of the line ends behind a block scalar. -/
inductive Chomping
  | strip
  | clip
  | keep
  deriving DecidableEq, Repr

/-- The signs behind the mark of a block scalar: chomping and indentation, in either order. -/
def blockHeader (start : Mark) (c : Cursor) : Except Error ((Chomping × Option Nat) × Cursor) := do
  let chomping? := fun ch : Char =>
    if ch == '+' then some Chomping.keep else if ch == '-' then some .strip else none
  let digit? := fun c : Cursor => do
    if c.peek == '0' then
      fail "while scanning a block scalar" start
        "expected indentation indicator in the range 1-9, but found 0" c
    else if c.peek.isDigit then
      .ok (some (c.peek.toNat - '0'.toNat), c.next)
    else .ok (none, c)
  let (header, c) ← match chomping? c.peek with
    | some ch => do
      let (n, c) ← digit? c.next
      .ok ((ch, n), c)
    | none => do
      let (n, c) ← digit? c
      if n.isNone then .ok ((.clip, none), c)
      else match chomping? c.peek with
        | some ch => .ok ((ch, n), c.next)
        | none => .ok ((.clip, n), c)
  if isSpaceOrEnd c.peek then return (header, c)
  else
    fail "while scanning a block scalar" start
      ("expected chomping or indentation indicators" ++ found c.peek) c

/-- The line ends in front of the first line with text, and the deepest indentation met. -/
def leadingBreaks (deepest : Nat) (stop : Mark) (c : Cursor) :
    (fuel : Nat) → List Char × Nat × Mark × Cursor
  | 0 => ([], deepest, stop, c)
  | fuel + 1 =>
    if c.peek == ' ' then
      let c := c.next
      leadingBreaks (max deepest c.mark.column) stop c fuel
    else if isBreak c.peek then
      let (b, c) := c.lineBreak
      let (bs, rest) := leadingBreaks deepest c.mark c fuel
      (b ++ bs, rest)
    else ([], deepest, stop, c)

/-- The blanks up to column `indent`. -/
def skipIndent (indent : Nat) (c : Cursor) : Cursor :=
  c.skip ((c.run (· == ' ')).length.min (indent - c.mark.column))

/-- The line ends in front of the next line with text at column `indent`. -/
def blockBreaks (indent : Nat) (stop : Mark) (c : Cursor) :
    (fuel : Nat) → List Char × Mark × Cursor
  | 0 => ([], stop, c)
  | fuel + 1 =>
    let c := skipIndent indent c
    if isBreak c.peek then
      let (b, c) := c.lineBreak
      let (bs, stop, c) := blockBreaks indent c.mark c fuel
      (b ++ bs, stop, c)
    else ([], stop, c)

def hasBlockLine (indent : Nat) (c : Cursor) : Bool :=
  c.mark.column == indent && c.peek != '\x00'

/-- The lines of a block scalar from the first with text: `breaks` stand in front of it. -/
def blockLines (folded : Bool) (chomping : Chomping) (indent : Nat) (breaks : List Char)
    (stop : Mark) (c : Cursor) : (fuel : Nat) → List Char × Mark × Cursor
  | 0 => ([], stop, c)
  | fuel + 1 =>
    if hasBlockLine indent c then
      let flush := c.peek != ' ' && c.peek != '\t'
      let line := c.run fun ch => !isLineEnd ch
      let c := c.skip line.length
      let (b, c) := c.lineBreak
      let (bs, stop, c) := blockBreaks indent c.mark c c.rest.length.succ
      if hasBlockLine indent c then
        let joint :=
          if folded && b == ['\n'] && flush && c.peek != ' ' && c.peek != '\t' then
            if bs.isEmpty then [' '] else []
          else b
        let (more, stop, c) := blockLines folded chomping indent bs stop c fuel
        (breaks ++ line ++ joint ++ more, stop, c)
      else
        let tail := match chomping with
          | .strip => []
          | .clip => b
          | .keep => b ++ bs
        (breaks ++ line ++ tail, stop, c)
    else
      (if chomping = .keep then breaks else [], stop, c)

/-- A block scalar inside a block that is indented by `outer`. -/
def blockScalar (folded : Bool) (outer : Int) (c : Cursor) :
    Except Error (String × Mark × Cursor) := do
  let start := c.mark
  let ((chomping, increment), c) ← blockHeader start c.next
  let c ← restOfLine "while scanning a block scalar" start c
  let least := (max (outer + 1) 1).toNat
  let fuel := c.rest.length.succ
  let (indent, breaks, stop, c) := match increment with
    | some n =>
      let indent := least + n - 1
      let (breaks, stop, c) := blockBreaks indent c.mark c fuel
      (indent, breaks, stop, c)
    | none =>
      let (breaks, deepest, stop, c) := leadingBreaks 0 c.mark c fuel
      (max least deepest, breaks, stop, c)
  let (text, stop, c) := blockLines folded chomping indent breaks stop c fuel
  return (.ofList text, stop, c)

/-! ## Quoted scalars -/

/-- The character that an escape of one letter stands for. -/
def escaped? : Char → Option Char
  | '0' => some '\x00'
  | 'a' => some '\x07'
  | 'b' => some '\x08'
  | 't' => some '\t'
  | '\t' => some '\t'
  | 'n' => some '\n'
  | 'v' => some '\x0b'
  | 'f' => some '\x0c'
  | 'r' => some '\r'
  | 'e' => some '\x1b'
  | ' ' => some ' '
  | '"' => some '"'
  | '\\' => some '\\'
  | '/' => some '/'
  | 'N' => some '\x85'
  | '_' => some '\xa0'
  | 'L' => some '\u2028'
  | 'P' => some '\u2029'
  | _ => none

/-- How many hexadecimal digits follow a letter that escapes a code point. -/
def escapeWidth? : Char → Option Nat
  | 'x' => some 2
  | 'u' => some 4
  | 'U' => some 8
  | _ => none

/-- The line ends inside a quoted scalar, up to the next text. -/
def quotedBreaks (start : Mark) (c : Cursor) : (fuel : Nat) → Except Error (List Char × Cursor)
  | 0 => .ok ([], c)
  | fuel + 1 =>
    if c.isSeparator then
      fail "while scanning a quoted scalar" start "found unexpected document separator" c
    else
      let c := c.skipWhile fun ch => ch == ' ' || ch == '\t'
      if isBreak c.peek then do
        let (b, c) := c.lineBreak
        let (bs, c) ← quotedBreaks start c fuel
        return (b ++ bs, c)
      else .ok ([], c)

/-- The code point that was written in hexadecimal digits. -/
def codePoint (n : Nat) : Except Error CodePoint :=
  if n < 0x110000 then .ok (.ofNat n)
  else .error (.scalar (if n < 0x80000000 then .charTooLarge else .charOverflow))

/-- What an escape in double quotes stands for; the place is behind the backslash. -/
def escape (start : Mark) (c : Cursor) : Except Error (List CodePoint × Cursor) :=
  let context := "while scanning a double-quoted scalar"
  match escaped? c.peek, escapeWidth? c.peek with
  | some ch, _ => .ok ([.char ch], c.next)
  | none, some width =>
    let c := c.next
    let ds := (List.range width).map c.peekAt
    match ds.find? fun ch => ((Number.digitValue? ch).getD 16) ≥ 16 with
    | some ch =>
      fail context start ("expected escape sequence of " ++ Number.natText width
        ++ " hexadecimal numbers" ++ found ch) c
    | none => do
      let u ← codePoint (Number.ofDigits 16 (ds.filterMap Number.digitValue?))
      return ([u], c.skip width)
  | none, none =>
    if isBreak c.peek then do
      let (bs, c) ← quotedBreaks start c.lineBreak.2 c.rest.length.succ
      return (bs.map .char, c)
    else
      fail context start ("found unknown escape character " ++ .ofList (Text.quoted [c.peek])) c

/-- The text of a quoted scalar up to the next white space or the end. -/
def quotedText (double : Bool) (start : Mark) (c : Cursor) :
    (fuel : Nat) → Except Error (List CodePoint × Cursor)
  | 0 => .ok ([], c)
  | fuel + 1 =>
    let plain := c.run fun ch => !isGap ch && ch != '\'' && ch != '"' && ch != '\\'
    let c := c.skip plain.length
    let ch := c.peek
    if !double && ch == '\'' && c.peekAt 1 == '\'' then do
      let (more, c) ← quotedText double start (c.skip 2) fuel
      return (plain.map .char ++ .char '\'' :: more, c)
    else if (double && ch == '\'') || (!double && (ch == '"' || ch == '\\')) then do
      let (more, c) ← quotedText double start c.next fuel
      return (plain.map .char ++ .char ch :: more, c)
    else if double && ch == '\\' then do
      let (part, c) ← escape start c.next
      let (more, c) ← quotedText double start c fuel
      return (plain.map .char ++ part ++ more, c)
    else .ok (plain.map .char, c)

/-- The white space inside a quoted scalar: a single line end becomes a space. -/
def quotedSpaces (start : Mark) (c : Cursor) : Except Error (List Char × Cursor) :=
  let blanks := c.run fun ch => ch == ' ' || ch == '\t'
  let c := c.skip blanks.length
  if c.peek == '\x00' then
    fail "while scanning a quoted scalar" start "found unexpected end of stream" c
  else if isBreak c.peek then do
    let (b, c) := c.lineBreak
    let (bs, c) ← quotedBreaks start c c.rest.length.succ
    return ((if b != ['\n'] then b else if bs.isEmpty then [' '] else []) ++ bs, c)
  else .ok (blanks, c)

/-- White space and text in turn, up to the closing quote. -/
def quotedRest (double : Bool) (start : Mark) (c : Cursor) :
    (fuel : Nat) → Except Error (List CodePoint × Cursor)
  | 0 => .ok ([], c)
  | fuel + 1 =>
    if c.peek == (if double then '"' else '\'') then .ok ([], c)
    else do
      let (gap, c) ← quotedSpaces start c
      let (part, c) ← quotedText double start c c.rest.length.succ
      let (more, c) ← quotedRest double start c fuel
      return (gap.map .char ++ part ++ more, c)

/-- A scalar in quotes. Only an escape gives a code point that is no character. -/
def quotedScalar (double : Bool) (c : Cursor) : Except Error (List CodePoint × Cursor) := do
  let start := c.mark
  let c := c.next
  let (part, c) ← quotedText double start c c.rest.length.succ
  let (more, c) ← quotedRest double start c c.rest.length.succ
  return (part ++ more, c.next)

/-! ## Plain scalars -/

/-- Whether a plain scalar stops before the first character of `s`. -/
def stopsPlain (inFlow : Bool) (s : List Char) : Bool :=
  match s with
  | [] => true
  | ch :: r =>
    let after := r.headD '\x00'
    isGap ch
      || (ch == ':' && (isGap after || (inFlow && ",[]\x7b\x7d".toList.contains after)))
      || (inFlow && ",?[]\x7b\x7d".toList.contains ch)

/-- The characters of a plain scalar up to where it stops or pauses. -/
def plainRun (inFlow : Bool) : List Char → List Char
  | [] => []
  | ch :: r => if stopsPlain inFlow (ch :: r) then [] else ch :: plainRun inFlow r

/-- The blanks and line ends behind the first line end in a plain scalar; none at a separator. -/
def plainBreaks (c : Cursor) : (fuel : Nat) → Option (List Char) × Cursor
  | 0 => (some [], c)
  | fuel + 1 =>
    if c.peek == ' ' then plainBreaks c.next fuel
    else if isBreak c.peek then
      let (b, c) := c.lineBreak
      if c.isSeparator then (none, c)
      else
        let (bs, c) := plainBreaks c fuel
        (bs.map (b ++ ·), c)
    else (some [], c)

/-- White space inside a plain scalar, empty where the scalar ends, and whether it held a line
end. -/
def plainSpaces (c : Cursor) : (List Char × Bool) × Cursor :=
  let blanks := c.run (· == ' ')
  let c := c.skip blanks.length
  if isBreak c.peek then
    let (b, c) := c.lineBreak
    if c.isSeparator then (([], true), c)
    else match plainBreaks c c.rest.length.succ with
      | (none, c) => (([], true), c)
      | (some bs, c) =>
        (((if b != ['\n'] then b else if bs.isEmpty then [' '] else []) ++ bs, true), c)
  else ((blanks, false), c)

/-- The lines of a plain scalar that must stay at column `indent` or beyond outside of flow
collections. Gives the text, the place where it stops, and whether a new line was begun. -/
def plainLines (inFlow : Bool) (indent : Int) (gap : List Char) (stop : Mark) (newLine : Bool)
    (c : Cursor) : (fuel : Nat) → List Char × Mark × Bool × Cursor
  | 0 => ([], stop, newLine, c)
  | fuel + 1 =>
    let part := plainRun inFlow c.rest
    if c.peek == '#' || part.isEmpty then ([], stop, newLine, c)
    else
      let c := c.skip part.length
      let stop := c.mark
      let ((next, newLine), c) := plainSpaces c
      if next.isEmpty || c.peek == '#' || (!inFlow && (c.mark.column : Int) < indent) then
        (gap ++ part, stop, newLine, c)
      else
        let (more, rest) := plainLines inFlow indent next stop newLine c fuel
        (gap ++ part ++ more, rest)

/-- A scalar without quotes inside a block that is indented by `outer`. -/
def plainScalar (inFlow : Bool) (outer : Int) (c : Cursor) : String × Mark × Bool × Cursor :=
  let (text, rest) := plainLines inFlow (outer + 1) [] c.mark false c c.rest.length.succ
  (.ofList text, rest)

end DocTree.Yaml.Lexeme
