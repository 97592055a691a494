import DocTree.Markdown.Line
import DocTree.Number.Reading

/-!
# Link reference definitions

A definition such as `[label]: /destination "title"`, which takes up lines of the text and shows
nowhere. It is read from the rest of one line and the lines that continue it, each with its line end.
-/

namespace DocTree.Markdown.Reference

/-- The rest of the line being read, and the lines behind it. -/
structure Source where
  line : List Char
  later : List (List Char)

/-- A label up to its closing bracket: what it holds, and what follows. -/
def label? : (line : List Char) → (later : List (List Char)) → Option (List Char × Source)
  | [], _ => none
  | '[' :: _, _ => none
  | ']' :: r, later => some ([], ⟨r, later⟩)
  | '\\' :: '\n' :: _, [] => none
  | '\\' :: '\n' :: _, l :: ls => (label? l ls).map fun (t, s) => ('\\' :: '\n' :: t, s)
  | '\\' :: c :: r, later => (label? r later).map fun (t, s) => ('\\' :: c :: t, s)
  | '\n' :: _, [] => none
  | '\n' :: _, l :: ls => (label? l ls).map fun (t, s) => ('\n' :: t, s)
  | c :: r, later => (label? r later).map fun (t, s) => (c :: t, s)
termination_by line later => (later.length, line.length)

/-- Behind spaces, tabs and line ends. -/
def skipBlank : (line : List Char) → (later : List (List Char)) → Source
  | '\n' :: r, [] => ⟨r, []⟩
  | '\n' :: _, l :: ls => skipBlank l ls
  | c :: r, later => if isSpace c then skipBlank r later else ⟨c :: r, later⟩
  | [], later => ⟨[], later⟩
termination_by line later => (later.length, line.length)

/-- A destination between angle brackets, behind the first of them, and what follows it. -/
def bracketed? : List Char → Option (List Char × List Char)
  | [] => none
  | '\\' :: c :: r => (bracketed? r).map fun (d, r) => ('\\' :: c :: d, r)
  | c :: r =>
    if c == '\n' || c == '<' then none
    else if c == '>' then some ([], r)
    else (bracketed? r).map fun (d, r) => (c :: d, r)

/-- A destination without brackets, in which `level` parentheses are open, and what follows it. -/
def bare? (level : Nat) : List Char → Option (List Char × List Char)
  | [] => if level == 0 then some ([], []) else none
  | '\\' :: c :: r =>
    if c == ' ' then if level == 0 then some ([], '\\' :: c :: r) else none
    else (bare? level r).map fun (d, r) => ('\\' :: c :: d, r)
  | c :: r =>
    if c.toNat ≤ 0x20 || c.toNat == 0x7f then if level == 0 then some ([], c :: r) else none
    else if c == '(' then
      if 32 ≤ level then none else (bare? (level + 1) r).map fun (d, r) => (c :: d, r)
    else if c == ')' then
      if level == 0 then some ([], c :: r)
      else (bare? (level - 1) r).map fun (d, r) => (c :: d, r)
    else (bare? level r).map fun (d, r) => (c :: d, r)

def destination? : List Char → Option (List Char × List Char)
  | '<' :: r => bracketed? r
  | s => do
    let (d, r) ← bare? 0 s
    if d.isEmpty then failure
    return (d, r)

/-- A title up to its closing mark: whether it is empty, and what follows it. -/
def titleEnd? (mark : Char) : (empty : Bool) → (line : List Char) → (later : List (List Char)) →
    Option (Bool × Source)
  | _, [], [] => none
  | empty, [], l :: ls => titleEnd? mark empty l ls
  | _, '\\' :: _ :: r, later => titleEnd? mark false r later
  | empty, c :: r, later =>
    if c == mark then some (empty, ⟨r, later⟩)
    else if c == '(' && mark == ')' then none
    else titleEnd? mark false r later
termination_by _ line later => (later.length, line.length)

/-- The title of a link: whether it is empty, and what follows it. -/
def title? (s : Source) : Option (Bool × Source) :=
  match s.line with
  | c :: r =>
    if c == '"' || c == '\'' then titleEnd? c true r s.later
    else if c == '(' then titleEnd? ')' true r s.later
    else none
  | [] => none

/-! ## Destinations that are refused -/

/-- The references by name that stand for blanks or for signs of a scheme. -/
def namedReferences : List (String × Char) :=
  [("colon", ':'), ("sol", '/'), ("semi", ';'), ("Tab", '\t'), ("NewLine", '\n'),
    ("nbsp", '\xa0'), ("NonBreakingSpace", '\xa0'), ("ensp", '\u2002'), ("emsp", '\u2003'),
    ("emsp13", '\u2004'), ("emsp14", '\u2005'), ("numsp", '\u2007'), ("puncsp", '\u2008'),
    ("thinsp", '\u2009'), ("ThinSpace", '\u2009'), ("hairsp", '\u200a'),
    ("VeryThinSpace", '\u200a'), ("MediumSpace", '\u205f'), ("ThickSpace", '\u205f')]

/-- The character with that number, if it may be referred to. -/
def ofCode? (n : Nat) : Option Char :=
  if n.isValidChar && !(n < 9 || n == 0xb || (0xe ≤ n && n < 0x20) || (0x7f ≤ n && n < 0xa0)
    || (0xfdd0 ≤ n && n ≤ 0xfdef) || n % 0x10000 ≥ 0xfffe) then some (.ofNat n) else none

/-- The number that up to eight digits of a base make up. -/
def codeIn? (base : Nat) (ds : List Char) : Option Nat := do
  let vs ← ds.mapM fun c => (Number.digitValue? c).filter (· < base)
  if vs.isEmpty || 8 < vs.length then none else some (Number.ofDigits base vs)

/-- The character that a reference between `&` and `;` stands for. -/
def referenced? : List Char → Option Char
  | '#' :: 'x' :: ds => codeIn? 16 ds >>= ofCode?
  | '#' :: 'X' :: ds => codeIn? 16 ds >>= ofCode?
  | '#' :: ds => codeIn? 10 ds >>= ofCode?
  | name => namedReferences.lookup (.ofList name)

/-- An ASCII character that may be escaped by a backslash. -/
def isPunctuation (c : Char) : Bool := 0x20 < c.toNat && c.toNat < 0x7f && !c.isAlphanum

/-- The text with escapes and references resolved. -/
def unescape : (fuel : Nat) → List Char → List Char
  | 0, s => s
  | _, [] => []
  | fuel + 1, c :: s =>
    match c, s with
    | '\\', d :: r => if isPunctuation d then d :: unescape fuel r else '\\' :: unescape fuel s
    | '&', s =>
      let name := s.takeWhile (· != ';')
      match if (s.drop name.length).isEmpty then none else referenced? name with
      | some d => d :: unescape fuel (s.drop (name.length + 1))
      | none => c :: unescape fuel s
    | c, s => c :: unescape fuel s

/-- Whether a destination may be linked to: no scripts, files or data, images apart. -/
def isAllowed (destination : List Char) : Bool :=
  let d := Text.trim (unescape destination.length destination)
  let begins := fun p : String => p.toList.isPrefixOf (d.map Char.toLower)
  if ["vbscript:", "javascript:", "file:", "data:"].any begins then
    ["gif;", "png;", "jpeg;", "webp;"].any fun k => begins ("data:image/" ++ k)
  else true

/-! ## Definitions -/

def atLineEnd (s : Source) : Bool :=
  match s.line.dropWhile isSpace with
  | [] => true
  | c :: _ => c == '\n'

/-- The title behind a destination. Spaces stand in front of a title that ends on its first line. -/
def spacedTitle? (s : Source) : Option (Bool × Source) := do
  let t := skipBlank s.line s.later
  let (empty, r) ← title? t
  if t.line.length < s.line.length || r.later.length < s.later.length then some (empty, r)
  else none

/-- What follows the definition that `s` begins with; none if it does not begin with one. A title
that is followed by other text on its line belongs to the next block, unless it is empty: then there
is no definition. -/
def definition? (s : Source) : Option Source := do
  let '[' :: r := s.line | failure
  let (label, s) ← label? r s.later
  let ':' :: r := s.line | failure
  let s := skipBlank r s.later
  let (d, r) ← destination? s.line
  if !isAllowed d then failure
  if (Text.trim label).isEmpty then failure
  let s : Source := ⟨r, s.later⟩
  match spacedTitle? s with
  | some (empty, t) =>
    if atLineEnd t then return t
    else if !empty && atLineEnd s then return s
    else failure
  | none => if atLineEnd s then return s else failure

/-- How many lines the definition takes that begins with the first of them. -/
def lineCount? (first : List Char) (later : List (List Char)) : Option Nat := do
  let s ← definition? ⟨first, later⟩
  return 1 + (later.length - s.later.length)

end DocTree.Markdown.Reference
