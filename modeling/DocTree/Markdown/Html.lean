import DocTree.Markdown.Line

/-!
# HTML blocks

How a line begins a block of HTML, and which line ends it. Names are compared without regard to case.
-/

namespace DocTree.Markdown.Html

/-- The letter that a character counts as when case is ignored. -/
def fold (c : Char) : Char :=
  if c == 'ſ' then 's' else if c == '\u212a' then 'k' else if c == 'İ' || c == 'ı' then 'i'
  else c.toLower

/-- What follows the word `w`, if `s` begins with it in any case. -/
def dropWord? : (w s : List Char) → Option (List Char)
  | [], s => some s
  | _ :: _, [] => none
  | a :: w, c :: s => if fold c = a then dropWord? w s else none

/-- Whether `part` stands somewhere in `s`, in any case. -/
def holdsWord (part : List Char) : List Char → Bool
  | [] => part.isEmpty
  | c :: s => (dropWord? part (c :: s)).isSome || holdsWord part s

/-- Elements whose text is taken as it is. -/
def rawNames : List String := ["script", "pre", "style", "textarea"]

/-- Elements that stand for blocks. -/
def blockNames : List String :=
  ["address", "article", "aside", "base", "basefont", "blockquote", "body", "caption", "center",
    "col", "colgroup", "dd", "details", "dialog", "dir", "div", "dl", "dt", "fieldset",
    "figcaption", "figure", "footer", "form", "frame", "frameset", "h1", "h2", "h3", "h4", "h5",
    "h6", "head", "header", "hr", "html", "iframe", "legend", "li", "link", "main", "menu",
    "menuitem", "nav", "noframes", "ol", "optgroup", "option", "p", "param", "search", "section",
    "summary", "table", "tbody", "td", "tfoot", "th", "thead", "title", "tr", "track", "ul"]

/-- How a block of HTML begins. -/
inductive Start
  | raw
  | comment
  | instruction
  | declaration
  | cdata
  | block
  | tag
  deriving DecidableEq, Repr

/-! ## Complete tags -/

def isLetter (c : Char) : Bool := ('a' ≤ c && c ≤ 'z') || ('A' ≤ c && c ≤ 'Z')

/-- The first character of an attribute's name. -/
def isNameStart (c : Char) : Bool := isLetter c || c == '_' || c == ':'

/-- A later character of an attribute's name. -/
def isNameChar (c : Char) : Bool := isNameStart c || c.isDigit || c == '.' || c == '-'

/-- A character of a value without quotes. -/
def isBareChar (c : Char) : Bool := c.toNat > 0x20 && !"\"'=<>\x60".toList.contains c

/-- What may follow each beginning of a run of characters in `p` that is not empty, where a blank, a
slash or a closing bracket comes next. -/
def afterBare : List Char → List (List Char)
  | [] => []
  | c :: s =>
    if isBareChar c then
      afterBare s ++ match s with
        | d :: _ => if Text.isBlank d || d == '/' || d == '>' then [s] else []
        | [] => []
    else []

/-- What may follow the value of an attribute. -/
def afterValue (s : List Char) : List (List Char) :=
  match s with
  | '\'' :: r => match r.dropWhile (· != '\'') with
    | _ :: r => [r]
    | [] => []
  | '"' :: r => match r.dropWhile (· != '"') with
    | _ :: r => [r]
    | [] => []
  | s => afterBare s

/-- What may follow an attribute and the blanks in front of it. -/
def afterAttribute (s : List Char) : List (List Char) :=
  match s with
  | b :: _ =>
    if !Text.isBlank b then []
    else match s.dropWhile Text.isBlank with
      | c :: r =>
        if !isNameStart c then []
        else
          let r := r.dropWhile isNameChar
          (match r.dropWhile Text.isBlank with
            | '=' :: v => afterValue (v.dropWhile Text.isBlank)
            | _ => []) ++ [r]
      | [] => []
  | [] => []

def isBlankRest (s : List Char) : Bool := s.all Text.isBlank

/-- Whether a tag may end here, with only blanks behind it. -/
def endsTag (slash : Bool) (s : List Char) : Bool :=
  match s.dropWhile Text.isBlank with
  | '>' :: r => isBlankRest r
  | '/' :: '>' :: r => slash && isBlankRest r
  | _ => false

/-- Whether attributes and the end of a tag make up a text. -/
def isTagRest : (fuel : Nat) → List Char → Bool
  | 0, _ => false
  | fuel + 1, s => endsTag true s || (afterAttribute s).any (isTagRest fuel)

/-- Whether a single opening or closing tag makes up the text behind its first bracket. -/
def isTag (s : List Char) : Bool :=
  let isTagChar := fun c => isLetter c || c.isDigit || c == '-'
  match s with
  | '/' :: c :: r => isLetter c && endsTag false (r.dropWhile isTagChar)
  | c :: r => isLetter c && isTagRest s.length (r.dropWhile isTagChar)
  | [] => false

/-! ## Beginning and end of a block -/

/-- Whether one of the names begins the text and is followed as `p` says. -/
def startsWithName (names : List String) (p : List Char → Bool) (s : List Char) : Bool :=
  names.any fun n => match dropWord? n.toList s with
    | some r => p r
    | none => false

/-- How the line begins a block of HTML. -/
def start? (s : List Char) : Option Start :=
  let closes := fun r : List Char => match r with
    | [] => true
    | c :: _ => Text.isBlank c || c == '>'
  match s with
  | '<' :: r =>
    let name := match r with
      | '/' :: r => r
      | r => r
    if startsWithName rawNames closes r then some .raw
    else if r.take 3 == "!--".toList then some .comment
    else if r.take 1 == ['?'] then some .instruction
    else if r.take 1 == ['!'] && (r.drop 1).head?.any isLetter then
      some .declaration
    else if r.take 8 == "![CDATA[".toList then some .cdata
    else if startsWithName blockNames (fun r => closes r || r.take 2 == ['/', '>']) name then
      some .block
    else if isTag r then some .tag
    else none
  | _ => none

/-- Whether the block may end a paragraph. -/
def Start.interrupts : Start → Bool
  | .tag => false
  | _ => true

/-- Whether the line ends a block that began so. -/
def Start.endsAt (k : Start) (s : List Char) : Bool :=
  match k with
  | .raw => rawNames.any fun n => holdsWord ("</".toList ++ n.toList ++ ['>']) s
  | .comment => holdsWord "-->".toList s
  | .instruction => holdsWord "?>".toList s
  | .declaration => s.contains '>'
  | .cdata => holdsWord "]]>".toList s
  | .block | .tag => s.isEmpty

end DocTree.Markdown.Html
