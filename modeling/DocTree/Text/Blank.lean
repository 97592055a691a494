/-!
# Blank characters

Which characters count as white space, and how a text is trimmed of them.
-/

namespace DocTree.Text

/-- White space: the six ASCII spaces, the four ASCII separators, next line, and the Unicode spaces. -/
def isBlank (c : Char) : Bool :=
  c ∈ [' ', '\t', '\n', '\r', '\x0b', '\x0c', '\x1c', '\x1d', '\x1e', '\x1f', '\x85', '\xa0',
    '\u1680', '\u2000', '\u2001', '\u2002', '\u2003', '\u2004', '\u2005', '\u2006', '\u2007',
    '\u2008', '\u2009', '\u200a', '\u2028', '\u2029', '\u202f', '\u205f', '\u3000']

/-- The text without its trailing characters in `p`. -/
def dropEndWhile (p : Char → Bool) (s : List Char) : List Char :=
  (s.reverse.dropWhile p).reverse

/-- The text without leading and trailing white space. -/
def trim (s : List Char) : List Char :=
  dropEndWhile isBlank (s.dropWhile isBlank)

@[simp] theorem trim_nil : trim [] = [] := rfl

end DocTree.Text

namespace String

def trimBlank (s : String) : String :=
  .ofList (DocTree.Text.trim s.toList)

end String
