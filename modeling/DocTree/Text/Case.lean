import DocTree.Text.CaseTable

/-!
# Lower case

The full lower case of a text. Two letters need more than the table: a capital I with a dot above
becomes two characters, and a capital sigma that ends a word becomes a final sigma.
-/

namespace DocTree.Text

/-- The lower case of one character, itself if it has none of its own. -/
def lowerChar (c : Char) : Char :=
  if c.toNat < 0x80 then c.toLower
  else match lowerRuns.find? fun (a, b, step, _) =>
      a ≤ c.toNat && c.toNat ≤ b && (c.toNat - a) % step == 0 with
    | some (_, _, _, d) => .ofNat (c.toNat + d).toNat
    | none => c

/-- Whether the character lies in one of the ranges. -/
def inRanges (rs : List (Nat × Nat)) (c : Char) : Bool :=
  rs.any fun (a, b) => a ≤ c.toNat && c.toNat ≤ b

/-- Whether the first character that matters for casing is a cased one. -/
def startsCased (s : List Char) : Bool :=
  match s.dropWhile (inRanges caseIgnorableRanges) with
  | [] => false
  | c :: _ => inRanges casedRanges c

/-- The lower case of `c` between the reversed text `before` and the text `after`. -/
def lowerAt (before : List Char) (c : Char) (after : List Char) : List Char :=
  if c = 'İ' then ['i', '\u0307']
  else if c = 'Σ' then [if startsCased before && !startsCased after then 'ς' else 'σ']
  else [lowerChar c]

/-- The lower case of a text that stands after the reversed text `before`. -/
def lowerFrom (before : List Char) : List Char → List Char
  | [] => []
  | c :: cs => lowerAt before c cs ++ lowerFrom (c :: before) cs

/-- The lower case of a text. -/
def lower (s : List Char) : List Char := lowerFrom [] s

end DocTree.Text

namespace String

def lowerCase (s : String) : String :=
  .ofList (DocTree.Text.lower s.toList)

end String
