/-!
# Cutting and joining texts

Splitting at a separator, joining with one, and replacing the first occurrence of a part.
-/

namespace DocTree.Text

/-- What follows `p` in `s`, if `s` begins with `p`. -/
def stripStart? : (p s : List Char) → Option (List Char)
  | [], s => some s
  | _ :: _, [] => none
  | a :: p, b :: s => if a = b then stripStart? p s else none

/-- `s` with the first occurrence of `part` replaced by `new`. -/
def replaceFirst (part new : List Char) (s : List Char) : List Char :=
  match stripStart? part s with
  | some rest => new ++ rest
  | none => match s with
    | [] => []
    | c :: cs => c :: replaceFirst part new cs

/-- The parts of `s` between the characters `sep`; never empty. -/
def splitAt (sep : Char) : List Char → List (List Char)
  | [] => [[]]
  | c :: cs =>
    if c = sep then [] :: splitAt sep cs
    else match splitAt sep cs with
      | [] => [[c]]
      | p :: ps => (c :: p) :: ps

/-- The parts joined by `sep`. -/
def joinWith (sep : List Char) : List (List Char) → List Char
  | [] => []
  | [p] => p
  | p :: ps => p ++ sep ++ joinWith sep ps

/-- The text filled up with blanks on the right to `width` characters. -/
def padEnd (width : Nat) (s : List Char) : List Char :=
  s ++ List.replicate (width - s.length) ' '

end DocTree.Text

namespace String

def removeFirst (s part : String) : String :=
  .ofList (DocTree.Text.replaceFirst part.toList [] s.toList)

def partsAt (s : String) (sep : Char) : List String :=
  (DocTree.Text.splitAt sep s.toList).map .ofList

def paddedTo (s : String) (width : Nat) : String :=
  .ofList (DocTree.Text.padEnd width s.toList)

end String
