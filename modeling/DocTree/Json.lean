import DocTree.Value

/-!
# JSON text

Values written as JSON in ASCII: on one line, or one entry a line with an indent. What JSON has no
form for is written as the text of the value.
-/

namespace DocTree.Json

/-- A character inside quotes. What is not plain ASCII is written in units of sixteen bits. -/
def escapeChar (c : Char) : List Char :=
  let unit := fun n => '\\' :: 'u' :: Text.hexDigits 4 n
  if c = '"' ∨ c = '\\' then ['\\', c]
  else if c = '\n' then ['\\', 'n']
  else if c = '\r' then ['\\', 'r']
  else if c = '\t' then ['\\', 't']
  else if c = '\x08' then ['\\', 'b']
  else if c = '\x0c' then ['\\', 'f']
  else if 0x20 ≤ c.toNat ∧ c.toNat < 0x7f then [c]
  else if c.toNat < 0x10000 then unit c.toNat
  else
    let n := c.toNat - 0x10000
    unit (0xd800 + n / 0x400) ++ unit (0xdc00 + n % 0x400)

def quoted (s : String) : String :=
  .ofList ('"' :: s.toList.flatMap escapeChar ++ ['"'])

/-- A value that is no container, or the text of one that has no form of its own. -/
def scalar : Value → String
  | .null => "null"
  | .bool b => if b then "true" else "false"
  | .int i => Number.intText i
  | .float x =>
    if x.isNaN then "NaN"
    else if x.isInf then (if x < 0 then "-Infinity" else "Infinity")
    else Number.floatText x
  | .str s => quoted s
  | v => quoted (v.text?.getD "")

/-- How containers are spread: the indent of one level, or all on one line. -/
abbrev Layout := Option Nat

/-- A line end and the indent of a level. -/
def newLine (width level : Nat) : String :=
  .ofList ('\n' :: List.replicate (width * level) ' ')

/-- Parts between brackets, at a level. -/
def bracketed (l : Layout) (level : Nat) (opening closing : String) (parts : List String) : String :=
  if parts.isEmpty then opening ++ closing
  else match l with
    | none => opening ++ ", ".intercalate parts ++ closing
    | some w =>
      opening ++ newLine w (level + 1) ++ ("," ++ newLine w (level + 1)).intercalate parts
        ++ newLine w level ++ closing

mutual

/-- A value at a level. -/
def write (l : Layout) (level : Nat) : Value → String
  | .list xs => bracketed l level "[" "]" (writeAll l (level + 1) xs)
  | .tuple xs => bracketed l level "[" "]" (writeAll l (level + 1) xs)
  | .map es => bracketed l level "\x7b" "\x7d" (writeEntries l (level + 1) es)
  | v => scalar v

def writeAll (l : Layout) (level : Nat) : List Value → List String
  | [] => []
  | v :: vs => write l level v :: writeAll l level vs

def writeEntries (l : Layout) (level : Nat) : List (Value × Value) → List String
  | [] => []
  | (k, v) :: es =>
    (quoted (k.text?.getD "") ++ ": " ++ write l level v) :: writeEntries l level es

end

/-- A value on one line. -/
def line (v : Value) : String := write none 0 v

/-- A value with one entry a line, each level indented by two blanks. -/
def pretty (v : Value) : String := write (some 2) 0 v

end DocTree.Json
