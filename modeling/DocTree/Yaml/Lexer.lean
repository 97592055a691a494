import DocTree.Yaml.Lexeme

/-!
# From text to tokens

The lexer keeps the indentation of the blocks it is in and the places that may turn out to be keys.
A token is given out once it is certain that no key mark belongs in front of it, so a fault of form
shows only behind the tokens that are certain.
-/

namespace DocTree.Yaml

/-- A place that a value mark later on the line would make a key. -/
structure KeyCandidate where
  number : Nat
  required : Bool
  mark : Mark
  deriving Repr

/-- The tokens of a text, up to its end or to the first fault. -/
structure TokenStream where
  tokens : List Token
  fault : Option Error
  deriving Repr

/-- A lexer under way. `queue` holds tokens not yet given out, `taken` counts the others, `keys` has
one candidate at most for each depth of flow collections. -/
structure Lexer where
  at' : Cursor
  flow : Nat
  indent : Int
  indents : List Int
  keyAllowed : Bool
  keys : List (Nat × KeyCandidate)
  queue : List Token
  taken : Nat
  done : Bool

namespace Lexer

def start (s : List Char) : Lexer := ⟨.start s, 0, -1, [], true, [], [], 0, false⟩

/-- A fault at the current place. -/
def fail {α : Type} (lx : Lexer) (problem : String) : Except Error α :=
  .error (.marked none problem lx.at'.mark)

/-- A candidate that had to become a key and did not. -/
def missingValue {α : Type} (lx : Lexer) (k : KeyCandidate) : Except Error α :=
  Lexeme.fail "while scanning a simple key" k.mark "could not find expected ':'" lx.at'

/-- Adds a token from `start` to the current place. -/
def push (lx : Lexer) (kind : TokenKind) (start : Mark) : Lexer :=
  { lx with queue := lx.queue ++ [⟨kind, start, lx.at'.mark⟩] }

/-- Puts a token in front of the token with that number. -/
def insertAt (lx : Lexer) (number : Nat) (kind : TokenKind) (m : Mark) : Lexer :=
  let (before, after) := lx.queue.splitAt (number - lx.taken)
  { lx with queue := before ++ ⟨kind, m, m⟩ :: after }

/-- Adds a token for an indicator of `width` characters and goes behind it. -/
def indicator (lx : Lexer) (kind : TokenKind) (width : Nat) : Lexer :=
  let start := lx.at'.mark
  { lx with at' := lx.at'.skip width }.push kind start

/-- Gives up candidates on other lines or too far back. -/
def dropStale (lx : Lexer) : Except Error Lexer := do
  let m := lx.at'.mark
  let stale := fun k : KeyCandidate => k.mark.line != m.line || 1024 < m.index - k.mark.index
  match lx.keys.find? fun (_, k) => stale k && k.required with
  | some (_, k) => lx.missingValue k
  | none => return { lx with keys := lx.keys.filter fun (_, k) => !stale k }

/-- Gives up the candidate at this depth. -/
def dropKey (lx : Lexer) : Except Error Lexer := do
  match lx.keys.lookup lx.flow with
  | some k => if k.required then lx.missingValue k
  | none => pure ()
  return { lx with keys := lx.keys.filter fun (d, _) => d != lx.flow }

/-- Takes the current place as a candidate, where keys are allowed. -/
def saveKey (lx : Lexer) : Except Error Lexer := do
  if !lx.keyAllowed then return lx
  let lx ← lx.dropKey
  let required := lx.flow == 0 && lx.indent == lx.at'.mark.column
  return { lx with
    keys := lx.keys ++ [(lx.flow, ⟨lx.taken + lx.queue.length, required, lx.at'.mark⟩)] }

/-- Ends the blocks that are indented beyond `column`. -/
def unwind (lx : Lexer) (column : Int) : List Int → Lexer
  | [] => lx
  | outer :: rest =>
    if lx.indent ≤ column then lx
    else ({ lx with indent := outer, indents := rest }.push .blockEnd lx.at'.mark).unwind column rest

/-- Ends blocks outside of flow collections. -/
def unwindTo (lx : Lexer) (column : Int) : Lexer :=
  if lx.flow == 0 then lx.unwind column lx.indents else lx

/-- Whether a block that starts at `column` is a new one, and the lexer inside it. -/
def addIndent? (lx : Lexer) (column : Nat) : Option Lexer :=
  if lx.indent < column then
    some { lx with indents := lx.indent :: lx.indents, indent := column }
  else none

/-- Starts a block collection at the current column, if the column is new. -/
def openBlock (lx : Lexer) (kind : TokenKind) : Lexer :=
  match lx.addIndent? lx.at'.mark.column with
  | some lx => lx.push kind lx.at'.mark
  | none => lx

/-- The place of the next token; a line end allows keys again. -/
def toNextToken (lx : Lexer) : (fuel : Nat) → Lexer
  | 0 => lx
  | fuel + 1 =>
    let c := (lx.at'.skipWhile (· == ' ')).skipComment
    match c.lineBreak with
    | ([], c) => { lx with at' := c }
    | (_, c) => { lx with at' := c, keyAllowed := lx.keyAllowed || lx.flow == 0 }.toNextToken fuel

def streamEnd (lx : Lexer) : Except Error Lexer := do
  let lx ← (lx.unwindTo (-1)).dropKey
  return { { lx with keyAllowed := false, keys := [] }.push .streamEnd lx.at'.mark with done := true }

def directive (lx : Lexer) : Except Error Lexer := do
  let lx ← (lx.unwindTo (-1)).dropKey
  let start := lx.at'.mark
  let (d, stop, c) ← Lexeme.directive lx.at'
  return { lx with
    keyAllowed := false, at' := c, queue := lx.queue ++ [⟨.directive d, start, stop⟩] }

/-- A line that starts or ends a document. -/
def separator (lx : Lexer) (kind : TokenKind) : Except Error Lexer := do
  let lx ← (lx.unwindTo (-1)).dropKey
  return { lx with keyAllowed := false }.indicator kind 3

def flowStart (lx : Lexer) (kind : TokenKind) : Except Error Lexer := do
  let lx ← lx.saveKey
  return { lx with flow := lx.flow + 1, keyAllowed := true }.indicator kind 1

def flowEnd (lx : Lexer) (kind : TokenKind) : Except Error Lexer := do
  let lx ← lx.dropKey
  return { lx with flow := lx.flow - 1, keyAllowed := false }.indicator kind 1

def flowEntry (lx : Lexer) : Except Error Lexer := do
  let lx ← { lx with keyAllowed := true }.dropKey
  return lx.indicator .flowEntry 1

def blockEntry (lx : Lexer) : Except Error Lexer := do
  if lx.flow == 0 && !lx.keyAllowed then lx.fail "sequence entries are not allowed here"
  let lx := if lx.flow == 0 then lx.openBlock .blockSequenceStart else lx
  let lx ← { lx with keyAllowed := true }.dropKey
  return lx.indicator .blockEntry 1

def explicitKey (lx : Lexer) : Except Error Lexer := do
  if lx.flow == 0 && !lx.keyAllowed then lx.fail "mapping keys are not allowed here"
  let lx := if lx.flow == 0 then lx.openBlock .blockMappingStart else lx
  let lx ← { lx with keyAllowed := lx.flow == 0 }.dropKey
  return lx.indicator .key 1

/-- The mark of a value: the candidate at this depth becomes a key. -/
def mappingValue (lx : Lexer) : Except Error Lexer := do
  match lx.keys.lookup lx.flow with
  | some k =>
    let lx := { lx with keys := lx.keys.filter fun (d, _) => d != lx.flow }
    let lx := lx.insertAt k.number .key k.mark
    let lx :=
      if lx.flow == 0 then
        match lx.addIndent? k.mark.column with
        | some lx => lx.insertAt k.number .blockMappingStart k.mark
        | none => lx
      else lx
    return { lx with keyAllowed := false }.indicator .value 1
  | none =>
    if lx.flow == 0 && !lx.keyAllowed then lx.fail "mapping values are not allowed here"
    let lx := if lx.flow == 0 then lx.openBlock .blockMappingStart else lx
    let lx ← { lx with keyAllowed := lx.flow == 0 }.dropKey
    return lx.indicator .value 1

/-- Something that may be a key, read by `read`. -/
def node (lx : Lexer) (read : Cursor → Except Error (TokenKind × Cursor)) : Except Error Lexer := do
  let lx ← lx.saveKey
  let start := lx.at'.mark
  let (kind, c) ← read lx.at'
  return { lx with keyAllowed := false, at' := c }.push kind start

def blockScalar (lx : Lexer) (folded : Bool) : Except Error Lexer := do
  let lx ← { lx with keyAllowed := true }.dropKey
  let start := lx.at'.mark
  let (text, stop, c) ← Lexeme.blockScalar folded lx.indent lx.at'
  return { lx with at' := c, queue := lx.queue ++ [⟨.scalar text false, start, stop⟩] }

/-- A plain scalar; keys are allowed again if it ends on a new line. -/
def plainScalar (lx : Lexer) : Except Error Lexer := do
  let lx ← lx.saveKey
  let start := lx.at'.mark
  let (text, stop, newLine, c) := Lexeme.plainScalar (lx.flow != 0) lx.indent lx.at'
  return { lx with
    keyAllowed := newLine, at' := c, queue := lx.queue ++ [⟨.scalar text true, start, stop⟩] }

def startsPlain (lx : Lexer) : Bool :=
  let c := lx.at'.peek
  let after := lx.at'.peekAt 1
  (!isGap c && !"-?:,[]\x7b\x7d#&*!|>'\"%@\x60".toList.contains c)
    || (!isGap after && (c == '-' || (lx.flow == 0 && (c == '?' || c == ':'))))

/-- Reads the next token, with the block ends in front of it. -/
def fetch (lx : Lexer) : Except Error Lexer := do
  let lx := if lx.at'.mark.index == 0 && lx.at'.peek == '\ufeff' then
    { lx with at' := lx.at'.next } else lx
  let lx ← (lx.toNextToken lx.at'.rest.length.succ).dropStale
  let column := lx.at'.mark.column
  let lx := lx.unwindTo column
  let gapAfter := lx.flow != 0 || isGap (lx.at'.peekAt 1)
  match lx.at'.peek with
  | '\x00' => lx.streamEnd
  | '[' => lx.flowStart .flowSequenceStart
  | '\x7b' => lx.flowStart .flowMappingStart
  | ']' => lx.flowEnd .flowSequenceEnd
  | '\x7d' => lx.flowEnd .flowMappingEnd
  | ',' => lx.flowEntry
  | '*' => lx.node fun c => do
    let (name, c) ← Lexeme.anchor "alias" c
    return (.alias name, c)
  | '&' => lx.node fun c => do
    let (name, c) ← Lexeme.anchor "anchor" c
    return (.anchor name, c)
  | '!' => lx.node fun c => do
    let ((h, suffix), c) ← Lexeme.tag c
    return (.tag h suffix, c)
  | '\'' => lx.node fun c => do
    let (us, c) ← Lexeme.quotedScalar false c
    return (.quoted us, c)
  | '"' => lx.node fun c => do
    let (us, c) ← Lexeme.quotedScalar true c
    return (.quoted us, c)
  | ch =>
    if ch == '%' && column == 0 then lx.directive
    else if column == 0 && lx.at'.isThree '-' then lx.separator .documentStart
    else if column == 0 && lx.at'.isThree '.' then lx.separator .documentEnd
    else if ch == '-' && isGap (lx.at'.peekAt 1) then lx.blockEntry
    else if ch == '?' && gapAfter then lx.explicitKey
    else if ch == ':' && gapAfter then lx.mappingValue
    else if ch == '|' && lx.flow == 0 then lx.blockScalar false
    else if ch == '>' && lx.flow == 0 then lx.blockScalar true
    else if lx.startsPlain then lx.plainScalar
    else .error (.marked (some ("while scanning for the next token", none))
      ("found character " ++ .ofList (Text.quoted [ch]) ++ " that cannot start any token")
      lx.at'.mark)

/-- Reads on until the first token of the queue is certain. -/
def settle (lx : Lexer) : (fuel : Nat) → Except Error Lexer
  | 0 => .ok lx
  | fuel + 1 => do
    if lx.done then return lx
    if lx.queue.isEmpty then
      let lx ← lx.fetch
      lx.settle fuel
    else
      let lx ← lx.dropStale
      if lx.keys.any fun (_, k) => k.number == lx.taken then
        let lx ← lx.fetch
        lx.settle fuel
      else return lx

/-- Gives out the tokens that are left. -/
def drain (lx : Lexer) : (fuel : Nat) → TokenStream
  | 0 => ⟨[], none⟩
  | fuel + 1 =>
    match lx.settle (lx.at'.rest.length + 3) with
    | .error e => ⟨[], some e⟩
    | .ok lx => match lx.queue with
      | [] => ⟨[], none⟩
      | t :: ts =>
        let rest := { lx with queue := ts, taken := lx.taken + 1 }.drain fuel
        ⟨t :: rest.tokens, rest.fault⟩

end Lexer

/-- The tokens of a text. Each character gives at most four: itself, a key mark, and the start and
the end of a block. -/
def TokenStream.ofText (s : List Char) : TokenStream :=
  (Lexer.start s).drain (4 * s.length + 8)

end DocTree.Yaml
