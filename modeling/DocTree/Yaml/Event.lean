import DocTree.Yaml.Lexer

/-!
# Events

The structure of a text as a sequence: collections start and end, scalars and aliases stand between.
The grammar is followed token by token with a stack of states; what stands where nothing is
written is an empty scalar.
-/

namespace DocTree.Yaml

/-- How the kind of a scalar follows from its form: a plain one is resolved by its text, one in
quotes is text. -/
inductive Form
  | plain
  | quoted
  deriving DecidableEq, Repr

/-- The kinds of event. A tag is absent, or it is resolved to its full form. An `unpaired` scalar
holds halves of surrogate pairs, so it stands in quotes and is text whatever its form. -/
inductive EventKind
  | documentStart
  | documentEnd
  | streamEnd
  | alias (name : String)
  | scalar (anchor : Option String) (tag : Option String) (form : Form) (text : String)
  | unpaired (anchor : Option String) (tag : Option String) (us : List Text.CodePoint)
  | sequenceStart (anchor : Option String) (tag : Option String)
  | sequenceEnd
  | mappingStart (anchor : Option String) (tag : Option String)
  | mappingEnd
  deriving DecidableEq, Repr

structure Event where
  kind : EventKind
  start : Mark
  deriving DecidableEq, Repr

/-- The events of a text, up to its end or to the first fault. -/
structure EventStream where
  events : List Event
  fault : Option Error
  deriving Repr

/-- What the grammar expects next. Collections that name their start in messages carry its place. -/
inductive Expect
  | implicitDocument
  | document
  | documentEnd
  | content
  | blockNode
  | blockEntry (start : Mark)
  | indentlessEntry
  | blockKey (start : Mark)
  | blockValue (start : Mark)
  | flowEntry (first : Bool) (start : Mark)
  | pairKey (start : Mark)
  | pairValue (start : Mark)
  | pairEnd (start : Mark)
  | flowKey (first : Bool) (start : Mark)
  | flowValue (start : Mark)
  | flowNoValue (start : Mark)
  | nothing
  deriving DecidableEq, Repr

/-- The grammar under way: the tokens left, the tag handles in force, what is expected now, and what
is expected behind that. -/
structure Grammar where
  tokens : TokenStream
  handles : List (String × String)
  now : Expect
  later : List Expect

namespace Grammar

/-- The tag handles that are always there. -/
def defaultHandles : List (String × String) := [("!", "!"), ("!!", "tag:yaml.org,2002:")]

def start (ts : TokenStream) : Grammar := ⟨ts, defaultHandles, .implicitDocument, []⟩

def peek (g : Grammar) : Except Error Token :=
  match g.tokens.tokens, g.tokens.fault with
  | t :: _, _ => .ok t
  | [], some e => .error e
  | [], none => .ok ⟨.streamEnd, default, default⟩

def tail (g : Grammar) : Grammar := { g with tokens := { g.tokens with tokens := g.tokens.tokens.tail } }

/-- What was put off is expected now. -/
def resume (g : Grammar) : Grammar :=
  match g.later with
  | [] => { g with now := .nothing }
  | s :: ss => { g with now := s, later := ss }

/-- A scalar where nothing is written. -/
def empty (m : Mark) : Event := ⟨.scalar none none .plain "", m⟩

/-- A fault of the grammar at a token that does not fit. -/
def unexpected {α : Type} (context : Option (String × Mark)) (what : String) (t : Token) :
    Except Error α :=
  .error (.marked (context.map fun (c, m) => (c, some m)) (what ++ t.kind.name.quotedText) t.start)

def directives (g : Grammar) (version : Bool) (handles : List (String × String)) :
    (fuel : Nat) → Except Error Grammar
  | 0 => .ok g
  | fuel + 1 => do
    let t ← g.peek
    match t.kind with
    | .directive (.version major _) =>
      if version then throw (.marked none "found duplicate YAML directive" t.start)
      if major != 1 then
        throw (.marked none "found incompatible YAML document (version 1.* is required)" t.start)
      g.tail.directives true handles fuel
    | .directive (.tag h s) =>
      if (handles.lookup h).isSome then
        throw (.marked none ("duplicate tag handle " ++ h.quotedText) t.start)
      g.tail.directives version (handles ++ [(h, s)]) fuel
    | .directive (.other _) => g.tail.directives version handles fuel
    | _ => return { g with handles := handles ++ defaultHandles }

/-- A tag in full. -/
def resolveTag (g : Grammar) (start : Mark) (handle : Option String) (suffix : String) (m : Mark) :
    Except Error String :=
  match handle with
  | none => .ok suffix
  | some h => match g.handles.lookup h with
    | some s => .ok (s ++ suffix)
    | none => .error (.marked (some ("while parsing a node", some start))
        ("found undefined tag handle " ++ h.quotedText) m)

structure Properties where
  anchor : Option String
  tag : Option (Option String × String × Mark)
  start : Option Mark

/-- The anchor and the tag in front of a node, in either order. -/
def properties (g : Grammar) : Except Error (Properties × Grammar) := do
  let t ← g.peek
  match t.kind with
  | .anchor a =>
    let u ← g.tail.peek
    match u.kind with
    | .tag h s => return (⟨some a, some (h, s, u.start), some t.start⟩, g.tail.tail)
    | _ => return (⟨some a, none, some t.start⟩, g.tail)
  | .tag h s =>
    let u ← g.tail.peek
    match u.kind with
    | .anchor a => return (⟨some a, some (h, s, t.start), some t.start⟩, g.tail.tail)
    | _ => return (⟨none, some (h, s, t.start), some t.start⟩, g.tail)
  | _ => return (⟨none, none, none⟩, g)

/-- Nothing where a node should be: an empty scalar behind an anchor or a tag, else a fault. -/
def missing (g : Grammar) (block : Bool) (p : Properties) (tag : Option String) (start : Mark)
    (t : Token) : Except Error (Event × Grammar) :=
  if p.anchor.isSome || tag.isSome then
    .ok (⟨.scalar p.anchor tag (if tag.isNone || tag == some "!" then .plain else .quoted) "",
      start⟩, g.resume)
  else
    unexpected (some (if block then "while parsing a block node" else "while parsing a flow node",
      start)) "expected the node content, but found " t

/-- A node. In a block, block collections may stand for it; as a value of a block mapping, also a
sequence that is not indented. -/
def node (g : Grammar) (block indentless : Bool) : Except Error (Event × Grammar) := do
  let t ← g.peek
  match t.kind with
  | .alias name => return (⟨.alias name, t.start⟩, g.tail.resume)
  | _ =>
    let (p, g) ← g.properties
    let tag ← match p.tag with
      | some (h, s, m) => some <$> g.resolveTag (p.start.getD m) h s m
      | none => pure none
    let t ← g.peek
    let start := p.start.getD t.start
    let event := fun k : EventKind => (⟨k, start⟩ : Event)
    match t.kind with
    | .blockEntry =>
      if indentless then
        return (event (.sequenceStart p.anchor tag), { g with now := .indentlessEntry })
      else g.missing block p tag start t
    | .scalar text plain =>
      let form := if tag == some "!" || (plain && tag.isNone) then Form.plain else .quoted
      return (event (.scalar p.anchor tag form text), g.tail.resume)
    | .unpaired us => return (event (.unpaired p.anchor tag us), g.tail.resume)
    | .flowSequenceStart =>
      return (event (.sequenceStart p.anchor tag), { g.tail with now := .flowEntry true t.start })
    | .flowMappingStart =>
      return (event (.mappingStart p.anchor tag), { g.tail with now := .flowKey true t.start })
    | .blockSequenceStart =>
      if block then
        return (event (.sequenceStart p.anchor tag), { g.tail with now := .blockEntry t.start })
      else g.missing block p tag start t
    | .blockMappingStart =>
      if block then
        return (event (.mappingStart p.anchor tag), { g.tail with now := .blockKey t.start })
      else g.missing block p tag start t
    | _ => g.missing block p tag start t

/-- A node now and `s` behind it. -/
def nodeThen (g : Grammar) (s : Expect) (block indentless : Bool) :
    Except Error (Event × Grammar) :=
  { g with later := s :: g.later }.node block indentless

/-- An empty scalar now and `s` behind it. -/
def emptyThen (g : Grammar) (s : Expect) (m : Mark) : Except Error (Event × Grammar) :=
  .ok (empty m, { g with now := s })

/-- Whether nothing is written between a mark of a block mapping and this token. -/
def endsBlockValue : TokenKind → Bool
  | .key | .value | .blockEnd => true
  | _ => false

/-- The start of a document, or the end of the text. -/
def document (g : Grammar) : Except Error (Event × Grammar) := do
  let n := (g.tokens.tokens.takeWhile fun t => t.kind == .documentEnd).length
  let g := { g with tokens := { g.tokens with tokens := g.tokens.tokens.drop n } }
  let t ← g.peek
  match t.kind with
  | .streamEnd => return (⟨.streamEnd, t.start⟩, { g.tail with now := .nothing })
  | _ =>
    let g ← g.directives false [] g.tokens.tokens.length.succ
    let u ← g.peek
    match u.kind with
    | .documentStart =>
      return (⟨.documentStart, t.start⟩,
        { g.tail with now := .content, later := .documentEnd :: g.later })
    | _ => unexpected none "expected '<document start>', but found " u

def flowEntry (g : Grammar) (first : Bool) (start : Mark) : Except Error (Event × Grammar) := do
  let t ← g.peek
  match t.kind with
  | .flowSequenceEnd => return (⟨.sequenceEnd, t.start⟩, g.tail.resume)
  | _ =>
    let g ← if first then pure g else match t.kind with
      | .flowEntry => pure g.tail
      | _ =>
        unexpected (some ("while parsing a flow sequence", start)) "expected ',' or ']', but got " t
    let t ← g.peek
    match t.kind with
    | .key => return (⟨.mappingStart none none, t.start⟩, { g with now := .pairKey start })
    | .flowSequenceEnd => return (⟨.sequenceEnd, t.start⟩, g.tail.resume)
    | _ => g.nodeThen (.flowEntry false start) false false

/-- The next key of a flow mapping. -/
def flowKey (g : Grammar) (first : Bool) (start : Mark) : Except Error (Event × Grammar) := do
  let t ← g.peek
  match t.kind with
  | .flowMappingEnd => return (⟨.mappingEnd, t.start⟩, g.tail.resume)
  | _ =>
    let g ← if first then pure g else match t.kind with
      | .flowEntry => pure g.tail
      | _ =>
        unexpected (some ("while parsing a flow mapping", start))
          "expected ',' or '\x7d', but got " t
    let t ← g.peek
    match t.kind with
    | .key =>
      let u ← g.tail.peek
      match u.kind with
      | .value | .flowEntry | .flowMappingEnd => g.tail.emptyThen (.flowValue start) t.stop
      | _ => g.tail.nodeThen (.flowValue start) false false
    | .flowMappingEnd => return (⟨.mappingEnd, t.start⟩, g.tail.resume)
    | _ => g.nodeThen (.flowNoValue start) false false

def step (g : Grammar) : Except Error (Event × Grammar) := do
  match g.now with
  | .nothing => return (⟨.streamEnd, default⟩, g)
  | .implicitDocument =>
    let t ← g.peek
    match t.kind with
    | .directive _ | .documentStart | .streamEnd => g.document
    | _ => return (⟨.documentStart, t.start⟩,
        { g with now := .blockNode, later := .documentEnd :: g.later })
  | .document => g.document
  | .documentEnd =>
    let t ← g.peek
    match t.kind with
    | .documentEnd => return (⟨.documentEnd, t.start⟩, { g.tail with now := .document })
    | _ => return (⟨.documentEnd, t.start⟩, { g with now := .document })
  | .content =>
    let t ← g.peek
    match t.kind with
    | .directive _ | .documentStart | .documentEnd | .streamEnd => return (empty t.start, g.resume)
    | _ => g.node true false
  | .blockNode => g.node true false
  | .blockEntry start =>
    let t ← g.peek
    match t.kind with
    | .blockEntry =>
      let u ← g.tail.peek
      match u.kind with
      | .blockEntry | .blockEnd => g.tail.emptyThen (.blockEntry start) t.stop
      | _ => g.tail.nodeThen (.blockEntry start) true false
    | .blockEnd => return (⟨.sequenceEnd, t.start⟩, g.tail.resume)
    | _ =>
      unexpected (some ("while parsing a block collection", start)) "expected <block end>, but found " t
  | .indentlessEntry =>
    let t ← g.peek
    match t.kind with
    | .blockEntry =>
      let u ← g.tail.peek
      match u.kind with
      | .blockEntry | .key | .value | .blockEnd => g.tail.emptyThen .indentlessEntry t.stop
      | _ => g.tail.nodeThen .indentlessEntry true false
    | _ => return (⟨.sequenceEnd, t.start⟩, g.resume)
  | .blockKey start =>
    let t ← g.peek
    match t.kind with
    | .key =>
      let u ← g.tail.peek
      if endsBlockValue u.kind then g.tail.emptyThen (.blockValue start) t.stop
      else g.tail.nodeThen (.blockValue start) true true
    | .blockEnd => return (⟨.mappingEnd, t.start⟩, g.tail.resume)
    | _ =>
      unexpected (some ("while parsing a block mapping", start)) "expected <block end>, but found " t
  | .blockValue start =>
    let t ← g.peek
    match t.kind with
    | .value =>
      let u ← g.tail.peek
      if endsBlockValue u.kind then g.tail.emptyThen (.blockKey start) t.stop
      else g.tail.nodeThen (.blockKey start) true true
    | _ => g.emptyThen (.blockKey start) t.start
  | .flowEntry first start => g.flowEntry first start
  | .pairKey start =>
    let t ← g.peek
    let u ← g.tail.peek
    match u.kind with
    | .value | .flowEntry | .flowSequenceEnd => g.tail.emptyThen (.pairValue start) t.stop
    | _ => g.tail.nodeThen (.pairValue start) false false
  | .pairValue start =>
    let t ← g.peek
    match t.kind with
    | .value =>
      let u ← g.tail.peek
      match u.kind with
      | .flowEntry | .flowSequenceEnd => g.tail.emptyThen (.pairEnd start) t.stop
      | _ => g.tail.nodeThen (.pairEnd start) false false
    | _ => g.emptyThen (.pairEnd start) t.start
  | .pairEnd start =>
    let t ← g.peek
    return (⟨.mappingEnd, t.start⟩, { g with now := .flowEntry false start })
  | .flowKey first start => g.flowKey first start
  | .flowValue start =>
    let t ← g.peek
    match t.kind with
    | .value =>
      let u ← g.tail.peek
      match u.kind with
      | .flowEntry | .flowMappingEnd => g.tail.emptyThen (.flowKey false start) t.stop
      | _ => g.tail.nodeThen (.flowKey false start) false false
    | _ => g.emptyThen (.flowKey false start) t.start
  | .flowNoValue start =>
    let t ← g.peek
    g.emptyThen (.flowKey false start) t.start

/-- The events that are left. -/
def run (g : Grammar) : (fuel : Nat) → EventStream
  | 0 => ⟨[], none⟩
  | fuel + 1 =>
    if g.now = .nothing then ⟨[], none⟩
    else match g.step with
      | .error e => ⟨[], some e⟩
      | .ok (e, g) =>
        let rest := g.run fuel
        ⟨e :: rest.events, rest.fault⟩

end Grammar

/-- The events of a text, from the start of its first document. A token gives at most three. -/
def EventStream.ofTokens (ts : TokenStream) : EventStream :=
  (Grammar.start ts).run (3 * ts.tokens.length + 8)

end DocTree.Yaml
