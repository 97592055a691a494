import DocTree.Text.CodePoint
import DocTree.Yaml.Error

/-!
# Tokens

The indicators and scalars a YAML text is made of, with the block structure that indentation stands
for made explicit.
-/

namespace DocTree.Yaml

/-- What a directive line says. -/
inductive Directive
  | version (major minor : Nat)
  | tag (handle start : String)
  | other (name : String)
  deriving DecidableEq, Repr

/-- The kinds of token. A tag without handle is written out. A scalar in quotes may hold halves of
surrogate pairs, which are then `unpaired`. -/
inductive TokenKind
  | streamEnd
  | directive (d : Directive)
  | documentStart
  | documentEnd
  | blockSequenceStart
  | blockMappingStart
  | blockEnd
  | flowSequenceStart
  | flowMappingStart
  | flowSequenceEnd
  | flowMappingEnd
  | key
  | value
  | blockEntry
  | flowEntry
  | alias (name : String)
  | anchor (name : String)
  | tag (handle : Option String) (suffix : String)
  | scalar (text : String) (plain : Bool)
  | unpaired (us : List Text.CodePoint)
  deriving DecidableEq, Repr

/-- A token and the places where it starts and stops. -/
structure Token where
  kind : TokenKind
  start : Mark
  stop : Mark
  deriving DecidableEq, Repr

def TokenKind.name : TokenKind → String
  | .streamEnd => "<stream end>"
  | .directive _ => "<directive>"
  | .documentStart => "<document start>"
  | .documentEnd => "<document end>"
  | .blockSequenceStart => "<block sequence start>"
  | .blockMappingStart => "<block mapping start>"
  | .blockEnd => "<block end>"
  | .flowSequenceStart => "["
  | .flowMappingStart => "\x7b"
  | .flowSequenceEnd => "]"
  | .flowMappingEnd => "\x7d"
  | .key => "?"
  | .value => ":"
  | .blockEntry => "-"
  | .flowEntry => ","
  | .alias _ => "<alias>"
  | .anchor _ => "<anchor>"
  | .tag _ _ => "<tag>"
  | .scalar _ _ => "<scalar>"
  | .unpaired _ => "<scalar>"

/-- The scalar in quotes that these code points are. -/
def TokenKind.quoted (us : List Text.CodePoint) : TokenKind :=
  match Text.characters? us with
  | some s => .scalar (.ofList s) false
  | none => .unpaired us

end DocTree.Yaml
