import DocTree.FrontMatter
import DocTree.Markdown.Outline

/-!
# Named texts of a source

The named texts that the source of an item gives: the entries of its front matter, then title,
description and content.
-/

namespace DocTree.Extract

/-- Why a source gives no texts. -/
inductive Fault
  | frontMatter (f : FrontMatter.Fault)
  | longNumber
  | unknownPreset (name : String)
  deriving DecidableEq, Repr

def Fault.message : Fault → String
  | .frontMatter f => f.message
  | .longNumber => "Exceeds the limit (4300 digits) for integer string conversion; "
      ++ "use sys.set_int_max_str_digits() to increase the limit"
  | .unknownPreset name => Markdown.Preset.unknownMessage name

/-- The names that every source has a text for. -/
def standardNames : List String := ["title", "description", "content"]

def defaultPreset : String := "gfm-like"

/-- A value as text; a number that is too long has none. -/
def plainText (v : Value) : Except Fault String :=
  match v.text? with
  | some s => .ok s
  | none => .error .longNumber

/-- A value as text, in which the halves of a text are kept. -/
def rawOf (v : Value) : Except Fault Text.Raw :=
  match v with
  | .unpaired us => .ok (.unpaired us)
  | v => (plainText v).map .text

def items? (v : Value) : Option (List Value) :=
  match v.bare with
  | .list xs => some xs
  | .tuple xs => some xs
  | _ => none

/-- The text of a value: its items with commas between them, if it is a list; nothing for null. -/
def textOf (v : Value) : Except Fault Text.Raw :=
  match items? v with
  | some xs => do
    let parts ← xs.mapM rawOf
    return .join ", " parts
  | none => match v with
    | .null => .ok ""
    | v => rawOf v

def isMapping (v : Value) : Bool :=
  match v.bare with
  | .map _ => true
  | _ => false

/-- The named text of an entry. Standard names, empty names and mappings give none. -/
def entryText? (e : Value × Value) : Except Fault (Option (Text.Raw × Text.Raw)) := do
  let name ← rawOf e.1
  if name.shown.isEmpty || standardNames.contains name.shown.lowerCase || isMapping e.2 then
    return none
  else
    let text ← textOf e.2
    return some (name, text)

def entryTexts (es : List (Value × Value)) : Except Fault (List (Text.Raw × Text.Raw)) := do
  let texts ← es.mapM entryText?
  return texts.filterMap id

/-- The text of an entry with a standard name, if there is one that is not empty, else `otherwise`. -/
def standardText (es : List (Value × Value)) (name otherwise : String) : Except Fault Text.Raw := do
  let text ← textOf ((Value.lookup (.str name) es).getD .null)
  return if text.isEmpty then .text otherwise else text

/-- The texts that come last, under the names that every source has a text for. -/
def standardTexts (title description : Text.Raw) (content : String) : List (Text.Raw × Text.Raw) :=
  [(.text "title", title), (.text "description", description), (.text "content", .text content)]

/-- The named texts of entries and a body. -/
def assemble (es : List (Value × Value)) (body preset : String) :
    Except Fault (List (Text.Raw × Text.Raw)) := do
  let own ← entryTexts es
  let some p := Markdown.Preset.ofName? preset | throw (.unknownPreset preset)
  let blocks := Markdown.blocksOf p body
  let title ← standardText es "title" (Markdown.firstHeading blocks)
  let description ← standardText es "description" (Markdown.firstParagraph blocks)
  return own ++ standardTexts title description body.trimBlank

/-- The named texts of a source. -/
def named (text preset : String) : Except Fault (List (Text.Raw × Text.Raw)) := do
  let (es, body) ← (FrontMatter.split text).mapError .frontMatter
  assemble es body preset

/-- The named texts of a source as they are shown. -/
def extract (text preset : String) : Except Fault (List (String × String)) :=
  (named text preset).map fun ns => ns.map fun (name, text) => (name.shown, text.shown)

end DocTree.Extract
