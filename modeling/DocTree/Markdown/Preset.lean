import DocTree.Text.Quoted

/-!
# Presets

The named sets of rules by which a markdown text is read.
-/

namespace DocTree.Markdown

/-- A named set of rules. -/
inductive Preset
  | commonmark
  | default
  | jsDefault
  | zero
  | gfmLike
  | gfmLike2
  deriving DecidableEq, Repr

namespace Preset

def all : List Preset := [.commonmark, .default, .jsDefault, .zero, .gfmLike, .gfmLike2]

def name : Preset → String
  | .commonmark => "commonmark"
  | .default => "default"
  | .jsDefault => "js-default"
  | .zero => "zero"
  | .gfmLike => "gfm-like"
  | .gfmLike2 => "gfm-like2"

def ofName? (s : String) : Option Preset := all.find? fun p => p.name == s

/-- What is wrong with a name that no preset has. -/
def unknownMessage (s : String) : String :=
  ("Wrong \x60markdown-it\x60 preset '" ++ s ++ "', check name").quotedText

end Preset

/-- What a preset allows: blocks other than paragraphs, tables and HTML among them, and how deep
quotations and lists may be nested. -/
structure Options where
  blocks : Bool
  tables : Bool
  html : Bool
  maxNesting : Nat
  deriving DecidableEq, Repr

def Preset.options : Preset → Options
  | .commonmark => ⟨true, false, true, 20⟩
  | .default => ⟨true, true, false, 100⟩
  | .jsDefault => ⟨true, true, false, 100⟩
  | .zero => ⟨false, false, false, 20⟩
  | .gfmLike => ⟨true, true, true, 20⟩
  | .gfmLike2 => ⟨true, true, true, 20⟩

end DocTree.Markdown
