import Mathlib
import DocTree.Markdown.Outline
import DocTree.Proofs.Markdown.Line

/-!
# Blocks that are told by their lines

Two kinds of lines tell the blocks of a text without regard to what comes behind them. A line that
begins with a letter or a number sign, in front of an empty line, is a block of its own
(`blocksFrom_plain`). Lines with the mark of a quotation are one block, however many they are and
whatever they hold (`blocksFrom_marked`): what is nested takes all lines up to one that is indented
too little (`length_blocksFrom`), and none in a quotation is.
-/

namespace DocTree.Markdown
variable {quote list : Extent} {sc : Scope} {o : Options} {l b : Line} {ls : List Line}
  {c : Char}

/-! ### Plain lines -/

/-- Whether a line that begins with the character is a heading or a paragraph. -/
def isPlain (c : Char) : Bool := Html.isLetter c || c == '#'

/-- A plain character is none of those that begin another block. -/
theorem ne_of_isPlain (hc : isPlain c = true) :
    c ≠ ' ' ∧ c ≠ '\t' ∧ c ≠ '~' ∧ c ≠ '\x60' ∧ c ≠ '>' ∧ c ≠ '*' ∧ c ≠ '-' ∧ c ≠ '_' ∧ c ≠ '+' ∧
      c ≠ '[' ∧ c ≠ '<' := by
  refine ⟨?_, ?_, ?_, ?_, ?_, ?_, ?_, ?_, ?_, ?_, ?_⟩ <;> rintro rfl <;> cases hc

theorem isDigit_of_isPlain (hc : isPlain c = true) : c.isDigit = false := by
  rw [Bool.eq_false_iff]
  intro hdigit
  simp only [isPlain, Html.isLetter, Char.isDigit, Char.le_def, UInt32.le_iff_toNat_le,
    Bool.or_eq_true, Bool.and_eq_true, decide_eq_true_eq, beq_iff_eq] at hc hdigit
  have hrange : 48 ≤ c.toNat ∧ c.toNat ≤ 57 := hdigit
  rcases hc with hletter | rfl
  · have hletter : 97 ≤ c.toNat ∧ c.toNat ≤ 122 ∨ 65 ≤ c.toNat ∧ c.toNat ≤ 90 := hletter
    omega
  · exact absurd hrange (by decide)

theorem isSpace_of_isPlain (hc : isPlain c = true) : isSpace c = false := by
  simp [isSpace, ne_of_isPlain hc]

theorem fence?_of_isPlain (hc : isPlain c = true) (s : List Char) : fence? (c :: s) = none := by
  simp [fence?, ne_of_isPlain hc]

theorem isRule_of_isPlain (hc : isPlain c = true) (s : List Char) : isRule (c :: s) = false := by
  simp [isRule, ne_of_isPlain hc]

theorem marker?_of_isPlain (hc : isPlain c = true) (s : List Char) : marker? (c :: s) = none := by
  simp [marker?, isDigit_of_isPlain hc, ne_of_isPlain hc]

theorem start?_of_isPlain (hc : isPlain c = true) (s : List Char) :
    Html.start? (c :: s) = none := by
  have hbracket : c ≠ '<' := by simp [ne_of_isPlain hc]
  unfold Html.start?
  split
  · simp_all
  · rfl

/-- The block of a plain line: a heading if it has the marks of one, else a paragraph. -/
def plainBlock (s : List Char) : Block :=
  match heading? s with
  | some text => .heading (.ofList text)
  | none => .paragraph (.ofList (Text.trim s))

/-- All rules that come before headings decline a plain line, and the empty line ends the block. -/
theorem blockAt_of_isPlain (ho : o.blocks = true) (hc : isPlain c = true) (hb : b.isEmpty = true)
    (s : List Char) (ls : List Line) :
    blockAt quote list (.top o) ⟨c :: s, c :: s, 0, 0⟩ (b :: ls) = (plainBlock (c :: s), 0) := by
  have hrest : b.rest = [] := by simpa [Line.isEmpty] using hb
  have hblocks : (Scope.top o).options.blocks = true := ho
  have hcode : (Scope.top o).isCode ⟨c :: s, c :: s, 0, 0⟩ = false := by
    simp [Scope.isCode, Scope.top]
  have htable : (Scope.top o).table? ⟨c :: s, c :: s, 0, 0⟩ (b :: ls) = none := by
    simp [Scope.table?, Table.columns?, Table.mayAlign, hrest]
  have hitem : (Scope.top o).item? false ⟨c :: s, c :: s, 0, 0⟩ = none := by
    simp [Scope.item?, marker?_of_isPlain hc]
  have hreference : reference? (.top o) ⟨c :: s, c :: s, 0, 0⟩ (b :: ls) = none := by
    simp [reference?, Line.first?, ne_of_isPlain hc]
  have hhtml : (Scope.top o).html? ⟨c :: s, c :: s, 0, 0⟩ = none := by
    simp [Scope.html?, start?_of_isPlain hc]
  have hunderlined : underlined? (.top o) (b :: ls) = none := by simp [underlined?, hb]
  have hparagraph : paragraphLines (.top o) (b :: ls) = 0 := by simp [paragraphLines, hb]
  simp only [blockAt, hblocks, hcode, htable, fence?_of_isPlain hc, Line.first?, List.head?_cons,
    Option.some_beq_some, beq_iff_eq, ne_of_isPlain hc, isRule_of_isPlain hc, hitem, hreference,
    hhtml, hunderlined, hparagraph, plainBlock, Bool.not_true, Bool.false_eq_true, if_false,
    List.take_zero]
  cases heading? (c :: s) <;> rfl

theorem blocksFrom_empty (hb : b.isEmpty = true) (ls : List Line) :
    (blocksFrom quote list sc 0 (b :: ls)).1 = (blocksFrom quote list sc 0 ls).1 := by
  simp [blocksFrom, hb]

theorem blocksFrom_cons {block : Block} {busy : Nat} (hl : l.isEmpty = false)
    (hinside : sc.isOutside l = false) (h : blockAt quote list sc l ls = (block, busy)) :
    (blocksFrom quote list sc 0 (l :: ls)).1 = block :: (blocksFrom quote list sc busy ls).1 := by
  simp [blocksFrom, hl, hinside, h]

/-- A plain line in front of an empty one is a block of its own, whatever follows. -/
theorem blocksFrom_plain (ho : o.blocks = true) (hc : isPlain c = true) (hb : b.isEmpty = true)
    (s : List Char) (ls : List Line) :
    (blocksFrom quote list (.top o) 0 (.ofChars (c :: s) :: b :: ls)).1 =
      plainBlock (c :: s) :: (blocksFrom quote list (.top o) 0 ls).1 := by
  rw [ofChars_cons (isSpace_of_isPlain hc),
    blocksFrom_cons rfl rfl (blockAt_of_isPlain ho hc hb s ls), blocksFrom_empty hb]

/-! ### Extents -/

/-- Blocks take all lines, if none is indented too little. -/
theorem length_blocksFrom (h : ∀ l ∈ ls, sc.isOutside l = false) (busy : Nat) :
    (blocksFrom quote list sc busy ls).2 = ls.length := by
  fun_induction blocksFrom quote list sc busy ls with
  | case1 => rfl
  | case2 busy l ls bs n hrest ih => simpa [hrest] using ih (List.forall_mem_cons.1 h).2
  | case3 l ls hempty bs n hrest ih => simpa [hrest] using ih (List.forall_mem_cons.1 h).2
  | case4 l ls hempty houtside => simp [(List.forall_mem_cons.1 h).1] at houtside
  | case5 l ls hempty hinside block busy hblock bs n hrest ih =>
    simpa [hrest] using ih (List.forall_mem_cons.1 h).2

/-- Lines that belong to a block already read begin no other one. -/
theorem blocksFrom_of_length_le {busy : Nat} (h : ls.length ≤ busy) :
    (blocksFrom quote list sc busy ls).1 = [] := by
  induction ls generalizing busy with
  | nil => simp [blocksFrom]
  | cons l ls ih =>
    cases busy with
    | zero => simp at h
    | succ busy => simpa [blocksFrom] using ih (by simpa using h)

/-- What is nested takes all lines too, at any depth and beyond it. -/
theorem extents_of_inside (depth : Nat) (h : ∀ l ∈ ls, sc.isOutside l = false) :
    (extents depth).1 sc ls = ls.length := by
  cases depth with
  | zero =>
    show allLines sc ls = ls.length
    unfold allLines
    dsimp only
    split
    · rename_i l rest hrest
      have hl : l ∈ ls := List.mem_of_mem_drop (hrest ▸ List.mem_cons_self ..)
      simp [h l hl]
    · rfl
  | succ depth => exact length_blocksFrom h 0

/-! ### Quotations -/

theorem le_advanceAll (base col : Nat) (s : List Char) : col ≤ advanceAll base col s := by
  induction s generalizing col with
  | nil => exact Nat.le_refl col
  | cons c s ih =>
    have hstep : col ≤ advance base col c := by
      unfold advance
      split <;> omega
    exact hstep.trans (ih (advance base col c))

/-- Behind its mark a line is indented enough for a quotation. -/
theorem indent_unquote (l : Line) : 0 ≤ (unquote l).indent := by
  unfold unquote
  dsimp only
  split
  · split
    · exact Int.sub_nonneg.2 (Int.ofNat_le.2 (le_advanceAll ..))
    · exact Int.sub_nonneg.2 (Int.ofNat_le.2 (le_advanceAll ..))
  · exact Int.le_refl 0

/-- That a line begins with the mark of a quotation. -/
structure IsMarked (l : Line) : Prop where
  first : l.first? = some '>'
  indent : l.indent = 0

theorem IsMarked.isEmpty_eq (h : IsMarked l) : l.isEmpty = false := by
  obtain ⟨r, hr⟩ := List.head?_eq_some_iff.1 h.first
  simp [Line.isEmpty, hr]

theorem quotedLines_of_isMarked (hsc : sc.column = 0) (h : ∀ l ∈ ls, IsMarked l) (open' : Bool) :
    quotedLines sc open' ls = ls.map unquote := by
  induction ls generalizing open' with
  | nil => rfl
  | cons l ls ih =>
    obtain ⟨hl, hls⟩ := List.forall_mem_cons.1 h
    have hinside : sc.isOutside l = false := by simp [Scope.isOutside, hsc, hl.indent]
    simp [quotedLines, hl.isEmpty_eq, hl.first, hinside, ih hls]

/-- A line with the mark of a quotation begins no table. -/
theorem table?_of_isMarked (h : ∀ l ∈ ls, IsMarked l) : sc.table? l ls = none := by
  cases ls with
  | nil => rfl
  | cons b ls =>
    obtain ⟨r, hr⟩ := List.head?_eq_some_iff.1 (h b (List.mem_cons_self ..)).first
    have halign : Table.mayAlign b.rest = false := by
      rw [hr]
      cases r <;> simp [Table.mayAlign]
    simp [Scope.table?, Table.columns?, halign]

/-- Marked lines are one quotation, whatever they hold. -/
theorem blockAt_of_isMarked (ho : o.blocks = true) (depth : Nat) (h : ∀ m ∈ l :: ls, IsMarked m) :
    blockAt (extents depth).1 list (.top o) l ls = (.other, ls.length) := by
  obtain ⟨hl, hls⟩ := List.forall_mem_cons.1 h
  obtain ⟨r, hr⟩ := List.head?_eq_some_iff.1 hl.first
  have hblocks : (Scope.top o).options.blocks = true := ho
  have hcode : (Scope.top o).isCode l = false := by simp [Scope.isCode, Scope.top, hl.indent]
  have hfence : fence? l.rest = none := by simp [hr, fence?]
  have hquoted : quotedLines (.top o) false (l :: ls) = (l :: ls).map unquote :=
    quotedLines_of_isMarked rfl h false
  have hinside : ∀ m ∈ (l :: ls).map unquote, (Scope.top o).isOutside m = false := by
    intro m hm
    obtain ⟨k, -, rfl⟩ := List.mem_map.1 hm
    exact decide_eq_false (not_lt.2 (indent_unquote k))
  have hextent : (extents depth).1 (.top o) ((l :: ls).map unquote) = ls.length + 1 := by
    simpa using extents_of_inside depth hinside
  -- the quotation is read in the same scope, as the text begins at the first column
  have hscope : (⟨(Scope.top o).options, 0, (Scope.top o).outer⟩ : Scope) = .top o := rfl
  simp only [blockAt, hblocks, table?_of_isMarked hls, hcode, hfence, hl.first, hscope, hquoted,
    hextent, Bool.not_true, Bool.false_eq_true, if_false, beq_self_eq_true, if_true,
    Nat.add_sub_cancel]

/-- Marked lines are one block. -/
theorem blocksFrom_marked (ho : o.blocks = true) (depth : Nat) (hne : ls ≠ [])
    (h : ∀ l ∈ ls, IsMarked l) :
    (blocksFrom (extents depth).1 list (.top o) 0 ls).1 = [.other] := by
  obtain ⟨l, ls, rfl⟩ := List.exists_cons_of_ne_nil hne
  have hl := h l (List.mem_cons_self ..)
  have hinside : (Scope.top o).isOutside l = false := by
    simp [Scope.isOutside, Scope.top, hl.indent]
  rw [blocksFrom_cons hl.isEmpty_eq hinside (blockAt_of_isMarked ho depth h),
    blocksFrom_of_length_le le_rfl]

end DocTree.Markdown
