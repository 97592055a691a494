import Mathlib
import DocTree.Json

/-!
# Reading JSON text

A reader of JSON text, to say what such a text stands for. The lexer goes through the characters one
by one, the parser through the tokens that come of them. Numbers with a fraction or an exponent are
not read.
-/

namespace DocTree.Json

/-! ## Tokens -/

/-- A token: a bracket, a mark between brackets, or a value that is no container. -/
inductive Token
  | opening (b : Brackets)
  | closing (b : Brackets)
  | comma
  | colon
  | scalar (v : Value)

/-- Where the lexer stands: between tokens, behind characters of a word, or in quotes behind units of
sixteen bits or characters. There it may also be behind a backslash, or before the last digits of a
unit. -/
inductive Lexing
  | between
  | word (cs : List Char)
  | text (us : List Nat)
  | escape (us : List Nat)
  | unit (us : List Nat) (n left : Nat)

def isBlank (c : Char) : Bool := c ∈ [' ', '\t', '\n', '\r']

/-- Whether a character may stand in a number or a name. -/
def isWordChar (c : Char) : Bool := c.isAlphanum || c == '-' || c == '+' || c == '.'

def mark? : Char → Option Token
  | '[' => some (.opening .list)
  | ']' => some (.closing .list)
  | '\x7b' => some (.opening .map)
  | '\x7d' => some (.closing .map)
  | ',' => some .comma
  | ':' => some .colon
  | _ => none

/-- A number in decimal, without needless zeros in front. -/
def natOf? (ds : List Char) : Option Nat :=
  if ds ≠ [] ∧ ds.all Char.isDigit ∧ (ds.head? = some '0' → ds.length = 1) then
    some (Nat.ofDigitChars 10 ds 0)
  else none

/-- What a number or a name stands for. -/
def wordOf? (cs : List Char) : Option Value :=
  if cs = "null".toList then some .null
  else if cs = "true".toList then some (.bool true)
  else if cs = "false".toList then some (.bool false)
  else match cs with
    | '-' :: ds => (natOf? ds).map fun n : Nat => .int (-(n : Int))
    | ds => (natOf? ds).map fun n : Nat => .int n

/-- The character that stands behind a backslash for another one. -/
def escaped? : Char → Option Char
  | '"' => some '"'
  | '\\' => some '\\'
  | '/' => some '/'
  | 'n' => some '\n'
  | 'r' => some '\r'
  | 't' => some '\t'
  | 'b' => some '\x08'
  | 'f' => some '\x0c'
  | _ => none

def hexValue? (c : Char) : Option Nat :=
  if c.isDigit then some (c.toNat - '0'.toNat)
  else if 'a' ≤ c ∧ c ≤ 'f' then some (c.toNat - 'a'.toNat + 10)
  else if 'A' ≤ c ∧ c ≤ 'F' then some (c.toNat - 'A'.toNat + 10)
  else none

/-- The characters of units. Two surrogates are one character, and a single one is none. -/
def charsOf? : List Nat → Option (List Char)
  | [] => some []
  | [u] => if 0xd800 ≤ u ∧ u < 0xe000 then none else some [.ofNat u]
  | u :: v :: us =>
    if 0xd800 ≤ u ∧ u < 0xdc00 then
      if 0xdc00 ≤ v ∧ v < 0xe000 then
        (charsOf? us).map (.ofNat (0x10000 + (u - 0xd800) * 0x400 + (v - 0xdc00)) :: ·)
      else none
    else if 0xdc00 ≤ u ∧ u < 0xe000 then none
    else (charsOf? (v :: us)).map (.ofNat u :: ·)

namespace Lexing

/-- The tokens that end with a character between tokens, and where the lexer stands behind it. -/
def start (c : Char) : Option (List Token × Lexing) :=
  if isBlank c then some ([], .between)
  else if c = '"' then some ([], .text [])
  else if isWordChar c then some ([], .word [c])
  else (mark? c).map fun t => ([t], .between)

/-- The tokens that end with a character, and where the lexer stands behind it. A word ends in front of
the character. -/
def next : Lexing → Char → Option (List Token × Lexing)
  | .between, c => start c
  | .word cs, c =>
    if isWordChar c then some ([], .word (cs ++ [c]))
    else (wordOf? cs).bind fun v => (start c).map fun (ts, l) => (.scalar v :: ts, l)
  | .text us, c =>
    if c = '"' then (charsOf? us).map fun cs => ([.scalar (.str (.ofList cs))], .between)
    else if c = '\\' then some ([], .escape us)
    else if c.toNat < 0x20 then none
    else some ([], .text (us ++ [c.toNat]))
  | .escape us, c =>
    if c = 'u' then some ([], .unit us 0 3)
    else (escaped? c).map fun d => ([], .text (us ++ [d.toNat]))
  | .unit us n left, c =>
    (hexValue? c).map fun d => ([], match left with
      | 0 => .text (us ++ [n * 16 + d])
      | left + 1 => .unit us (n * 16 + d) left)

/-- The tokens that end with the text. -/
def finish : Lexing → Option (List Token)
  | .between => some []
  | .word cs => (wordOf? cs).map fun v => [.scalar v]
  | _ => none

/-- The tokens of a text. -/
def run (l : Lexing) : List Char → Option (List Token)
  | [] => l.finish
  | c :: cs => (l.next c).bind fun (ts, l) => (l.run cs).map (ts ++ ·)

end Lexing

/-! ## Values -/

/-- A container that is not closed yet, with what is in it. A mapping has read the key of a further
value. -/
inductive Frame
  | list (vs : List Value)
  | map (es : List (Value × Value)) (key : String)

/-- Where the parser stands: in front of a value, in front of a key of a mapping, between a key and its
value, or behind a value; always in some containers, the innermost first. -/
inductive Parsing
  | value (fs : List Frame)
  | key (es : List (Value × Value)) (fs : List Frame)
  | colon (es : List (Value × Value)) (k : String) (fs : List Frame)
  | behind (v : Value) (fs : List Frame)

namespace Parsing

/-- Where the parser stands behind a token. An end is only met behind a value, or in a container that
is empty. Of entries under one key the last one counts. -/
def next : Parsing → Token → Option Parsing
  | .value fs, .scalar v => some (.behind v fs)
  | .value fs, .opening .list => some (.value (.list [] :: fs))
  | .value fs, .opening .map => some (.key [] fs)
  | .value (.list [] :: fs), .closing .list => some (.behind (.list []) fs)
  | .key es fs, .scalar (.str k) => some (.colon es k fs)
  | .key [] fs, .closing .map => some (.behind (.map []) fs)
  | .colon es k fs, .colon => some (.value (.map es k :: fs))
  | .behind v (.list vs :: fs), .comma => some (.value (.list (vs ++ [v]) :: fs))
  | .behind v (.list vs :: fs), .closing .list => some (.behind (.list (vs ++ [v])) fs)
  | .behind v (.map es k :: fs), .comma => some (.key (Value.insertEntry (.str k) v es) fs)
  | .behind v (.map es k :: fs), .closing .map =>
    some (.behind (.map (Value.insertEntry (.str k) v es)) fs)
  | _, _ => none

/-- The value that was read, if all containers are closed. -/
def finish : Parsing → Option Value
  | .behind v [] => some v
  | _ => none

end Parsing

/-- Where the parser stands behind the tokens of a text. -/
def parse (p : Parsing) (cs : List Char) : Option Parsing :=
  (Lexing.between.run cs).bind fun ts => ts.foldlM Parsing.next p

/-- The value that a JSON text stands for. -/
def read? (s : String) : Option Value := (parse (.value []) s.toList).bind Parsing.finish

/-! ## Single characters -/

theorem isWordChar_of_isBlank {c : Char} (h : isBlank c = true) : isWordChar c = false := by
  have hall : [' ', '\t', '\n', '\r'].all (!isWordChar ·) = true := by decide
  have hc := List.all_eq_true.1 hall c (by simpa [isBlank] using h)
  simpa using hc

theorem isWordChar_of_mark? {c : Char} {t : Token} (h : mark? c = some t) : isWordChar c = false := by
  unfold mark? at h
  split at h <;> first | decide | cases h

/-- That no word goes on with a text. -/
def Ends (cs : List Char) : Prop := ∀ c, cs.head? = some c → isWordChar c = false

theorem ends_nil : Ends [] := nofun

theorem ends_cons {c : Char} (h : isWordChar c = false) (cs : List Char) : Ends (c :: cs) := by
  intro d hd
  rw [List.head?_cons, Option.some.injEq] at hd
  rwa [← hd]

theorem ends_append {bs cs : List Char} (hbs : ∀ c ∈ bs, isBlank c = true) (h : Ends cs) :
    Ends (bs ++ cs) := by
  cases bs with
  | nil => exact h
  | cons b bs => exact ends_cons (isWordChar_of_isBlank (hbs b (List.mem_cons_self ..))) _

theorem run_cons {l l' : Lexing} {c : Char} {ts : List Token} (h : l.next c = some (ts, l'))
    (cs : List Char) : l.run (c :: cs) = (l'.run cs).map (ts ++ ·) := by
  rw [Lexing.run, h]
  rfl

/-- A character inside a token brings no token about. -/
theorem run_cons_nil {l l' : Lexing} {c : Char} (h : l.next c = some ([], l')) (cs : List Char) :
    l.run (c :: cs) = l'.run cs := by
  rw [run_cons h]
  exact Option.map_id'

/-- A token in front of a text is one step of the parser. -/
theorem parse_token {s rest : List Char} {t : Token}
    (h : Lexing.between.run (s ++ rest) = (Lexing.between.run rest).map (t :: ·)) {p p' : Parsing}
    (hp : p.next t = some p') : parse p (s ++ rest) = parse p' rest := by
  rw [parse, h]
  cases hrun : Lexing.between.run rest <;> simp [parse, hrun, hp]

theorem parse_blank {c : Char} (h : isBlank c = true) (p : Parsing) (cs : List Char) :
    parse p (c :: cs) = parse p cs := by
  have hnext : Lexing.between.next c = some ([], .between) := by
    rw [Lexing.next, Lexing.start, if_pos h]
  rw [parse, run_cons_nil hnext, parse]

theorem parse_blanks {bs : List Char} (h : ∀ c ∈ bs, isBlank c = true) (p : Parsing)
    (cs : List Char) : parse p (bs ++ cs) = parse p cs := by
  induction bs with
  | nil => rfl
  | cons b bs ih =>
    rw [List.cons_append, parse_blank (h b (List.mem_cons_self ..)),
      ih fun c hc => h c (List.mem_cons_of_mem _ hc)]

theorem parse_mark {c : Char} {t : Token} (h : mark? c = some t) {p p' : Parsing}
    (hp : p.next t = some p') (cs : List Char) : parse p (c :: cs) = parse p' cs := by
  have hnext : Lexing.between.next c = some ([t], .between) := by
    have hblank : isBlank c = false := by
      unfold mark? at h
      split at h <;> first | decide | cases h
    have hquote : c ≠ '"' := by
      rintro rfl
      cases h
    simp [Lexing.next, Lexing.start, hblank, hquote, isWordChar_of_mark? h, h]
  exact parse_token (s := [c]) (run_cons hnext cs) hp

/-! ## Words -/

theorem next_between_word {c : Char} (h : isWordChar c = true) :
    Lexing.between.next c = some ([], .word [c]) := by
  have hblank : isBlank c = false := by
    by_contra hc
    rw [isWordChar_of_isBlank (Bool.not_eq_false _ ▸ hc)] at h
    cases h
  have hquote : c ≠ '"' := by
    rintro rfl
    revert h
    decide
  simp [Lexing.next, Lexing.start, hblank, hquote, h]

theorem run_word {v : Value} {rest : List Char} (hrest : Ends rest) {s : List Char}
    (h : ∀ c ∈ s, isWordChar c = true) {cs : List Char} (hv : wordOf? (cs ++ s) = some v) :
    (Lexing.word cs).run (s ++ rest) = (Lexing.between.run rest).map (.scalar v :: ·) := by
  induction s generalizing cs with
  | nil =>
    rw [List.append_nil] at hv
    cases rest with
    | nil => simp [Lexing.run, Lexing.finish, hv]
    | cons c rest =>
      have hc : isWordChar c = false := hrest c rfl
      rw [List.nil_append, Lexing.run, Lexing.run, Lexing.next, Lexing.next, if_neg (by simp [hc]), hv]
      cases Lexing.start c with
      | none => rfl
      | some r =>
        show ((r.2.run rest).map (.scalar v :: r.1 ++ ·)) = ((r.2.run rest).map (r.1 ++ ·)).map _
        rw [Option.map_map]
        rfl
  | cons c s ih =>
    have hnext : (Lexing.word cs).next c = some ([], .word (cs ++ [c])) := by
      rw [Lexing.next, if_pos (h c (List.mem_cons_self ..))]
    rw [List.append_cons] at hv
    rw [List.cons_append, run_cons_nil hnext, ih (fun d hd => h d (List.mem_cons_of_mem _ hd)) hv]

/-- That a text, if it is not the first part of a longer word, brings the parser from one place to
another. -/
def Reads (p : Parsing) (s : List Char) (p' : Parsing) : Prop :=
  ∀ rest, Ends rest → parse p (s ++ rest) = parse p' rest

theorem reads_word {s : List Char} (hne : s ≠ []) (h : s.all isWordChar = true) {v : Value}
    (hv : wordOf? s = some v) (fs : List Frame) : Reads (.value fs) s (.behind v fs) := by
  rw [List.all_eq_true] at h
  intro rest hrest
  cases s with
  | nil => exact absurd rfl hne
  | cons c s =>
    refine parse_token (t := .scalar v) ?_ rfl
    rw [List.cons_append, run_cons_nil (next_between_word (h c (List.mem_cons_self ..)))]
    exact run_word hrest (fun d hd => h d (List.mem_cons_of_mem _ hd)) hv

/-! ## Containers -/

/-- Parts with commas between them, up to the bracket that closes them, are read one by one. -/
theorem parse_parts {α : Type} {part : α → List Char} {before : List α → Parsing}
    {behind : List α → α → Parsing} {result : List α → Parsing} {xs : List α}
    (hpart : ∀ x ∈ xs, ∀ done, Reads (before done) (part x) (behind done x))
    (hcomma : ∀ done x, (behind done x).next .comma = some (before (done ++ [x])))
    {c : Char} {t : Token} (hc : mark? c = some t)
    (hclose : ∀ done x, (behind done x).next t = some (result (done ++ [x])))
    {gap last : List Char} (hgap : ∀ c ∈ gap, isBlank c = true) (hlast : ∀ c ∈ last, isBlank c = true)
    (hne : xs ≠ []) (done : List α) (rest : List Char) :
    parse (before done) (List.intercalate (',' :: gap) (xs.map part) ++ (last ++ c :: rest)) =
      parse (result (done ++ xs)) rest := by
  induction xs generalizing done with
  | nil => exact absurd rfl hne
  | cons x xs ih =>
    have hx := hpart x (List.mem_cons_self ..) done
    cases xs with
    | nil =>
      rw [List.map_singleton, List.intercalate_singleton,
        hx _ (ends_append hlast (ends_cons (isWordChar_of_mark? hc) rest)), parse_blanks hlast,
        parse_mark hc (hclose done x)]
    | cons y xs =>
      have hrest := ih (fun z hz => hpart z (List.mem_cons_of_mem _ hz)) (List.cons_ne_nil y xs)
        (done ++ [x])
      rw [List.append_assoc, List.singleton_append, List.map_cons] at hrest
      rw [List.map_cons, List.map_cons, List.intercalate_cons_cons, List.append_assoc,
        List.append_assoc, List.cons_append, hx _ (ends_cons (by decide) _),
        parse_mark (c := ',') rfl (hcomma done x), parse_blanks hgap, hrest]

end DocTree.Json
