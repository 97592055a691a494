import Mathlib
import DocTree.Proofs.Digest
import DocTree.Proofs.Json.Reading
import DocTree.Proofs.Text
import DocTree.Proofs.Value

/-!
# Written JSON is read back

Values of which JSON has a form are read back from their text, however it is spread (`read?_write`).
The text is ASCII, with no control characters but blanks (`isPlain_write`).
-/

namespace DocTree.Json
open Value (named)

/-- A value that JSON has a form for, floating-point numbers left out. -/
inductive HasForm : Value → Prop
  | null : HasForm .null
  | bool (b : Bool) : HasForm (.bool b)
  | int (i : Int) : HasForm (.int i)
  | str (s : String) : HasForm (.str s)
  | list {vs : List Value} (h : ∀ v ∈ vs, HasForm v) : HasForm (.list vs)
  | map {es : List (String × Value)} (hnodup : (es.map Prod.fst).Nodup)
      (h : ∀ e ∈ es, HasForm e.2) : HasForm (.map (named es))

/-! ### Numbers -/

theorem head?_toDigits {n : Nat} (h : (Nat.toDigits 10 n).head? = some '0') : n = 0 := by
  induction n using Nat.strongRecOn with
  | _ n ih =>
    rw [Nat.toDigits_eq_if (by decide)] at h
    split at h
    · rename_i hn
      have hall : (List.range 10).all (fun n => n.digitChar != '0' || n == 0) = true := by decide
      have hdigit := List.all_eq_true.1 hall n (List.mem_range.2 hn)
      simpa [Option.some.inj h] using hdigit
    · rename_i hn
      rw [List.head?_append_of_ne_nil _ Nat.toDigits_ne_nil] at h
      have hzero := ih (n / 10) (by omega) h
      omega

theorem natOf?_toDigits (n : Nat) : natOf? (Nat.toDigits 10 n) = some n := by
  have hdigits : (Nat.toDigits 10 n).all Char.isDigit = true :=
    List.all_eq_true.2 fun c hc => Nat.isDigit_of_mem_toDigits (by decide) (by decide) hc
  have hzero : (Nat.toDigits 10 n).head? = some '0' → (Nat.toDigits 10 n).length = 1 := by
    intro h
    rw [head?_toDigits h]
    rfl
  rw [natOf?, if_pos ⟨Nat.toDigits_ne_nil, hdigits, hzero⟩, Nat.ofDigitChars_ten_toDigits]

theorem wordOf?_of_isDigit {d : Char} (hd : d.isDigit = true) (ds : List Char) :
    wordOf? (d :: ds) = (natOf? (d :: ds)).map fun n : Nat => .int n := by
  have hne : ∀ c : Char, c.isDigit = false → d ≠ c := by
    rintro c hc rfl
    rw [hd] at hc
    cases hc
  rw [wordOf?, if_neg (by simp [hne 'n' (by decide)]), if_neg (by simp [hne 't' (by decide)]),
    if_neg (by simp [hne 'f' (by decide)])]
  exact fun _ heq => hne '-' (by decide) (List.cons.inj heq).1

theorem reads_int (i : Int) (fs : List Frame) :
    Reads (.value fs) (Number.intText i).toList (.behind (.int i) fs) := by
  have hdigit : ∀ n : Nat, ∀ c ∈ Nat.toDigits 10 n, c.isDigit = true := fun n c hc =>
    Nat.isDigit_of_mem_toDigits (by decide) (by decide) hc
  have hword : ∀ n : Nat, (Nat.toDigits 10 n).all isWordChar = true := by
    intro n
    refine List.all_eq_true.2 fun c hc => ?_
    simp [isWordChar, Char.isAlphanum, hdigit n c hc]
  rw [Number.intText]
  split
  · have hminus : ("-" ++ Number.natText i.natAbs).toList = '-' :: Nat.toDigits 10 i.natAbs := by
      simp [Number.natText]
    have hof : wordOf? ('-' :: Nat.toDigits 10 i.natAbs) = some (.int i) := by
      have hneg : -(i.natAbs : Int) = i := by omega
      rw [wordOf?, if_neg (by simp), if_neg (by simp), if_neg (by simp)]
      show (natOf? _).map _ = _
      rw [natOf?_toDigits, Option.map_some, hneg]
    rw [hminus]
    exact reads_word (List.cons_ne_nil '-' _) (Bool.and_eq_true_iff.2 ⟨by decide, hword _⟩) hof fs
  · have hof : wordOf? (Nat.toDigits 10 i.natAbs) = some (.int i) := by
      have hpos : (i.natAbs : Int) = i := by omega
      obtain ⟨d, ds, hds⟩ := List.exists_cons_of_ne_nil (Nat.toDigits_ne_nil (n := i.natAbs) (b := 10))
      have hd : d.isDigit = true := hdigit i.natAbs d (hds ▸ List.mem_cons_self ..)
      rw [hds, wordOf?_of_isDigit hd, ← hds, natOf?_toDigits, Option.map_some, hpos]
    rw [Number.natText, String.toList_ofList]
    exact reads_word Nat.toDigits_ne_nil (hword _) hof fs

/-! ### Texts -/

/-- The units of sixteen bits that a character is written in. -/
def unitsOf (c : Char) : List Nat :=
  if c.toNat < 0x10000 then [c.toNat]
  else [0xd800 + (c.toNat - 0x10000) / 0x400, 0xdc00 + (c.toNat - 0x10000) % 0x400]

theorem charsOf?_cons {u : Nat} (h : u < 0xd800 ∨ 0xe000 ≤ u) (us : List Nat) :
    charsOf? (u :: us) = (charsOf? us).map (.ofNat u :: ·) := by
  cases us with
  | nil =>
    have hnone : ¬(0xd800 ≤ u ∧ u < 0xe000) := by omega
    simp [charsOf?, hnone]
  | cons v us => rw [charsOf?, if_neg (by omega), if_neg (by omega)]

theorem charsOf?_unitsOf (cs : List Char) : charsOf? (cs.flatMap unitsOf) = some cs := by
  induction cs with
  | nil => rfl
  | cons c cs ih =>
    have hvalid : c.toNat < 0xd800 ∨ 0xdfff < c.toNat ∧ c.toNat < 0x110000 := c.valid
    rw [List.flatMap_cons, unitsOf]
    split
    · rw [List.singleton_append, charsOf?_cons (by omega), ih, Option.map_some, Char.ofNat_toNat]
    · have hsum : 0x10000 + (0xd800 + (c.toNat - 0x10000) / 0x400 - 0xd800) * 0x400 +
          (0xdc00 + (c.toNat - 0x10000) % 0x400 - 0xdc00) = c.toNat := by omega
      rw [List.cons_append, List.singleton_append, charsOf?, if_pos (by omega), if_pos (by omega), ih,
        Option.map_some, hsum, Char.ofNat_toNat]

theorem hexValue?_hexDigit {d : Nat} (h : d < 16) : hexValue? (Text.hexDigit d) = some d := by
  have hall : ∀ d ∈ List.range 16, hexValue? (Text.hexDigit d) = some d := by decide +kernel
  exact hall d (List.mem_range.2 h)

/-- All digits of a unit but the last ones are put to those in front. -/
theorem run_hexDigits (us : List Nat) (m k n left : Nat) (cs : List Char) :
    (Lexing.unit us m (k + left)).run (Text.hexDigits k n ++ cs) =
      (Lexing.unit us (m * 16 ^ k + n % 16 ^ k) left).run cs := by
  induction k generalizing n left cs with
  | zero => simp [Text.hexDigits, Nat.mod_one]
  | succ k ih =>
    have hdigit := hexValue?_hexDigit (Nat.mod_lt n (show 0 < 16 by decide))
    have hnext : (Lexing.unit us (m * 16 ^ k + n / 16 % 16 ^ k) (left + 1)).next
        (Text.hexDigit (n % 16)) =
          some ([], .unit us ((m * 16 ^ k + n / 16 % 16 ^ k) * 16 + n % 16) left) := by
      rw [Lexing.next, hdigit]
      rfl
    have hsum : (m * 16 ^ k + n / 16 % 16 ^ k) * 16 + n % 16 =
        m * 16 ^ (k + 1) + n % 16 ^ (k + 1) := by
      rw [Nat.pow_succ', Nat.mod_mul]
      ring
    rw [Text.hexDigits, List.append_assoc, List.singleton_append, Nat.add_right_comm, Nat.add_assoc,
      ih, run_cons_nil hnext, hsum]

/-- A unit is read back from its digits. -/
theorem run_unit {n : Nat} (h : n < 0x10000) (us : List Nat) (cs : List Char) :
    (Lexing.text us).run ('\\' :: 'u' :: Text.hexDigits 4 n ++ cs) =
      (Lexing.text (us ++ [n])).run cs := by
  have hdigit := hexValue?_hexDigit (Nat.mod_lt n (show 0 < 16 by decide))
  have hnext : (Lexing.unit us (n / 16) 0).next (Text.hexDigit (n % 16)) =
      some ([], .text (us ++ [n])) := by
    rw [Lexing.next, hdigit, Option.map_some]
    simp only [Nat.div_add_mod']
  have hsum : 0 * 16 ^ 3 + n / 16 % 16 ^ 3 = n / 16 := by
    rw [Nat.zero_mul, Nat.zero_add, Nat.mod_eq_of_lt (by omega)]
  rw [List.cons_append, List.cons_append, run_cons_nil (by rfl), run_cons_nil (by rfl),
    Text.hexDigits, List.append_assoc, run_hexDigits us 0 3 (n / 16) 0, hsum,
    List.singleton_append, run_cons_nil hnext]

theorem run_escapeChar (us : List Nat) (c : Char) (cs : List Char) :
    (Lexing.text us).run (escapeChar c ++ cs) = (Lexing.text (us ++ unitsOf c)).run cs := by
  have hvalid : c.toNat < 0xd800 ∨ 0xdfff < c.toNat ∧ c.toNat < 0x110000 := c.valid
  have hescaped : ∀ d : Char, d ≠ 'u' → escaped? d = some c → c.toNat < 0x10000 →
      (Lexing.text us).run ('\\' :: d :: cs) = (Lexing.text (us ++ unitsOf c)).run cs := by
    intro d hd hc hsmall
    have hnext : (Lexing.escape us).next d = some ([], .text (us ++ unitsOf c)) := by
      rw [Lexing.next, if_neg hd, hc, unitsOf, if_pos hsmall, Option.map_some]
    rw [run_cons_nil (by rfl), run_cons_nil hnext]
  unfold escapeChar
  split_ifs with hquote hline hreturn htab hback hfeed hplain hsmall
  · rcases hquote with rfl | rfl
    · exact hescaped _ (by decide) rfl (by decide)
    · exact hescaped _ (by decide) rfl (by decide)
  · exact hescaped 'n' (by decide) (hline ▸ rfl) (hline ▸ by decide)
  · exact hescaped 'r' (by decide) (hreturn ▸ rfl) (hreturn ▸ by decide)
  · exact hescaped 't' (by decide) (htab ▸ rfl) (htab ▸ by decide)
  · exact hescaped 'b' (by decide) (hback ▸ rfl) (hback ▸ by decide)
  · exact hescaped 'f' (by decide) (hfeed ▸ rfl) (hfeed ▸ by decide)
  · have hnext : (Lexing.text us).next c = some ([], .text (us ++ unitsOf c)) := by
      rw [not_or] at hquote
      rw [Lexing.next, if_neg hquote.1, if_neg hquote.2, if_neg (by omega), unitsOf,
        if_pos (by omega)]
    exact run_cons_nil hnext cs
  · rw [unitsOf, if_pos hsmall, run_unit hsmall]
  · rw [unitsOf, if_neg hsmall, List.append_assoc, run_unit (by omega), run_unit (by omega),
      List.append_assoc, List.singleton_append]

theorem run_escapeChars (us : List Nat) (s cs : List Char) :
    (Lexing.text us).run (s.flatMap escapeChar ++ cs) =
      (Lexing.text (us ++ s.flatMap unitsOf)).run cs := by
  induction s generalizing us with
  | nil => simp
  | cons c s ih =>
    rw [List.flatMap_cons, List.flatMap_cons, List.append_assoc, run_escapeChar, ih, List.append_assoc]

/-- A text is read back from between its quotes. -/
theorem run_quoted (s : String) (cs : List Char) : Lexing.between.run ((quoted s).toList ++ cs) =
    (Lexing.between.run cs).map (.scalar (.str s) :: ·) := by
  have hend : (Lexing.text (s.toList.flatMap unitsOf)).next '"' =
      some ([.scalar (.str s)], .between) := by
    rw [Lexing.next, if_pos rfl, charsOf?_unitsOf, Option.map_some, String.ofList_toList]
  have hstart : Lexing.between.next '"' = some ([], .text []) := rfl
  rw [quoted, String.toList_ofList, List.cons_append, List.cons_append, List.append_assoc,
    run_cons_nil hstart, run_escapeChars, List.nil_append, List.singleton_append, run_cons hend]
  rfl

/-! ### Containers -/

theorem isBlank_newLine (width level : Nat) : ∀ c ∈ (newLine width level).toList, isBlank c = true := by
  intro c hc
  rw [newLine, String.toList_ofList] at hc
  rcases List.mem_cons.1 hc with rfl | hc
  · decide
  · rw [List.eq_of_mem_replicate hc]
    decide

/-- Between brackets there are parts with commas between them, and blanks. -/
theorem bracketed_eq (l : Layout) (level : Nat) (opening closing : String) {parts : List String}
    (hne : parts ≠ []) : ∃ first gap last : List Char, (∀ c ∈ first, isBlank c = true) ∧
      (∀ c ∈ gap, isBlank c = true) ∧ (∀ c ∈ last, isBlank c = true) ∧
      (bracketed l level opening closing parts).toList = opening.toList ++ (first ++
        (List.intercalate (',' :: gap) (parts.map String.toList) ++ (last ++ closing.toList))) := by
  have hsome : parts.isEmpty = false := List.isEmpty_eq_false_iff.2 hne
  unfold bracketed
  rw [hsome, if_neg (by decide)]
  cases l with
  | none =>
    refine ⟨[], [' '], [], by simp, by simp [isBlank], by simp, ?_⟩
    simp
  | some w =>
    refine ⟨_, _, _, isBlank_newLine w (level + 1), isBlank_newLine w (level + 1),
      isBlank_newLine w level, ?_⟩
    simp

/-- Brackets around parts that are read one by one. -/
theorem reads_bracketed {α : Type} {part : α → String} (before : List α → Parsing)
    (behind : List α → α → Parsing) (result : List α → Parsing) {xs : List α}
    (hpart : ∀ x ∈ xs, ∀ done, Reads (before done) (part x).toList (behind done x))
    (hcomma : ∀ done x, (behind done x).next .comma = some (before (done ++ [x])))
    {p : Parsing} {o c : Char} {b : Brackets} (ho : mark? o = some (.opening b))
    (hopen : p.next (.opening b) = some (before [])) (hc : mark? c = some (.closing b))
    (hempty : (before []).next (.closing b) = some (result []))
    (hclose : ∀ done x, (behind done x).next (.closing b) = some (result (done ++ [x])))
    (l : Layout) (level : Nat) :
    Reads p (bracketed l level (.ofList [o]) (.ofList [c]) (xs.map part)).toList (result xs) := by
  intro rest hrest
  by_cases hne : xs = []
  · rw [hne]
    show parse p ((String.ofList [o] ++ String.ofList [c]).toList ++ rest) = _
    rw [String.toList_append, String.toList_ofList, String.toList_ofList]
    show parse p (o :: c :: rest) = _
    rw [parse_mark ho hopen, parse_mark hc hempty]
  · have hsome : xs.map part ≠ [] := by simpa using hne
    obtain ⟨first, gap, last, hfirst, hgap, hlast, heq⟩ := bracketed_eq l level (.ofList [o])
      (.ofList [c]) hsome
    have hparts := parse_parts hpart hcomma hc hclose hgap hlast hne [] rest
    rw [List.nil_append] at hparts
    rw [heq, String.toList_ofList, String.toList_ofList, List.map_map]
    simp only [List.append_assoc, List.cons_append, List.nil_append]
    rw [parse_mark ho hopen, parse_blanks hfirst]
    exact hparts

theorem writeAll_eq (l : Layout) (level : Nat) (vs : List Value) :
    writeAll l level vs = vs.map (write l level) := by
  induction vs with
  | nil => rfl
  | cons v vs ih => rw [writeAll, ih, List.map_cons]

theorem writeEntries_named (l : Layout) (level : Nat) (es : List (String × Value)) :
    writeEntries l level (named es) = es.map fun e => quoted e.1 ++ ": " ++ write l level e.2 := by
  induction es with
  | nil => rfl
  | cons e es ih =>
    have htail : writeEntries l level (es.map fun e => (.str e.1, e.2)) = _ := ih
    rw [named, List.map_cons, writeEntries, htail]
    rfl

/-- What a mapping holds behind the first entries. -/
def inserted (es : List (String × Value)) : List (Value × Value) :=
  (named es).foldl (fun acc e => Value.insertEntry e.1 e.2 acc) []

theorem inserted_append (es : List (String × Value)) (e : String × Value) :
    inserted (es ++ [e]) = Value.insertEntry (.str e.1) e.2 (inserted es) := by
  rw [inserted, named, List.map_append, List.foldl_append]
  rfl

/-- An entry of a mapping is read up to its value. -/
theorem reads_entry {k : String} {v : Value} {text : String} {es : List (Value × Value)}
    {fs : List Frame}
    (h : Reads (.value (.map es k :: fs)) text.toList (.behind v (.map es k :: fs))) :
    Reads (.key es fs) (quoted k ++ ": " ++ text).toList (.behind v (.map es k :: fs)) := by
  intro rest hrest
  have hcolon : (": " : String).toList = [':', ' '] := rfl
  have hkey := parse_token (p := .key es fs) (run_quoted k (':' :: ' ' :: (text.toList ++ rest))) rfl
  rw [String.toList_append, String.toList_append, hcolon, List.append_assoc, List.append_assoc]
  refine hkey.trans ?_
  rw [parse_mark (c := ':') rfl rfl, parse_blank (by decide)]
  exact h rest hrest

/-- The text of a value is read as that value. -/
theorem reads_write {v : Value} (h : HasForm v) (l : Layout) (level : Nat) (fs : List Frame) :
    Reads (.value fs) (write l level v).toList (.behind v fs) := by
  induction h generalizing level fs with
  | null => exact reads_word (s := "null".toList) (by decide) (by decide) rfl fs
  | bool b =>
    cases b with
    | false => exact reads_word (s := "false".toList) (by decide) (by decide) rfl fs
    | true => exact reads_word (s := "true".toList) (by decide) (by decide) rfl fs
  | int i => exact reads_int i fs
  | str s => exact fun rest _ => parse_token (run_quoted s rest) rfl
  | @list vs _ ih =>
    rw [write, writeAll_eq]
    exact reads_bracketed (fun done => .value (.list done :: fs))
      (fun done v => .behind v (.list done :: fs)) (fun vs => .behind (.list vs) fs)
      (fun v hv done => ih v hv (level + 1) _) (fun _ _ => rfl) rfl rfl rfl rfl (fun _ _ => rfl) l level
  | @map es hnodup _ ih =>
    have hread : inserted es = named es := Value.foldl_insertEntry_named hnodup
    rw [write, writeEntries_named, ← hread]
    refine reads_bracketed (fun done => .key (inserted done) fs)
      (fun done e => .behind e.2 (.map (inserted done) e.1 :: fs))
      (fun es => .behind (.map (inserted es)) fs)
      (fun e he done => ?_) (fun done e => ?_) rfl rfl rfl rfl (fun done e => ?_) l level
    · exact reads_entry (ih e he (level + 1) _)
    · rw [inserted_append]
      rfl
    · rw [inserted_append]
      rfl

/-- A value is read back from its text, however that is spread, with blanks behind it. -/
theorem read?_write {v : Value} (h : HasForm v) (l : Layout) {tail : List Char}
    (htail : ∀ c ∈ tail, isBlank c = true) :
    read? (write l 0 v ++ .ofList tail) = some v := by
  have hread := reads_write h l 0 [] tail (by simpa using ends_append htail ends_nil)
  have hend := parse_blanks htail (.behind v []) []
  rw [List.append_nil] at hend
  rw [read?, String.toList_append, String.toList_ofList, hread, hend]
  rfl

/-! ### Characters -/

/-- That a character is a blank of JSON or can be printed in ASCII. -/
def IsPlain (c : Char) : Prop := isBlank c = true ∨ 0x20 ≤ c.toNat ∧ c.toNat < 0x7f

theorem isPlain_of_all {s : List Char}
    (h : s.all (fun c => 0x20 ≤ c.toNat && c.toNat < 0x7f) = true) : ∀ c ∈ s, IsPlain c := by
  intro c hc
  have hplain := List.all_eq_true.1 h c hc
  rw [Bool.and_eq_true, decide_eq_true_eq, decide_eq_true_eq] at hplain
  exact .inr hplain

theorem isPlain_hexDigits {n : Nat} : ∀ c ∈ Text.hexDigits 4 n, IsPlain c := fun c hc =>
  isPlain_of_all (s := Text.hexLetters) (by decide) c (Text.mem_hexDigits hc)

theorem isPlain_escapeChar (c : Char) : ∀ d ∈ escapeChar c, IsPlain d := by
  have hunit : ∀ n, ∀ d ∈ '\\' :: 'u' :: Text.hexDigits 4 n, IsPlain d := fun n =>
    List.forall_mem_cons.2 ⟨.inr (by decide), List.forall_mem_cons.2 ⟨.inr (by decide),
      isPlain_hexDigits⟩⟩
  unfold escapeChar
  split_ifs with hquote hline hreturn htab hback hfeed hplain hsmall
  · rcases hquote with rfl | rfl <;> exact isPlain_of_all (by decide)
  · exact isPlain_of_all (by decide)
  · exact isPlain_of_all (by decide)
  · exact isPlain_of_all (by decide)
  · exact isPlain_of_all (by decide)
  · exact isPlain_of_all (by decide)
  · intro d hd
    rw [List.mem_singleton.1 hd]
    exact .inr hplain
  · exact hunit _
  · exact List.forall_mem_append.2 ⟨hunit _, hunit _⟩

theorem isPlain_quoted (s : String) : ∀ c ∈ (quoted s).toList, IsPlain c := by
  rw [quoted, String.toList_ofList]
  refine List.forall_mem_cons.2 ⟨.inr (by decide), List.forall_mem_append.2 ⟨?_, ?_⟩⟩
  · intro c hc
    obtain ⟨d, -, hd⟩ := List.mem_flatMap.1 hc
    exact isPlain_escapeChar d c hd
  · exact isPlain_of_all (by decide)

theorem isPlain_intText (i : Int) : ∀ c ∈ (Number.intText i).toList, IsPlain c := by
  have hdigits : ∀ n : Nat, ∀ c ∈ (Number.natText n).toList, IsPlain c := by
    intro n c hc
    rw [Number.natText, String.toList_ofList] at hc
    have hdigit : c.isDigit = true := Nat.isDigit_of_mem_toDigits (by decide) (by decide) hc
    rw [Char.isDigit, Bool.and_eq_true, decide_eq_true_eq, decide_eq_true_eq] at hdigit
    have hleast : 48 ≤ c.toNat := hdigit.1
    have hmost : c.toNat ≤ 57 := hdigit.2
    exact .inr ⟨by omega, by omega⟩
  rw [Number.intText]
  split
  · rw [String.toList_append]
    exact List.forall_mem_append.2 ⟨isPlain_of_all (by decide), hdigits _⟩
  · exact hdigits _

theorem isPlain_bracketed {l : Layout} {level : Nat} {opening closing : String} {parts : List String}
    (hopening : ∀ c ∈ opening.toList, IsPlain c) (hclosing : ∀ c ∈ closing.toList, IsPlain c)
    (hparts : ∀ p ∈ parts, ∀ c ∈ p.toList, IsPlain c) :
    ∀ c ∈ (bracketed l level opening closing parts).toList, IsPlain c := by
  by_cases hne : parts = []
  · rw [hne]
    show ∀ c ∈ (opening ++ closing).toList, IsPlain c
    rw [String.toList_append]
    exact List.forall_mem_append.2 ⟨hopening, hclosing⟩
  · obtain ⟨first, gap, last, hfirst, hgap, hlast, heq⟩ := bracketed_eq l level opening closing hne
    have hblanks : ∀ {bs : List Char}, (∀ c ∈ bs, isBlank c = true) → ∀ c ∈ bs, IsPlain c :=
      fun h c hc => .inl (h c hc)
    have hbetween : ∀ c ∈ List.intercalate (',' :: gap) (parts.map String.toList), IsPlain c := by
      refine Text.forall_mem_intercalate (List.forall_mem_cons.2 ⟨.inr (by decide), hblanks hgap⟩) ?_
      intro p hp
      obtain ⟨q, hq, rfl⟩ := List.mem_map.1 hp
      exact hparts q hq
    rw [heq]
    exact List.forall_mem_append.2 ⟨hopening, List.forall_mem_append.2 ⟨hblanks hfirst,
      List.forall_mem_append.2 ⟨hbetween, List.forall_mem_append.2 ⟨hblanks hlast, hclosing⟩⟩⟩⟩

/-- What is written is ASCII, and has no control characters but blanks. -/
theorem isPlain_write {v : Value} (h : HasForm v) (l : Layout) (level : Nat) :
    ∀ c ∈ (write l level v).toList, IsPlain c := by
  induction h generalizing level with
  | null => exact isPlain_of_all (s := "null".toList) (by decide)
  | bool b =>
    cases b with
    | false => exact isPlain_of_all (s := "false".toList) (by decide)
    | true => exact isPlain_of_all (s := "true".toList) (by decide)
  | int i => exact isPlain_intText i
  | str s => exact isPlain_quoted s
  | @list vs _ ih =>
    rw [write, writeAll_eq]
    refine isPlain_bracketed (isPlain_of_all (by decide)) (isPlain_of_all (by decide)) ?_
    intro p hp
    obtain ⟨v, hv, rfl⟩ := List.mem_map.1 hp
    exact ih v hv _
  | @map es _ _ ih =>
    rw [write, writeEntries_named]
    refine isPlain_bracketed (isPlain_of_all (by decide)) (isPlain_of_all (by decide)) ?_
    intro p hp
    obtain ⟨e, he, rfl⟩ := List.mem_map.1 hp
    rw [String.toList_append, String.toList_append]
    exact List.forall_mem_append.2 ⟨List.forall_mem_append.2 ⟨isPlain_quoted e.1,
      isPlain_of_all (by decide)⟩, ih e he _⟩

end DocTree.Json
