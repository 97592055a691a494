import Mathlib
import DocTree.Proofs.Except
import DocTree.Yaml.Lexeme

/-!
# Texts in single quotes

A text of one line in single quotes, the quotes in it written twice, is read as that text
(`quotedScalar_singleQuoted`). A quoted scalar is read in turns, up to a space and over the spaces, so
what one turn reads is told by how the text begins.
-/

namespace DocTree.Yaml

/-- The text with each single quote written twice. -/
def doubled (s : List Char) : List Char :=
  s.flatMap fun c => if c = '\'' then ['\'', '\''] else [c]

def singleQuoted (s : List Char) : List Char := '\'' :: (doubled s ++ ['\''])

/-- Whether a text holds no line end. -/
def isOneLine (s : List Char) : Bool := s.all (!isLineEnd ·)

/-- The place behind a text of one line. A byte order mark takes no column. -/
def Mark.behind (m : Mark) (s : List Char) : Mark :=
  ⟨m.index + s.length, m.line, m.column + s.countP (· != '\ufeff')⟩

section
variable {c : Char} {s t : List Char}

theorem doubled_cons (c : Char) (s : List Char) :
    doubled (c :: s) = (if c = '\'' then ['\'', '\''] else [c]) ++ doubled s := rfl

theorem doubled_append (s t : List Char) : doubled (s ++ t) = doubled s ++ doubled t :=
  List.flatMap_append

theorem doubled_cons_eq (c : Char) (s : List Char) : doubled (c :: s) = doubled [c] ++ doubled s :=
  doubled_append [c] s

theorem doubled_singleton_of_ne (h : c ≠ '\'') : doubled [c] = [c] := by
  rw [doubled_cons, if_neg h]
  rfl

theorem doubled_cons_of_ne (h : c ≠ '\'') (s : List Char) : doubled (c :: s) = c :: doubled s := by
  rw [doubled_cons_eq, doubled_singleton_of_ne h]
  rfl

theorem length_le_length_doubled (s : List Char) : s.length ≤ (doubled s).length := by
  induction s with
  | nil => exact Nat.le_refl 0
  | cons c s ih =>
    rw [doubled_cons, List.length_append, List.length_cons]
    split <;> simp only [List.length_cons, List.length_nil] <;> omega

theorem isOneLine_cons : isOneLine (c :: s) = true ↔ isLineEnd c = false ∧ isOneLine s = true := by
  simp [isOneLine]

theorem isOneLine_append : isOneLine (s ++ t) = true ↔ isOneLine s = true ∧ isOneLine t = true := by
  simp [isOneLine]

/-- What all characters of a text have, and a quote has, all have when it is in quotes. -/
theorem all_doubled {p : Char → Bool} (hq : p '\'' = true) (h : s.all p = true) :
    (doubled s).all p = true := by
  induction s with
  | nil => rfl
  | cons c s ih =>
    rw [List.all_cons, Bool.and_eq_true] at h
    rw [doubled_cons, List.all_append, ih h.2, Bool.and_true]
    split
    · simp [hq]
    · simp [h.1]

theorem all_singleQuoted {p : Char → Bool} (hq : p '\'' = true) (h : s.all p = true) :
    (singleQuoted s).all p = true := by
  simp [singleQuoted, hq, all_doubled hq h]

theorem isOneLine_dropWhile (p : Char → Bool) (h : isOneLine s = true) :
    isOneLine (s.dropWhile p) = true :=
  (isOneLine_append.1 ((List.takeWhile_append_dropWhile (p := p) (l := s)).symm ▸ h)).2

theorem isOneLine_takeWhile (p : Char → Bool) (h : isOneLine s = true) :
    isOneLine (s.takeWhile p) = true :=
  (isOneLine_append.1 ((List.takeWhile_append_dropWhile (p := p) (l := s)).symm ▸ h)).1

theorem doubled_of_not_mem (h : '\'' ∉ s) : doubled s = s := by
  induction s with
  | nil => rfl
  | cons c s ih =>
    rw [List.mem_cons, not_or] at h
    rw [doubled_cons_of_ne (Ne.symm h.1), ih h.2]

end

/-! ### Places -/

namespace Mark

theorem behind_append (m : Mark) (s t : List Char) : m.behind (s ++ t) = (m.behind s).behind t := by
  simp only [behind, List.length_append, List.countP_append, Nat.add_assoc]

theorem behind_cons (m : Mark) (c : Char) (s : List Char) :
    m.behind (c :: s) = (m.behind [c]).behind s :=
  behind_append m [c] s

end Mark

namespace Cursor
variable {c : Char} {s : List Char}

theorem next_cons (h : isLineEnd c = false) (rest : List Char) (m : Mark) :
    (⟨c :: rest, m⟩ : Cursor).next = ⟨rest, m.behind [c]⟩ := by
  have hbreak : isBreak c = false := by
    rw [isLineEnd, Bool.or_eq_false_iff] at h
    exact h.2
  show (⟨rest, markAfter m c rest⟩ : Cursor) = _
  rw [markAfter, hbreak, Bool.false_and, if_neg (by decide), Mark.behind]
  by_cases hc : c = '\ufeff' <;> simp [hc]

theorem skip_append (h : isOneLine s = true) (rest : List Char) (m : Mark) :
    (⟨s ++ rest, m⟩ : Cursor).skip s.length = ⟨rest, m.behind s⟩ := by
  induction s generalizing m with
  | nil => rfl
  | cons c s ih =>
    obtain ⟨hc, hs⟩ := isOneLine_cons.1 h
    rw [List.cons_append, List.length_cons, skip, next_cons hc, ih hs, ← Mark.behind_cons]

end Cursor

/-! ### Reading in turns -/

namespace Lexeme
open Text (CodePoint)

variable {c : Char} {s : List Char}

def isSpace (c : Char) : Bool := c == ' ' || c == '\t'

theorem isGap_eq_isSpace (h : isLineEnd c = false) : isGap c = isSpace c := by
  rw [isGap, isSpaceOrEnd, h, Bool.or_false, isSpace, Bool.or_comm]

theorem doubled_takeWhile (s : List Char) :
    doubled (s.takeWhile isSpace) = s.takeWhile isSpace :=
  doubled_of_not_mem fun h => absurd (List.mem_takeWhile_imp h) (by decide)

theorem doubled_eq_takeWhile (s : List Char) :
    doubled s = s.takeWhile isSpace ++ doubled (s.dropWhile isSpace) := by
  rw [← doubled_takeWhile, ← doubled_append, List.takeWhile_append_dropWhile]

/-- A character that ends no run of text in quotes. -/
def isQuotable (c : Char) : Bool := !isGap c && c != '\'' && c != '"' && c != '\\'

/-- A character that means nothing in quotes is put in front of what follows it. -/
theorem quotedText_cons (hend : isLineEnd c = false) (hc : isQuotable c = true) (start : Mark)
    (rest : List Char) (m : Mark) (fuel : Nat) :
    quotedText false start ⟨c :: rest, m⟩ (fuel + 1) =
      (quotedText false start ⟨rest, m.behind [c]⟩ (fuel + 1)).map fun r =>
        (.char c :: r.1, r.2) := by
  have hrun : (⟨c :: rest, m⟩ : Cursor).run isQuotable =
      c :: (⟨rest, m.behind [c]⟩ : Cursor).run isQuotable := List.takeWhile_cons_of_pos hc
  have hskip (n : Nat) : (⟨c :: rest, m⟩ : Cursor).skip (n + 1) =
      (⟨rest, m.behind [c]⟩ : Cursor).skip n := by
    rw [Cursor.skip, Cursor.next_cons hend]
  have hfun : (fun ch => !isGap ch && ch != '\'' && ch != '"' && ch != '\\') = isQuotable := rfl
  simp only [quotedText, hfun, hrun, List.length_cons, hskip]
  generalize (⟨rest, m.behind [c]⟩ : Cursor).run isQuotable = plain
  split
  · cases quotedText false start _ fuel <;> rfl
  · split
    · cases quotedText false start _ fuel <;> rfl
    · rfl

/-- What else may stand in quotes is read by itself. -/
theorem quotedText_special (hend : isLineEnd c = false) (hspace : isSpace c = false)
    (hc : isQuotable c = false) (start : Mark) (rest : List Char) (m : Mark) (fuel : Nat) :
    quotedText false start ⟨doubled [c] ++ rest, m⟩ (fuel + 1) =
      (quotedText false start ⟨rest, m.behind (doubled [c])⟩ fuel).map fun r =>
        (.char c :: r.1, r.2) := by
  have hcases : c = '\'' ∨ c = '"' ∨ c = '\\' := by
    rw [isQuotable, isGap_eq_isSpace hend, hspace] at hc
    by_contra h
    simp only [not_or] at h
    simp [h.1, h.2.1, h.2.2] at hc
  rcases hcases with rfl | rfl | rfl
  · have hskip : (⟨'\'' :: '\'' :: rest, m⟩ : Cursor).skip 2 =
        ⟨rest, m.behind (doubled ['\''])⟩ :=
      Cursor.skip_append (s := ['\'', '\'']) (by decide) rest m
    show (quotedText false start ((⟨'\'' :: '\'' :: rest, m⟩ : Cursor).skip 2) fuel >>= fun r =>
      .ok (.char '\'' :: r.1, r.2)) = _
    rw [hskip]
    cases quotedText false start _ fuel <;> rfl
  · show (quotedText false start (⟨'"' :: rest, m⟩ : Cursor).next fuel >>= fun r =>
      .ok (.char '"' :: r.1, r.2)) = _
    rw [Cursor.next_cons (by decide), doubled_singleton_of_ne (by decide)]
    cases quotedText false start _ fuel <;> rfl
  · show (quotedText false start (⟨'\\' :: rest, m⟩ : Cursor).next fuel >>= fun r =>
      .ok (.char '\\' :: r.1, r.2)) = _
    rw [Cursor.next_cons (by decide), doubled_singleton_of_ne (by decide)]
    cases quotedText false start _ fuel <;> rfl

/-- A turn of text ends at a space. -/
theorem quotedText_space (hc : isSpace c = true) (start : Mark) (rest : List Char) (m : Mark)
    (fuel : Nat) : quotedText false start ⟨c :: rest, m⟩ (fuel + 1) = .ok ([], ⟨c :: rest, m⟩) := by
  have hcases : c = ' ' ∨ c = '\t' := by simpa [isSpace] using hc
  rcases hcases with rfl | rfl <;> rfl

/-- A turn of text ends at a quote that is not doubled. -/
theorem quotedText_quote {rest : List Char} (h : rest.head? ≠ some '\'') (start m : Mark)
    (fuel : Nat) :
    quotedText false start ⟨'\'' :: rest, m⟩ (fuel + 1) = .ok ([], ⟨'\'' :: rest, m⟩) := by
  have hpeek : ((⟨'\'' :: rest, m⟩ : Cursor).peekAt 1 == '\'') = false := by
    cases rest with
    | nil => rfl
    | cons d rest => simpa [Cursor.peekAt] using h
  have hrun : (⟨'\'' :: rest, m⟩ : Cursor).run isQuotable = [] := rfl
  have hfun : (fun ch => !isGap ch && ch != '\'' && ch != '"' && ch != '\\') = isQuotable := rfl
  simp only [quotedText, hfun, hrun, List.length_nil, Cursor.skip, hpeek, Bool.and_false]
  rfl

/-- A turn of text reads up to the first space. -/
theorem quotedText_doubled {rest : List Char} (hs : isOneLine s = true)
    (hrest : rest.head? ≠ some '\'') {fuel : Nat} (hfuel : s.length < fuel) (start m : Mark) :
    quotedText false start ⟨doubled s ++ '\'' :: rest, m⟩ fuel =
      .ok ((s.takeWhile (!isSpace ·)).map .char, ⟨doubled (s.dropWhile (!isSpace ·)) ++ '\'' :: rest,
        m.behind (doubled (s.takeWhile (!isSpace ·)))⟩) := by
  induction s generalizing m fuel with
  | nil =>
    obtain ⟨fuel, rfl⟩ := Nat.exists_eq_add_one.2 hfuel
    exact quotedText_quote hrest start m fuel
  | cons c s ih =>
    obtain ⟨hc, hs⟩ := isOneLine_cons.1 hs
    rw [List.length_cons] at hfuel
    obtain ⟨fuel, rfl⟩ := Nat.exists_eq_add_one.2 (Nat.zero_lt_of_lt hfuel)
    cases hspace : isSpace c with
    | true =>
      have hne : c ≠ '\'' := by
        rintro rfl
        cases hspace
      rw [List.takeWhile_cons_of_neg (by simp [hspace]), List.dropWhile_cons_of_neg (by simp [hspace]),
        doubled_cons_of_ne hne, List.cons_append, quotedText_space hspace]
      rfl
    | false =>
      have htake : (c :: s).takeWhile (!isSpace ·) = c :: s.takeWhile (!isSpace ·) :=
        List.takeWhile_cons_of_pos (by simp [hspace])
      have hdrop : (c :: s).dropWhile (!isSpace ·) = s.dropWhile (!isSpace ·) :=
        List.dropWhile_cons_of_pos (by simp [hspace])
      rw [htake, hdrop, doubled_cons_eq c s, doubled_cons_eq c (s.takeWhile _),
        List.append_assoc, Mark.behind_append]
      cases hq : isQuotable c with
      | true =>
        have hne : c ≠ '\'' := by
          rintro rfl
          cases hq
        rw [doubled_singleton_of_ne hne, List.singleton_append, quotedText_cons hc hq, ih hs (by omega)]
        rfl
      | false =>
        rw [quotedText_special hc hspace hq, ih hs (by omega)]
        rfl

/-- Behind white space in quotes stands a character that is none, or the closing quote. -/
theorem exists_behind_spaces (hs : isOneLine s = true) (rest : List Char) :
    ∃ c tail, doubled (s.dropWhile isSpace) ++ '\'' :: rest = c :: tail ∧ isLineEnd c = false ∧
      isSpace c = false := by
  cases hd : s.dropWhile isSpace with
  | nil => exact ⟨'\'', rest, rfl, rfl, rfl⟩
  | cons c d =>
    have hend := isOneLine_dropWhile isSpace hs
    have hspace := List.head?_dropWhile_not isSpace s
    rw [hd] at hend hspace
    rw [doubled_cons]
    split
    · exact ⟨'\'', _, rfl, rfl, rfl⟩
    · exact ⟨c, _, rfl, (isOneLine_cons.1 hend).1, hspace⟩

/-- White space in quotes is read up to what follows it. -/
theorem quotedSpaces_doubled (hs : isOneLine s = true) (rest : List Char) (start m : Mark) :
    quotedSpaces start ⟨doubled s ++ '\'' :: rest, m⟩ =
      .ok (s.takeWhile isSpace, ⟨doubled (s.dropWhile isSpace) ++ '\'' :: rest,
        m.behind (s.takeWhile isSpace)⟩) := by
  obtain ⟨c, tail, htail, hend, hspace⟩ := exists_behind_spaces hs rest
  have hrun : (⟨doubled s ++ '\'' :: rest, m⟩ : Cursor).run isSpace = s.takeWhile isSpace := by
    rw [doubled_eq_takeWhile, List.append_assoc, htail, Cursor.run,
      List.takeWhile_append_of_pos fun c hc => List.mem_takeWhile_imp hc,
      List.takeWhile_cons_of_neg (by simp [hspace]), List.append_nil]
  have hskip : (⟨doubled s ++ '\'' :: rest, m⟩ : Cursor).skip (s.takeWhile isSpace).length =
      ⟨c :: tail, m.behind (s.takeWhile isSpace)⟩ := by
    rw [doubled_eq_takeWhile, List.append_assoc, htail]
    exact Cursor.skip_append (isOneLine_takeWhile isSpace hs) _ m
  have hfun : (fun ch => ch == ' ' || ch == '\t') = isSpace := rfl
  rw [isLineEnd, Bool.or_eq_false_iff, beq_eq_false_iff_ne] at hend
  simp only [quotedSpaces, hfun, hrun, hskip, htail]
  simp [Cursor.peek, hend.1, hend.2]

theorem isSpace_of_head?_dropWhile (s : List Char) :
    ∀ c ∈ (s.dropWhile (!isSpace ·)).head?, isSpace c = true := by
  intro c hc
  have h := List.head?_dropWhile_not (!isSpace ·) s
  rw [hc] at h
  simpa using h

/-- Each turn has as much fuel as there are characters left. -/
theorem length_lt_quotedFuel (rest s : List Char) :
    s.length < (doubled s ++ '\'' :: rest).length.succ := by
  have h := length_le_length_doubled s
  rw [List.length_append]
  omega

/-- What one turn of white space and text reads of a text. -/
def turn (s : List Char) : List Char :=
  s.takeWhile isSpace ++ (s.dropWhile isSpace).takeWhile (!isSpace ·)

/-- What one turn leaves of a text. -/
def behindTurn (s : List Char) : List Char := (s.dropWhile isSpace).dropWhile (!isSpace ·)

theorem turn_append_behindTurn (s : List Char) : turn s ++ behindTurn s = s := by
  rw [turn, behindTurn, List.append_assoc, List.takeWhile_append_dropWhile,
    List.takeWhile_append_dropWhile]

theorem isOneLine_behindTurn (hs : isOneLine s = true) : isOneLine (behindTurn s) = true :=
  isOneLine_dropWhile _ (isOneLine_dropWhile _ hs)

theorem length_behindTurn_le (hc : isSpace c = true) : (behindTurn (c :: s)).length ≤ s.length := by
  rw [behindTurn, List.dropWhile_cons_of_pos hc]
  exact Nat.le_trans (List.length_dropWhile_le ..) (List.length_dropWhile_le ..)

/-- One turn reads white space and the text behind it, and leaves the rest to the next ones. -/
theorem quotedRest_turn {rest : List Char} (hs : isOneLine (c :: s) = true) (hc : isSpace c = true)
    (hrest : rest.head? ≠ some '\'') {start m : Mark} {fuel : Nat} {r : List CodePoint × Cursor}
    (h : quotedRest false start ⟨doubled (behindTurn (c :: s)) ++ '\'' :: rest,
      m.behind (doubled (turn (c :: s)))⟩ fuel = .ok r) :
    quotedRest false start ⟨doubled (c :: s) ++ '\'' :: rest, m⟩ (fuel + 1) =
      .ok ((turn (c :: s)).map .char ++ r.1, r.2) := by
  have hpeek : ((⟨doubled (c :: s) ++ '\'' :: rest, m⟩ : Cursor).peek == '\'') = false := by
    have hne : c ≠ '\'' := by
      rintro rfl
      cases hc
    rw [doubled_cons_of_ne hne]
    exact beq_eq_false_iff_ne.2 hne
  have hspaces := quotedSpaces_doubled hs rest start m
  have htext := quotedText_doubled (isOneLine_dropWhile isSpace hs) hrest (length_lt_quotedFuel rest _)
    start (m.behind ((c :: s).takeWhile isSpace))
  rw [turn, doubled_append, Mark.behind_append, doubled_takeWhile] at h
  rw [quotedRest, if_neg (by simp [hpeek]), turn, List.map_append]
  exact bind_eq_ok.2 ⟨_, hspaces, bind_eq_ok.2 ⟨_, htext, bind_eq_ok.2 ⟨r, h, rfl⟩⟩⟩

/-- Turns of white space and text read up to the closing quote. -/
theorem quotedRest_doubled {rest : List Char} (hs : isOneLine s = true)
    (hspace : ∀ c ∈ s.head?, isSpace c = true) (hrest : rest.head? ≠ some '\'') {fuel : Nat}
    (hfuel : s.length < fuel) (start m : Mark) :
    quotedRest false start ⟨doubled s ++ '\'' :: rest, m⟩ fuel =
      .ok (s.map .char, ⟨'\'' :: rest, m.behind (doubled s)⟩) := by
  induction fuel generalizing s m with
  | zero => exact absurd hfuel (Nat.not_lt_zero _)
  | succ fuel ih =>
    rcases s with _ | ⟨c, s⟩
    · rfl
    · have hc : isSpace c = true := hspace c rfl
      have hlength : (behindTurn (c :: s)).length < fuel := by
        have hle := length_behindTurn_le (s := s) hc
        rw [List.length_cons] at hfuel
        omega
      have hleft := ih (isOneLine_behindTurn hs) (isSpace_of_head?_dropWhile _) hlength
        (m.behind (doubled (turn (c :: s))))
      rw [quotedRest_turn hs hc hrest hleft, ← Mark.behind_append, ← doubled_append, ← List.map_append,
        turn_append_behindTurn]

/-- A text of one line in single quotes is read as that text. -/
theorem quotedScalar_singleQuoted {rest : List Char} (hs : isOneLine s = true)
    (hrest : rest.head? ≠ some '\'') (m : Mark) :
    quotedScalar false ⟨singleQuoted s ++ rest, m⟩ =
      .ok (s.map .char, ⟨rest, m.behind (singleQuoted s)⟩) := by
  have hfuel := length_lt_quotedFuel rest
  have hstart : (⟨singleQuoted s ++ rest, m⟩ : Cursor).next =
      ⟨doubled s ++ '\'' :: rest, m.behind ['\'']⟩ := by
    rw [singleQuoted, List.cons_append, List.append_assoc, Cursor.next_cons (by decide)]
    rfl
  have hmark : m.behind (singleQuoted s) = (((m.behind ['\'']).behind
      (doubled (s.takeWhile (!isSpace ·)))).behind (doubled (s.dropWhile (!isSpace ·)))).behind
        ['\''] := by
    have hdouble : doubled s =
        doubled (s.takeWhile (!isSpace ·)) ++ doubled (s.dropWhile (!isSpace ·)) := by
      rw [← doubled_append, List.takeWhile_append_dropWhile]
    rw [singleQuoted, hdouble, Mark.behind_cons, Mark.behind_append, Mark.behind_append]
  have htext := quotedText_doubled hs hrest (hfuel s) m (m.behind ['\''])
  have hleft := quotedRest_doubled (isOneLine_dropWhile (!isSpace ·) hs) (isSpace_of_head?_dropWhile s)
    hrest (hfuel (s.dropWhile (!isSpace ·))) m
    ((m.behind ['\'']).behind (doubled (s.takeWhile (!isSpace ·))))
  rw [quotedScalar, hstart, hmark]
  refine bind_eq_ok.2 ⟨_, htext, bind_eq_ok.2 ⟨_, hleft, ?_⟩⟩
  show Except.ok ((s.takeWhile (!isSpace ·)).map CodePoint.char ++
    (s.dropWhile (!isSpace ·)).map CodePoint.char, _) = _
  rw [← List.map_append, List.takeWhile_append_dropWhile, Cursor.next_cons (by decide)]

end Lexeme
end DocTree.Yaml
