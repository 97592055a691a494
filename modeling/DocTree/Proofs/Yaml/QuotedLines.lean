import Mathlib
import DocTree.Proofs.Yaml.Mapping
import DocTree.Proofs.Yaml.Quoted

/-!
# Mappings written with quotes

Lines with key and value in single quotes are read as a mapping of these texts
(`textEntries?_lines`). The text is followed through the lexer, the grammar and the builder of nodes.
Each of them takes in a line and is then as it was before the line, so what it gives for a line is told
with anything behind it.
-/

namespace DocTree.Yaml

/-- A line of a block mapping, key and value in single quotes. -/
def quotedLine (p : String × String) : List Char :=
  singleQuoted p.1.toList ++ ':' :: ' ' :: singleQuoted p.2.toList

/-- Lines behind a first one. -/
def furtherLines (ps : List (String × String)) : List Char :=
  ps.flatMap fun p => '\n' :: quotedLine p

/-- A pair whose texts are of one line each, the key short enough to be one. -/
structure IsLine (p : String × String) : Prop where
  key : isOneLine p.1.toList = true
  value : isOneLine p.2.toList = true
  short : (singleQuoted p.1.toList).length ≤ 1024

theorem all_quotedLine {f : Char → Bool} {p : String × String} (hq : f '\'' = true)
    (hc : f ':' = true) (hs : f ' ' = true) (hk : p.1.toList.all f = true)
    (hv : p.2.toList.all f = true) : (quotedLine p).all f = true := by
  rw [quotedLine, List.all_append, List.all_cons, List.all_cons, hc, hs, all_singleQuoted hq hk,
    all_singleQuoted hq hv]
  rfl

theorem head?_furtherLines (ps : List (String × String)) :
    (furtherLines ps).head? ≠ some '\'' := by
  cases ps <;> simp [furtherLines]

theorem length_le_length_furtherLines (ps : List (String × String)) :
    2 * ps.length ≤ (furtherLines ps).length := by
  induction ps with
  | nil => exact Nat.le_refl 0
  | cons p ps ih =>
    have hline : 1 ≤ (quotedLine p).length := by
      rw [quotedLine, List.length_append, List.length_cons]
      omega
    have hcons : furtherLines (p :: ps) = '\n' :: (quotedLine p ++ furtherLines ps) := rfl
    rw [hcons, List.length_cons, List.length_cons, List.length_append]
    omega

theorem exists_quotedLine_append_eq (p : String × String) (rest : List Char) :
    ∃ s, quotedLine p ++ rest = '\'' :: s := ⟨_, rfl⟩

namespace Lexer

/-- The indentation in front of the mapping or in it. -/
def indentOf (inMap : Bool) : Int := if inMap then 0 else -1

/-- The lexer outside of flow collections, in front of the mapping or in it. Without candidates. -/
def plain (inMap allowed : Bool) (c : Cursor) (queue : List Token) (taken : Nat) : Lexer :=
  ⟨c, 0, indentOf inMap, if inMap then [-1] else [], allowed, [], queue, taken, false⟩

/-- The lexer behind a scalar that may be a key. -/
def behindKey (inMap : Bool) (c : Cursor) (t : Token) (taken : Nat) : Lexer :=
  { plain inMap false c [t] taken with
    keys := [(0, ⟨taken, inMap && t.start.column == 0, t.start⟩)] }

theorem settle_plain (inMap allowed : Bool) (c : Cursor) (t : Token) (ts : List Token)
    (taken fuel : Nat) : (plain inMap allowed c (t :: ts) taken).settle (fuel + 1) =
      .ok (plain inMap allowed c (t :: ts) taken) := rfl

theorem unwindTo_of_le {lx : Lexer} {n : Nat} (h : lx.indent ≤ n) : lx.unwindTo n = lx := by
  unfold unwindTo
  split
  · cases lx.indents with
    | nil => rfl
    | cons outer rest => rw [unwind, if_pos h]
  · rfl

theorem indentOf_le (inMap : Bool) (n : Nat) : indentOf inMap ≤ n := by
  cases inMap
  · show (-1 : Int) ≤ n
    omega
  · show (0 : Int) ≤ n
    omega

def readQuoted (c : Cursor) : Except Error (TokenKind × Cursor) := do
  let (us, c) ← Lexeme.quotedScalar false c
  return (.quoted us, c)

theorem fetch_quote {lx : Lexer} {inMap allowed : Bool} {s : List Char} {m : Mark} {taken : Nat}
    (hbom : lx.at'.peek ≠ '\ufeff')
    (h : lx.toNextToken lx.at'.rest.length.succ = plain inMap allowed ⟨'\'' :: s, m⟩ [] taken) :
    lx.fetch = (plain inMap allowed ⟨'\'' :: s, m⟩ [] taken).node readQuoted := by
  have hpeek : (lx.at'.peek == '\ufeff') = false := beq_eq_false_iff_ne.2 hbom
  obtain ⟨lx', hlx'⟩ : ∃ lx', lx' = plain inMap allowed ⟨'\'' :: s, m⟩ [] taken := ⟨_, rfl⟩
  rw [← hlx'] at h
  have hstale : lx'.dropStale = .ok lx' := hlx' ▸ rfl
  have hunwind : lx'.unwindTo lx'.at'.mark.column = lx' :=
    unwindTo_of_le (hlx' ▸ indentOf_le inMap _)
  simp only [fetch, hpeek, Bool.and_false, Bool.false_eq_true, if_false, h, hstale, bind, Except.bind,
    hunwind]
  rw [hlx']
  rfl

/-- The tokens in front of a key at `m`. Only the first key starts the mapping. -/
def keyTokens (inMap : Bool) (m : Mark) : List Token :=
  (if inMap then [] else [⟨.blockMappingStart, m, m⟩]) ++ [⟨.key, m, m⟩]

theorem dropStale_behindKey {inMap : Bool} {c : Cursor} {t : Token} {taken : Nat}
    (hline : t.start.line = c.mark.line) (hindex : c.mark.index ≤ t.start.index + 1024) :
    (behindKey inMap c t taken).dropStale = .ok (behindKey inMap c t taken) := by
  have hfar : ¬ 1024 < c.mark.index - t.start.index := by omega
  simp [dropStale, behindKey, plain, hline, hfar]
  rfl

/-- The mark of a value makes the candidate a key. -/
theorem fetch_value {inMap : Bool} {s : List Char} {m : Mark} {t : Token} {taken : Nat}
    (hline : t.start.line = m.line) (hindex : m.index ≤ t.start.index + 1024)
    (hcolumn : t.start.column = 0) :
    (behindKey inMap ⟨':' :: ' ' :: s, m⟩ t taken).fetch =
      .ok (plain true false ⟨' ' :: s, m.behind [':']⟩
        (keyTokens inMap t.start ++ [t, ⟨.value, m, m.behind [':']⟩]) taken) := by
  obtain ⟨lx, hlx⟩ : ∃ lx, lx = behindKey inMap ⟨':' :: ' ' :: s, m⟩ t taken := ⟨_, rfl⟩
  have hpeek : (lx.at'.peek == '\ufeff') = false := hlx ▸ rfl
  have hnext (fuel : Nat) : lx.toNextToken (fuel + 1) = lx := hlx ▸ rfl
  have hstale : lx.dropStale = .ok lx := hlx ▸ dropStale_behindKey hline hindex
  have hunwind : lx.unwindTo lx.at'.mark.column = lx :=
    unwindTo_of_le (hlx ▸ indentOf_le inMap _)
  have hfetch : lx.fetch = lx.mappingValue := by
    simp only [fetch, hpeek, Bool.and_false, Bool.false_eq_true, if_false, Nat.succ_eq_add_one,
      hnext, hstale, bind, Except.bind, hunwind]
    rw [hlx]
    obtain ⟨index, line, column⟩ := m
    cases column <;> rfl
  rw [← hlx, hfetch, hlx]
  cases inMap <;> simp [mappingValue, behindKey, plain, insertAt, addIndent?, hcolumn, indentOf] <;>
    rfl

/-- Behind the last line the mapping ends. -/
theorem fetch_end (m : Mark) (taken : Nat) : (plain true false ⟨[], m⟩ [] taken).fetch =
    .ok { plain false false ⟨[], m⟩ [⟨.blockEnd, m, m⟩, ⟨.streamEnd, m, m⟩] taken with
      done := true } := by
  obtain ⟨lx, hlx⟩ : ∃ lx, lx = plain true false ⟨[], m⟩ [] taken := ⟨_, rfl⟩
  have hpeek : (lx.at'.peek == '\ufeff') = false := hlx ▸ rfl
  have hnext (fuel : Nat) : lx.toNextToken (fuel + 1) = lx := hlx ▸ rfl
  have hstale : lx.dropStale = .ok lx := hlx ▸ rfl
  have hunwind : lx.unwindTo lx.at'.mark.column = lx :=
    unwindTo_of_le (hlx ▸ indentOf_le true _)
  rw [← hlx]
  simp only [fetch, hpeek, Bool.and_false, Bool.false_eq_true, if_false, Nat.succ_eq_add_one, hnext,
    hstale, bind, Except.bind, hunwind]
  rw [hlx]
  rfl

/-! ### Single tokens -/

section
variable {inMap : Bool} {s rest : List Char} {m : Mark} {taken fuel : Nat}

theorem readQuoted_singleQuoted (hs : isOneLine s = true) (hrest : rest.head? ≠ some '\'')
    (m : Mark) : readQuoted ⟨singleQuoted s ++ rest, m⟩ =
      .ok (.scalar (.ofList s) false, ⟨rest, m.behind (singleQuoted s)⟩) := by
  rw [readQuoted, Lexeme.quotedScalar_singleQuoted hs hrest]
  show Except.ok (TokenKind.quoted (s.map .char), _) = _
  rw [TokenKind.quoted, Text.characters?_map_char]

/-- A text in quotes that begins a line is a candidate for a key. -/
theorem node_key (hs : isOneLine s = true) (hrest : rest.head? ≠ some '\'')
    (hcolumn : m.column = 0) :
    (plain inMap true ⟨singleQuoted s ++ rest, m⟩ [] taken).node readQuoted =
      .ok (behindKey inMap ⟨rest, m.behind (singleQuoted s)⟩
        ⟨.scalar (.ofList s) false, m, m.behind (singleQuoted s)⟩ taken) := by
  cases inMap <;>
    simp [node, saveKey, dropKey, behindKey, plain, indentOf, readQuoted_singleQuoted hs hrest,
      hcolumn, push, bind, Except.bind, pure, Except.pure]

/-- Behind a value mark a text in quotes is no candidate. -/
theorem node_value (hs : isOneLine s = true) (hrest : rest.head? ≠ some '\'') :
    (plain inMap false ⟨singleQuoted s ++ rest, m⟩ [] taken).node readQuoted =
      .ok (plain inMap false ⟨rest, m.behind (singleQuoted s)⟩
        [⟨.scalar (.ofList s) false, m, m.behind (singleQuoted s)⟩] taken) := by
  have hsave : (plain inMap false ⟨singleQuoted s ++ rest, m⟩ [] taken).saveKey =
      .ok (plain inMap false ⟨singleQuoted s ++ rest, m⟩ [] taken) := rfl
  simp only [node, hsave, bind, Except.bind]
  rw [show (plain inMap false ⟨singleQuoted s ++ rest, m⟩ [] taken).at' =
    ⟨singleQuoted s ++ rest, m⟩ from rfl, readQuoted_singleQuoted hs hrest]
  rfl

end

/-! ### Runs of tokens -/

theorem settle_of_fetch {lx lx' : Lexer} (hq : lx.queue = []) (hd : lx.done = false)
    (h : lx.fetch = .ok lx') (fuel : Nat) : lx.settle (fuel + 1) = lx'.settle fuel := by
  rw [settle, hd, hq, h]
  rfl

/-- While the first token may still become a key, the next one is read. -/
theorem settle_behindKey {inMap : Bool} {c : Cursor} {t : Token} {taken : Nat} {lx' : Lexer}
    (hline : t.start.line = c.mark.line) (hindex : c.mark.index ≤ t.start.index + 1024)
    (h : (behindKey inMap c t taken).fetch = .ok lx') (fuel : Nat) :
    (behindKey inMap c t taken).settle (fuel + 1) = lx'.settle fuel := by
  have hany : ((behindKey inMap c t taken).keys.any fun x =>
      x.2.number == (behindKey inMap c t taken).taken) = true := by
    simp [behindKey, plain]
  rw [settle, dropStale_behindKey hline hindex]
  refine (if_pos hany).trans ?_
  rw [h]
  rfl

/-- The first token is given out once it is certain. -/
theorem drain_succ {lx lx' : Lexer} {t : Token} {ts : List Token}
    (h : lx.settle (lx.at'.rest.length + 3) = .ok lx') (hq : lx'.queue = t :: ts) (fuel : Nat) :
    lx.drain (fuel + 1) =
      let r := { lx' with queue := ts, taken := lx'.taken + 1 }.drain fuel
      ⟨t :: r.tokens, r.fault⟩ := by
  rw [drain, h]
  simp only [hq]

/-- Once the first token is certain, the lexer that got there goes on in the same way. -/
theorem drain_of_settle {lx : Lexer} {inMap allowed : Bool} {c : Cursor} {t : Token}
    {ts : List Token} {taken : Nat}
    (h : lx.settle (lx.at'.rest.length + 3) = .ok (plain inMap allowed c (t :: ts) taken))
    (fuel : Nat) : lx.drain fuel = (plain inMap allowed c (t :: ts) taken).drain fuel := by
  cases fuel with
  | zero => rfl
  | succ fuel => rw [drain_succ h rfl, drain_succ (settle_plain ..) rfl]

/-- Tokens in front of which no key mark can belong are given out. -/
theorem drain_plain (inMap allowed : Bool) (c : Cursor) (ts : List Token) (taken fuel : Nat) :
    (plain inMap allowed c ts taken).drain (ts.length + fuel) =
      let r := (plain inMap allowed c [] (taken + ts.length)).drain fuel
      ⟨ts ++ r.tokens, r.fault⟩ := by
  induction ts generalizing taken with
  | nil =>
    rw [List.length_nil, Nat.zero_add]
    rfl
  | cons t ts ih =>
    have hfuel : (t :: ts).length + fuel = ts.length + fuel + 1 := by
      rw [List.length_cons]
      omega
    have htaken : taken + (t :: ts).length = taken + 1 + ts.length := by
      rw [List.length_cons]
      omega
    rw [hfuel, htaken, drain_succ (settle_plain ..) rfl]
    show (let r := (plain inMap allowed c ts (taken + 1)).drain (ts.length + fuel)
      (⟨t :: r.tokens, r.fault⟩ : TokenStream)) = _
    rw [ih]
    rfl

end Lexer

/-- What a stream of tokens gives, the places apart. -/
def TokenStream.Gives (s : TokenStream) (ks : List TokenKind) : Prop :=
  s.fault = none ∧ s.tokens.map Token.kind = ks

/-- Only the first line starts the mapping. -/
def startKinds (inMap : Bool) : List TokenKind := if inMap then [] else [.blockMappingStart]

/-- The tokens of a line. -/
def lineKinds (p : String × String) : List TokenKind :=
  [.key, .scalar p.1 false, .value, .scalar p.2 false]

/-- The tokens of lines up to the end of the text. -/
def linesKinds (ps : List (String × String)) : List TokenKind :=
  ps.flatMap lineKinds ++ [.blockEnd, .streamEnd]

theorem linesKinds_cons (p : String × String) (ps : List (String × String)) :
    linesKinds (p :: ps) = lineKinds p ++ linesKinds ps := by
  rw [linesKinds, List.flatMap_cons, List.append_assoc]
  rfl

theorem length_le_length_linesKinds (ps : List (String × String)) :
    ps.length ≤ (linesKinds ps).length := by
  induction ps with
  | nil => exact Nat.zero_le _
  | cons p ps ih =>
    rw [linesKinds_cons, List.length_append, List.length_cons]
    show _ ≤ 4 + _
    omega

namespace Lexer
variable {inMap : Bool} {p : String × String} {rest : List Char} {ks : List TokenKind}

theorem gives_plain {allowed : Bool} {c : Cursor} {ts : List Token} {taken n : Nat}
    (h : ∀ taken fuel, n ≤ fuel → ((plain inMap allowed c [] taken).drain fuel).Gives ks)
    {fuel : Nat} (hfuel : n + ts.length ≤ fuel) :
    ((plain inMap allowed c ts taken).drain fuel).Gives (ts.map Token.kind ++ ks) := by
  obtain ⟨left, rfl⟩ : ∃ left, fuel = ts.length + left := ⟨fuel - ts.length, by omega⟩
  obtain ⟨hfault, hkinds⟩ := h (taken + ts.length) left (by omega)
  rw [drain_plain]
  exact ⟨hfault, by rw [List.map_append, hkinds]⟩

/-- The value of a line is read behind a space. -/
theorem gives_value {v : List Char} {taken n : Nat} (hv : isOneLine v = true)
    (hrest : rest.head? ≠ some '\'')
    (h : ∀ m taken fuel, n ≤ fuel → ((plain true false ⟨rest, m⟩ [] taken).drain fuel).Gives ks)
    (m : Mark) {fuel : Nat} (hfuel : n + 1 ≤ fuel) :
    ((plain true false ⟨' ' :: (singleQuoted v ++ rest), m⟩ [] taken).drain fuel).Gives
      (.scalar (.ofList v) false :: ks) := by
  have hfetch : (plain true false ⟨' ' :: (singleQuoted v ++ rest), m⟩ [] taken).fetch =
      (plain true false ⟨singleQuoted v ++ rest, m.behind [' ']⟩ [] taken).node readQuoted :=
    fetch_quote (show ' ' ≠ '\ufeff' by decide) rfl
  rw [node_value hv hrest] at hfetch
  have hsettle := settle_of_fetch rfl rfl hfetch ((singleQuoted v ++ rest).length + 3)
  rw [settle_plain] at hsettle
  rw [drain_of_settle hsettle]
  exact gives_plain (h _) hfuel

/-- In front of the value of a line the lexer has settled on the key. -/
theorem exists_settle_line {lx : Lexer} {m : Mark} {taken : Nat} (hq : lx.queue = [])
    (hd : lx.done = false)
    (hfetch : lx.fetch = (plain inMap true ⟨quotedLine p ++ rest, m⟩ [] taken).node readQuoted)
    (hp : IsLine p) (hcolumn : m.column = 0) :
    ∃ m' t ts, lx.settle (lx.at'.rest.length + 3) = .ok (plain true false
        ⟨' ' :: (singleQuoted p.2.toList ++ rest), m'⟩ (t :: ts) taken) ∧
      (t :: ts).map Token.kind = startKinds inMap ++ [.key, .scalar p.1 false, .value] := by
  obtain ⟨hk, -, hlength⟩ := hp
  obtain ⟨mk, hmk⟩ : ∃ mk, mk = m.behind (singleQuoted p.1.toList) := ⟨_, rfl⟩
  obtain ⟨k, hkey⟩ : ∃ k : Token, k = ⟨.scalar (.ofList p.1.toList) false, m, mk⟩ := ⟨_, rfl⟩
  have hline : k.start.line = mk.line := by
    rw [hkey, hmk]
    rfl
  have hindex : mk.index ≤ k.start.index + 1024 := by
    rw [hkey, hmk]
    show m.index + _ ≤ m.index + 1024
    omega
  rw [quotedLine, List.append_assoc, List.cons_append, List.cons_append,
    node_key hk (by simp) hcolumn, ← hmk, ← hkey] at hfetch
  have hvalue : (behindKey inMap ⟨':' :: ' ' :: (singleQuoted p.2.toList ++ rest), mk⟩ k
      taken).fetch = _ := fetch_value hline hindex (hkey ▸ hcolumn)
  obtain ⟨t, ts, hts⟩ : ∃ t ts, keyTokens inMap k.start ++
      [k, (⟨.value, mk, mk.behind [':']⟩ : Token)] = t :: ts := by
    cases inMap <;> exact ⟨_, _, rfl⟩
  refine ⟨mk.behind [':'], t, ts, ?_, ?_⟩
  · rw [settle_of_fetch hq hd hfetch, settle_behindKey hline hindex hvalue, hts, settle_plain]
  · rw [← hts, hkey]
    cases inMap <;> simp [keyTokens, startKinds]

/-- A line gives its tokens, whatever follows behind it on a new line. -/
theorem gives_line {lx : Lexer} {m : Mark} {taken n : Nat} (hq : lx.queue = [])
    (hd : lx.done = false)
    (hfetch : lx.fetch = (plain inMap true ⟨quotedLine p ++ rest, m⟩ [] taken).node readQuoted)
    (hp : IsLine p) (hrest : rest.head? ≠ some '\'') (hcolumn : m.column = 0)
    (h : ∀ m taken fuel, n ≤ fuel → ((plain true false ⟨rest, m⟩ [] taken).drain fuel).Gives ks)
    {fuel : Nat} (hfuel : n + 5 ≤ fuel) :
    (lx.drain fuel).Gives (startKinds inMap ++ (lineKinds p ++ ks)) := by
  obtain ⟨m', t, ts, hsettle, hkinds⟩ := exists_settle_line hq hd hfetch hp hcolumn
  have hcount : (t :: ts).length ≤ 4 := by
    rw [← List.length_map (f := Token.kind), hkinds]
    cases inMap <;> simp [startKinds]
  have hgives : ((plain true false ⟨' ' :: (singleQuoted p.2.toList ++ rest), m'⟩ (t :: ts)
      taken).drain fuel).Gives _ :=
    gives_plain (fun _ _ hfuel => gives_value hp.value hrest h m' hfuel) (by omega)
  rw [hkinds, String.ofList_toList, List.append_assoc] at hgives
  rw [drain_of_settle hsettle]
  exact hgives

/-! ### All lines -/

theorem gives_end (m : Mark) (taken : Nat) {fuel : Nat} (hfuel : 2 ≤ fuel) :
    ((plain true false ⟨[], m⟩ [] taken).drain fuel).Gives [.blockEnd, .streamEnd] := by
  obtain ⟨fuel, rfl⟩ : ∃ k, fuel = k + 2 := ⟨fuel - 2, by omega⟩
  have hsettle : (plain true false ⟨[], m⟩ [] taken).settle (0 + 3) = .ok _ :=
    settle_of_fetch rfl rfl (fetch_end m taken) 2
  rw [drain_succ hsettle rfl]
  cases fuel <;> exact ⟨rfl, rfl⟩

theorem gives_furtherLines {ps : List (String × String)} (hps : ∀ p ∈ ps, IsLine p) (m : Mark)
    (taken : Nat) {fuel : Nat} (hfuel : 5 * ps.length + 2 ≤ fuel) :
    ((plain true false ⟨furtherLines ps, m⟩ [] taken).drain fuel).Gives (linesKinds ps) := by
  induction ps generalizing m taken fuel with
  | nil => exact gives_end m taken hfuel
  | cons p ps ih =>
    have hps' : ∀ q ∈ ps, IsLine q := fun q hq => hps q (List.mem_cons_of_mem _ hq)
    -- the line end allows a key again
    have hfetch : (plain true false ⟨furtherLines (p :: ps), m⟩ [] taken).fetch =
        (plain true true ⟨quotedLine p ++ furtherLines ps, ⟨m.index + 1, m.line + 1, 0⟩⟩ []
          taken).node readQuoted :=
      fetch_quote (show '\n' ≠ '\ufeff' by decide) rfl
    rw [List.length_cons] at hfuel
    rw [linesKinds_cons]
    exact gives_line rfl rfl hfetch (hps p (List.mem_cons_self ..)) (head?_furtherLines ps) rfl
      (fun m taken _ h => ih hps' m taken h) (by omega)

end Lexer

theorem TokenStream.ofText_lines {p : String × String} {ps : List (String × String)}
    (hps : ∀ q ∈ p :: ps, IsLine q) :
    (TokenStream.ofText (quotedLine p ++ furtherLines ps)).Gives
      (.blockMappingStart :: linesKinds (p :: ps)) := by
  have hps' : ∀ q ∈ ps, IsLine q := fun q hq => hps q (List.mem_cons_of_mem _ hq)
  have hfetch : (Lexer.start (quotedLine p ++ furtherLines ps)).fetch =
      (Lexer.plain false true ⟨quotedLine p ++ furtherLines ps, ⟨0, 0, 0⟩⟩ [] 0).node
        Lexer.readQuoted := by
    obtain ⟨s, hs⟩ := exists_quotedLine_append_eq p (furtherLines ps)
    rw [hs]
    exact Lexer.fetch_quote (show '\'' ≠ '\ufeff' by decide) rfl
  have hfuel : 5 * ps.length + 2 + 5 ≤ 4 * (quotedLine p ++ furtherLines ps).length + 8 := by
    have hlines := length_le_length_furtherLines ps
    rw [List.length_append]
    omega
  rw [linesKinds_cons, TokenStream.ofText]
  exact Lexer.gives_line rfl rfl hfetch (hps p (List.mem_cons_self ..)) (head?_furtherLines ps) rfl
    (fun m taken _ h => Lexer.gives_furtherLines hps' m taken h) hfuel

/-! ### Events -/

/-- What a stream of events gives, the places apart. -/
def EventStream.Gives (s : EventStream) (ks : List EventKind) : Prop :=
  s.fault = none ∧ s.events.map Event.kind = ks

/-- The events of a line. -/
def pairKinds (p : String × String) : List EventKind :=
  [.scalar none none .quoted p.1, .scalar none none .quoted p.2]

/-- The events of lines up to the end of the text. -/
def pairsKinds (ps : List (String × String)) : List EventKind :=
  ps.flatMap pairKinds ++ [.mappingEnd, .documentEnd, .streamEnd]

theorem pairsKinds_cons (p : String × String) (ps : List (String × String)) :
    pairsKinds (p :: ps) = pairKinds p ++ pairsKinds ps := by
  rw [pairsKinds, List.flatMap_cons, List.append_assoc]
  rfl

namespace Grammar
variable {ts : List Token} {ks : List EventKind}

/-- The grammar in a text without faults and tag handles of its own. -/
def expecting (now : Expect) (later : List Expect) (ts : List Token) : Grammar :=
  ⟨⟨ts, none⟩, defaultHandles, now, later⟩

theorem gives_step {g g' : Grammar} {e : Event} {n : Nat} (hnow : g.now ≠ .nothing)
    (h : g.step = .ok (e, g')) (hg' : ∀ fuel, n ≤ fuel → (g'.run fuel).Gives ks) {fuel : Nat}
    (hfuel : n + 1 ≤ fuel) : (g.run fuel).Gives (e.kind :: ks) := by
  obtain ⟨left, rfl⟩ : ∃ left, fuel = left + 1 := ⟨fuel - 1, by omega⟩
  obtain ⟨hfault, hkinds⟩ := hg' left (by omega)
  rw [run, if_neg hnow, h]
  exact ⟨hfault, congrArg (e.kind :: ·) hkinds⟩

theorem gives_nothing (fuel : Nat) : ((expecting .nothing [] []).run fuel).Gives [] := by
  cases fuel <;> exact ⟨rfl, rfl⟩

theorem exists_eq_cons_of_map_kind {k : TokenKind} {kinds : List TokenKind}
    (h : ts.map Token.kind = k :: kinds) :
    ∃ m m' rest, ts = ⟨k, m, m'⟩ :: rest ∧ rest.map Token.kind = kinds := by
  obtain ⟨⟨k', m, m'⟩, rest, rfl, rfl, hrest⟩ := List.map_eq_cons_iff.1 h
  exact ⟨m, m', rest, rfl, hrest⟩

theorem gives_end (hts : ts.map Token.kind = [.blockEnd, .streamEnd]) (start : Mark) {fuel : Nat}
    (hfuel : 3 ≤ fuel) : ((expecting (.blockKey start) [.documentEnd] ts).run fuel).Gives
      [.mappingEnd, .documentEnd, .streamEnd] := by
  obtain ⟨b, b', ts₁, rfl, h₁⟩ := exists_eq_cons_of_map_kind hts
  obtain ⟨m, m', ts₂, rfl, h₂⟩ := exists_eq_cons_of_map_kind h₁
  cases List.map_eq_nil_iff.1 h₂
  have hblock : (expecting (.blockKey start) [.documentEnd]
      [⟨.blockEnd, b, b'⟩, ⟨.streamEnd, m, m'⟩]).step =
        .ok (⟨.mappingEnd, b⟩, expecting .documentEnd [] [⟨.streamEnd, m, m'⟩]) := rfl
  have hdocument : (expecting .documentEnd [] [⟨.streamEnd, m, m'⟩]).step =
      .ok (⟨.documentEnd, m⟩, expecting .document [] [⟨.streamEnd, m, m'⟩]) := rfl
  have hstream : (expecting .document [] [⟨.streamEnd, m, m'⟩]).step =
      .ok (⟨.streamEnd, m⟩, expecting .nothing [] []) := rfl
  exact gives_step (by simp [expecting]) hblock
    (fun _ => gives_step (by simp [expecting]) hdocument
      (fun _ => gives_step (by simp [expecting]) hstream (fun fuel _ => gives_nothing fuel))) hfuel

theorem gives_pairs {ps : List (String × String)}
    (hts : ts.map Token.kind = linesKinds ps) (start : Mark) {fuel : Nat}
    (hfuel : 2 * ps.length + 3 ≤ fuel) :
    ((expecting (.blockKey start) [.documentEnd] ts).run fuel).Gives (pairsKinds ps) := by
  induction ps generalizing ts fuel with
  | nil => exact gives_end hts start hfuel
  | cons p ps ih =>
    rw [linesKinds_cons] at hts
    obtain ⟨m₁, m₁', ts₁, rfl, h₁⟩ := exists_eq_cons_of_map_kind hts
    obtain ⟨m₂, m₂', ts₂, rfl, h₂⟩ := exists_eq_cons_of_map_kind h₁
    obtain ⟨m₃, m₃', ts₃, rfl, h₃⟩ := exists_eq_cons_of_map_kind h₂
    obtain ⟨m₄, m₄', ts₄, rfl, h₄⟩ := exists_eq_cons_of_map_kind h₃
    have hkey : (expecting (.blockKey start) [.documentEnd] (⟨.key, m₁, m₁'⟩ ::
        ⟨.scalar p.1 false, m₂, m₂'⟩ :: ⟨.value, m₃, m₃'⟩ :: ⟨.scalar p.2 false, m₄, m₄'⟩ :: ts₄)).step =
        .ok (⟨.scalar none none .quoted p.1, m₂⟩, expecting (.blockValue start) [.documentEnd]
          (⟨.value, m₃, m₃'⟩ :: ⟨.scalar p.2 false, m₄, m₄'⟩ :: ts₄)) := rfl
    have hvalue : (expecting (.blockValue start) [.documentEnd]
        (⟨.value, m₃, m₃'⟩ :: ⟨.scalar p.2 false, m₄, m₄'⟩ :: ts₄)).step =
        .ok (⟨.scalar none none .quoted p.2, m₄⟩,
          expecting (.blockKey start) [.documentEnd] ts₄) := rfl
    rw [List.length_cons] at hfuel
    rw [pairsKinds_cons]
    exact gives_step (by simp [expecting]) hkey
      (fun _ => gives_step (by simp [expecting]) hvalue (fun _ => ih h₄)) (by omega)

end Grammar

theorem EventStream.ofTokens_lines {ps : List (String × String)}
    {ts : TokenStream}
    (h : ts.Gives (.blockMappingStart :: linesKinds ps)) :
    (EventStream.ofTokens ts).Gives
      (.documentStart :: .mappingStart none none :: pairsKinds ps) := by
  obtain ⟨ts, fault⟩ := ts
  obtain ⟨rfl, hts⟩ := h
  have hcount : 2 * ps.length + 3 + 1 + 1 ≤ 3 * ts.length + 8 := by
    have hlines := length_le_length_linesKinds ps
    rw [← List.length_map (f := Token.kind), hts, List.length_cons]
    omega
  obtain ⟨m, m', ts₁, rfl, h₁⟩ := Grammar.exists_eq_cons_of_map_kind hts
  have hdocument : (Grammar.expecting .implicitDocument [] (⟨.blockMappingStart, m, m'⟩ :: ts₁)).step =
      .ok (⟨.documentStart, m⟩, Grammar.expecting .blockNode [.documentEnd]
        (⟨.blockMappingStart, m, m'⟩ :: ts₁)) := rfl
  have hmapping : (Grammar.expecting .blockNode [.documentEnd]
      (⟨.blockMappingStart, m, m'⟩ :: ts₁)).step =
        .ok (⟨.mappingStart none none, m⟩, Grammar.expecting (.blockKey m) [.documentEnd] ts₁) := rfl
  exact Grammar.gives_step (by simp [Grammar.expecting]) hdocument
    (fun _ => Grammar.gives_step (by simp [Grammar.expecting]) hmapping
      (fun _ => Grammar.gives_pairs h₁ m)) hcount

/-! ### Nodes -/

namespace Builder

/-- A document under way that is a mapping with these entries so far. -/
def inMapping (m : Mark) (es : List (Node × Node)) : Builder :=
  ⟨none, [⟨0, none, Tag.map, m, .entries es none⟩], [], 1, [], []⟩

theorem exists_addAll_pairs {ps : List (String × String)} (m : Mark)
    (es : List (Node × Node)) {evs : List Event}
    (h : evs.map Event.kind = pairsKinds ps) :
    ∃ added rest, added.mapM Node.plainEntry? = some ps ∧ rest.map Event.kind = pairsKinds [] ∧
      (inMapping m es).addAll none evs = (inMapping m (es ++ added)).addAll none rest := by
  induction ps generalizing es evs with
  | nil => exact ⟨[], evs, rfl, h, by rw [List.append_nil]⟩
  | cons p ps ih =>
    rw [pairsKinds_cons] at h
    obtain ⟨⟨_, m₁⟩, evs₁, rfl, rfl, h₁⟩ := List.map_eq_cons_iff.1 h
    obtain ⟨⟨_, m₂⟩, evs₂, rfl, rfl, h₂⟩ := List.map_eq_cons_iff.1 h₁
    obtain ⟨entry, hentry⟩ : ∃ entry : Node × Node,
        entry = (.scalar Tag.str p.1 m₁, .scalar Tag.str p.2 m₂) := ⟨_, rfl⟩
    have hstep : (inMapping m es).addAll none (⟨.scalar none none .quoted p.1, m₁⟩ ::
        ⟨.scalar none none .quoted p.2, m₂⟩ :: evs₂) =
        (inMapping m (es ++ [entry])).addAll none evs₂ := hentry ▸ rfl
    obtain ⟨added, rest, hadded, hrest, heq⟩ := ih (es ++ [entry]) h₂
    have hmap : (entry :: added).mapM Node.plainEntry? = some (p :: ps) := by
      rw [List.mapM_cons, hadded, hentry]
      rfl
    refine ⟨entry :: added, rest, hmap, hrest, ?_⟩
    rw [hstep, heq, List.append_assoc]
    rfl

end Builder

theorem Document.exists_ofEvents {ps : List (String × String)} {es : EventStream}
    (h : es.Gives (.documentStart :: .mappingStart none none :: pairsKinds ps)) :
    ∃ n, Document.ofEvents es = .ok (some ⟨n, []⟩) ∧ n.plainEntries? = some ps := by
  obtain ⟨evs, fault⟩ := es
  obtain ⟨rfl, hevs⟩ := h
  obtain ⟨⟨_, m⟩, evs₁, rfl, rfl, h₁⟩ := List.map_eq_cons_iff.1 hevs
  obtain ⟨⟨_, m₁⟩, evs₂, rfl, rfl, h₂⟩ := List.map_eq_cons_iff.1 h₁
  obtain ⟨added, rest, hadded, hrest, heq⟩ := Builder.exists_addAll_pairs m₁ [] h₂
  obtain ⟨⟨_, m₃⟩, rest₁, rfl, rfl, h₃⟩ := List.map_eq_cons_iff.1 hrest
  obtain ⟨⟨_, m₄⟩, rest₂, rfl, rfl, h₄⟩ := List.map_eq_cons_iff.1 h₃
  obtain ⟨⟨_, m₅⟩, rest₃, rfl, rfl, h₅⟩ := List.map_eq_cons_iff.1 h₄
  cases List.map_eq_nil_iff.1 h₅
  have hbuild : Builder.start.addAll none (⟨.mappingStart none none, m₁⟩ :: evs₂) =
      .ok (⟨some (.mapping 0 Tag.map added m₁), [], [], 1, [], []⟩, [⟨.streamEnd, m₅⟩]) :=
    heq
  refine ⟨.mapping 0 Tag.map added m₁, ?_, ?_⟩
  · simp only [Document.ofEvents, hbuild]
    rfl
  · rw [Node.plainEntries?, if_pos rfl, hadded]

/-- Lines with key and value in single quotes are a mapping of these texts. -/
theorem textEntries?_lines {p : String × String} {ps : List (String × String)}
    (hps : ∀ q ∈ p :: ps, IsLine q) :
    textEntries? (quotedLine p ++ furtherLines ps) = some (p :: ps) := by
  have htokens := TokenStream.ofText_lines hps
  have hevents := EventStream.ofTokens_lines htokens
  obtain ⟨n, hn, hentries⟩ := Document.exists_ofEvents hevents
  unfold textEntries?
  simp only [hn]
  exact hentries

end DocTree.Yaml
