import Mathlib
import DocTree.Proofs.RenderedPath

/-!
# Relative paths of pages

What is left of the path of a page if the text of a base path is taken out where it first occurs. A
base path that is normal stands in front of the pages below it, and is taken out there. One that is not
does not occur in them at all: its text has more slashes with two dots behind them than the text of any
page below it (`ascents_normal_lt`), and resolving double dots only makes them fewer. So the relative path is
the names below the base just if the base is normal or nothing is left of it, and if it is no dot, which is
taken out of a name (`relativePath_eq_iff`).
-/

namespace DocTree

namespace Text
variable {a b : List Char}

theorem replaceFirst_of_not_isInfix {part : List Char} (new : List Char) {s : List Char}
    (h : ¬ part <:+: s) : replaceFirst part new s = s := by
  induction s with
  | nil =>
    unfold replaceFirst
    cases hs : stripStart? part [] with
    | none => rfl
    | some rest => exact absurd ⟨[], rest, (stripStart?_eq_some.1 hs).symm⟩ h
  | cons c s ih =>
    unfold replaceFirst
    cases hs : stripStart? part (c :: s) with
    | none => exact congrArg (c :: ·) (ih fun hi => h (List.infix_cons hi))
    | some rest => exact absurd ⟨[], rest, (stripStart?_eq_some.1 hs).symm⟩ h

theorem replaceFirst_singleton (c : Char) (s : List Char) : replaceFirst [c] [] s = s.erase c := by
  induction s with
  | nil => rfl
  | cons d s ih =>
    by_cases hd : c = d
    · subst hd
      simp [replaceFirst, stripStart?]
    · rw [List.erase_cons_tail (by simpa using fun h => hd h.symm), ← ih]
      simp [replaceFirst, stripStart?, hd]

/-- How many slashes have two dots behind them. -/
def ascents : List Char → Nat
  | [] => 0
  | c :: s => (if c = '/' ∧ ['.', '.'] <+: s then 1 else 0) + ascents s

theorem ascents_le_of_isInfix (h : a <:+: b) : ascents a ≤ ascents b := by
  obtain ⟨s, t, rfl⟩ := h
  have hright : ascents a ≤ ascents (a ++ t) := by
    induction a with
    | nil => exact Nat.zero_le _
    | cons c a ih =>
      rw [List.cons_append, ascents, ascents]
      have hmono : ['.', '.'] <+: a → ['.', '.'] <+: a ++ t := fun h => h.trans (List.prefix_append ..)
      split_ifs with h h' h'
      · omega
      · exact absurd ⟨h.1, hmono h.2⟩ h'
      · omega
      · omega
  rw [List.append_assoc]
  induction s with
  | nil => exact hright
  | cons c s ih =>
    rw [List.cons_append, ascents]
    omega

theorem ascents_append_of_not_mem (h : '/' ∉ a) : ascents (a ++ b) = ascents b := by
  induction a with
  | nil => rfl
  | cons c a ih =>
    rw [List.mem_cons, not_or] at h
    rw [List.cons_append, ascents, ih h.2, if_neg fun hc => h.1 hc.1.symm, Nat.zero_add]

end Text

namespace Path
variable {root : Root} {ns ms : List String} {p : Path} {n : String}

/-- Whether a name begins with two dots. -/
def isDotted (n : String) : Bool := ['.', '.'].isPrefixOf n.toList

theorem isDotted_iff : isDotted n = true ↔ ['.', '.'] <+: n.toList := List.isPrefixOf_iff_prefix

/-- How many names that stand behind a slash begin with two dots. -/
def ascents (root : Root) (ns : List String) : Nat :=
  (ns.drop (if root = .relative then 1 else 0)).countP isDotted

/-- Two dots at the front belong to the first name. -/
theorem dots_prefix_iff (n : String) (ns : List String) :
    ['.', '.'] <+: ("/".intercalate (n :: ns)).toList ↔ isDotted n = true := by
  rw [isDotted_iff]
  cases ns with
  | nil => rw [String.intercalate_singleton]
  | cons m ms =>
    rw [String.intercalate_cons_cons, String.toList_append, String.toList_append, List.append_assoc]
    show ['.', '.'] <+: n.toList ++ '/' :: ("/".intercalate (m :: ms)).toList ↔ _
    rcases n.toList with _ | ⟨c, _ | ⟨d, cs⟩⟩ <;> simp [List.cons_prefix_cons]

theorem ascents_intercalate_cons (hn : '/' ∉ n.toList) (ns : List String) :
    Text.ascents ("/".intercalate (n :: ns)).toList =
      Text.ascents ('/' :: ("/".intercalate ns).toList) := by
  cases ns with
  | nil =>
    rw [String.intercalate_singleton, ← List.append_nil n.toList, Text.ascents_append_of_not_mem hn]
    rfl
  | cons m ms =>
    rw [String.intercalate_cons_cons, String.toList_append, String.toList_append, List.append_assoc,
      Text.ascents_append_of_not_mem hn]
    rfl

theorem ascents_slash_intercalate (h : ∀ n ∈ ns, '/' ∉ n.toList) :
    Text.ascents ('/' :: ("/".intercalate ns).toList) = ns.countP isDotted := by
  induction ns with
  | nil => rfl
  | cons n ns ih =>
    obtain ⟨hn, hns⟩ := List.forall_mem_cons.1 h
    have hrest : Text.ascents ("/".intercalate (n :: ns)).toList = ns.countP isDotted := by
      rw [ascents_intercalate_cons hn, ih hns]
    simp only [Text.ascents, hrest, dots_prefix_iff, true_and, List.countP_cons, Nat.add_comm]

/-- In the text of a path, two dots stand behind a slash where a name begins with them. -/
theorem ascents_text (hp : p.IsProper) : Text.ascents p.text.toList = ascents p.root p.parts := by
  obtain ⟨root, ns⟩ := p
  have hns : ∀ n ∈ ns, '/' ∉ n.toList := fun n hn => (hp n hn).2
  cases root with
  | relative =>
    cases ns with
    | nil => rfl
    | cons n ns =>
      obtain ⟨hn, hns⟩ := List.forall_mem_cons.1 hns
      rw [text_of_ne_nil (List.cons_ne_nil n ns), String.toList_append]
      exact (ascents_intercalate_cons hn ns).trans (ascents_slash_intercalate hns)
  | single =>
    have htext : text ⟨.single, ns⟩ = "/" ++ "/".intercalate ns := rfl
    rw [htext, String.toList_append]
    exact ascents_slash_intercalate hns
  | double =>
    have htext : text ⟨.double, ns⟩ = "/" ++ ("/" ++ "/".intercalate ns) := by
      rw [← String.append_assoc]
      rfl
    rw [htext, String.toList_append, String.toList_append]
    show Text.ascents ('/' :: '/' :: ("/".intercalate ns).toList) = _
    rw [Text.ascents, ascents_slash_intercalate hns]
    simp [List.cons_prefix_cons, ascents]

/-! ### Resolving double dots -/

theorem ascents_append_lt (root : Root) (ms : List String) (m : String) (ns : List String) :
    ascents root (ms ++ ns) < ascents root (ms ++ m :: ".." :: ns) := by
  have hdots : isDotted ".." = true := by decide +kernel
  have htail : ns.tail.countP isDotted ≤ ns.countP isDotted := (List.tail_sublist ns).countP_le
  unfold ascents
  split <;> cases ms <;> simp [List.countP_cons, List.countP_append, hdots] <;> omega

theorem ascents_resolveDots (root : Root) (before ns : List String) :
    resolveDots root before ns = before.reverse ++ ns ∨
      ascents root (resolveDots root before ns) < ascents root (before.reverse ++ ns) := by
  fun_induction resolveDots root before ns with
  | case1 before => exact .inl (List.append_nil _).symm
  | case2 ns _ ih => exact ih
  | case3 ns hroot ih =>
    have hdots : ascents root ns < ascents root (".." :: ns) := by
      have hdots : isDotted ".." = true := by decide +kernel
      simp [ascents, hroot, hdots]
    rcases ih with ih | ih
    · exact .inr (by rw [ih]; exact hdots)
    · exact .inr (ih.trans hdots)
  | case4 ns up ih => simpa using ih
  | case5 ns m up _ ih =>
    have hdots := ascents_append_lt root up.reverse m ns
    rw [List.reverse_cons, List.append_assoc]
    rcases ih with ih | ih
    · exact .inr (by rw [ih]; exact hdots)
    · exact .inr (ih.trans hdots)
  | case6 before m ns _ ih => simpa using ih

/-- Resolving double dots leaves fewer of them, if there is anything to resolve. -/
theorem ascents_normal_lt (h : p.normal ≠ p) : ascents p.root p.normal.parts < ascents p.root p.parts := by
  refine (ascents_resolveDots p.root [] p.parts).resolve_left fun heq => h ?_
  rw [normal, heq]
  rfl

theorem ascents_append_of_not_dotted (root : Root) (h : ∀ n ∈ ms, isDotted n = false) :
    ascents root (ns ++ ms) = ascents root ns := by
  have hzero : ∀ k, (ms.drop k).countP isDotted = 0 := fun k => List.countP_eq_zero.2 fun n hn => by
    rw [h n (List.mem_of_mem_drop hn)]
    decide
  rw [ascents, List.drop_append, List.countP_append, hzero, Nat.add_zero, ascents]

/-- A path that is not normal does not occur in the paths below its normal form, if no name there begins
with two dots. -/
theorem not_isInfix_of_normal_ne (hp : p.IsProper) (h : p.normal ≠ p)
    (hms : ∀ n ∈ ms, isName n = true ∧ '/' ∉ n.toList) (hdots : ∀ n ∈ ms, isDotted n = false) :
    ¬ p.text.toList <:+: (⟨p.root, p.normal.parts ++ ms⟩ : Path).text.toList := by
  intro hinfix
  have hbelow : (⟨p.root, p.normal.parts ++ ms⟩ : Path).IsProper :=
    fun n hn => (List.mem_append.1 hn).elim (hp.normal n) (hms n)
  have hle := Text.ascents_le_of_isInfix hinfix
  rw [ascents_text hp, ascents_text hbelow, ascents_append_of_not_dotted _ hdots] at hle
  exact Nat.not_lt.2 hle (ascents_normal_lt h)

theorem dropWhile_text (hp : p.IsProper) (hne : p.parts ≠ []) :
    p.text.toList.dropWhile (· == '/') = ("/".intercalate p.parts).toList := by
  have hstop := dropWhile_intercalate hp
  rw [text_of_ne_nil hne, String.toList_append]
  cases p.root <;> exact hstop

theorem intercalate_inj (hns : ∀ n ∈ ns, isName n = true ∧ '/' ∉ n.toList)
    (hms : ∀ n ∈ ms, isName n = true ∧ '/' ∉ n.toList) :
    "/".intercalate ns = "/".intercalate ms ↔ ns = ms := by
  refine ⟨fun h => ?_, congrArg _⟩
  rw [← filter_partsAt_intercalate hns, h, filter_partsAt_intercalate hms]

theorem eq_dot_of_text (hp : p.IsProper) (h : p.text = ".") : p = ⟨.relative, []⟩ := by
  rw [← parse_text hp, h]
  decide +kernel

end Path

/-! ### The relative path -/

namespace Item
variable {it : Item} {base : Path} {ms : List String}
  (hms : ∀ n ∈ ms, Path.isName n = true ∧ '/' ∉ n.toList) (hpage : renderedName ∈ ms)
  (hit : it.renderedPath = (⟨base.root, base.normal.parts ++ ms⟩ : Path).text)
include hms hpage hit

theorem relativePath_of_normal (hnormal : base.normal = base) (hdot : base.text ≠ ".") :
    it.relativePath base.text = "/" ++ "/".intercalate ms := by
  have hroot : base.parts ≠ [] ∨ base.root ≠ .relative := by
    by_contra h
    rw [not_or, not_not, not_not] at h
    exact hdot (by rw [Path.text, h.1, h.2]; rfl)
  rw [hnormal] at hit
  rw [relativePath, hit, Path.dropWhile_removeFirst_text hroot (List.ne_nil_of_mem hpage) hms,
    ← String.toList_inj, String.toList_ofList, String.toList_append]
  rfl

/-- A dot is taken out of a name. -/
theorem relativePath_ne_of_dot (hbase : base.IsProper) (hdot : base.text = ".") :
    it.relativePath base.text ≠ "/" ++ "/".intercalate ms := by
  obtain rfl := Path.eq_dot_of_text hbase hdot
  have hne := List.ne_nil_of_mem hpage
  have hpath : it.renderedPath = "/".intercalate ms := by
    have htext : (⟨.relative, ms⟩ : Path).text = "" ++ "/".intercalate ms := Path.text_of_ne_nil hne
    rw [hit, ← String.empty_append (s := "/".intercalate ms), ← htext]
    rfl
  have hmem : '.' ∈ ("/".intercalate ms).toList := by
    have hsep : '.' ≠ '/' := by decide
    rw [Text.mem_iff_mem_splitAt hsep,
      Path.splitAt_intercalate (fun n hn => (hms n hn).2) hne]
    exact ⟨_, List.mem_map_of_mem hpage, by decide +kernel⟩
  intro heq
  have hlength := congrArg (fun s => s.toList.length) heq
  have herase : Text.replaceFirst ".".toList [] ("/".intercalate ms).toList =
      ("/".intercalate ms).toList.erase '.' := Text.replaceFirst_singleton '.' _
  simp only [relativePath, hpath, hdot, String.removeFirst, herase, String.toList_ofList,
    String.toList_append, List.length_append, List.length_cons] at hlength
  have hdrop := List.length_dropWhile_le (· == '/') (("/".intercalate ms).toList.erase '.')
  have hshort := List.length_erase_of_mem hmem
  have hpos := List.length_pos_of_mem hmem
  have hslash : "/".toList.length = 1 := by decide
  omega

variable (hbase : base.IsProper) (hdots : ∀ n ∈ ms, Path.isDotted n = false)
include hbase hdots

theorem relativePath_of_not_normal (hnormal : base.normal ≠ base) :
    it.relativePath base.text = "/" ++ "/".intercalate (base.normal.parts ++ ms) := by
  have hproper : (⟨base.root, base.normal.parts ++ ms⟩ : Path).IsProper :=
    fun n hn => (List.mem_append.1 hn).elim (hbase.normal n) (hms n)
  have hne := List.append_ne_nil_of_right_ne_nil base.normal.parts (List.ne_nil_of_mem hpage)
  have hinfix := Path.not_isInfix_of_normal_ne hbase hnormal hms hdots
  rw [relativePath, hit, String.removeFirst, Text.replaceFirst_of_not_isInfix _ hinfix,
    String.toList_ofList, Path.dropWhile_text hproper hne, ← String.toList_inj,
    String.toList_ofList, String.toList_append]
  rfl

/-- The relative path of a page is made of the names below the base, just if the base is no dot and is
normal, or nothing is left of it. -/
theorem relativePath_eq_iff : it.relativePath base.text = "/" ++ "/".intercalate ms ↔
    base.text ≠ "." ∧ (base.IsNormal ∨ base.normal.parts = []) := by
  by_cases hdot : base.text = "."
  · exact iff_of_false (relativePath_ne_of_dot hms hpage hit hbase hdot) fun h => h.1 hdot
  · rw [and_iff_right hdot, ← Path.normal_eq_self_iff]
    by_cases hnormal : base.normal = base
    · exact iff_of_true (relativePath_of_normal hms hpage hit hnormal hdot) (.inl hnormal)
    · have hproper : ∀ n ∈ base.normal.parts ++ ms, Path.isName n = true ∧ '/' ∉ n.toList :=
        fun n hn => (List.mem_append.1 hn).elim (hbase.normal n) (hms n)
      rw [relativePath_of_not_normal hms hpage hit hbase hdots hnormal, or_iff_right hnormal,
        String.append_right_inj, Path.intercalate_inj hproper hms, List.append_left_eq_self]

end Item
end DocTree
