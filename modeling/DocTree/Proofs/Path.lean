import Mathlib
import DocTree.Path
import DocTree.Proofs.Text

/-!
# Paths and their texts

A path is proper if its parts are names without slashes. Reading a text gives a proper path, and
reading the text of a proper path gives the path back (`parse_text`). Behind the last slash of this text
stands the last name of the path (`baseName_text`). In the order of paths a directory
comes in front of what is below it (`orderKey_lt_of_above`), and what is below one entry in front of
what is below a later one (`orderKey_lt_of_atOrAbove_child`).
-/

namespace DocTree.Path

/-- Whether every part is a name and holds no slash. -/
def IsProper (p : Path) : Prop := ∀ n ∈ p.parts, isName n = true ∧ '/' ∉ n.toList

theorem toList_ne_nil_of_isName {n : String} (h : isName n = true) : n.toList ≠ [] := by
  intro hn
  rw [String.toList_eq_nil_iff] at hn
  subst hn
  exact absurd h (by decide)

theorem isProper_parse (s : String) : (parse s).IsProper := by
  intro n hn
  obtain ⟨hn, hname⟩ := List.mem_filter.1 hn
  refine ⟨hname, ?_⟩
  obtain ⟨cs, hcs, rfl⟩ := List.mem_map.1 hn
  rw [String.toList_ofList]
  exact Text.not_mem_of_mem_splitAt hcs

theorem IsProper.child {p : Path} (hp : p.IsProper) {n : String} (hn : isName n = true)
    (hs : '/' ∉ n.toList) : (p.child n).IsProper := by
  intro m hm
  rcases List.mem_append.1 hm with hm | hm
  · exact hp m hm
  · rw [List.mem_singleton.1 hm]
    exact ⟨hn, hs⟩

/-- The path of the directory in which the last name of a path stands. -/
def parent (p : Path) : Path := { p with parts := p.parts.dropLast }

@[simp] theorem parent_child (p : Path) (n : String) : (p.child n).parent = p := by
  simp [parent, child]

@[simp] theorem name_child (p : Path) (n : String) : (p.child n).name = n := by
  simp [name, child]

theorem child_inj {p : Path} {m n : String} : p.child m = p.child n ↔ m = n := by
  refine ⟨fun h => ?_, congrArg p.child⟩
  have hname := congrArg name h
  rwa [name_child, name_child] at hname

/-! ### The text of a path -/

theorem text_append (root : Root) (ms : List String) {ns : List String} (hn : ns ≠ []) :
    (⟨root, ms ++ ns⟩ : Path).text =
      (if ms.isEmpty then root.text else (⟨root, ms⟩ : Path).text ++ "/") ++ "/".intercalate ns := by
  cases ms with
  | nil => simp [text, hn]
  | cons m ms =>
    simp only [text, String.intercalate_append_of_ne_nil (List.cons_ne_nil m ms) hn]
    simp [String.append_assoc]

theorem text_child (p : Path) (n : String) : (p.child n).text =
    (if p.parts.isEmpty then p.root.text else p.text ++ "/") ++ n := by
  have happend := text_append p.root p.parts (List.cons_ne_nil n [])
  rwa [String.intercalate_singleton] at happend

theorem utf8ByteSize_text_child {p : Path} (hne : p.parts ≠ []) (n : String) :
    (p.child n).text.utf8ByteSize = p.text.utf8ByteSize + 1 + n.utf8ByteSize := by
  have hslash : "/".utf8ByteSize = 1 := by decide
  rw [text_child, if_neg (by simpa using hne), String.utf8ByteSize_append,
    String.utf8ByteSize_append, hslash]

/-! ### Reading the text of a path -/

theorem splitAt_intercalate {ns : List String} (hs : ∀ n ∈ ns, '/' ∉ n.toList) (hne : ns ≠ []) :
    Text.splitAt '/' ("/".intercalate ns).toList = ns.map String.toList := by
  induction ns with
  | nil => exact absurd rfl hne
  | cons n ns ih =>
    have hn : Text.splitAt '/' n.toList = [n.toList] :=
      Text.splitAt_of_not_mem (hs n (List.mem_cons_self ..))
    cases ns with
    | nil => simp [hn]
    | cons m ms =>
      have ih' := ih (fun k hk => hs k (List.mem_cons_of_mem _ hk)) (by simp)
      rw [String.intercalate_cons_cons, String.toList_append, String.toList_append,
        List.append_assoc]
      show Text.splitAt '/' (n.toList ++ '/' :: ("/".intercalate (m :: ms)).toList) = _
      rw [Text.splitAt_append_cons, hn, ih']
      rfl

theorem filter_partsAt_intercalate {ns : List String}
    (h : ∀ n ∈ ns, isName n = true ∧ '/' ∉ n.toList) :
    (("/".intercalate ns).partsAt '/').filter isName = ns := by
  cases ns with
  | nil => rfl
  | cons n ns =>
    rw [String.partsAt, splitAt_intercalate (fun n hn => (h n hn).2) (by simp),
      List.map_map]
    have : (String.ofList ∘ String.toList) = id := by
      funext s
      exact String.ofList_toList
    rw [this, List.map_id]
    exact List.filter_eq_self.2 fun n hn => (h n hn).1

theorem head?_intercalate {ns : List String} (h : ∀ n ∈ ns, isName n = true ∧ '/' ∉ n.toList) :
    ("/".intercalate ns).toList.head? ≠ some '/' := by
  cases ns with
  | nil => simp
  | cons n ns =>
    obtain ⟨hn, hs⟩ := h n (List.mem_cons_self ..)
    obtain ⟨c, cs, hc⟩ := List.exists_cons_of_ne_nil (toList_ne_nil_of_isName hn)
    have hhead : ("/".intercalate (n :: ns)).toList.head? = some c := by
      cases ns with
      | nil => simp [hc]
      | cons m ms => simp [hc]
    rw [hhead]
    rintro heq
    cases heq
    exact hs (hc ▸ List.mem_cons_self ..)

theorem partsAt_slash_append (s : String) : ("/" ++ s).partsAt '/' = "" :: s.partsAt '/' := by
  rw [String.partsAt, String.toList_append]
  show (Text.splitAt '/' ('/' :: s.toList)).map String.ofList = _
  rw [Text.splitAt_cons_self]
  rfl

section
variable {cs : List Char} (h : cs.head? ≠ some '/')
include h

theorem rootOf_of_head? : rootOf cs = .relative := by
  unfold rootOf
  split <;> simp_all

theorem rootOf_slash : rootOf ('/' :: cs) = .single := by
  cases cs with
  | nil => rfl
  | cons c cs =>
    have hc : c ≠ '/' := fun hc => h (by simp [hc])
    simp [rootOf, hc]

theorem rootOf_slash_slash : rootOf ('/' :: '/' :: cs) = .double := by
  cases cs with
  | nil => rfl
  | cons c cs =>
    have hc : c ≠ '/' := fun hc => h (by simp [hc])
    simp [rootOf, hc]

end

/-- Reading the text of a proper path gives the path. -/
theorem parse_text {p : Path} (hp : p.IsProper) : parse p.text = p := by
  obtain ⟨root, ns⟩ := p
  have hparts := filter_partsAt_intercalate hp
  have hhead := head?_intercalate hp
  simp only at hparts hhead
  cases root with
  | relative =>
    cases ns with
    | nil => rfl
    | cons n ns =>
      have htext : text ⟨.relative, n :: ns⟩ = "/".intercalate (n :: ns) := by
        simp [text, Root.text]
      rw [htext, parse, hparts, rootOf_of_head? hhead]
  | single =>
    have htext : text ⟨.single, ns⟩ = "/" ++ "/".intercalate ns := rfl
    rw [htext, parse, partsAt_slash_append, List.filter_cons_of_neg (by decide), hparts,
      String.toList_append]
    congr 1
    exact rootOf_slash hhead
  | double =>
    have htext : text ⟨.double, ns⟩ = "/" ++ ("/" ++ "/".intercalate ns) := by
      rw [← String.append_assoc]
      rfl
    rw [htext, parse, partsAt_slash_append, partsAt_slash_append,
      List.filter_cons_of_neg (by decide), List.filter_cons_of_neg (by decide), hparts,
      String.toList_append, String.toList_append]
    congr 1
    exact rootOf_slash_slash hhead

/-! ### The last name -/

theorem child_parent_name {p : Path} (hne : p.parts ≠ []) : p.parent.child p.name = p := by
  obtain ⟨root, ns⟩ := p
  have hlast : ns.dropLast ++ [ns.getLast hne] = ns := List.dropLast_concat_getLast hne
  simp only [parent, child, name, List.getLast?_eq_some_getLast hne, Option.getD_some, hlast]

theorem baseName_append {n : String} (hn : '/' ∉ n.toList) (a : String) :
    baseName (a ++ "/" ++ n) = n := by
  have hsplit : Text.splitAt '/' (a ++ "/" ++ n).toList =
      Text.splitAt '/' a.toList ++ [n.toList] := by
    rw [String.toList_append, String.toList_append, List.append_assoc,
      ← Text.splitAt_of_not_mem hn]
    exact Text.splitAt_append_cons a.toList n.toList
  rw [baseName, String.partsAt, hsplit]
  simp

theorem baseName_text_child (p : Path) {n : String} (hn : '/' ∉ n.toList) :
    baseName (p.child n).text = n := by
  rw [text_child]
  split
  · cases p.root with
    | relative => simp [Root.text, baseName, String.partsAt, Text.splitAt_of_not_mem hn]
    | single => exact baseName_append hn ""
    | double => exact baseName_append hn "/"
  · exact baseName_append hn p.text

/-- Behind the last slash of a path's text stands its last name, if it has one. -/
theorem baseName_text {p : Path} (hp : p.IsProper) (hne : p.parts ≠ []) :
    baseName p.text = p.name := by
  have hname : p.name ∈ p.parts := by
    rw [name, List.getLast?_eq_some_getLast hne]
    exact List.getLast_mem hne
  have hchild := baseName_text_child p.parent (hp _ hname).2
  rwa [child_parent_name hne] at hchild

/-! ### Paths above others -/

/-- That `p` is `q` or one of the directories that `q` lies in. -/
def AtOrAbove (p q : Path) : Prop := p.root = q.root ∧ p.parts <+: q.parts

/-- That `p` is one of the directories that `q` lies in. -/
def Above (p q : Path) : Prop := p.AtOrAbove q ∧ p ≠ q

namespace AtOrAbove
variable {p q r : Path} {m n : String}

theorem refl (p : Path) : p.AtOrAbove p := ⟨rfl, List.prefix_rfl⟩

theorem trans (h : p.AtOrAbove q) (h' : q.AtOrAbove r) : p.AtOrAbove r :=
  ⟨h.1.trans h'.1, h.2.trans h'.2⟩

theorem child (p : Path) (n : String) : p.AtOrAbove (p.child n) :=
  ⟨rfl, List.prefix_append ..⟩

theorem antisymm (h : p.AtOrAbove q) (h' : q.AtOrAbove p) : p = q := by
  obtain ⟨pr, ps⟩ := p
  obtain ⟨qr, qs⟩ := q
  have hr : pr = qr := h.1
  have hs : ps = qs := h.2.eq_of_length (Nat.le_antisymm h.2.length_le h'.2.length_le)
  rw [hr, hs]

theorem not_child (p : Path) (n : String) : ¬ (p.child n).AtOrAbove p := by
  intro h
  have hlen := h.2.length_le
  simp only [Path.child, List.length_append, List.length_singleton] at hlen
  omega

/-- Two entries of a directory are above the same path only if they have one name. -/
theorem child_eq (h : (p.child m).AtOrAbove q) (h' : (p.child n).AtOrAbove q) : m = n := by
  obtain ⟨xs, hx⟩ := h.2
  obtain ⟨ys, hy⟩ := h'.2
  have hxy := hx.trans hy.symm
  simp only [Path.child, List.append_assoc, List.append_cancel_left_eq, List.singleton_append,
    List.cons.injEq] at hxy
  exact hxy.1

end AtOrAbove

/-! ### The order of paths -/

/-- What is below a path shares its names and goes on with others. -/
theorem AtOrAbove.orderKey {p q : Path} (h : p.AtOrAbove q) :
    ∃ ns, q.orderKey = p.orderKey ++ ns ∧ q.parts = p.parts ++ ns := by
  obtain ⟨hr, ns, hns⟩ := h
  refine ⟨ns, ?_, hns.symm⟩
  simp only [Path.orderKey, hr, ← hns]
  split <;> simp

theorem orderKey_lt_of_above {p q : Path} (h : p.Above q) : p.orderKey < q.orderKey := by
  obtain ⟨ns, hk, hs⟩ := h.1.orderKey
  cases ns with
  | nil =>
    rw [List.append_nil] at hs
    exact absurd (h.1.antisymm ⟨h.1.1.symm, hs ▸ List.prefix_rfl⟩) h.2
  | cons n ns =>
    have hlt : p.orderKey ++ [] < p.orderKey ++ n :: ns :=
      List.append_left_lt (List.nil_lt_cons ..)
    rwa [List.append_nil, ← hk] at hlt

theorem orderKey_child (p : Path) (n : String) : (p.child n).orderKey = p.orderKey ++ [n] := by
  obtain ⟨ns, hk, hs⟩ := (AtOrAbove.child p n).orderKey
  have hns : ns = [n] := (List.append_cancel_left (hs.symm.trans rfl : p.parts ++ ns = p.parts ++ [n]))
  rw [hk, hns]

theorem orderKey_lt_of_atOrAbove_child {p a b : Path} {m n : String} (h : m < n)
    (ha : (p.child m).AtOrAbove a) (hb : (p.child n).AtOrAbove b) : a.orderKey < b.orderKey := by
  obtain ⟨xs, hx, -⟩ := ha.orderKey
  obtain ⟨ys, hy, -⟩ := hb.orderKey
  rw [hx, hy, orderKey_child, orderKey_child, List.append_assoc, List.append_assoc]
  refine List.append_left_lt ?_
  exact List.cons_lt_cons_iff.2 (.inl h)

theorem append_singleton_lt {ks : List String} {m n : String} : ks ++ [m] < ks ++ [n] ↔ m < n := by
  induction ks with
  | nil => simp [List.cons_lt_cons_iff]
  | cons k ks ih => simp [ih]

theorem le_child (p : Path) (m n : String) : (p.child m).le (p.child n) = decide (m ≤ n) := by
  rw [le, orderKey_child, orderKey_child, Bool.eq_iff_iff]
  simp only [append_singleton_lt, Bool.not_eq_true', decide_eq_false_iff_not, String.not_lt,
    decide_eq_true_eq]

theorem le_iff {p q : Path} : p.le q = true ↔ p.orderKey ≤ q.orderKey := by
  rw [le, Bool.not_eq_true', decide_eq_false_iff_not, not_lt]

theorem root_text_injective : Function.Injective Root.text := by
  intro r r' h
  cases r <;> cases r' <;> first | rfl | exact absurd h (by decide)

/-- The root of a path counts as a name that no proper path has. -/
theorem orderKey_ne_of_root {p q : Path} (hp : p.IsProper) (hr : p.root = .relative)
    (hr' : q.root ≠ .relative) : p.orderKey ≠ q.orderKey := by
  rw [Path.orderKey, Path.orderKey, if_pos hr, if_neg hr']
  intro h
  refine (hp q.root.text (h ▸ List.mem_cons_self ..)).2 ?_
  cases hroot : q.root with
  | relative => exact absurd hroot hr'
  | single => decide
  | double => decide

/-- A proper path is told by the names that decide the order. -/
theorem eq_of_orderKey_eq {p q : Path} (hp : p.IsProper) (hq : q.IsProper)
    (h : p.orderKey = q.orderKey) : p = q := by
  by_cases hr : p.root = .relative
  · have hr' : q.root = .relative := by
      by_contra hr'
      exact orderKey_ne_of_root hp hr hr' h
    rw [Path.orderKey, Path.orderKey, if_pos hr, if_pos hr'] at h
    obtain ⟨_, ms⟩ := p
    obtain ⟨_, ns⟩ := q
    rw [Path.mk.injEq]
    exact ⟨hr.trans hr'.symm, h⟩
  · have hr' : q.root ≠ .relative := fun hr' => orderKey_ne_of_root hq hr' hr h.symm
    rw [Path.orderKey, Path.orderKey, if_neg hr, if_neg hr'] at h
    obtain ⟨htext, hparts⟩ := List.cons.inj h
    obtain ⟨_, ms⟩ := p
    obtain ⟨_, ns⟩ := q
    rw [Path.mk.injEq]
    exact ⟨root_text_injective htext, hparts⟩

theorem le_antisymm_of_isProper {p q : Path} (hp : p.IsProper) (hq : q.IsProper)
    (h : p.le q = true) (h' : q.le p = true) : p = q :=
  eq_of_orderKey_eq hp hq (le_antisymm (le_iff.1 h) (le_iff.1 h'))

end DocTree.Path
