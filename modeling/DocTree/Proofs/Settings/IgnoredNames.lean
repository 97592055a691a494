import Mathlib
import DocTree.Proofs.Config
import DocTree.Proofs.Text
import DocTree.Proofs.Text.Blank

/-!
# Names to ignore in one text

A text lists names with commas and blanks around them (`Lists`). Reading it finds the names that it
lists and nothing else (`ignoreNames_eq_iff`), however many commas and blanks there are. So names stay
the same when they are written into one text and read again (`ignore_roundTrip`).
-/

namespace DocTree

namespace Settings
variable {s a b g : List Char} {n : String} {ns : List String} {v : Value}

/-- That a name can be listed: it is not empty, holds no comma, and has no blank at its ends. -/
structure IsListable (n : String) : Prop where
  ne_empty : n ≠ ""
  not_mem : ',' ∉ n.toList
  head : ∀ c ∈ n.toList.head?, Text.isBlank c = false
  last : ∀ c ∈ n.toList.getLast?, Text.isBlank c = false

/-- That this can stand around names: commas and blanks. -/
def IsGap (g : List Char) : Prop := ∀ c ∈ g, c = ',' ∨ Text.isBlank c = true

-- given by name, since the one that is found goes through all characters there are
instance (g : List Char) : Decidable (IsGap g) := List.decidableBAll _ g

/-- That the text is made of these names, in this order, with gaps around them. A gap between two names
has a comma in it. -/
inductive Lists : List Char → List String → Prop
  | none {g : List Char} (hg : IsGap g) : Lists g []
  | last {a b : List Char} (n : String) (ha : IsGap a) (hb : IsGap b) : Lists (a ++ n.toList ++ b) [n]
  | next {a g s : List Char} {ns : List String} (n : String) (ha : IsGap a) (hg : IsGap g)
      (hcomma : ',' ∈ g) (h : Lists s ns) : Lists (a ++ n.toList ++ g ++ s) (n :: ns)

/-! ## Gaps -/

theorem isGap_nil : IsGap [] := fun _ hc => nomatch hc

theorem isGap_append : IsGap (a ++ b) ↔ IsGap a ∧ IsGap b := List.forall_mem_append

theorem isGap_of_isBlank (h : ∀ c ∈ g, Text.isBlank c = true) : IsGap g := fun c hc => .inr (h c hc)

/-- The first comma of a gap has only blanks in front of it. -/
theorem IsGap.exists_eq_append (hg : IsGap g) (hcomma : ',' ∈ g) :
    ∃ a b, g = a ++ ',' :: b ∧ ',' ∉ a ∧ a.all Text.isBlank = true ∧ IsGap b := by
  obtain ⟨a, b, rfl, ha⟩ := List.eq_append_cons_of_mem hcomma
  obtain ⟨hfront, hback⟩ := isGap_append.1 hg
  refine ⟨a, b, rfl, ha, List.all_eq_true.2 fun c hc => ?_, (List.forall_mem_cons.1 hback).2⟩
  exact (hfront c hc).resolve_left fun h => ha (h ▸ hc)

theorem IsGap.all_isBlank (hg : IsGap g) (hcomma : ',' ∉ g) : g.all Text.isBlank = true :=
  List.all_eq_true.2 fun c hc => (hg c hc).resolve_left fun h => hcomma (h ▸ hc)

theorem Lists.gap_append (hg : IsGap g) (h : Lists s ns) : Lists (g ++ s) ns := by
  cases h with
  | none hs => exact .none (isGap_append.2 ⟨hg, hs⟩)
  | last n ha hb =>
    rw [List.append_assoc, ← List.append_assoc, ← List.append_assoc]
    exact .last n (isGap_append.2 ⟨hg, ha⟩) hb
  | next n ha hg' hcomma h =>
    simp only [← List.append_assoc]
    exact .next n (isGap_append.2 ⟨hg, ha⟩) hg' hcomma h

/-! ## Reading a text part by part -/

/-- The name in a text without commas, if there is one. -/
def nameIn? (s : List Char) : Option String :=
  if Text.trim s = [] then none else some (.ofList (Text.trim s))

theorem isGap_of_nameIn? (h : nameIn? s = none) : IsGap s := by
  unfold nameIn? at h
  split at h
  · rename_i hs
    exact isGap_of_isBlank (List.all_eq_true.1 (Text.trim_eq_nil_iff.1 hs))
  · cases h

theorem nameIn?_eq_some : nameIn? s = some n ↔ Text.trim s = n.toList ∧ n ≠ "" := by
  rw [nameIn?, Option.ite_none_left_eq_some, Option.some_inj, ne_eq, ← String.toList_eq_nil_iff]
  constructor
  · rintro ⟨hs, rfl⟩
    rw [String.toList_ofList]
    exact ⟨rfl, hs⟩
  · rintro ⟨hs, hn⟩
    rw [hs, String.ofList_toList]
    exact ⟨hn, rfl⟩

theorem nameIn?_congr (h : Text.trim a = Text.trim b) : nameIn? a = nameIn? b := by
  rw [nameIn?, nameIn?, h]

theorem IsListable.nameIn?_toList (h : IsListable n) : nameIn? n.toList = some n :=
  nameIn?_eq_some.2 ⟨Text.trim_eq_self h.head h.last, h.ne_empty⟩

theorem isListable_of_nameIn? (h : nameIn? s = some n) (hcomma : ',' ∉ s) : IsListable n := by
  obtain ⟨hs, hn⟩ := nameIn?_eq_some.1 h
  refine ⟨hn, fun hmem => hcomma (Text.mem_of_mem_trim (hs ▸ hmem)), fun c hc => ?_, fun c hc => ?_⟩
  · exact Text.isBlank_of_mem_head?_trim (hs ▸ hc)
  · exact Text.isBlank_of_mem_getLast?_trim (hs ▸ hc)

theorem isListable_iff : IsListable n ↔ ',' ∉ n.toList ∧ nameIn? n.toList = some n :=
  ⟨fun h => ⟨h.not_mem, h.nameIn?_toList⟩, fun h => isListable_of_nameIn? h.2 h.1⟩

instance (n : String) : Decidable (IsListable n) := decidable_of_iff _ isListable_iff.symm

example : IsListable "a b" ∧ ¬IsListable "a b\u3000" := by decide +kernel

theorem exists_eq_of_nameIn? (h : nameIn? s = some n) :
    ∃ a b, s = a ++ n.toList ++ b ∧ IsGap a ∧ IsGap b := by
  obtain ⟨a, b, hs, ha, hb⟩ := Text.exists_eq_append_trim s
  rw [(nameIn?_eq_some.1 h).1] at hs
  exact ⟨a, b, hs, isGap_of_isBlank ha, isGap_of_isBlank hb⟩

theorem ignoreNames_ofList (s : List Char) :
    ignoreNames (.ofList s) = (Text.splitAt ',' s).filterMap nameIn? := by
  rw [ignoreNames, String.partsAt, String.toList_ofList, List.map_map]
  induction Text.splitAt ',' s with
  | nil => rfl
  | cons p ps ih =>
    rw [List.map_cons, List.filter_cons, ih, List.filterMap_cons, nameIn?, Function.comp_apply,
      Text.trimBlank_ofList]
    by_cases hp : Text.trim p = [] <;> simp [hp]

theorem ignoreNames_append_comma (a b : List Char) : ignoreNames (.ofList (a ++ ',' :: b)) =
    ignoreNames (.ofList a) ++ ignoreNames (.ofList b) := by
  rw [ignoreNames_ofList, Text.splitAt_append_cons, List.filterMap_append, ignoreNames_ofList,
    ignoreNames_ofList]

theorem ignoreNames_of_not_mem (h : ',' ∉ s) : ignoreNames (.ofList s) = (nameIn? s).toList := by
  rw [ignoreNames_ofList, Text.splitAt_of_not_mem h, List.filterMap_cons, List.filterMap_nil]
  cases nameIn? s <;> rfl

theorem ignoreNames_blank_cons {c : Char} (hc : Text.isBlank c = true) (s : List Char) :
    ignoreNames (.ofList (c :: s)) = ignoreNames (.ofList s) := by
  have hcomma : c ≠ ',' := by
    rintro rfl
    cases hc
  obtain ⟨p, ps, hs⟩ := Text.exists_splitAt_eq_cons ',' s
  have hp : nameIn? (c :: p) = nameIn? p :=
    nameIn?_congr (Text.trim_blank_append (b := [c]) (by simpa using hc) p)
  rw [ignoreNames_ofList, ignoreNames_ofList, Text.splitAt_cons_of_ne hcomma hs, hs,
    List.filterMap_cons, List.filterMap_cons, hp]

/-- A gap in front of a text does not count. -/
theorem ignoreNames_gap_append (hg : IsGap g) (s : List Char) :
    ignoreNames (.ofList (g ++ s)) = ignoreNames (.ofList s) := by
  induction g with
  | nil => rfl
  | cons c g ih =>
    obtain ⟨hc, hrest⟩ := List.forall_mem_cons.1 hg
    rcases hc with rfl | hc
    · exact (ignoreNames_append_comma [] (g ++ s)).trans (ih hrest)
    · exact (ignoreNames_blank_cons hc (g ++ s)).trans (ih hrest)

theorem ignoreNames_gap (hg : IsGap g) : ignoreNames (.ofList g) = [] := by
  rw [← List.append_nil g, ignoreNames_gap_append hg]
  rfl

theorem IsListable.ignoreNames_append_blank (hn : IsListable n) (hcomma : ',' ∉ b)
    (hb : b.all Text.isBlank = true) : ignoreNames (.ofList (n.toList ++ b)) = [n] := by
  rw [ignoreNames_of_not_mem (List.not_mem_append hn.not_mem hcomma),
    nameIn?_congr (Text.trim_append_blank n.toList hb), hn.nameIn?_toList]
  rfl

/-- What is read behind a name goes on behind the first comma of the gap. -/
theorem IsListable.ignoreNames_append (hn : IsListable n) (hg : IsGap g) (hcomma : ',' ∈ g)
    (s : List Char) :
    ignoreNames (.ofList (n.toList ++ (g ++ s))) = n :: ignoreNames (.ofList s) := by
  obtain ⟨a, b, rfl, hmem, ha, hb⟩ := hg.exists_eq_append hcomma
  have hcut : n.toList ++ (a ++ ',' :: b ++ s) = n.toList ++ a ++ ',' :: (b ++ s) := by simp
  rw [hcut, ignoreNames_append_comma, hn.ignoreNames_append_blank hmem ha,
    ignoreNames_gap_append hb]
  rfl

theorem IsListable.ignoreNames_append_gap (hn : IsListable n) (hg : IsGap g) :
    ignoreNames (.ofList (n.toList ++ g)) = [n] := by
  by_cases hcomma : ',' ∈ g
  · rw [← List.append_nil g, hn.ignoreNames_append hg hcomma]
    rfl
  · exact hn.ignoreNames_append_blank hcomma (hg.all_isBlank hcomma)

/-! ## The names that a text lists -/

theorem ignoreNames_of_lists (h : Lists s ns) (hns : ∀ n ∈ ns, IsListable n) :
    ignoreNames (.ofList s) = ns := by
  induction h with
  | none hg => exact ignoreNames_gap hg
  | last n ha hb =>
    rw [List.append_assoc, ignoreNames_gap_append ha]
    exact (hns n (List.mem_singleton_self n)).ignoreNames_append_gap hb
  | next n ha hg hcomma _ ih =>
    obtain ⟨hn, hns⟩ := List.forall_mem_cons.1 hns
    rw [List.append_assoc, List.append_assoc, ignoreNames_gap_append ha,
      hn.ignoreNames_append hg hcomma, ih hns]

theorem lists_of_nameIn? (s : List Char) : Lists s (nameIn? s).toList := by
  cases h : nameIn? s with
  | none => exact .none (isGap_of_nameIn? h)
  | some n =>
    obtain ⟨a, b, rfl, ha, hb⟩ := exists_eq_of_nameIn? h
    exact .last n ha hb

/-- A part with its comma, put in front of a text, adds the name in it. -/
theorem Lists.part_append (p : List Char) (h : Lists s ns) :
    Lists (p ++ ',' :: s) ((nameIn? p).toList ++ ns) := by
  have hcomma : IsGap [','] := by simp [IsGap]
  rw [List.append_cons]
  cases hp : nameIn? p with
  | none => exact h.gap_append (isGap_append.2 ⟨isGap_of_nameIn? hp, hcomma⟩)
  | some n =>
    obtain ⟨a, b, rfl, ha, hb⟩ := exists_eq_of_nameIn? hp
    rw [List.append_assoc _ b]
    exact .next n ha (isGap_append.2 ⟨hb, hcomma⟩) (by simp) h

theorem lists_joinWith (ps : List (List Char)) :
    Lists (Text.joinWith [','] ps) (ps.filterMap nameIn?) := by
  induction ps with
  | nil => exact .none isGap_nil
  | cons p ps ih =>
    have hnames : (p :: ps).filterMap nameIn? = (nameIn? p).toList ++ ps.filterMap nameIn? := by
      rw [List.filterMap_cons]
      cases nameIn? p <;> rfl
    rw [hnames]
    cases ps with
    | nil =>
      rw [List.filterMap_nil, List.append_nil]
      exact lists_of_nameIn? p
    | cons q qs =>
      rw [Text.joinWith_cons p (List.cons_ne_nil q qs)]
      exact ih.part_append p

theorem lists_ignoreNames (s : String) : Lists s.toList (ignoreNames s) := by
  have h := lists_joinWith (Text.splitAt ',' s.toList)
  rwa [Text.joinWith_splitAt, ← ignoreNames_ofList, String.ofList_toList] at h

theorem isListable_of_mem_ignoreNames {s : String} (hn : n ∈ ignoreNames s) : IsListable n := by
  rw [← String.ofList_toList (s := s), ignoreNames_ofList] at hn
  obtain ⟨p, hp, hname⟩ := List.mem_filterMap.1 hn
  exact isListable_of_nameIn? hname (Text.not_mem_of_mem_splitAt hp)

/-- The names that are read are those that the text lists. -/
theorem ignoreNames_eq_iff {s : String} :
    ignoreNames s = ns ↔ (∀ n ∈ ns, IsListable n) ∧ Lists s.toList ns := by
  constructor
  · rintro rfl
    exact ⟨fun n hn => isListable_of_mem_ignoreNames hn, lists_ignoreNames s⟩
  · rintro ⟨hns, h⟩
    rw [← String.ofList_toList (s := s)]
    exact ignoreNames_of_lists h hns

example : ignoreNames " ,build,\u00a0drafts\u3000,,a b " = ["build", "drafts", "a b"] := by
  decide +kernel

/-! ## Writing names into one text -/

/-- Names list themselves, whichever gap with a comma is put between them. -/
theorem lists_intercalate {sep : String} (hsep : IsGap sep.toList) (hcomma : ',' ∈ sep.toList)
    (ns : List String) : Lists (sep.intercalate ns).toList ns := by
  induction ns with
  | nil => exact .none isGap_nil
  | cons n ns ih =>
    cases ns with
    | nil =>
      rw [String.intercalate_singleton, ← List.append_nil n.toList]
      exact .last (a := []) n isGap_nil isGap_nil
    | cons m ms =>
      rw [String.intercalate_cons_cons, String.toList_append, String.toList_append]
      exact .next (a := []) n isGap_nil hsep hcomma ih

/-- That the value is this text. Halves of surrogate pairs count as they are shown. -/
inductive IsText : Value → String → Prop
  | str (s : String) : IsText (.str s) s
  | unpaired (us : List Text.CodePoint) : IsText (.unpaired us) (Text.shownText us)

theorem IsText.checkIgnore_eq {s : String} (h : IsText v s) :
    checkIgnore v = .ok (ignoreNames s) := by
  cases h <;> rfl

/-- Where nothing else is given, the other settings have their defaults. -/
theorem ofEntries_ignore (h : checkIgnore v = .ok ns) :
    ofEntries [(.str "ignore", v)] = .ok { ignore := ns } := by
  refine ofEntries_eq_ok.2 fun f => ?_
  cases f with
  | ignore =>
    rw [Setting.ofEntries_eq, Validation.within_eq_ok]
    exact h
  | _ => rfl

theorem IsText.ofEntries_intercalate {sep : String} (hv : IsText v (sep.intercalate ns))
    (hns : ∀ n ∈ ns, IsListable n) (hsep : IsGap sep.toList) (hcomma : ',' ∈ sep.toList) :
    ofEntries [(.str "ignore", v)] = .ok { ignore := ns } := by
  have hread : ignoreNames (sep.intercalate ns) = ns :=
    ignoreNames_eq_iff.2 ⟨hns, lists_intercalate hsep hcomma ns⟩
  exact ofEntries_ignore (hread ▸ hv.checkIgnore_eq)

/-- Names that can be listed are read again from one text in which commas, alone or with a space
behind each, stand between them. Whatever a text is, the names read from it can be listed, are what
it lists, and are read again when they are written with commas. -/
theorem ignore_roundTrip :
    (∀ ns : List String, (∀ n ∈ ns, IsListable n) → ∀ sep ∈ [",", ", "], ∀ v : Value,
      IsText v (sep.intercalate ns) → ofEntries [(.str "ignore", v)] = .ok { ignore := ns }) ∧
    ∀ (v : Value) (s : String), IsText v s → ∃ ns : List String,
      ofEntries [(.str "ignore", v)] = .ok { ignore := ns } ∧ (∀ n ∈ ns, IsListable n) ∧
      Lists s.toList ns ∧
      ofEntries [(.str "ignore", .str (",".intercalate ns))] = .ok { ignore := ns } := by
  constructor
  · intro ns hns sep hsep v hv
    obtain ⟨hgap, hcomma⟩ : IsGap sep.toList ∧ ',' ∈ sep.toList := by
      fin_cases hsep <;> decide +kernel
    exact hv.ofEntries_intercalate hns hgap hcomma
  · intro v s hv
    have hns : ∀ n ∈ ignoreNames s, IsListable n := fun n hn => isListable_of_mem_ignoreNames hn
    exact ⟨ignoreNames s, ofEntries_ignore hv.checkIgnore_eq, hns, lists_ignoreNames s,
      (IsText.str _).ofEntries_intercalate hns (by decide +kernel) (by decide +kernel)⟩

/-- Two names with a comma and a space between them, and half of a surrogate pair among blanks and
commas. -/
theorem ignore_roundTrip_sample :
    ofEntries [(.str "ignore", .str "build, a b")] = .ok { ignore := ["build", "a b"] } ∧
      ∃ ns, ofEntries [(.str "ignore",
          .unpaired [.char ',', .char '\u2003', .half 0xd800, .char ','])] = .ok { ignore := ns } ∧
        ofEntries [(.str "ignore", .str (",".intercalate ns))] = .ok { ignore := ns } := by
  obtain ⟨hwritten, hread⟩ := ignore_roundTrip
  have htext : ", ".intercalate ["build", "a b"] = "build, a b" := by decide +kernel
  obtain ⟨ns, hns, -, -, hagain⟩ :=
    hread _ _ (.unpaired [.char ',', .char '\u2003', .half 0xd800, .char ','])
  refine ⟨hwritten ["build", "a b"] (by decide +kernel) ", " (by simp) _ ?_, ns, hns, hagain⟩
  rw [htext]
  exact .str _

end Settings

namespace Config
variable {fs : FileSystem} {environment : List (String × String)} {asked : List (String × Value)}
  {st : Settings}

/-- What the environment lists is ignored, if nothing is asked for, whatever the configuration file
says. -/
theorem ignore_eq_iff_of_load (hasked : (asked.map Prod.fst).Nodup)
    (h : load fs environment asked = .ok st)
    (hnone : askedFor? asked Setting.ignore.name = none) {s : String}
    (hs : fromEnvironment? environment Setting.ignore.name = some s) {ns : List String} :
    st.ignore = ns ↔ (∀ n ∈ ns, Settings.IsListable n) ∧ Settings.Lists s.toList ns := by
  obtain ⟨file, -, hst⟩ := exists_check_of_load hasked h
  have hread : Settings.checkIgnore (.str s) = .ok st.ignore := by
    have hignore := hst .ignore
    rwa [effective, hnone, hs] at hignore
  rw [← Except.ok.inj hread]
  exact Settings.ignoreNames_eq_iff

end Config
end DocTree
