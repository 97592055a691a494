import Mathlib
import DocTree.Proofs.Derived
import DocTree.Proofs.ItemType
import DocTree.Proofs.SourceFile

/-!
# The marker that wins

Of the markers that are names of the paths the earliest wins (`choose?_of_isEarliest`), and the last
path of this name is chosen; without a marker it is the least Markdown file (`choose?_of_forall`). The
item of the source that is chosen has the type of the marker, and is refused if there is none
(`newItem_of_choose?`).
-/

namespace DocTree.SourceFile
variable {ps : List Path} {p q : Path} {n : String} {m : String × ItemType}

/-- That one of the paths has this name, in any case of letters. -/
def HasName (ps : List Path) (n : String) : Prop := ∃ p ∈ ps, p.name.lowerCase = n

/-- That `m` is the earliest marker that is the name of a path. -/
structure IsEarliest (ps : List Path) (m : String × ItemType) : Prop where
  present : HasName ps m.1
  earliest : ∃ before after, ItemType.markers = before ++ m :: after ∧
    ∀ m' ∈ before, ¬ HasName ps m'.1

/-- That `q` is the least of the paths whose suffix is that of Markdown files, in any case of
letters. -/
structure IsLeastMarkdown (ps : List Path) (q : Path) : Prop where
  mem : q ∈ ps
  suffix : q.suffix.lowerCase = ".md"
  least : ∀ p ∈ ps, p.suffix.lowerCase = ".md" → q.le p = true

/-! ### Names -/

theorem named?_eq_none_iff : named? ps n = none ↔ ¬ HasName ps n := by
  simp [named?, HasName]

/-- The last path of a name is the one that is found. -/
theorem named?_eq_some_iff : named? ps n = some p ↔ p.name.lowerCase = n ∧
    ∃ before after, ps = before ++ p :: after ∧ ¬ HasName after n := by
  rw [named?, List.find?_eq_some_iff_append, beq_iff_eq, and_congr_right_iff]
  intro _
  constructor
  · rintro ⟨after, before, hps, hafter⟩
    refine ⟨before.reverse, after.reverse, ?_, ?_⟩
    · rw [← List.reverse_reverse ps, hps]
      simp
    · rintro ⟨q, hq, hn⟩
      have hne := hafter q (List.mem_reverse.1 hq)
      simp [hn] at hne
  · rintro ⟨before, after, rfl, hafter⟩
    refine ⟨after.reverse, before.reverse, by simp, fun q hq => ?_⟩
    rw [Bool.not_eq_true', beq_eq_false_iff_ne]
    exact fun hn => hafter ⟨q, List.mem_reverse.1 hq, hn⟩

theorem lowerCase_of_named? (h : named? ps n = some p) : p.name.lowerCase = n :=
  (named?_eq_some_iff.1 h).1

theorem mem_of_named? (h : named? ps n = some p) : p ∈ ps := by
  obtain ⟨-, before, after, rfl, -⟩ := named?_eq_some_iff.1 h
  simp

theorem HasName.exists_named? (h : HasName ps n) : ∃ p, named? ps n = some p := by
  rw [← Option.ne_none_iff_exists', ne_eq, named?_eq_none_iff, not_not]
  exact h

/-! ### The least path -/

theorem least?_eq_none_iff : least? ps = none ↔ ps = [] := by
  cases ps with
  | nil => exact iff_of_true rfl rfl
  | cons p ps =>
    rw [least?]
    split <;> simp

theorem le_of_least? (h : least? ps = some q) (hp : p ∈ ps) : q.le p = true := by
  induction ps generalizing q with
  | nil => cases hp
  | cons r ps ih =>
    rw [least?] at h
    split at h
    · rename_i hnone
      obtain rfl := least?_eq_none_iff.1 hnone
      cases h
      rw [List.mem_singleton.1 hp]
      exact Path.le_iff.2 le_rfl
    · rename_i r' hr'
      cases h
      rw [Path.le_iff]
      -- the lesser of two paths is no later than both
      have hboth : (if r.le r' then r else r').orderKey ≤ r.orderKey ∧
          (if r.le r' then r else r').orderKey ≤ r'.orderKey := by
        by_cases hle : r.le r' = true
        · rw [if_pos hle]
          exact ⟨le_rfl, Path.le_iff.1 hle⟩
        · rw [if_neg hle]
          rw [Path.le_iff, not_le] at hle
          exact ⟨hle.le, le_rfl⟩
      rcases List.mem_cons.1 hp with rfl | hp
      · exact hboth.1
      · exact hboth.2.trans (Path.le_iff.1 (ih hr' hp))

theorem isLeastMarkdown_of_least? (h : least? (ps.filter isMarkdown) = some q) :
    IsLeastMarkdown ps q := by
  obtain ⟨hq, hmd⟩ := List.mem_filter.1 (mem_of_least? h)
  refine ⟨hq, eq_of_beq hmd, fun p hp hsuffix => le_of_least? h ?_⟩
  exact List.mem_filter.2 ⟨hp, beq_iff_eq.2 hsuffix⟩

/-! ### What is chosen -/

theorem IsEarliest.mem (h : IsEarliest ps m) : m ∈ ItemType.markers := by
  obtain ⟨before, after, hmarkers, -⟩ := h.earliest
  simp [hmarkers]

/-- One of the markers is the earliest, or none is there. -/
theorem exists_isEarliest_or (ps : List Path) :
    (∃ m, IsEarliest ps m) ∨ ∀ m ∈ ItemType.markers, ¬ HasName ps m.1 := by
  cases hmarker : marker? ps with
  | none =>
    refine .inr fun m hm => named?_eq_none_iff.1 ?_
    exact List.findSome?_eq_none_iff.1 hmarker m hm
  | some p =>
    obtain ⟨before, m, after, hmarkers, hm, hbefore⟩ := List.findSome?_eq_some_iff.1 hmarker
    refine .inl ⟨m, ⟨p, mem_of_named? hm, lowerCase_of_named? hm⟩, before, after, hmarkers, ?_⟩
    exact fun m' hm' => named?_eq_none_iff.1 (hbefore m' hm')

/-- The last path that has the name of the earliest marker is chosen. -/
theorem choose?_of_isEarliest (h : IsEarliest ps m) : choose? ps = named? ps m.1 := by
  obtain ⟨p, hp⟩ := h.present.exists_named?
  obtain ⟨before, after, hmarkers, hbefore⟩ := h.earliest
  have hmarker : marker? ps = some p := by
    refine List.findSome?_eq_some_iff.2 ⟨before, m, after, hmarkers, hp, fun m' hm' => ?_⟩
    exact named?_eq_none_iff.2 (hbefore m' hm')
  rw [choose?, hmarker, hp, Option.some_or]

theorem IsEarliest.unique {m' : String × ItemType} (h : IsEarliest ps m) (h' : IsEarliest ps m') :
    m = m' := by
  have hkeys : ∀ a ∈ ItemType.markers, ∀ b ∈ ItemType.markers, a.1 = b.1 → a = b := by decide
  obtain ⟨p, hp⟩ := h.present.exists_named?
  have hp' : named? ps m'.1 = some p := by
    rw [← choose?_of_isEarliest h', choose?_of_isEarliest h, hp]
  refine hkeys m h.mem m' h'.mem ?_
  rw [← lowerCase_of_named? hp, lowerCase_of_named? hp']

/-- Without a marker, the least Markdown file is chosen. -/
theorem choose?_of_forall (h : ∀ m ∈ ItemType.markers, ¬ HasName ps m.1) :
    choose? ps = least? (ps.filter isMarkdown) := by
  have hmarker : marker? ps = none :=
    List.findSome?_eq_none_iff.2 fun m hm => named?_eq_none_iff.2 (h m hm)
  rw [choose?, hmarker, Option.none_or]

theorem choose?_eq_none_iff : choose? ps = none ↔
    (∀ m ∈ ItemType.markers, ¬ HasName ps m.1) ∧ ∀ p ∈ ps, p.suffix.lowerCase ≠ ".md" := by
  rcases exists_isEarliest_or ps with ⟨m, hm⟩ | hnone
  · rw [choose?_of_isEarliest hm, named?_eq_none_iff]
    exact iff_of_false (not_not.2 hm.present) fun h => h.1 m hm.mem hm.present
  · rw [choose?_of_forall hnone, least?_eq_none_iff, List.filter_eq_nil_iff, and_iff_right hnone]
    simp only [isMarkdown, beq_iff_eq, ne_eq]

theorem name_of_choose? (h : choose? ps = some q) :
    (∃ m, IsEarliest ps m ∧ q.name.lowerCase = m.1) ∨
      (∀ m ∈ ItemType.markers, ¬ HasName ps m.1) ∧ IsLeastMarkdown ps q := by
  rcases exists_isEarliest_or ps with ⟨m, hm⟩ | hnone
  · rw [choose?_of_isEarliest hm] at h
    exact .inl ⟨m, hm, lowerCase_of_named? h⟩
  · rw [choose?_of_forall hnone] at h
    exact .inr ⟨hnone, isLeastMarkdown_of_least? h⟩

/-- An item whose source has a proper path is refused if the name of the source is unknown, else it has
the type that the name tells. -/
theorem newItem_of_isProper (hq : q.IsProper) (s : Store) (files : List String)
    (children : List (Fin s.size)) :
    (ItemType.ofFileName q.name = .unknown ∧
      ∃ id, (s.newItem q.text files children).2 = .raised id) ∨
    ItemType.ofFileName q.name ≠ .unknown ∧
      ∃ id, (s.newItem q.text files children).2 = .returned id ∧
        ((s.newItem q.text files children).1.get? id).map Item.type =
          some (ItemType.ofFileName q.name) := by
  have htype := ItemType.ofPath_text hq
  obtain ⟨hget, hraised⟩ := Store.newItem_spec s q.text files children
  rw [← ItemType.ofPath, htype] at hraised
  by_cases hunknown : ItemType.ofFileName q.name = .unknown
  · exact .inl ⟨hunknown, hraised.2 hunknown⟩
  · refine .inr ⟨hunknown, ?_⟩
    cases hmade : (s.newItem q.text files children).2 with
    | raised id => exact absurd (hraised.1 ⟨id, hmade⟩) hunknown
    | returned id =>
      rw [hmade, Store.Made.id] at hget
      refine ⟨id, rfl, ?_⟩
      rw [hget, Option.map_some, Item.type_ofPath, htype]

/-- No source is chosen just if no path is named as a marker or as a Markdown file. The item of a source
that is chosen has the type of the earliest marker among the names; if none is there, the source is the
least Markdown file, and the item is refused. -/
theorem newItem_of_choose? (texts : List String) :
    (choose? (texts.map Path.parse) = none ↔
      (∀ m ∈ ItemType.markers, ¬ HasName (texts.map Path.parse) m.1) ∧
        ∀ p ∈ texts.map Path.parse, p.suffix.lowerCase ≠ ".md") ∧
    ∀ q, choose? (texts.map Path.parse) = some q → q ∈ texts.map Path.parse ∧
      ∀ (s : Store) (files : List String) (children : List (Fin s.size)),
        (∃ m id, IsEarliest (texts.map Path.parse) m ∧
          (s.newItem q.text files children).2 = .returned id ∧
            ((s.newItem q.text files children).1.get? id).map Item.type = some m.2) ∨
        (∀ m ∈ ItemType.markers, ¬ HasName (texts.map Path.parse) m.1) ∧
          IsLeastMarkdown (texts.map Path.parse) q ∧
            ∃ id, (s.newItem q.text files children).2 = .raised id := by
  refine ⟨choose?_eq_none_iff, fun q hq => ?_⟩
  have hmem := mem_of_choose? hq
  refine ⟨hmem, fun s files children => ?_⟩
  have hproper : q.IsProper := by
    obtain ⟨text, -, rfl⟩ := List.mem_map.1 hmem
    exact Path.isProper_parse text
  -- the name of the source tells which of the two it is
  rcases newItem_of_isProper hproper s files children with ⟨hunknown, hraised⟩ | ⟨hknown, hmade⟩
  · rw [ItemType.ofFileName_eq_unknown_iff] at hunknown
    rcases name_of_choose? hq with ⟨m, hm, hname⟩ | ⟨hnone, hleast⟩
    · exact absurd hname (hunknown m hm.mem)
    · exact .inr ⟨hnone, hleast, hraised⟩
  · obtain ⟨id, hid, htype⟩ := hmade
    rcases name_of_choose? hq with ⟨m, hm, hname⟩ | ⟨hnone, hleast⟩
    · rw [ItemType.ofFileName_of_mem hm.mem hname] at htype
      exact .inl ⟨m, id, hm, hid, htype⟩
    · rw [ne_eq, ItemType.ofFileName_eq_unknown_iff] at hknown
      exact absurd (fun m hm hname => hnone m hm ⟨q, hmem, hname⟩) hknown

/-- The document wins over the tag that is listed in front of it. -/
theorem newItem_of_choose?_sample :
    choose? (["a/b.md", "TAG.md", "b/Readme.MD"].map Path.parse) =
      some ⟨.relative, ["b", "Readme.MD"]⟩ ∧
    ∃ id, (Store.empty.newItem "b/Readme.MD" [] []).2 = .returned id ∧
      ((Store.empty.newItem "b/Readme.MD" [] []).1.get? id).map Item.type = some .document := by
  have hchoose : choose? (["a/b.md", "TAG.md", "b/Readme.MD"].map Path.parse) =
      some ⟨.relative, ["b", "Readme.MD"]⟩ := by decide +kernel
  have htext : Path.text ⟨.relative, ["b", "Readme.MD"]⟩ = "b/Readme.MD" := by decide +kernel
  have hearliest : IsEarliest (["a/b.md", "TAG.md", "b/Readme.MD"].map Path.parse)
      ("readme.md", .document) := by
    have hnames : ∀ p ∈ ["a/b.md", "TAG.md", "b/Readme.MD"].map Path.parse,
        p.name.lowerCase ≠ "document.md" := by decide +kernel
    refine ⟨⟨_, mem_of_choose? hchoose, by decide +kernel⟩, [("document.md", .document)], _, rfl, ?_⟩
    rintro m hm ⟨p, hp, hname⟩
    rw [List.mem_singleton.1 hm] at hname
    exact hnames p hp hname
  obtain ⟨-, hmade⟩ := (newItem_of_choose? _).2 _ hchoose
  rw [htext] at hmade
  refine ⟨hchoose, ?_⟩
  rcases hmade .empty [] [] with ⟨m, id, hm, hid, htype⟩ | ⟨hnone, -⟩
  · obtain rfl := hm.unique hearliest
    exact ⟨id, hid, htype⟩
  · exact absurd hearliest.present (hnone _ hearliest.mem)

end DocTree.SourceFile
