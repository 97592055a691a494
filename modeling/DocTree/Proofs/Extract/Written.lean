import Mathlib
import DocTree.Proofs.Extract
import DocTree.Proofs.FrontMatter
import DocTree.Proofs.Yaml.QuotedLines

/-!
# Front matter written out

Front matter with keys and values in single quotes is read back: a text that is written so gives just
these named texts, in their order, in front of those of the body (`extract_written`).
-/

namespace DocTree

namespace FrontMatter
variable {ps : List (String × String)} {p : String × String} {body : List Char}

/-- A text with these entries for front matter, key and value in single quotes, and a body. -/
def written (ps : List (String × String)) (body : String) : String :=
  .ofList (['-', '-', '-', '\n'] ++ ps.flatMap (fun p => Yaml.quotedLine p ++ ['\n']) ++
    ['-', '-', '-', '\n'] ++ body.toList)

/-- Whether all of a text may stand in a line of YAML. -/
def isWritable (s : String) : Bool := s.toList.all fun c => Yaml.isAllowed c && !Yaml.isBreak c

theorem isOneLine_of_isWritable {s : String} (h : isWritable s = true) :
    Yaml.isOneLine s.toList = true := by
  rw [isWritable, List.all_eq_true] at h
  rw [Yaml.isOneLine, List.all_eq_true]
  intro c hc
  have hc' := h c hc
  rw [Bool.and_eq_true, Bool.not_eq_true'] at hc'
  have hnull : (c == '\x00') = false := by
    rw [beq_eq_false_iff_ne]
    rintro rfl
    cases hc'.1
  rw [Yaml.isLineEnd, hnull, hc'.2]
  rfl

/-- A body whose leading white space ends no line is left as it is. -/
theorem dropBlankLines_lines (h : '\n' ∉ body.takeWhile Text.isBlank) :
    dropBlankLines (lines body) = lines body := by
  obtain ⟨l, ls, hlines⟩ := Text.exists_splitAt_eq_cons '\n' body
  rw [lines, hlines]
  cases ls with
  | nil => rfl
  | cons m ls =>
    -- the first line is closed, so if it were blank, its end would be among the leading blanks
    have hbody : body = l ++ '\n' :: join (m :: ls) := by
      rw [← join_cons l (by simp), join, ← hlines, Text.joinWith_splitAt]
    rw [dropBlankLines, if_neg]
    intro hblank
    rw [isBlankLine, List.all_eq_true] at hblank
    apply h
    rw [hbody, List.takeWhile_append_of_pos hblank, List.takeWhile_cons_of_pos isBlank_newline]
    simp

theorem join_map_quotedLine (p : String × String) (ps : List (String × String)) :
    join ((p :: ps).map Yaml.quotedLine) = Yaml.quotedLine p ++ Yaml.furtherLines ps := by
  induction ps generalizing p with
  | nil => simp [join, Text.joinWith, Yaml.furtherLines]
  | cons q ps ih =>
    have hne : (q :: ps).map Yaml.quotedLine ≠ [] := by simp
    rw [List.map_cons, join_cons _ hne, ih]
    rfl

theorem not_mem_quotedLine (hk : Yaml.isOneLine p.1.toList = true)
    (hv : Yaml.isOneLine p.2.toList = true) : '\n' ∉ Yaml.quotedLine p := by
  have hline : (Yaml.quotedLine p).all (!Yaml.isLineEnd ·) = true :=
    Yaml.all_quotedLine rfl rfl rfl hk hv
  intro hmem
  cases List.all_eq_true.1 hline _ hmem

theorem toList_written (ps : List (String × String)) (body : String) :
    (written ps body).toList = join (['-', '-', '-'] :: (ps.map Yaml.quotedLine ++
      ['-', '-', '-'] :: lines body.toList)) := by
  have hlines : lines body.toList ≠ [] := Text.splitAt_ne_nil _
  have hpairs : ps.flatMap (fun p => Yaml.quotedLine p ++ ['\n']) ++ ['-', '-', '-', '\n'] ++
      body.toList = join (ps.map Yaml.quotedLine ++ ['-', '-', '-'] :: lines body.toList) := by
    induction ps with
    | nil =>
      rw [List.map_nil, List.nil_append, join_cons _ hlines, join_lines]
      rfl
    | cons p ps ih =>
      rw [List.map_cons, List.cons_append, join_cons _ (by simp), ← ih, List.flatMap_cons]
      simp
  rw [written, String.toList_ofList, join_cons _ (by simp), ← hpairs]
  simp

/-- A pair that can be an entry: both texts of one line, the key short enough to be a key. -/
structure IsEntry (p : String × String) : Prop where
  name : isWritable p.1 = true
  value : isWritable p.2 = true
  short : (Yaml.singleQuoted p.1.toList).length ≤ 1024

theorem IsEntry.isLine (h : IsEntry p) : Yaml.IsLine p :=
  ⟨isOneLine_of_isWritable h.name, isOneLine_of_isWritable h.value, h.short⟩

theorem header?_written {body : String} (h : ∀ q ∈ p :: ps, IsEntry q)
    (hbody : '\n' ∉ body.toList.takeWhile Text.isBlank) :
    header? (written (p :: ps) body).toList =
      some (Yaml.quotedLine p ++ Yaml.furtherLines ps, body.toList) := by
  have hlines : ∀ l ∈ (p :: ps).map Yaml.quotedLine, '\n' ∉ l := by
    intro l hl
    obtain ⟨q, hq, rfl⟩ := List.mem_map.1 hl
    exact not_mem_quotedLine (h q hq).isLine.key (h q hq).isLine.value
  have hall : lines (written (p :: ps) body).toList = (['-', '-', '-'] ++ []) ::
      ((p :: ps).map Yaml.quotedLine ++ ['-', '-', '-'] :: lines body.toList) := by
    rw [toList_written]
    refine Text.splitAt_joinWith (fun l hl => ?_) (by simp)
    rcases List.mem_cons.1 hl with rfl | hl
    · decide
    rcases List.mem_append.1 hl with hl | hl
    · exact hlines l hl
    rcases List.mem_cons.1 hl with rfl | hl
    · decide
    · exact not_mem_of_mem_lines hl
  have hopen : ∀ l ∈ (p :: ps).map Yaml.quotedLine, isDelimiter l = false := by
    intro l hl
    obtain ⟨q, -, rfl⟩ := List.mem_map.1 hl
    rfl
  have hfirst : (p :: ps).map Yaml.quotedLine =
      [] ++ Yaml.quotedLine p :: ps.map Yaml.quotedLine := rfl
  rw [header?_of_not_blank hall rfl (by decide) hfirst hopen (Text.splitAt_ne_nil _) (by simp) rfl,
    dropBlankLines_lines hbody, join_lines, ← List.map_cons, join_map_quotedLine]

theorem IsEntry.all_isAllowed (h : IsEntry p) : (Yaml.quotedLine p).all Yaml.isAllowed = true := by
  have hof {s : String} (hs : isWritable s = true) : s.toList.all Yaml.isAllowed = true := by
    rw [List.all_eq_true]
    intro c hc
    exact (Bool.and_eq_true_iff.1 (List.all_eq_true.1 hs c hc)).1
  exact Yaml.all_quotedLine (by decide) (by decide) (by decide) (hof h.name) (hof h.value)

theorem all_isAllowed_furtherLines (h : ∀ q ∈ ps, IsEntry q) :
    (Yaml.furtherLines ps).all Yaml.isAllowed = true := by
  have hnewline : Yaml.isAllowed '\n' = true := by decide
  rw [Yaml.furtherLines, List.all_flatMap, List.all_eq_true]
  intro q hq
  rw [List.all_cons, hnewline, (h q hq).all_isAllowed]
  rfl

/-- Entries that are written out are read back. -/
theorem split_written {body : String} (hne : ps ≠ []) (hnodup : (ps.map Prod.fst).Nodup)
    (h : ∀ q ∈ ps, IsEntry q) (hbody : '\n' ∉ body.toList.takeWhile Text.isBlank) :
    split (written ps body) = .ok (ps.map fun p => (.str p.1, .str p.2), body) := by
  obtain ⟨p, ps, rfl⟩ := List.exists_cons_of_ne_nil hne
  have hallowed : (Yaml.quotedLine p ++ Yaml.furtherLines ps).all Yaml.isAllowed = true := by
    rw [List.all_append, (h p (List.mem_cons_self ..)).all_isAllowed,
      all_isAllowed_furtherLines fun q hq => h q (List.mem_cons_of_mem _ hq)]
    rfl
  have hload := Yaml.load_eq_map hallowed (Yaml.textEntries?_lines fun q hq => (h q hq).isLine)
  rw [split, header?_written h hbody]
  show read (Yaml.quotedLine p ++ Yaml.furtherLines ps) body.toList = _
  rw [read, hload, Yaml.mappingOfTexts, Yaml.mappingOf_texts hnodup]
  show Except.ok (_, String.ofList body.toList) = _
  rw [String.ofList_toList]

end FrontMatter

namespace Extract

/-- Texts under names of their own are given as they are. -/
theorem entryTexts_texts {ps : List (String × String)} (hname : ∀ q ∈ ps, q.1 ≠ "")
    (hown : ∀ q ∈ ps, q.1.lowerCase ∉ standardNames) :
    entryTexts (ps.map fun p => (.str p.1, .str p.2)) =
      .ok (ps.map fun p => (.text p.1, p.2)) := by
  induction ps with
  | nil => rfl
  | cons p ps ih =>
    have ih := ih (fun q hq => hname q (List.mem_cons_of_mem _ hq))
      fun q hq => hown q (List.mem_cons_of_mem _ hq)
    have hne : p.1.isEmpty = false := by
      rw [Bool.eq_false_iff]
      exact fun h => hname p (List.mem_cons_self ..) (String.isEmpty_iff.1 h)
    have hstandard : standardNames.contains p.1.lowerCase = false := by
      rw [Bool.eq_false_iff]
      exact fun h => hown p (List.mem_cons_self ..) (List.contains_iff_mem.1 h)
    have hentry : entryText? (.str p.1, .str p.2) = .ok (some (.text p.1, p.2)) := by
      refine entryText?_eq_ok.2 ⟨.text p.1, rfl, ?_⟩
      rw [Text.Raw.shown, hne, hstandard]
      exact ⟨p.2, rfl, rfl⟩
    rw [List.map_cons]
    exact entryTexts_cons_eq_ok.2 ⟨some (.text p.1, p.2), _, hentry, ih, rfl⟩

/-- Without an entry of a standard name the body's text stands for it. -/
theorem standardText_texts {ps : List (String × String)} {name : String}
    (hname : name ∈ standardNames) (hown : ∀ q ∈ ps, q.1.lowerCase ∉ standardNames)
    (otherwise : String) :
    standardText (ps.map fun p => (.str p.1, .str p.2)) name otherwise = .ok otherwise := by
  have hnone : Value.lookup (.str name) (ps.map fun p => (Value.str p.1, Value.str p.2)) = none := by
    induction ps with
    | nil => rfl
    | cons p ps ih =>
      have hne : (Value.str p.1).key? ≠ some (.str name) := by
        intro h
        cases Value.key?_eq_str.1 h
        exact hown p (List.mem_cons_self ..) ((lowerCase_of_mem_standardNames hname).symm ▸ hname)
      rw [List.map_cons, Value.lookup_cons, if_neg hne]
      exact ih fun q hq => hown q (List.mem_cons_of_mem _ hq)
  rw [standardText, hnone]
  rfl

/-- Front matter that is written out gives its pairs, in their order, in front of the texts that the
body gives. -/
theorem extract_written {ps : List (String × String)} {body preset : String} {p : Markdown.Preset}
    (hne : ps ≠ []) (hnodup : (ps.map Prod.fst).Nodup) (hname : ∀ q ∈ ps, q.1 ≠ "")
    (hown : ∀ q ∈ ps, q.1.lowerCase ∉ standardNames) (h : ∀ q ∈ ps, FrontMatter.IsEntry q)
    (hbody : '\n' ∉ body.toList.takeWhile Text.isBlank)
    (hp : Markdown.Preset.ofName? preset = some p) :
    ∃ title description,
      extract (FrontMatter.written ps body) preset = .ok (ps ++
        [("title", title), ("description", description), ("content", body.trimBlank)]) ∧
      (FrontMatter.header? body.toList = none → extract body preset =
        .ok [("title", title), ("description", description), ("content", body.trimBlank)]) := by
  refine ⟨bodyText p body "title", bodyText p body "description", ?_, fun hnone => ?_⟩
  · have hassemble := assemble_eq_ok.2 ⟨_, p, _, _, entryTexts_texts hname hown, hp,
      standardText_texts (by decide) hown (bodyText p body "title"),
      standardText_texts (by decide) hown (bodyText p body "description"), rfl⟩
    refine extract_eq_ok.2
      ⟨_, (named_of_split (FrontMatter.split_written hne hnodup h hbody) preset).trans hassemble, ?_⟩
    rw [List.map_append, List.map_map]
    exact congrArg (· ++ _) (List.map_id ps).symm
  · have hsplit : FrontMatter.split body = .ok ([], body) := by
      rw [FrontMatter.split, hnone]
    have hassemble : assemble [] body preset = .ok _ :=
      assemble_eq_ok.2 ⟨[], p, _, _, rfl, hp, rfl, rfl, rfl⟩
    exact extract_eq_ok.2 ⟨_, (named_of_split hsplit preset).trans hassemble, rfl⟩

theorem extract_written_sample : ∃ title description,
    extract (FrontMatter.written [("it's", "a: 'b'"), ("tag", "--- ")] "Text\n---\n")
      defaultPreset = .ok [("it's", "a: 'b'"), ("tag", "--- "), ("title", title),
        ("description", description), ("content", "Text\n---")] ∧
    extract "Text\n---\n" defaultPreset =
      .ok [("title", title), ("description", description), ("content", "Text\n---")] := by
  obtain ⟨p, hp⟩ : ∃ p, Markdown.Preset.ofName? defaultPreset = some p := ⟨_, rfl⟩
  have hentry : ∀ q ∈ [("it's", "a: 'b'"), ("tag", "--- ")], FrontMatter.IsEntry q := by
    simp only [List.forall_mem_cons]
    exact ⟨⟨by decide, by decide, by decide⟩, ⟨by decide, by decide, by decide⟩, by simp⟩
  have hblank : '\n' ∉ "Text\n---\n".toList.takeWhile Text.isBlank := by decide
  obtain ⟨title, description, hwritten, hbody⟩ := extract_written (by simp) (by decide) (by decide)
    (by decide +kernel) hentry hblank hp
  exact ⟨title, description, hwritten, hbody (by decide)⟩

end Extract
end DocTree
