import Mathlib
import DocTree.Proofs.Extract

/-!
# Mappings in front matter

An entry whose value is a mapping gives no text under its key, so it can be left out
(`named_eq_of_leftOut`). There are two exceptions. A mapping for a title or a description is looked
up like any other value, and what is written for it wins over the body. And a key that is too long to
be written fails whatever stands under it.
-/

namespace DocTree

namespace Value

/-- What is written for a mapping is not empty. -/
theorem ne_empty_of_expression? {v : Value} {es : List (Value × Value)} (hv : v.bare = .map es)
    {within : List Nat} {s : String} (h : v.expression? within = some s) : s ≠ "" := by
  fun_induction bare v generalizing within with
  | case1 id v ih =>
    rw [expression?] at h
    split at h
    · cases h
      cases v.brackets <;> decide
    · exact ih hv h
  | case2 v =>
    subst hv
    obtain ⟨parts, -, h⟩ := Option.bind_eq_some_iff.1 h
    cases h
    simp

theorem eq_map_or_knot {v : Value} {es : List (Value × Value)} (h : v.bare = .map es) :
    v = .map es ∨ ∃ id w, v = .knot id w := by
  cases v with
  | map => exact .inl h
  | knot id w => exact .inr ⟨id, w, rfl⟩
  | _ => cases h

end Value

namespace Extract
variable {e : Value × Value} {es es' : List (Value × Value)} {name : String}

/-- The entries that are no mappings. -/
def ownEntries (es : List (Value × Value)) : List (Value × Value) := es.filter (!isMapping ·.2)

/-- That nothing is looked up under the key of an entry, and that it has a name. -/
structure LeftOut (e : Value × Value) : Prop where
  named : ∃ n, rawOf e.1 = .ok n
  title : e.1 ≠ .str "title"
  description : e.1 ≠ .str "description"

theorem entryTexts_cons (e : Value × Value) (es : List (Value × Value)) :
    entryTexts (e :: es) = do
      let o ← entryText? e
      let rest ← entryTexts es
      return o.toList ++ rest := by
  unfold entryTexts
  rw [List.mapM_cons]
  cases entryText? e with
  | error f => rfl
  | ok o =>
    cases es.mapM entryText? with
    | error f => rfl
    | ok os => cases o <;> rfl

theorem entryText?_of_isMapping (h : isMapping e.2 = true) {n : Text.Raw} (hn : rawOf e.1 = .ok n) :
    entryText? e = .ok none := by
  refine entryText?_eq_ok.2 ⟨n, hn, ?_⟩
  rw [h, Bool.or_true]
  rfl

theorem entryTexts_ownEntries (h : ∀ e ∈ es, isMapping e.2 = true → ∃ n, rawOf e.1 = .ok n) :
    entryTexts (ownEntries es) = entryTexts es := by
  induction es with
  | nil => rfl
  | cons e es ih =>
    obtain ⟨he, hes⟩ := List.forall_mem_cons.1 h
    have ih := ih hes
    rw [ownEntries] at ih ⊢
    cases hmapping : isMapping e.2 with
    | true =>
      obtain ⟨n, hn⟩ := he hmapping
      rw [List.filter_cons_of_neg (by simp [hmapping]), ih, entryTexts_cons,
        entryText?_of_isMapping hmapping hn]
      cases entryTexts es <;> rfl
    | false =>
      rw [List.filter_cons_of_pos (by simp [hmapping]), entryTexts_cons, entryTexts_cons, ih]

theorem lookup_ownEntries (h : ∀ e ∈ es, isMapping e.2 = true → e.1 ≠ .str name) :
    Value.lookup (.str name) (ownEntries es) = Value.lookup (.str name) es := by
  induction es with
  | nil => rfl
  | cons e es ih =>
    obtain ⟨he, hes⟩ := List.forall_mem_cons.1 h
    have ih := ih hes
    rw [ownEntries] at ih ⊢
    cases hmapping : isMapping e.2 with
    | true =>
      rw [List.filter_cons_of_neg (by simp [hmapping]), ih, Value.lookup_cons,
        if_neg (mt Value.key?_eq_str.1 (he hmapping))]
    | false =>
      rw [List.filter_cons_of_pos (by simp [hmapping]), Value.lookup_cons, Value.lookup_cons, ih]

theorem isMapping_iff {v : Value} : isMapping v = true ↔ ∃ es, v.bare = .map es := by
  unfold isMapping
  split
  · rename_i es hes
    exact ⟨fun _ => ⟨es, hes⟩, fun _ => rfl⟩
  · rename_i hne
    refine iff_of_false (by decide) ?_
    rintro ⟨es, hes⟩
    exact hne es hes

/-- A mapping is not taken apart, and its text is not empty. -/
theorem textOf_of_isMapping {v : Value} (h : isMapping v = true) {t : Text.Raw}
    (ht : textOf v = .ok t) : ∃ s, plainText v = .ok s ∧ s ≠ "" ∧ t = .text s := by
  obtain ⟨es, hes⟩ := isMapping_iff.1 h
  have hitems : items? v = none := by rw [items?, hes]
  obtain ⟨hplain, htext⟩ :
      textOf v = (plainText v).map .text ∧ v.text? = v.expression? [] := by
    unfold textOf
    rcases Value.eq_map_or_knot hes with rfl | ⟨id, w, rfl⟩ <;> rw [hitems] <;> exact ⟨rfl, rfl⟩
  rw [hplain] at ht
  obtain ⟨s, hs, rfl⟩ := map_eq_ok.1 ht
  refine ⟨s, hs, ?_, rfl⟩
  unfold plainText at hs
  split at hs
  · rename_i s' hs'
    cases hs
    exact Value.ne_empty_of_expression? hes (htext ▸ hs')
  · cases hs

theorem standardText_congr (h : Value.lookup (.str name) es = Value.lookup (.str name) es') :
    standardText es name = standardText es' name := by
  funext otherwise
  rw [standardText, h, standardText]

section
variable {text text' preset body : String}

theorem named_congr (h : FrontMatter.split text = .ok (es, body))
    (h' : FrontMatter.split text' = .ok (es', body)) (hown : entryTexts es = entryTexts es')
    (htitle : Value.lookup (.str "title") es = Value.lookup (.str "title") es')
    (hdescription : Value.lookup (.str "description") es = Value.lookup (.str "description") es')
    (preset : String) : named text preset = named text' preset := by
  rw [named_of_split h, named_of_split h', assemble, hown, standardText_congr htitle,
    standardText_congr hdescription]
  rfl

/-- A mapping for a title or a description is written out. -/
theorem lookup_of_isMapping (h : FrontMatter.split text = .ok (es, body))
    (hname : name ∈ ["title", "description"]) {v : Value}
    (hv : Value.lookup (.str name) es = some v) (hmapping : isMapping v = true)
    {ns : List (Text.Raw × Text.Raw)} (hns : named text preset = .ok ns) :
    ∃ t, plainText v = .ok t ∧ t ≠ "" ∧
      (ns.find? fun n => n.1.shown.lowerCase == name) = some (.text name, .text t) := by
  rw [named_of_split h] at hns
  obtain ⟨own, p, title, description, hown, -, htitle, hdescription, rfl⟩ := assemble_eq_ok.1 hns
  have hmem : name ∈ standardNames := List.mem_append_left ["content"] hname
  have hlower := lowerCase_of_mem_standardNames hmem
  have hcontent : name.lowerCase ≠ "content" := by
    rw [hlower]
    rintro rfl
    simp at hname
  obtain ⟨t, hfind, ht⟩ : ∃ t, (own ++ standardTexts title description body.trimBlank).find?
      (fun n => n.1.shown.lowerCase == name) = some (.text name, t) ∧
        standardText es name (bodyText p body name) = .ok t := by
    simpa only [hlower] using
      find?_append_standard hown htitle hdescription (hlower.symm ▸ hmem) hcontent
  obtain ⟨u, hu, hempty⟩ := standardText_eq_ok.1 ht
  rw [hv, Option.getD_some] at hu
  obtain ⟨s, hplain, hne, rfl⟩ := textOf_of_isMapping hmapping hu
  rw [Text.Raw.isEmpty, Bool.eq_false_iff.2 (mt String.isEmpty_iff.1 hne), if_neg (by decide)] at hempty
  subst hempty
  exact ⟨s, hplain, hne, hfind⟩

/-- A key without name fails, whatever stands under it. -/
theorem exists_rawOf_of_entryTexts {own : List (Text.Raw × Text.Raw)} (hown : entryTexts es = .ok own) :
    ∀ e ∈ es, ∃ n, rawOf e.1 = .ok n := by
  intro e he
  obtain ⟨os, hos, -⟩ := bind_eq_ok.1 hown
  obtain ⟨o, ho⟩ := exists_mapM_iff.1 ⟨os, hos⟩ e he
  obtain ⟨n, hn, -⟩ := entryText?_eq_ok.1 ho
  exact ⟨n, hn⟩

/-- What a text gives, another one with the same entries but for mappings gives too just if its keys
have names and its standard texts are the same. -/
theorem named_eq_ok_iff (h : FrontMatter.split text = .ok (es, body))
    (h' : FrontMatter.split text' = .ok (es', body)) (hsame : ownEntries es = ownEntries es')
    {ns : List (Text.Raw × Text.Raw)} (hns : named text preset = .ok ns) :
    ∃ p, Markdown.Preset.ofName? preset = some p ∧ (named text' preset = .ok ns ↔
      (∀ e ∈ es', isMapping e.2 = true → ∃ n, rawOf e.1 = .ok n) ∧
        ∀ name ∈ ["title", "description"], standardText es' name (bodyText p body name) =
          standardText es name (bodyText p body name)) := by
  rw [named_of_split h] at hns
  obtain ⟨own, p, title, description, hown, hp, htitle, hdescription, rfl⟩ := assemble_eq_ok.1 hns
  rw [named_of_split h']
  refine ⟨p, hp, fun hns' => ?_, fun ⟨hnamed, hstandard⟩ => ?_⟩
  · obtain ⟨own', p', title', description', hown', hp', htitle', hdescription', heq⟩ :=
      assemble_eq_ok.1 hns'
    cases hp.symm.trans hp'
    have hlast := (List.append_inj' heq rfl).2
    simp only [standardTexts, List.cons.injEq, Prod.mk.injEq, true_and] at hlast
    obtain ⟨rfl, rfl, -⟩ := hlast
    refine ⟨fun e he _ => exists_rawOf_of_entryTexts hown' e he, fun name hname => ?_⟩
    rcases List.mem_pair.1 hname with rfl | rfl
    · rw [htitle, htitle']
    · rw [hdescription, hdescription']
  · have hown' : entryTexts es' = .ok own := by
      rw [← entryTexts_ownEntries hnamed, ← hsame,
        entryTexts_ownEntries fun e he _ => exists_rawOf_of_entryTexts hown e he, hown]
    exact assemble_eq_ok.2 ⟨own, p, title, description, hown', hp,
      (hstandard "title" (by simp)).trans htitle,
      (hstandard "description" (by simp)).trans hdescription, rfl⟩

/-- Texts with the same body, and the same entries but for mappings, give the same named texts if no
title or description is a mapping and each key has a name. Else what one of them gives the other gives
just if the standard texts are the same and each key has a name; a mapping for one of these is written
out, and wins over the body. -/
theorem named_eq_of_leftOut (h : FrontMatter.split text = .ok (es, body))
    (h' : FrontMatter.split text' = .ok (es', body)) (hsame : ownEntries es = ownEntries es')
    (preset : String) :
    ((∀ e ∈ es ++ es', isMapping e.2 = true → LeftOut e) →
      named text preset = named text' preset) ∧
    ∀ ns, named text preset = .ok ns →
      (∃ p, Markdown.Preset.ofName? preset = some p ∧ (named text' preset = .ok ns ↔
        (∀ e ∈ es', isMapping e.2 = true → ∃ n, rawOf e.1 = .ok n) ∧
          ∀ name ∈ ["title", "description"], standardText es' name (bodyText p body name) =
            standardText es name (bodyText p body name))) ∧
      ∀ name ∈ ["title", "description"], ∀ v, Value.lookup (.str name) es = some v →
        isMapping v = true → ∃ t, plainText v = .ok t ∧ t ≠ "" ∧
          (ns.find? fun n => n.1.shown.lowerCase == name) = some (.text name, .text t) := by
  refine ⟨fun hout => ?_, fun ns hns => ⟨named_eq_ok_iff h h' hsame hns,
    fun name hname v hv hmapping => lookup_of_isMapping h hname hv hmapping hns⟩⟩
  obtain ⟨hes, hes'⟩ := List.forall_mem_append.1 hout
  refine named_congr h h' ?_ ?_ ?_ preset
  · rw [← entryTexts_ownEntries fun e he hm => (hes e he hm).named, hsame,
      entryTexts_ownEntries fun e he hm => (hes' e he hm).named]
  · rw [← lookup_ownEntries fun e he hm => (hes e he hm).title, hsame,
      lookup_ownEntries fun e he hm => (hes' e he hm).title]
  · rw [← lookup_ownEntries fun e he hm => (hes e he hm).description, hsame,
      lookup_ownEntries fun e he hm => (hes' e he hm).description]

end

theorem named_eq_sample : named "---\na: {b: c}\nk: v\n---\n# H\n" defaultPreset =
    named "---\nk: v\n---\n# H\n" defaultPreset := by
  have hsplit : FrontMatter.split "---\na: {b: c}\nk: v\n---\n# H\n" =
      .ok ([(.str "a", .map [(.str "b", .str "c")]), (.str "k", .str "v")], "# H\n") :=
    FrontMatter.split_of_fits "a: {b: c}\nk: v".toList "# H\n".toList
      (by decide +kernel) (by decide +kernel) (by decide +kernel)
  have hsplit' : FrontMatter.split "---\nk: v\n---\n# H\n" = .ok ([(.str "k", .str "v")], "# H\n") :=
    FrontMatter.split_of_fits "k: v".toList "# H\n".toList
      (by decide +kernel) (by decide +kernel) (by decide +kernel)
  refine (named_eq_of_leftOut hsplit hsplit' rfl defaultPreset).1 ?_
  simp only [List.cons_append, List.nil_append, List.forall_mem_cons, List.not_mem_nil, false_imp_iff,
    implies_true, and_true]
  exact ⟨fun _ => ⟨⟨.text "a", rfl⟩, by simp, by simp⟩, fun h => absurd h (by decide),
    fun h => absurd h (by decide)⟩

/-- A mapping under the key of the title is the title. -/
theorem not_forall_named_eq : ¬ ∀ (text text' preset : String) (es es' : List (Value × Value))
    (body : String), FrontMatter.split text = .ok (es, body) →
      FrontMatter.split text' = .ok (es', body) → ownEntries es = ownEntries es' →
        named text preset = named text' preset := by
  intro h
  have hsplit : FrontMatter.split "---\ntitle: {a: b}\n---\n# H\n" =
      .ok ([(.str "title", .map [(.str "a", .str "b")])], "# H\n") :=
    FrontMatter.split_of_fits "title: {a: b}".toList "# H\n".toList
      (by decide +kernel) (by decide +kernel) (by decide +kernel)
  have hsplit' : FrontMatter.split "# H\n" = .ok ([], "# H\n") := by
    rw [FrontMatter.split, show FrontMatter.header? "# H\n".toList = none by decide +kernel]
  have hplain : named "# H\n" defaultPreset = .ok (standardTexts "H" "" "# H") := by
    rw [named_of_split hsplit']
    decide +kernel
  rw [← h _ _ defaultPreset _ _ _ hsplit hsplit' rfl] at hplain
  obtain ⟨t, ht, -, hfind⟩ := lookup_of_isMapping hsplit (List.mem_cons_self ..) rfl rfl hplain
  have htitle : plainText (.map [(.str "a", .str "b")]) = .ok "\x7b'a': 'b'\x7d" := by decide +kernel
  cases htitle.symm.trans ht
  exact absurd hfind (by decide +kernel)

end Extract
end DocTree
