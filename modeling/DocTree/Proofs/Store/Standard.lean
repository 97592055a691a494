import Mathlib
import DocTree.Proofs.Population.Names

/-!
# The texts that every source has

Title, description and content stand behind all other texts of a source, none of which has one of
these names. An item without blocks gets them last, so what is found under these names is what the
source has for them, unless another name is refused before (`populate_standard`).
-/

namespace DocTree

namespace Extract
variable {own : List (Text.Raw × Text.Raw)} {title description : Text.Raw} {content : String}

theorem find?_own (hown : ∀ n ∈ own, n.1.shown.lowerCase ∉ standardNames) {wanted : String}
    (hwanted : wanted ∈ standardNames) :
    own.find? (fun n => n.1.shown.lowerCase == wanted) = none := by
  rw [List.find?_eq_none]
  intro n hn hname
  exact hown n hn (eq_of_beq hname ▸ hwanted)

theorem find?_standardTexts {n : Text.Raw × Text.Raw}
    (hn : n ∈ standardTexts title description content) :
    n.1.shown ∈ standardNames ∧ (standardTexts title description content).find?
      (fun m => m.1.shown.lowerCase == n.1.shown) = some n := by
  have htitle := lowerCase_of_mem_standardNames (n := "title") (by decide)
  have hdescription := lowerCase_of_mem_standardNames (n := "description") (by decide)
  have hcontent := lowerCase_of_mem_standardNames (n := "content") (by decide)
  simp only [standardTexts, List.mem_cons, List.not_mem_nil, or_false] at hn
  rcases hn with rfl | rfl | rfl <;>
    simp [standardTexts, standardNames, Text.Raw.shown, htitle, hdescription, hcontent]

theorem isAccepted_standardTexts :
    ∀ n ∈ standardTexts title description content, n.1.isAccepted = true := by
  simp [standardTexts, Text.Raw.isAccepted]

/-- Up to the first name that is refused, a standard text is found just if no name is. -/
theorem find?_takeWhile_standardTexts (hown : ∀ n ∈ own, n.1.shown.lowerCase ∉ standardNames)
    {n : Text.Raw × Text.Raw} (hn : n ∈ standardTexts title description content) :
    ((own ++ standardTexts title description content).takeWhile fun m => m.1.isAccepted).find?
        (fun m => m.1.shown.lowerCase == n.1.shown) =
      if ∀ m ∈ own, m.1.isAccepted = true then some n else none := by
  obtain ⟨hstandard, hfind⟩ := find?_standardTexts hn
  split
  · rename_i hall
    rw [List.takeWhile_eq_self_iff.2 (List.forall_mem_append.2 ⟨hall, isAccepted_standardTexts⟩),
      List.find?_append, find?_own hown hstandard, Option.none_or, hfind]
  · rename_i hall
    -- the texts end among those of the entries, none of which has the name
    have hends : (own ++ standardTexts title description content).takeWhile
        (fun m => m.1.isAccepted) = own.takeWhile fun m => m.1.isAccepted := by
      refine (List.takeWhile_append ..).trans (if_neg fun hlength => hall ?_)
      exact List.takeWhile_eq_self_iff.1 ((List.takeWhile_prefix _).eq_of_length hlength)
    rw [hends]
    exact find?_own (fun m hm => hown m ((List.takeWhile_prefix _).subset hm)) hstandard

/-- The standard texts are the last ones, and no other text has one of their names. -/
theorem exists_named_eq_append {text preset : String} {ns : List (Text.Raw × Text.Raw)}
    (h : named text preset = .ok ns) : ∃ es body own title description,
      FrontMatter.split text = .ok (es, body) ∧
        ns = own ++ standardTexts title description body.trimBlank ∧
          ∀ n ∈ own, n.1.shown ≠ "" ∧ n.1.shown.lowerCase ∉ standardNames := by
  obtain ⟨es, body, hsplit, h⟩ := named_eq_ok.1 h
  obtain ⟨own, p, title, description, hown, -, -, -, rfl⟩ := assemble_eq_ok.1 h
  exact ⟨es, body, own, title, description, hsplit, rfl, fun n => name_of_mem_entryTexts hown⟩

end Extract

namespace Store
variable {s : Store} {id : Nat} {it : Item} {preset : String}
  {ns own : List (Text.Raw × Text.Raw)}

theorem exists_make_of_addBlock {name value : Value} {f : BlockFault}
    (h : s.addBlock id name value = .error (.block f)) : Block.make name value = .error f := by
  unfold addBlock at h
  split at h
  · split at h
    · cases h
    · rcases bind_eq_error.1 h with h | ⟨b, -, h⟩
      · obtain ⟨g, hg, hgf⟩ := mapError_eq_error.1 h
        cases hgf
        exact hg
      · cases h
  · cases h

theorem exists_make_of_addEach {f : BlockFault} (h : (s.addEach id ns).2 = .error (.block f)) :
    ∃ n ∈ ns, Block.make (.ofRaw n.1) (.ofRaw n.2) = .error f := by
  induction ns generalizing s with
  | nil => cases h
  | cons n ns ih =>
    rw [addEach] at h
    split at h
    · obtain ⟨m, hm, hmake⟩ := ih h
      exact ⟨m, List.mem_cons_of_mem _ hm, hmake⟩
    · rename_i hadd
      cases h
      exact ⟨n, List.mem_cons_self .., exists_make_of_addBlock hadd⟩

theorem shown_eq_empty_of_make {n text : Text.Raw}
    (h : Block.make (.ofRaw n) (.ofRaw text) = .error .noName) : n.shown = "" := by
  cases n with
  | unpaired us =>
    rw [Text.Raw.make_unpaired] at h
    cases h
  | text s =>
    by_contra hne
    have haccepted := (Text.Raw.isAccepted_iff (n := .text s) hne).2 ⟨s, rfl⟩
    rw [Text.Raw.make_of_isAccepted haccepted] at h
    cases h

/-- No source has a text without a name. -/
theorem populate_ne_noName (s : Store) (fs : FileSystem) (id : Nat) (preset : String) :
    (s.populate fs id preset).2 ≠ .error (.add (.block .noName)) := by
  intro h
  unfold populate at h
  split at h
  · cases h
  · split at h
    · cases h
    · rename_i ns hns
      obtain ⟨f, hf, hfault⟩ := mapError_eq_error.1 (map_eq_error.1 h)
      cases hfault
      obtain ⟨n, hn, hmake⟩ := exists_make_of_addEach hf
      exact Population.shown_ne_empty_of_named hns n hn (shown_eq_empty_of_make hmake)

/-- What is found after an item without blocks got those of its source. -/
theorem blockValue_populate (hit : s.get? id = some it) (hnone : it.blocks = .ofList [])
    {fs : FileSystem} (hns : Population.named preset (fs.read (Path.parse it.path)) = .ok ns) :
    ∃ it', (s.populate fs id preset).1.get? id = some it' ∧ ∀ name, blockValue it' name =
      .ok ((((ns.takeWhile fun n => n.1.isAccepted).find?
        fun n => n.1.shown.lowerCase == name.lowerCase).map Prod.snd).getD "") := by
  let bs := (ns.takeWhile fun n => n.1.isAccepted).map Population.blockOf
  refine ⟨{ it with blocks := .ofList bs }, ?_, blockValue_ofNamed rfl⟩
  rw [populate_of_ofList hit hnone, get?_setBlocks, if_pos rfl, hit,
    Population.madeBlocks_of_named_eq_ok hns, List.nil_append]
  rfl

theorem exists_populate_eq_ok_iff (hit : s.get? id = some it) (hnone : it.blocks = .ofList [])
    {fs : FileSystem} (hns : Population.named preset (fs.read (Path.parse it.path)) = .ok ns) :
    (∃ rs, (s.populate fs id preset).2 = .ok rs) ↔ ∀ n ∈ ns, n.1.isAccepted = true := by
  rw [populate_of_ofList hit hnone]
  constructor
  · rintro ⟨rs, hrs⟩
    obtain ⟨bs, hbs, -⟩ := map_eq_ok.1 hrs
    obtain ⟨ns', hns', haccepted, -⟩ := Population.blocks_eq_ok.1 (mapError_eq_ok.1 hbs)
    cases hns.symm.trans hns'
    exact haccepted
  · intro haccepted
    have hbs := Population.blocks_eq_ok.2 ⟨ns, hns, haccepted, rfl⟩
    exact ⟨_, map_eq_ok.2 ⟨_, mapError_eq_ok.2 hbs, rfl⟩⟩

/-- What comes of an item without blocks that gets those of its source, if `own` are the texts of its
entries and `standard` those behind them. -/
structure GetsStandard (s : Store) (fs : FileSystem) (id : Nat) (preset : String)
    (own standard : List (Text.Raw × Text.Raw)) : Prop where
  named : (s.populate fs id preset).2 ≠ .error (.add (.block .noName))
  returns : (∃ rs, (s.populate fs id preset).2 = .ok rs) ↔ ∀ n ∈ own, ∃ t, n.1 = .text t
  value : ∃ it, (s.populate fs id preset).1.get? id = some it ∧
    ∀ n ∈ standard, ∀ name : String, name.lowerCase = n.1.shown →
      (blockValue it name = .ok n.2 ↔ (∀ n ∈ own, ∃ t, n.1 = .text t) ∨ n.2 = "")

/-- Title, description and content are the last texts of a source, and no other one has an empty name
or one of theirs. An item without blocks that gets the blocks of the source never fails for want of a
name. It gets all of them just if each name is a text, and else nothing is found under the three. -/
theorem populate_standard {text : String} (h : Extract.named text preset = .ok ns) :
    ∃ es body own title description, FrontMatter.split text = .ok (es, body) ∧
      ns = own ++ Extract.standardTexts title description body.trimBlank ∧
      (∀ n ∈ own, n.1.shown ≠ "" ∧ n.1.shown.lowerCase ∉ Extract.standardNames) ∧
      ∀ (s : Store) (fs : FileSystem) (id : Nat) (it : Item), s.get? id = some it →
        it.blocks = .ofList [] → Population.Reads (fs.read (Path.parse it.path)) text →
        s.GetsStandard fs id preset own
          (Extract.standardTexts title description body.trimBlank) := by
  obtain ⟨es, body, own, title, description, hsplit, rfl, hown⟩ := Extract.exists_named_eq_append h
  refine ⟨es, body, own, title, description, hsplit, rfl, hown, fun s fs id it hit hnone hreads => ?_⟩
  have hns := Population.named_eq_ok.2 ⟨text, hreads, h⟩
  have htexts : (∀ n ∈ own, n.1.isAccepted = true) ↔ ∀ n ∈ own, ∃ t, n.1 = .text t :=
    forall₂_congr fun n hn => Text.Raw.isAccepted_iff (hown n hn).1
  refine ⟨populate_ne_noName s fs id preset, ?_, ?_⟩
  · rw [exists_populate_eq_ok_iff hit hnone hns, List.forall_mem_append, ← htexts]
    exact and_iff_left Extract.isAccepted_standardTexts
  · obtain ⟨it', hit', hvalue⟩ := blockValue_populate hit hnone hns
    refine ⟨it', hit', fun n hn name hname => ?_⟩
    rw [hvalue, hname, Extract.find?_takeWhile_standardTexts (fun n hn => (hown n hn).2) hn, ← htexts]
    split
    · rename_i hall
      exact iff_of_true rfl (.inl hall)
    · rename_i hall
      rw [or_iff_right hall]
      exact ⟨fun h => (Except.ok.inj h).symm, fun h => congrArg Except.ok h.symm⟩

theorem populate_standard_sample : ∃ it,
    (sampleStore.populate (Population.page sampleText) 0 Extract.defaultPreset).1.get? 0 = some it ∧
      blockValue it "TITLE" = .ok "Other" := by
  have hreads := Population.reads_page sampleText (by decide +kernel)
  obtain ⟨es, body, own, title, description, -, hns, -, h⟩ := populate_standard named_sample
  have happend : [(Text.Raw.text "tag", Text.Raw.text "a")] ++
      Extract.standardTexts "Other" "" "# Other" =
        own ++ Extract.standardTexts title description body.trimBlank := hns
  obtain ⟨rfl, hlast⟩ :=
    List.append_inj' happend (by simp only [Extract.standardTexts, List.length_cons])
  obtain ⟨it, hit, hvalue⟩ := (h sampleStore _ 0 _ rfl rfl hreads).value
  refine ⟨it, hit, (hvalue (.text "title", "Other") ?_ "TITLE" (by decide +kernel)).2 (.inl ?_)⟩
  · rw [← hlast]
    exact List.mem_cons_self ..
  · simp

/-- Behind half of a surrogate pair the title of the page is not found. -/
theorem not_forall_blockValue_standard : ¬ ∀ (text preset : String)
    (ns : List (Text.Raw × Text.Raw)) (s : Store) (fs : FileSystem) (id : Nat) (it it' : Item)
    (n : Text.Raw × Text.Raw) (name : String), Extract.named text preset = .ok ns →
      s.get? id = some it → it.blocks = .ofList [] →
        Population.Reads (fs.read (Path.parse it.path)) text →
          (s.populate fs id preset).1.get? id = some it' → n ∈ ns.drop (ns.length - 3) →
            name.lowerCase = n.1.shown → blockValue it' name = .ok n.2 := by
  intro h
  have hit : sampleStore.get? 0 = some (.ofPath "tag.md" [] [] []) := rfl
  obtain ⟨it', hit', hvalue⟩ := blockValue_populate hit rfl Population.named_page_brokenText
  have htitle := h _ _ _ sampleStore _ 0 _ it' (.text "title", "T") "title"
    Population.named_brokenText hit rfl Population.reads_page_brokenText hit' (by decide)
    (by decide +kernel)
  rw [hvalue] at htitle
  exact absurd htitle (by decide +kernel)

end Store
end DocTree
