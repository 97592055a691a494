import Mathlib
import DocTree.Proofs.Index.Partial
import DocTree.Proofs.Text.Utf8

/-!
# Sources with other line ends

A text may be written with any of three line ends, and is read as the same text (`readText_write`).
So an item ends the same way whichever of them its source has: with the same blocks, or with the
same fault, which leaves all as it was unless the source breaks off (`populate_alike`).
-/

namespace DocTree

/-- How the end of a line is written. -/
inductive LineEnd
  | lineFeed
  | carriageReturn
  | both
  deriving DecidableEq, Repr

namespace LineEnd

def chars : LineEnd → List Char
  | .lineFeed => ['\n']
  | .carriageReturn => ['\r']
  | .both => ['\r', '\n']

/-- A text with its line feeds written as line ends of this kind. -/
def writeAll (e : LineEnd) (s : List Char) : List Char :=
  s.flatMap fun c => if c = '\n' then e.chars else [c]

def write (e : LineEnd) (t : String) : String := .ofList (e.writeAll t.toList)

end LineEnd

namespace Utf8
variable {e : LineEnd} {s : List Char} {c : Char}

theorem unifyLineEnds_cons (hc : c ≠ '\r') (s : List Char) :
    unifyLineEnds (c :: s) = c :: unifyLineEnds s := by
  rw [unifyLineEnds] <;> simp [hc]

theorem unifyLineEnds_both (s : List Char) :
    unifyLineEnds ('\r' :: '\n' :: s) = '\n' :: unifyLineEnds s := rfl

theorem unifyLineEnds_carriageReturn (hs : s.head? ≠ some '\n') :
    unifyLineEnds ('\r' :: s) = '\n' :: unifyLineEnds s := by
  cases s with
  | nil => rfl
  | cons c s =>
    have hc : c ≠ '\n' := by simpa using hs
    rw [unifyLineEnds]
    simp [hc]

/-- Written with carriage returns a text has no line feed left. -/
theorem head?_writeAll (s : List Char) :
    (LineEnd.carriageReturn.writeAll s).head? ≠ some '\n' := by
  cases s with
  | nil => simp [LineEnd.writeAll]
  | cons c s =>
    by_cases hc : c = '\n' <;> simp [LineEnd.writeAll, LineEnd.chars, hc]

/-- All line ends are read as line feeds. -/
theorem unifyLineEnds_writeAll (e : LineEnd) (h : '\r' ∉ s) : unifyLineEnds (e.writeAll s) = s := by
  induction s with
  | nil => rfl
  | cons c s ih =>
    obtain ⟨hc, hs⟩ := by simpa using h
    have ih := ih hs
    rw [LineEnd.writeAll, List.flatMap_cons, ← LineEnd.writeAll]
    by_cases hline : c = '\n'
    · subst hline
      rw [if_pos rfl]
      cases e with
      | lineFeed => exact (unifyLineEnds_cons (by decide) _).trans (congrArg _ ih)
      | both => exact (unifyLineEnds_both _).trans (congrArg _ ih)
      | carriageReturn =>
        exact (unifyLineEnds_carriageReturn (head?_writeAll s)).trans (congrArg _ ih)
    · rw [if_neg hline]
      exact (unifyLineEnds_cons (Ne.symm hc) _).trans (congrArg _ ih)

/-- A text is read as itself, whichever line ends it was written with. -/
theorem readText_write (e : LineEnd) {t : String} (h : '\r' ∉ t.toList) :
    readText (e.write t).toUTF8.toList = .ok t.toList := by
  rw [readText, decode_toUTF8, LineEnd.write, String.toList_ofList]
  exact congrArg Except.ok (unifyLineEnds_writeAll e h)

end Utf8

namespace Store
variable {s : Store} {id : Nat} {it : Item} {preset t : String} {files : LineEnd → FileSystem}

/-- That an item ends the same way in all of the file systems: with the same blocks, or with the
same fault and all as it was. -/
def EndsAlike (s : Store) (files : LineEnd → FileSystem) (id : Nat) (preset : String) : Prop :=
  (∃ bs rs, ∀ e, s.populate (files e) id preset = (s.setBlocks id (.ofList bs), .ok rs)) ∨
    ∃ f, ∀ e, s.populate (files e) id preset = (s, .error f)

/-- That a path leads to a text in all of the file systems, each with its own line ends. -/
def Writes (files : LineEnd → FileSystem) (path t : String) : Prop :=
  ∀ e, (files e).read (Path.parse path) = .ok (e.write t).toUTF8.toList

theorem populate_congr {fs fs' : FileSystem} (hit : s.get? id = some it)
    (h : Population.named preset (fs.read (Path.parse it.path)) =
      Population.named preset (fs'.read (Path.parse it.path))) :
    s.populate fs id preset = s.populate fs' id preset := by
  simp only [populate, hit, h]

theorem named_of_writes (ht : '\r' ∉ t.toList) (hfiles : Writes files it.path t) (e : LineEnd) :
    Population.named preset ((files e).read (Path.parse it.path)) =
      (Extract.named t preset).mapError .extract :=
  Population.named_of_reads ⟨_, hfiles e, Utf8.readText_write e ht⟩ preset

theorem populate_of_writes (hit : s.get? id = some it) (ht : '\r' ∉ t.toList)
    (hfiles : Writes files it.path t) (e e' : LineEnd) :
    s.populate (files e) id preset = s.populate (files e') id preset :=
  populate_congr hit ((named_of_writes ht hfiles e).trans (named_of_writes ht hfiles e').symm)

/-- An item without blocks gets those of its source, or a fault leaves all as it was, just if the
source does not break off. -/
theorem exists_populate_eq_iff (hit : s.get? id = some it) (hnone : it.blocks = .ofList [])
    (fs : FileSystem) (preset : String) :
    ((∃ bs rs, s.populate fs id preset = (s.setBlocks id (.ofList bs), .ok rs)) ∨
      ∃ f, s.populate fs id preset = (s, .error f)) ↔
        ¬ Population.BreaksOff preset (fs.read (Path.parse it.path)) := by
  rw [← Population.exists_blocks_or_none_iff, populate_of_ofList hit hnone, List.nil_append]
  cases hblocks : Population.blocks preset (fs.read (Path.parse it.path)) with
  | ok bs =>
    refine iff_of_true (.inl ⟨bs, _, Prod.ext ?_ rfl⟩) (.inl ⟨bs, rfl⟩)
    rw [Population.madeBlocks_of_blocks hblocks]
  | error f =>
    constructor
    · rintro (⟨bs, rs, h⟩ | ⟨g, h⟩)
      · cases congrArg Prod.snd h
      · exact .inr (eq_nil_of_setBlocks_append hit hnone (congrArg Prod.fst h))
    · rintro (⟨bs, ⟨⟩⟩ | hmade)
      · refine .inr ⟨_, Prod.ext ?_ rfl⟩
        rw [hmade, ← hnone]
        exact setBlocks_self hit

theorem endsAlike_iff (hit : s.get? id = some it) (hnone : it.blocks = .ofList [])
    (ht : '\r' ∉ t.toList) (hfiles : Writes files it.path t) :
    s.EndsAlike files id preset ↔
      ¬ Population.BreaksOff preset ((files .lineFeed).read (Path.parse it.path)) := by
  have hall {r : Store × Except PopulateFault (List Log.Record)} :
      (∀ e, s.populate (files e) id preset = r) ↔ s.populate (files .lineFeed) id preset = r :=
    ⟨fun h => h _, fun h e => (populate_of_writes hit ht hfiles e .lineFeed).trans h⟩
  simp only [EndsAlike, hall]
  exact exists_populate_eq_iff hit hnone _ preset

/-- An item without blocks ends the same way whichever line ends its source has. It gets the same
blocks, or the same fault leaves all as it was, just if the source does not break off. -/
theorem populate_alike (hit : s.get? id = some it) (hnone : it.blocks = .ofList [])
    (ht : '\r' ∉ t.toList) (hfiles : Writes files it.path t) :
    (∀ e e', s.populate (files e) id preset = s.populate (files e') id preset) ∧
      (s.EndsAlike files id preset ↔
        ¬ Population.BreaksOff preset ((files .lineFeed).read (Path.parse it.path))) :=
  ⟨populate_of_writes hit ht hfiles, endsAlike_iff hit hnone ht hfiles⟩

theorem writes_page (t : String) : Writes (fun e => Population.page (e.write t)) "tag.md" t :=
  fun e => Population.read_page (e.write t)

theorem populate_alike_sample : sampleStore.EndsAlike
    (fun e => Population.page (e.write sampleText)) 0 Extract.defaultPreset := by
  have hit : sampleStore.get? 0 = some (.ofPath "tag.md" [] [] []) := rfl
  have hfiles : Writes _ (Item.ofPath "tag.md" [] [] []).path sampleText := writes_page sampleText
  refine (populate_alike hit rfl (by decide) hfiles).2.2 ?_
  rintro ⟨name, text, ns, us, text', hnamed, hmem⟩
  rw [named_of_writes (by decide) hfiles, named_sample] at hnamed
  cases hnamed
  simp [Extract.standardTexts] at hmem

/-- Half of a surrogate pair leaves the item with a block, whichever line ends its source has. -/
theorem not_forall_endsAlike : ¬ ∀ (s : Store) (files : LineEnd → FileSystem) (id : Nat) (it : Item)
    (preset t : String), s.get? id = some it → it.blocks = .ofList [] → '\r' ∉ t.toList →
      Writes files it.path t → s.EndsAlike files id preset := by
  intro h
  have hit : sampleStore.get? 0 = some (.ofPath "tag.md" [] [] []) := rfl
  have hfiles : Writes _ (Item.ofPath "tag.md" [] [] []).path Population.brokenText :=
    writes_page Population.brokenText
  have halike := h sampleStore _ 0 _ Extract.defaultPreset _ hit rfl (by decide) hfiles
  refine (endsAlike_iff hit rfl (by decide) hfiles).1 halike
    ⟨"a", "x", (.unpaired [.half 0xd800], "y") :: Extract.standardTexts "T" "" "# T",
      [.half 0xd800], "y", ?_, List.mem_cons_self ..⟩
  rw [named_of_writes (by decide) hfiles, Population.named_brokenText]
  rfl

end Store
end DocTree
