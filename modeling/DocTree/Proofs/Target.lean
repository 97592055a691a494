import Mathlib
import DocTree.Proofs.Except
import DocTree.Proofs.FileSystem.Resolve
import DocTree.Target

/-!
# Where roots lead

A root that leads to a path leads to one that some text is resolved to, so the path is as any resolved
one is (`target_eq_path`). What keeps a root from leading anywhere is a null character in it, a loop of
links, or a half that stands for no byte (`isMute_of_target`).
-/

namespace DocTree

namespace Text
variable {isFree : Nat → Bool} {position : Nat} {us : List CodePoint}

/-- Only halves keep a text from being encoded. -/
theorem unencodable?_eq_none_iff :
    unencodable? isFree position us = none ↔ ∀ n, .half n ∈ us → isFree n = true := by
  fun_induction unencodable? isFree position us with
  | case1 => simp
  | case2 position c us ih => simpa using ih
  | case3 position n us hfree ih =>
    rw [ih]
    simp only [List.mem_cons, CodePoint.half.injEq, forall_eq_or_imp, hfree, true_and]
  | case4 position n us hfree =>
    refine iff_of_false (by simp) fun h => hfree ?_
    exact h n (List.mem_cons_self ..)

theorem halves_ne_nil {f : Unencodable} (h : unencodable? isFree position us = some f) :
    f.halves ≠ [] := by
  fun_induction unencodable? isFree position us with
  | case1 => cases h
  | case2 _ _ _ ih => exact ih h
  | case3 _ _ _ _ ih => exact ih h
  | case4 =>
    cases h
    exact List.cons_ne_nil _ _

theorem Raw.shown_between (before after : String) (t : Raw) :
    (t.between before after).shown = before ++ t.shown ++ after := by
  have hpoints (s : String) : (pointsOf s).map CodePoint.shown = s.toList := by
    rw [pointsOf, List.map_map]
    exact List.map_id _
  cases t with
  | text s => rfl
  | unpaired us =>
    rw [Raw.between, Raw.shown, Raw.shown, shownText, List.map_append, List.map_append, hpoints,
      hpoints, String.ofList_append, String.ofList_append, String.ofList_toList, String.ofList_toList,
      shownText]

end Text

/-- What no message is made of when a root is looked up. -/
def RootFault.IsMute : RootFault → Prop
  | .file f => f.cause = .nullCharacter ∨ f.cause = .linkLoop
  | .encoding f => f.halves ≠ []

namespace FileSystem
variable {fs : FileSystem} {t : Text.Raw} {p : Path} {e : RootFault}

theorem target_text (s : String) :
    fs.target (.text s) = ((fs.resolve (Path.parse s)).mapError .file).map .path := rfl

theorem seek_eq_path {here : String} {beyond ns : List RawName}
    (h : fs.seek here beyond ns = .ok (.path p)) : ∃ s, fs.resolve (Path.parse s) = .ok p := by
  induction ns generalizing here beyond with
  | nil =>
    obtain ⟨q, hq, h⟩ := bind_eq_ok.1 h
    split at h
    · cases h
      exact ⟨here, mapError_eq_ok.1 hq⟩
    · cases h
  | cons n ns ih =>
    rw [seek] at h
    split at h
    · cases h
    · split at h
      · cases h
      · split at h
        · split at h <;> exact ih h
        · split at h <;> exact ih h

/-- The path that a root leads to is what some text is resolved to. -/
theorem exists_resolve_of_target (h : fs.target t = .ok (.path p)) :
    ∃ s, fs.resolve (Path.parse s) = .ok p := by
  cases t with
  | text s =>
    obtain ⟨q, hq, h⟩ := map_eq_ok.1 h
    cases h
    exact ⟨s, mapError_eq_ok.1 hq⟩
  | unpaired us => exact seek_eq_path h

theorem target_eq_path (hw : ∀ n ∈ fs.working, isEntryName n = true)
    (h : fs.target t = .ok (.path p)) : p.root = .single ∧ p.IsProper ∧ ".." ∉ p.parts := by
  obtain ⟨s, hs⟩ := exists_resolve_of_target h
  exact resolve_eq_ok hw (Path.isProper_parse s) hs

theorem isMute_of_resolve {q : Path} {f : FileFault} (h : fs.resolve q = .error f) :
    (RootFault.file f).IsMute := by
  unfold resolve at h
  split at h
  · cases h
    exact .inl rfl
  · dsimp only at h
    split at h
    · cases h
      exact .inr rfl
    · cases h

theorem isMute_of_seek {here : String} {beyond ns : List RawName}
    (h : fs.seek here beyond ns = .error e) : e.IsMute := by
  induction ns generalizing here beyond with
  | nil =>
    rcases bind_eq_error.1 h with h | ⟨q, -, ⟨⟩⟩
    obtain ⟨f, hf, rfl⟩ := mapError_eq_error.1 h
    exact isMute_of_resolve hf
  | cons n ns ih =>
    rw [seek] at h
    split at h
    · rename_i f hf
      cases h
      exact Text.halves_ne_nil hf
    · split at h
      · cases h
        exact .inl rfl
      · split at h
        · split at h <;> exact ih h
        · split at h <;> exact ih h

theorem isMute_of_target (h : fs.target t = .error e) : e.IsMute := by
  cases t with
  | text s =>
    obtain ⟨f, hf, rfl⟩ := mapError_eq_error.1 (map_eq_error.1 h)
    exact isMute_of_resolve hf
  | unpaired us => exact isMute_of_seek h

end FileSystem
end DocTree
