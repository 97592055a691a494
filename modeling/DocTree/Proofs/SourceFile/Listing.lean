import Mathlib
import DocTree.Proofs.SourceFile.Marker

/-!
# The order in which files are listed

The names of the paths, and so the marker that wins, do not depend on the order of the paths, and
neither does the least Markdown file. But of several paths with the name of the marker the last one is
chosen. So the order plays no part just if there are not two of them (`choose?_perm_iff`).
-/

namespace DocTree.SourceFile
variable {ps qs : List Path} {n : String} {m : String × ItemType}

theorem HasName.perm (hps : HasName ps n) (h : qs.Perm ps) : HasName qs n := by
  obtain ⟨p, hp, hn⟩ := hps
  exact ⟨p, h.mem_iff.2 hp, hn⟩

theorem IsEarliest.perm (hps : IsEarliest ps m) (h : qs.Perm ps) : IsEarliest qs m := by
  obtain ⟨before, after, hmarkers, hbefore⟩ := hps.earliest
  refine ⟨hps.present.perm h, before, after, hmarkers, fun m' hm' hqs => ?_⟩
  exact hbefore m' hm' (hqs.perm h.symm)

theorem least?_eq_some_iff {q : Path} (hps : ∀ p ∈ ps, p.IsProper) :
    least? ps = some q ↔ q ∈ ps ∧ ∀ p ∈ ps, q.le p = true := by
  refine ⟨fun h => ⟨mem_of_least? h, fun p hp => le_of_least? h hp⟩, fun ⟨hq, hle⟩ => ?_⟩
  cases hr : least? ps with
  | none =>
    rw [least?_eq_none_iff.1 hr] at hq
    cases hq
  | some r =>
    have hrmem := mem_of_least? hr
    rw [Path.le_antisymm_of_isProper (hps r hrmem) (hps q hq) (le_of_least? hr hq) (hle r hrmem)]

theorem least?_eq_of_perm (hps : ∀ p ∈ ps, p.IsProper) (h : qs.Perm ps) :
    least? qs = least? ps := by
  have hqs : ∀ p ∈ qs, p.IsProper := fun p hp => hps p (h.mem_iff.1 hp)
  refine Option.ext fun q => ?_
  rw [least?_eq_some_iff hqs, least?_eq_some_iff hps]
  simp only [h.mem_iff]

/-- A path with the name of the marker that wins is chosen if it is listed last. -/
theorem choose?_concat {p : Path} (h : IsEarliest (ps ++ [p]) m) (hp : p.name.lowerCase = m.1) :
    choose? (ps ++ [p]) = some p := by
  rw [choose?_of_isEarliest h, named?_eq_some_iff]
  refine ⟨hp, ps, [], rfl, ?_⟩
  rintro ⟨q, hq, -⟩
  cases hq

/-- Each path with the name of the marker that wins is chosen in some order. -/
theorem exists_perm_choose?_eq {p : Path} (hm : IsEarliest ps m) (hp : p ∈ ps)
    (hname : p.name.lowerCase = m.1) : ∃ qs : List Path, qs.Perm ps ∧ choose? qs = some p := by
  have hperm : (ps.erase p ++ [p]).Perm ps :=
    (List.perm_append_singleton p _).trans (List.perm_cons_erase hp).symm
  exact ⟨_, hperm, choose?_concat (hm.perm hperm) hname⟩

/-- If the marker that wins is the name of one path, the order plays no part. -/
theorem choose?_eq_of_perm (hps : ∀ p ∈ ps, p.IsProper)
    (hone : ∀ m, IsEarliest ps m → ∀ p ∈ ps, ∀ q ∈ ps,
      p.name.lowerCase = m.1 → q.name.lowerCase = m.1 → p = q) (h : qs.Perm ps) :
    choose? qs = choose? ps := by
  rcases exists_isEarliest_or ps with ⟨m, hm⟩ | hnone
  · obtain ⟨p, hp⟩ := hm.present.exists_named?
    obtain ⟨q, hq⟩ := (hm.present.perm h).exists_named?
    have hqp : q = p := hone m hm q (h.mem_iff.1 (mem_of_named? hq)) p (mem_of_named? hp)
      (lowerCase_of_named? hq) (lowerCase_of_named? hp)
    rw [choose?_of_isEarliest (hm.perm h), choose?_of_isEarliest hm, hq, hp, hqp]
  · have hnone' : ∀ m ∈ ItemType.markers, ¬ HasName qs m.1 :=
      fun m hm hqs => hnone m hm (hqs.perm h.symm)
    rw [choose?_of_forall hnone', choose?_of_forall hnone]
    exact least?_eq_of_perm (fun p hp => hps p (List.mem_filter.1 hp).1) (h.filter isMarkdown)

/-- In whatever order the paths are listed, the same one is chosen, just if the marker that wins is not
the name of two of them. -/
theorem choose?_perm_iff (texts : List String) :
    (∀ qs : List Path, qs.Perm (texts.map Path.parse) →
      choose? qs = choose? (texts.map Path.parse)) ↔
        ∀ m, IsEarliest (texts.map Path.parse) m →
          ∀ p ∈ texts.map Path.parse, ∀ q ∈ texts.map Path.parse,
            p.name.lowerCase = m.1 → q.name.lowerCase = m.1 → p = q := by
  constructor
  · intro h m hm p hp q hq hpm hqm
    obtain ⟨ps, hps, hchoose⟩ := exists_perm_choose?_eq hm hp hpm
    obtain ⟨qs, hqs, hchoose'⟩ := exists_perm_choose?_eq hm hq hqm
    rw [h ps hps] at hchoose
    rw [h qs hqs, hchoose] at hchoose'
    exact Option.some.inj hchoose'
  · refine fun h qs hperm => choose?_eq_of_perm (fun p hp => ?_) h hperm
    obtain ⟨text, -, rfl⟩ := List.mem_map.1 hp
    exact Path.isProper_parse text

/-- Of two spellings of a marker in one directory, the one that is listed last is chosen. -/
theorem not_forall_choose?_perm : ¬ ∀ (d : Path) (ps qs : List Path),
    (∀ p ∈ ps, p.IsProper ∧ p.parent = d) → ps.Nodup → qs.Perm ps → choose? qs = choose? ps := by
  intro h
  let lower : Path := ⟨.relative, ["tag.md"]⟩
  let upper : Path := ⟨.relative, ["TAG.md"]⟩
  have hproper : ∀ p ∈ [lower, upper], p.IsProper ∧ p.parent = ⟨.relative, []⟩ := by
    unfold Path.IsProper
    decide +kernel
  have hsame := h ⟨.relative, []⟩ [lower, upper] [upper, lower] hproper (by decide) (.swap ..)
  have hlast : choose? [upper, lower] = some lower ∧ choose? [lower, upper] = some upper := by
    decide +kernel
  rw [hlast.1, hlast.2] at hsame
  exact absurd (Option.some.inj hsame) (by decide)

end DocTree.SourceFile
