import Mathlib
import DocTree.FrontMatter
import DocTree.Proofs.Config
import DocTree.Proofs.Yaml.Load

/-!
# Which values are front matter or a configuration

Front matter and the configuration file are read alike: a mapping has its entries, null has none, and
other values are refused (`split_and_load_of_hasEntries`). But whatever else counts as absent is taken
for null (`split_of_isFalsy`, `fileEntries_of_isFalsy`): false, a zero, an empty text, list or set are
not refused (`not_forall_split_eq_error`).
-/

namespace DocTree

namespace FrontMatter
variable {text : String} {header body : List Char} {v : Value}

theorem split_eq (hheader : header? text.toList = some (header, body))
    (hload : Yaml.load header = .ok v) :
    split text = (v.entriesOr .kind).map fun es => (es, .ofList body) := by
  rw [split, hheader]
  dsimp only
  rw [read, hload]
  dsimp only
  unfold Value.entriesOr
  split
  · rfl
  · cases v.bare <;> rfl

theorem split_of_isFalsy (hheader : header? text.toList = some (header, body))
    (hload : Yaml.load header = .ok v) (hv : v.isFalsy = true) :
    split text = .ok ([], .ofList body) := by
  rw [split_eq hheader hload, Value.entriesOr_of_isFalsy hv]
  rfl

end FrontMatter

namespace Config
variable {fs : FileSystem} {bytes : List UInt8} {text : List Char} {v : Value}
  {environment : List (String × String)} {asked : List (String × Value)}

theorem fileEntries_eq (hread : fs.read (Path.parse fileName) = .ok bytes)
    (htext : Utf8.readText bytes = .ok text) (hload : Yaml.load text = .ok v) :
    fileEntries fs = v.entriesOr .kind := by
  rw [fileEntries_of_read hread htext, entriesOf_of_load hload]

theorem fileEntries_of_isFalsy (hread : fs.read (Path.parse fileName) = .ok bytes)
    (htext : Utf8.readText bytes = .ok text) (hload : Yaml.load text = .ok v)
    (hv : v.isFalsy = true) : fileEntries fs = .ok [] := by
  rw [fileEntries_eq hread htext hload, Value.entriesOr_of_isFalsy hv]

theorem load_of_fileEntries_eq_error {f : Fault} (h : fileEntries fs = .error f) :
    load fs environment asked = .error f := by
  rw [load, h]
  rfl

theorem load_ne_kind {es : List (Value × Value)} (h : fileEntries fs = .ok es) (found : String) :
    load fs environment asked ≠ .error (.kind found) := by
  -- what is checked later has faults of its own
  intro hload
  rcases bind_eq_error.1 hload with hfile | ⟨es', -, hload⟩
  · rw [h] at hfile
    cases hfile
  · dsimp only at hload
    split at hload
    · cases hload
    · obtain ⟨is, -, his⟩ := mapError_eq_error.1 hload
      cases his

end Config

/-- A value that, if it counts as absent, is null or an empty mapping: as front matter, and as the
configuration, it gives entries just if it is a mapping or null, and it is refused by its kind if not. -/
theorem split_and_load_of_hasEntries {v : Value}
    (h : v.isFalsy = true → ∃ es, v.HasEntries es) :
    (∀ text header body, FrontMatter.header? text.toList = some (header, body) →
      Yaml.load header = .ok v →
        (∀ es rest, FrontMatter.split text = .ok (es, rest) ↔
          v.HasEntries es ∧ rest = .ofList body) ∧
        ((∀ es, ¬v.HasEntries es) → FrontMatter.split text = .error (.kind v.kindName))) ∧
    ∀ fs bytes text, fs.read (Path.parse Config.fileName) = .ok bytes →
      Utf8.readText bytes = .ok text → Yaml.load text = .ok v →
        (∀ es, Config.fileEntries fs = .ok es ↔ v.HasEntries es) ∧
        ∀ environment asked,
          ((∃ es, v.HasEntries es) →
            ∀ found, Config.load fs environment asked ≠ .error (.kind found)) ∧
          ((∀ es, ¬v.HasEntries es) →
            Config.load fs environment asked = .error (.kind v.kindName)) := by
  constructor
  · intro text header body hheader hload
    rw [FrontMatter.split_eq hheader hload]
    refine ⟨fun es rest => ?_, fun hnone => ?_⟩
    · rw [map_eq_ok, ← Value.entriesOr_eq_ok h]
      constructor
      · rintro ⟨es', hes', heq⟩
        cases heq
        exact ⟨hes', rfl⟩
      · rintro ⟨hes, rfl⟩
        exact ⟨es, hes, rfl⟩
    · rw [Value.entriesOr_of_not_hasEntries h hnone]
      rfl
  · intro fs bytes text hread htext hload
    have hfile := Config.fileEntries_eq hread htext hload
    refine ⟨fun es => ?_, fun environment asked => ⟨?_, fun hnone => ?_⟩⟩
    · rw [hfile, Value.entriesOr_eq_ok h]
    · rintro ⟨es, hes⟩
      exact Config.load_ne_kind (hfile.trans (Value.entriesOr_of_hasEntries hes))
    · exact Config.load_of_fileEntries_eq_error
        (hfile.trans (Value.entriesOr_of_not_hasEntries h hnone))

/-- A text for front matter, and for the configuration. -/
theorem split_and_load_of_hasEntries_text :
    FrontMatter.split "---\nloud\n---\n" = .error (.kind "str") ∧
      ∀ environment asked, Config.load ⟨[(Config.fileName, .file "loud".toUTF8.toList)], []⟩
        environment asked = .error (.kind "str") := by
  have hload : Yaml.load "loud".toList = .ok (.str "loud") := by
    have hroot : Yaml.rootText? "loud".toList = some (Yaml.Tag.str, "loud") := by decide +kernel
    exact Yaml.load_eq_ok (by decide +kernel) hroot fun m => rfl
  have hnone : ∀ es, ¬(Value.str "loud").HasEntries es := by
    rintro es (h | ⟨h, -⟩) <;> cases h
  have hfalsy : (Value.str "loud").isFalsy = true → ∃ es, (Value.str "loud").HasEntries es :=
    fun h => absurd h (by decide +kernel)
  obtain ⟨hsplit, hconfig⟩ := split_and_load_of_hasEntries hfalsy
  have hread : FileSystem.read ⟨[(Config.fileName, .file "loud".toUTF8.toList)], []⟩
      (Path.parse Config.fileName) = .ok "loud".toUTF8.toList := by
    have hparse : Path.parse Config.fileName = ⟨.relative, [Config.fileName]⟩ := by decide +kernel
    rw [hparse]
    exact FileSystem.read_name rfl rfl (by decide +kernel) (by decide +kernel)
  exact ⟨(hsplit _ _ [] (by decide +kernel) hload).2 hnone,
    fun environment asked => ((hconfig _ _ _ hread (by decide +kernel) hload).2 _ _).2 hnone⟩

/-- A header that stands for false is taken for one without entries. -/
theorem not_forall_split_eq_error : ¬ ∀ (text : String) (header body : List Char) (v : Value),
    FrontMatter.header? text.toList = some (header, body) → Yaml.load header = .ok v →
      (∀ es, ¬v.HasEntries es) → ∃ f, FrontMatter.split text = .error f := by
  intro h
  have hheader : FrontMatter.header? "---\nfalse\n---\n".toList = some ("false".toList, []) := by
    decide +kernel
  have hload : Yaml.load "false".toList = .ok (.bool false) := by
    have hroot : Yaml.rootText? "false".toList = some (Yaml.Tag.core "bool", "false") := by
      decide +kernel
    have hbool : Yaml.Scalar.bool "false" = .ok false := by decide +kernel
    refine Yaml.load_eq_ok (by decide +kernel) hroot fun m => ?_
    show (some <$> ((Yaml.Scalar.bool "false").mapError Yaml.Error.scalar).map Value.bool) = _
    rw [hbool]
    rfl
  obtain ⟨f, hf⟩ := h "---\nfalse\n---\n" _ _ _ hheader hload (by
    rintro es (h | ⟨h, -⟩) <;> cases h)
  rw [FrontMatter.split_of_isFalsy hheader hload rfl] at hf
  cases hf

end DocTree
