import Bindery.Command.Run
import Bindery.Proofs.FailedRuns
import Bindery.Proofs.SettingsChoices
import Bindery.Proofs.SourceFaults

/-! How the loading of settings ends. They are loaded, or refused with an error of content, which a run reports as one that
can be mended. Two kinds of files break the loading off instead: those with a key that is no text, and those with a value
that they announce and that there is none of. -/

namespace Bindery
open Check (Fields)
open Session (OnlyFails onlyFails_fail onlyFails_abandon line)

namespace Settings

/-- Files on which the loading of settings breaks off. -/
inductive BreaksOff : Option Bytes → Prop where
  | ofKey {bytes : Bytes} {fields : Fields} (read : fileFields (some (.ok bytes)) = .ok fields)
      (keyed : fields.all isTextKey = false) : BreaksOff (some bytes)
  | ofValue {bytes : Bytes} {fault : ValueFault} (read : Source.data .yaml (.ok bytes) = .error (.value fault))
      (foreign : fault.isOfContent = false) : BreaksOff (some bytes)

/-- Settings are loaded, or refused with an error of content. -/
def IsSettled (result : Except SettingsError Settings) : Prop :=
  (∃ settings, result = .ok settings) ∨ ∃ error, result = .error error ∧ error.isOfContent = true

variable {bytes : Bytes} {environment : Text → Option Text} {requested : List (Text × Data)}

/-! ### Reading the file -/

theorem fileFields_of_error {source : Source} {error : SourceError} (failed : source.data .yaml = .error error) :
    fileFields (some source) = .error (.source error) := by
  unfold fileFields
  simp only
  rw [failed]
  rfl

theorem fileFields_of_map {source : Source} {fields : Fields} (read : source.data .yaml = .ok (.map fields)) :
    fileFields (some source) = .ok fields := by
  unfold fileFields
  simp only
  rw [read]
  rfl

theorem fileFields_of_other {source : Source} {value : Data} (read : source.data .yaml = .ok value)
    (other : ∀ fields, value ≠ .map fields) :
    fileFields (some source) = if value.isPresent then .error (.notMapping value) else .ok [] := by
  unfold fileFields
  simp only
  rw [read]
  cases value with
  | map fields => exact absurd rfl (other fields)
  | _ => rfl

/-- A file is refused with what is wrong with its text, or as one that is no mapping. -/
theorem fileFields_eq_error {source : Source} {error : SettingsError} (failed : fileFields (some source) = .error error) :
    (∃ fault, source.data .yaml = .error fault ∧ error = .source fault) ∨ ∃ value, error = .notMapping value := by
  cases read : source.data .yaml with
  | error fault =>
    rw [fileFields_of_error read] at failed
    cases failed
    exact .inl ⟨fault, rfl, rfl⟩
  | ok value =>
    by_cases mapped : ∃ fields, value = .map fields
    · obtain ⟨fields, rfl⟩ := mapped
      rw [fileFields_of_map read] at failed
      cases failed
    · rw [fileFields_of_other read fun fields same => mapped ⟨fields, same⟩] at failed
      split at failed
      next => exact .inr ⟨value, (Except.error.inj failed).symm⟩
      next => cases failed

/-- A text is refused with an error of content, unless it announces a value of another kind than it has. -/
theorem isOfContent_or_foreign {error : SourceError} (failed : Source.data .yaml (.ok bytes) = .error error) :
    error.isOfContent = true ∨ ∃ fault, error = .value fault ∧ fault.isOfContent = false := by
  obtain ⟨fault, _, rfl⟩ | rfl | ⟨fault, rfl⟩ := Source.data_eq_error failed
  · exact .inl rfl
  · exact .inl rfl
  · cases kind : fault.isOfContent with
    | true => exact .inl kind
    | false => exact .inr ⟨fault, rfl, kind⟩

/-! ### Loading -/

theorem load_of_error {source : Option Source} {error : SettingsError} (failed : fileFields source = .error error) :
    load source environment requested = .error error := by
  rw [load, failed]
  rfl

theorem isSettled_of_fields {source : Option Source} {fields : Fields} (read : fileFields source = .ok fields) :
    IsSettled (load source environment requested) ↔ fields.all isTextKey = true := by
  rw [load_of_fields read]
  constructor
  · intro settled
    by_contra keyed
    rw [if_neg keyed] at settled
    obtain ⟨settings, loaded⟩ | ⟨error, refused, ofContent⟩ := settled
    · cases loaded
    · cases refused
      cases ofContent
  · intro named
    rw [if_pos named]
    cases ofFields (chosen fields environment requested) with
    | ok settings => exact .inl ⟨settings, rfl⟩
    | error invalid => exact .inr ⟨_, rfl, rfl⟩

theorem isSettled_of_error {source : Option Source} {error : SettingsError} (failed : fileFields source = .error error) :
    IsSettled (load source environment requested) ↔ error.isOfContent = true := by
  rw [load_of_error failed]
  constructor
  · rintro (⟨settings, loaded⟩ | ⟨other, refused, ofContent⟩)
    · cases loaded
    · cases refused
      exact ofContent
  · exact fun ofContent => .inr ⟨error, rfl, ofContent⟩

/-- Settings are settled exactly if the file does not break the loading off. -/
theorem isSettled_iff (content : Option Bytes) :
    IsSettled (load (content.map .ok) environment requested) ↔ ¬ BreaksOff content := by
  cases content with
  | none =>
    have unbroken : ¬ BreaksOff none := by rintro ⟨⟩
    exact iff_of_true ((isSettled_of_fields rfl).mpr rfl) unbroken
  | some bytes =>
    rw [Option.map_some]
    cases read : fileFields (some (.ok bytes)) with
    | ok fields =>
      rw [isSettled_of_fields read]
      constructor
      · rintro named (⟨other, keyed⟩ | ⟨faulty, _⟩)
        · cases read.symm.trans other
          cases named.symm.trans keyed
        · rw [fileFields_of_error faulty] at read
          cases read
      · intro unbroken
        by_contra keyed
        exact unbroken (.ofKey read (Bool.eq_false_iff.mpr keyed))
    | error error =>
      rw [isSettled_of_error read]
      constructor
      · rintro ofContent (⟨other, _⟩ | ⟨faulty, foreign⟩)
        · cases read.symm.trans other
        · cases (fileFields_of_error faulty).symm.trans read
          cases ofContent.symm.trans foreign
      · intro unbroken
        obtain ⟨fault, faulty, rfl⟩ | ⟨value, rfl⟩ := fileFields_eq_error read
        · obtain ofContent | ⟨fault, rfl, foreign⟩ := isOfContent_or_foreign faulty
          · exact ofContent
          · exact absurd (.ofValue faulty foreign) unbroken
        · rfl

/-! ### Runs of a command -/

/-- What is found where the file should be. -/
def fileOf (content : Option Bytes) : Source :=
  match content with
  | some bytes => .ok bytes
  | none => .error ⟨SettingsError.fileName, .missing⟩

/-- Steps among which the file is found with this content, or not at all, and the environment as it is given. -/
structure Finds (m : Type → Type) [Monad m] [Workspace m] (content : Option Bytes)
    (environment : Text → Option Text) : Prop where
  read_file : (Workspace.read SettingsError.fileName : m Source) = pure (fileOf content)
  read_environment : (Workspace.environment : m (Text → Option Text)) = pure environment

variable {m : Type → Type} [Monad m] [LawfulMonad m] [Workspace m] {content : Option Bytes}

theorem settings_of_finds (finds : Finds m content environment) (phrases : Phrases) :
    (Command.settings phrases requested : Session m Settings) =
      match load (content.map .ok) environment requested with
      | .ok settings => pure settings
      | .error error =>
        if error.isOfContent then Session.fail (error.message phrases) none
        else Session.abandon (error.message phrases) := by
  have file : (Workspace.read SettingsError.fileName : Session m Source) = pure (fileOf content) := by
    show (monadLift (Workspace.read SettingsError.fileName : m Source) : Session m Source) = _
    rw [finds.read_file]
    exact liftM_pure _
  have environs : (Workspace.environment : Session m (Text → Option Text)) = pure environment := by
    show (monadLift (Workspace.environment : m (Text → Option Text)) : Session m _) = _
    rw [finds.read_environment]
    exact liftM_pure _
  rw [Command.settings, file, environs, pure_bind]
  -- A file that is not there is no source at all, so the two ways of giving the content meet only by cases.
  cases content <;> exact pure_bind _ _

/-- For every content of the file, every environment and every request, settings are loaded or refused exactly if the file
does not break the loading off. A run then goes on with the settings, or it reports what is wrong with them as an error that
can be mended; where the loading breaks off it stops. -/
theorem settings_settled_iff (content : Option Bytes) (environment : Text → Option Text) (requested : List (Text × Data)) :
    (IsSettled (load (content.map .ok) environment requested) ↔ ¬ BreaksOff content) ∧
    ∀ (m : Type → Type) [Monad m] [LawfulMonad m] [Workspace m] (phrases : Phrases), Finds m content environment →
      (∀ settings, load (content.map .ok) environment requested = .ok settings →
        (Command.settings phrases requested : Session m Settings) = pure settings) ∧
      ∀ error, load (content.map .ok) environment requested = .error error →
        (¬ BreaksOff content → OnlyFails (Command.settings phrases requested : Session m Settings)
          (line ("Error: " ++ error.message phrases))) ∧
        (BreaksOff content → OnlyFails (Command.settings phrases requested : Session m Settings)
          (line ("Stopped: " ++ error.message phrases))) := by
  refine ⟨isSettled_iff content, ?_⟩
  intro m _ _ _ phrases finds
  constructor
  · intro settings loaded
    rw [settings_of_finds finds, loaded]
  · intro error failed
    have run : (Command.settings phrases requested : Session m Settings) = _ := settings_of_finds finds phrases
    rw [failed] at run
    constructor
    · intro unbroken
      obtain ⟨settings, loaded⟩ | ⟨other, refused, ofContent⟩ := (isSettled_iff content).mpr unbroken
      · cases loaded.symm.trans failed
      · cases refused.symm.trans failed
        rw [run]
        simp only
        rw [if_pos ofContent]
        exact onlyFails_fail _
    · intro broken
      have foreign : ¬ error.isOfContent = true := by
        intro ofContent
        exact (isSettled_iff content).mp (.inr ⟨error, failed, ofContent⟩) broken
      rw [run]
      simp only
      rw [if_neg foreign]
      exact onlyFails_abandon _

/-! A file with a number for a key. -/

def numberedFile : Bytes :=
  Utf8.encode "1: 2\n"

/-- A workspace where every file is the same and none can be changed. -/
abbrev onlyFile (source : Source) : Workspace Id where
  environment := fun _ => none
  isDirectory _ := false
  read _ := source
  makeOne path := .error ⟨path, .denied⟩
  write path _ := .error ⟨path, .denied⟩

theorem number_key_not_settled :
    ¬ IsSettled (load (some (.ok numberedFile)) (fun _ => none) []) ∧
      letI := onlyFile (.ok numberedFile)
      OnlyFails (Command.settings .plain [] : Session Id Settings) (line "Stopped: keywords must be strings") := by
  have keys : (fileFields (some (.ok numberedFile))).toOption.any (fun fields => !fields.all isTextKey) = true := by
    decide +kernel
  obtain ⟨fields, read, keyed⟩ := exists_ok_of_any keys
  have keyed : fields.all isTextKey = false := (Bool.not_eq_true' _).mp keyed
  have broken : BreaksOff (some numberedFile) := .ofKey read keyed
  have refused : load (some (.ok numberedFile)) (fun _ => none) [] = .error .keyNotText := by
    rw [load_of_fields read, keyed]
    rfl
  obtain ⟨settled, runs⟩ := settings_settled_iff (some numberedFile) (fun _ => none) []
  refine ⟨fun kept => settled.mp kept broken, ?_⟩
  let _ := onlyFile (.ok numberedFile)
  exact ((runs Id .plain ⟨rfl, rfl⟩).2 .keyNotText refused).2 broken

end Settings
end Bindery
