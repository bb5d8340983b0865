import Bindery.Document.Output
import Bindery.Proofs.IdentifierPasses
import Bindery.Proofs.NormalReferences

/-! Names of files. Identifiers are the names and the empty text, so the files of a document, which are named for its
title, lie in the directory they are written to, whatever the title is. -/

namespace Bindery
open Text

namespace Path

/-! ### Steps -/

structure IsStep (step : Text) : Prop where
  present : step ≠ []
  leads : step ≠ ['.']
  whole : '/' ∉ step

theorem steps_eq (path : Text) : steps path = (runsOutside (· == '/') path).filter (· ≠ ['.']) := by
  rw [runsOutside, List.filter_filter]
  rw [steps, List.splitOn]
  exact List.filter_congr fun step _ => Bool.and_comm _ _

theorem isStep_of_mem_steps {path step : Text} (member : step ∈ steps path) : IsStep step := by
  rw [steps_eq] at member
  obtain ⟨run, leads⟩ := List.mem_filter.mp member
  obtain ⟨present, whole⟩ := of_mem_runsOutside run
  exact ⟨present, of_decide_eq_true leads, fun slash => absurd (whole '/' slash) (by decide)⟩

section
variable {names : List Text} (all : ∀ name ∈ names, IsStep name)
include all

theorem steps_join : steps (join ['/'] names) = names := by
  have apart : ∀ name ∈ names, name ≠ [] ∧ ∀ c ∈ name, (c == '/') = false := by
    intro name member
    refine ⟨(all name member).present, fun c inside => beq_false_of_ne ?_⟩
    intro slash
    exact (all name member).whole (slash ▸ inside)
  rw [steps_eq, runsOutside_join (by decide) apart]
  exact List.filter_eq_self.mpr fun name member => decide_eq_true (all name member).leads

theorem steps_ofSteps {start : Text} (slashes : ∀ c ∈ start, (c == '/') = true) : steps (ofSteps start names) = names := by
  have same : steps (start ++ join ['/'] names) = names := by
    rw [steps_eq, runsOutside_append_of_stops slashes, ← steps_eq, steps_join all]
  rw [ofSteps]
  split
  next nothing =>
    rw [List.isEmpty_iff.mp nothing] at same
    rw [← same]
    rfl
  next => exact same

theorem exists_join_cons (nonempty : names ≠ []) : ∃ c rest, join ['/'] names = c :: rest ∧ c ≠ '/' := by
  obtain ⟨name, more, rfl⟩ := List.exists_cons_of_ne_nil nonempty
  have step := all name List.mem_cons_self
  obtain ⟨c, rest, rfl⟩ := List.exists_cons_of_ne_nil step.present
  have solid : c ≠ '/' := fun slash => step.whole (slash ▸ List.mem_cons_self)
  cases more with
  | nil => exact ⟨c, rest, join_singleton ['/'] (c :: rest), solid⟩
  | cons next more => exact ⟨c, _, join_cons_cons ['/'] (c :: rest) next more, solid⟩

end

theorem root_cons {c : Char} (solid : c ≠ '/') (rest : Text) : root (c :: rest) = [] := by
  simp [root, startsWith, solid.symm]

theorem root_append {c : Char} (solid : c ≠ '/') (path rest : Text) : root (root path ++ c :: rest) = root path := by
  unfold root
  split
  next => simp [startsWith, solid.symm]
  next =>
    split
    next => simp [startsWith, solid.symm]
    next => simp [startsWith, solid.symm]

theorem eq_slash_of_mem_root {path : Text} : ∀ c ∈ root path, (c == '/') = true := by
  apply List.all_eq_true.mp
  unfold root
  split
  next => decide
  next => split <;> decide

theorem root_ofSteps {names : List Text} (all : ∀ name ∈ names, IsStep name) (nonempty : names ≠ []) (path : Text) :
    root (ofSteps (root path) names) = root path := by
  obtain ⟨c, rest, start, solid⟩ := exists_join_cons all nonempty
  have present : (root path ++ c :: rest).isEmpty = false := by simp
  simp only [ofSteps, start, present]
  exact root_append solid path rest

theorem steps_of_isStep {name : Text} (step : IsStep name) : steps name = [name] := by
  have alone := steps_join (List.forall_mem_singleton.mpr step)
  rwa [join_singleton] at alone

theorem root_of_isStep {name : Text} (step : IsStep name) : root name = [] := by
  obtain ⟨c, rest, rfl⟩ := List.exists_cons_of_ne_nil step.present
  exact root_cons (fun slash => step.whole (slash ▸ List.mem_cons_self)) rest

/-- One step further than a directory, and not back up. -/
structure LiesIn (directory name path : Text) : Prop where
  root : Path.root path = Path.root directory
  steps : Path.steps path = Path.steps directory ++ [name]
  forward : name ≠ ['.', '.']

/-- The directory of such a path is the one it is seen from. -/
theorem LiesIn.parent_eq {directory name path : Text} (lies : LiesIn directory name path) : parent path = normalize directory := by
  rw [parent, lies.root, lies.steps, List.dropLast_concat]
  rfl

theorem liesIn_within {name : Text} (step : IsStep name) (forward : name ≠ ['.', '.']) (directory : Text) :
    LiesIn directory name (within directory name) := by
  have all : ∀ other ∈ steps directory ++ [name], IsStep other :=
    List.forall_mem_append.mpr ⟨fun _ => isStep_of_mem_steps, List.forall_mem_singleton.mpr step⟩
  have whole : within directory name = ofSteps (root directory) (steps directory ++ [name]) := by
    rw [within, root_of_isStep step, steps_of_isStep step]
    rfl
  rw [whole]
  exact ⟨root_ofSteps all (List.append_ne_nil_of_right_ne_nil _ (List.cons_ne_nil name [])) directory,
    steps_ofSteps all eq_slash_of_mem_root, forward⟩

end Path

open Identifier

/-- No separator of paths, no point and no blank. -/
def IsPlainName (name : Text) : Prop :=
  ∀ c ∈ name, c ≠ '/' ∧ c ≠ '\\' ∧ c ≠ '.' ∧ isBlank c = false

theorem Identifier.IsName.isPlainName {name : Text} (named : IsName name) : IsPlainName name := by
  intro c member
  have same : normalize name = name := (isName_iff.mp named).1
  have word : Link.isWordChar c = true := isWordChar_of_mem_normalize (same.symm ▸ member)
  exact Link.of_isWordChar (P := fun c => c ≠ '/' ∧ c ≠ '\\' ∧ c ≠ '.' ∧ isBlank c = false) (by decide) word

theorem Identifier.normalize_eq_nil_or_isName (text : Text) : normalize text = [] ∨ IsName (normalize text) := by
  by_cases present : normalize text = []
  · exact Or.inl present
  · exact Or.inr ((isIdentifier_normalize text).isName present)

theorem Identifier.normalize_eq_self_iff {text : Text} : normalize text = text ↔ text = [] ∨ IsName text := by
  constructor
  · intro same
    exact same ▸ normalize_eq_nil_or_isName text
  · rintro (rfl | named)
    · rfl
    · exact (isName_iff.mp named).1

namespace Document

theorem isName_fileName (document : Document) : IsName document.fileName := by
  have fallback : IsName "document" :=
    ⟨["document"], by decide, List.forall_mem_singleton.mpr ⟨by decide, List.all_eq_true.mp (by decide)⟩, rfl⟩
  rw [fileName]
  split
  next => exact fallback
  next present =>
    have nonempty : normalize document.title ≠ [] := by simpa using present
    exact (isIdentifier_normalize document.title).isName nonempty

theorem liesIn_within_fileName (document : Document) {ending : Text} (whole : '/' ∉ ending) (directory : Text) :
    Path.LiesIn directory (document.fileName ++ "." ++ ending) (Path.within directory (document.fileName ++ "." ++ ending)) := by
  have plain := document.isName_fileName.isPlainName
  obtain ⟨c, rest, name⟩ := List.exists_cons_of_ne_nil (isName_iff.mp document.isName_fileName).2
  have first : c ≠ '.' := (plain c (name ▸ List.mem_cons_self)).2.2.1
  have slashless : '/' ∉ document.fileName := fun slash => (plain '/' slash).1 rfl
  have other {tail : Text} : document.fileName ++ "." ++ ending ≠ '.' :: tail := by
    rw [name]
    intro same
    exact first (List.cons.inj same).1
  apply Path.liesIn_within _ other
  exact ⟨by simp, other, by simp [slashless, whole]⟩

end Document

/-- The normal form of a text is nothing or a name, and what is nothing or a name is its own normal form. So the files of
a document stay in their directory. -/
theorem Identifier.normal_forms_are_names :
    (∀ text : Text, normalize text = passes text) ∧
    (∀ text : Text, normalize text = [] ∨ IsName (normalize text)) ∧
    (∀ text : Text, normalize text = text ↔ text = [] ∨ IsName text) ∧
    (∀ text : Text, normalize (normalize text) = normalize text) ∧
    (∀ text : Text, (∃ source, normalize source = text) ↔ text = [] ∨ IsName text) ∧
    ∀ (document : Document) (directory : Text) (format : Format), IsName document.fileName ∧ IsPlainName document.fileName ∧
      Path.LiesIn directory (document.fileName ++ "." ++ format.name) (document.files directory format).document.path ∧
      Path.LiesIn directory (document.fileName ++ "." ++ "json") (document.files directory format).sidecar.path := by
  refine ⟨normalize_eq_passes, normalize_eq_nil_or_isName, fun _ => normalize_eq_self_iff, isIdentifier_normalize, ?_, ?_⟩
  · intro text
    constructor
    · rintro ⟨source, rfl⟩
      exact normalize_eq_nil_or_isName source
    · intro normal
      exact ⟨text, normalize_eq_self_iff.mpr normal⟩
  · intro document directory format
    have named := document.isName_fileName
    refine ⟨named, named.isPlainName, ?_, document.liesIn_within_fileName (by decide) directory⟩
    have whole : '/' ∉ format.name := by cases format <;> decide
    exact document.liesIn_within_fileName whole directory

end Bindery
