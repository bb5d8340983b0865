import Bindery.Proofs.LinkRoundTrip
import Bindery.Proofs.QuoteStates
import Bindery.Proofs.StableCuts

/-! Versions at the end of a link. They are what the first reference finds, and it is only found versions that differ
between reading with them and reading without; so they stand in exactly where no reference before has its own. -/

namespace Bindery

/-- A reference without versions takes those that are given. -/
def Reference.withVersions (versions : List Text) (reference : Reference) : Reference :=
  if reference.versions.isEmpty then { reference with versions := versions } else reference

namespace Reference
variable {reference : Reference}

theorem withVersions_of_unversioned (unversioned : reference.versions = []) (versions : List Text) :
    reference.withVersions versions = { reference with versions := versions } := by
  rw [withVersions, unversioned]
  rfl

theorem withVersions_of_versioned (versioned : reference.versions ≠ []) (versions : List Text) :
    reference.withVersions versions = reference := by
  rw [withVersions, if_neg (by simpa using versioned)]

theorem withVersions_withVersions {own : List Text} (nonempty : own ≠ []) (versions : List Text) :
    (reference.withVersions own).withVersions versions = reference.withVersions own := by
  rcases eq_or_ne reference.versions [] with unversioned | versioned
  · rw [withVersions_of_unversioned unversioned, withVersions_of_versioned nonempty]
  · rw [withVersions_of_versioned versioned, withVersions_of_versioned versioned]

theorem withVersions_collection (versions : List Text) : (reference.withVersions versions).collection = reference.collection := by
  unfold withVersions
  split <;> rfl

end Reference

namespace Link
open Text Identifier

namespace Reader
variable (reader : Reader)

theorem readReference_default (content : Text) (collection : Option Text) (versions : List Text) :
    reader.readReference content collection versions =
      (reader.readReference content collection []).map (Option.map (Reference.withVersions versions)) := by
  unfold readReference
  by_cases empty : (strip content).isEmpty = true
  · simp only [empty, if_true]
    rfl
  simp only [empty]
  generalize separatePipes collection (strip content) = segments
  generalize splitPlace (strip segments.main) = place
  generalize splitCollection ((Reference.named segments.collection).or collection) place.title = named
  cases reader.resolveTitle named.1 named.2 with
  | error error => rfl
  | ok title =>
    by_cases untitled : title.isEmpty = true
    · simp [bind, Except.bind, untitled, pure, Except.pure, Except.map]
    cases place.readSections with
    | error error => simp [bind, Except.bind, untitled, Except.map]
    | ok sections =>
      by_cases own : segments.versions = []
      · simp [bind, Except.bind, untitled, pure, Except.pure, Except.map, Reference.withVersions, own]
      · simp [bind, Except.bind, untitled, pure, Except.pure, Except.map, Reference.withVersions, own]

/-- Reading with versions at hand and without them is the same until a reference brings its own, and from there on
both go on with these. -/
theorem readReferences_default (collection : Option Text) (versions : List Text) (parts : List Text) :
    reader.readReferences collection versions parts =
      (reader.readReferences collection [] parts).map (List.map (Reference.withVersions versions)) := by
  induction parts generalizing collection versions with
  | nil => rfl
  | cons part parts ih =>
    have first := reader.readReference_default part collection versions
    cases read : reader.readReference part collection [] with
    | error error =>
      rw [readReferences, readReferences, first, read]
      rfl
    | ok result =>
      rw [read] at first
      cases result with
      | none =>
        rw [readReferences, readReferences, first, read]
        exact ih collection versions
      | some reference =>
        rw [readReferences_cons_eq read, readReferences_cons_eq first, Reference.withVersions_collection, ite_isEmpty]
        rcases eq_or_ne reference.versions [] with unversioned | versioned
        · rw [Reference.withVersions_of_unversioned unversioned, unversioned, ite_self, ih _ versions]
          cases reader.readReferences (reference.collection.or collection) [] parts with
          | error error => rfl
          | ok rest => simp [Except.map, Reference.withVersions_of_unversioned unversioned]
        · have own : reference.versions.isEmpty = false := by simpa using versioned
          rw [Reference.withVersions_of_versioned versioned, own, if_neg Bool.false_ne_true, ih _ reference.versions]
          cases reader.readReferences (reference.collection.or collection) [] parts with
          | error error => rfl
          | ok rest =>
            simp [Except.map, Reference.withVersions_of_versioned versioned, Reference.withVersions_withVersions versioned]

end Reader

section
variable {body : Text} (tight : IsTight body) {versions : List Word} (versioned : versions ≠ [])
include tight versioned

theorem splitSharedVersions_closed (closed : ClosesQuotes body) (complete : readsAsComplete body = true) :
    splitSharedVersions (body ++ versionEnding versions) = (body, versionNames versions) := by
  have pipeless : '|' ∉ ' ' :: join " " (versions.map (·.text)) :=
    List.not_mem_cons_of_ne_of_not_mem (by decide) ((isPlain_versions versions).not_mem (by decide))
  have cut := splitLastPipe?_closed (show isBlank ' ' = true by decide) closed pipeless
  have written : body ++ versionEnding versions = body ++ ' ' :: '|' :: ' ' :: join " " (versions.map (·.text)) := by
    rw [versionEnding_of_ne_nil versioned]
    rfl
  rw [splitSharedVersions, written, cut]
  simp only [tight.strip_concat_blank (show isBlank ' ' = true by decide),
    (isTight_versions versioned).strip_blank_cons (show isBlank ' ' = true by decide), isVersionList_join versioned, complete,
    versionList_join]
  rfl

end

/-- Versions at the end of a link that is complete without them are the default for all its references. -/
theorem trailing_versions_are_default (reader : Reader) {body : Text} (present : body ≠ []) (stripped : strip body = body)
    (closed : ClosesQuotes body) (complete : readsAsComplete body = true) (unshared : splitSharedVersions body = (body, []))
    {versions : List Word} (versioned : versions ≠ []) :
    reader.readLink (opening ++ (body ++ " | " ++ join " " (versions.map (·.text))) ++ closing) =
      (reader.readLink (opening ++ body ++ closing)).map (List.map (Reference.withVersions (versionNames versions))) := by
  have tight := isTight_of_strip_eq present stripped
  have whole : IsTight (body ++ versionEnding versions) := isTight_append_versionEnding versions tight
  have written : body ++ " | " ++ join " " (versions.map (·.text)) = body ++ versionEnding versions := by
    rw [versionEnding_of_ne_nil versioned, List.append_assoc]
  have nonempty : body.isEmpty = false := by simpa using present
  have also : (body ++ versionEnding versions).isEmpty = false := by simpa using whole.ne_nil
  rw [written, Reader.readLink, Reader.readLink, stripDelimiters_append whole, stripDelimiters_append tight]
  simp only [nonempty, also, unshared, splitSharedVersions_closed tight versioned closed complete]
  exact reader.readReferences_default none (versionNames versions) _

theorem ruth_takes_trailing_versions :
    Reader.bibleReader.readLink "[[book::\x22Ruth\x22 1, bible | Acts 2:17 | kjv, Mark 4 | DRB _]]" = .ok
      [⟨none, "ruth", some "1", [], ["drb"]⟩, ⟨some "bible", "acts", some "2", ["17"], ["kjv"]⟩,
       ⟨some "bible", "mark", some "4", [], ["kjv"]⟩] := by
  have read := @trailing_versions_are_default Reader.bibleReader "\x22Ruth\x22 1, bible | Acts 2:17 | kjv, Mark 4"
    (by decide) (by decide) (by decide) (by decide) (by decide) [⟨"DRB", by decide, by decide⟩, ⟨"_", by decide, by decide⟩]
    (by decide)
  exact read.trans (by decide)

end Link
end Bindery
