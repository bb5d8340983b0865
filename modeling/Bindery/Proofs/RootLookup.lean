import Bindery.Command.Run
import Bindery.Proofs.ArchivedNodes
import Bindery.Proofs.CoordinateNumbers
import Bindery.Proofs.FailedRuns

/-! Looking up the root of a work. A text is tried as a coordinate first and as an id next. It never comes to the id where
the text looks like a coordinate, but its number cannot be read or is too large to be asked for. Any other text is looked
up, and where nothing is kept under it nothing is assembled and nothing is written. -/

namespace Bindery
open Session

/-! ### Texts that can be looked up -/

namespace Coordinate
open Text

/-- A text whose coordinate, if it looks like one, has a number that can be read and asked for. -/
structure IsAskable (root : Text) : Prop where
  readable : ¬ NamesUnreadableNumber root
  storable : ∀ coordinate, parse root = .ok (some coordinate) → isStorable coordinate.kind = true

theorem IsAskable.of_coordinate {root : Text} {coordinate : Coordinate} (parsed : parse root = .ok (some coordinate))
    (storable : isStorable coordinate.kind = true) : IsAskable root where
  readable := exists_parse_eq_ok.mp ⟨_, parsed⟩
  storable other read := by
    obtain rfl := Option.some.inj (Except.ok.inj (parsed.symm.trans read))
    exact storable

theorem IsAskable.of_none {root : Text} (parsed : parse root = .ok none) : IsAskable root where
  readable := exists_parse_eq_ok.mp ⟨_, parsed⟩
  storable other read := by cases read.symm.trans parsed

theorem name_ne_nil_of_parse {text : Text} {coordinate : Coordinate} (parsed : parse text = .ok (some coordinate)) :
    coordinate.name ≠ [] := by
  unfold parse at parsed
  split at parsed
  next => cases parsed
  next kind owner name parts =>
    simp only [split?, Option.bind_eq_bind, Option.bind_eq_some_iff, Option.ite_none_left_eq_some] at parts
    obtain ⟨_, _, _, _, present, same⟩ := parts
    cases same
    split at parsed
    next =>
      cases number : readInt (strip _) with
      | error error => rw [number] at parsed; cases parsed
      | ok kind =>
        rw [number] at parsed
        cases parsed
        simp only [Bool.or_eq_true, List.isEmpty_iff, not_or] at present
        exact present.2
    next => cases parsed

end Coordinate

namespace Archive
open Coordinate Bindery.Graph
variable {archive : Archive} {indexKinds : List Int} {root : Text}

/-- A text is read as the coordinate of a node that is kept. -/
def KeepsAt (archive : Archive) (root : Text) : Prop :=
  ∃ coordinate, parse root = .ok (some coordinate) ∧ ∃ node ∈ archive.nodes [], node.coordinate = some coordinate

def KeepsId (archive : Archive) (root : Text) : Prop :=
  ∃ node ∈ archive.nodes [], node.id = root

theorem root?_of_unreadable {error : NumberError} (parsed : parse root = .error error) :
    archive.root? indexKinds root = .error (.number error) := by
  rw [root?, parsed]
  rfl

theorem root?_of_no_coordinate (parsed : parse root = .ok none) :
    archive.root? indexKinds root = .ok (archive.get? indexKinds root) := by
  rw [root?, parsed]
  rfl

theorem root?_of_not_storable {coordinate : Coordinate} (parsed : parse root = .ok (some coordinate))
    (tooLarge : isStorable coordinate.kind = false) :
    archive.root? indexKinds root = .error (.storing .integerTooLarge) := by
  have rowsAt : archive.rowsAt coordinate = .error .integerTooLarge := if_neg (by simp [tooLarge])
  rw [root?, parsed]
  show ((archive.at? indexKinds coordinate).mapError QueryError.storing >>= fun found => pure (found.or _)) = _
  rw [at?, rowsAt]
  rfl

theorem IsSound.root?_of_coordinate (sound : archive.IsSound) {coordinate : Coordinate}
    (parsed : parse root = .ok (some coordinate)) (storable : isStorable coordinate.kind = true) :
    archive.root? indexKinds root = .ok (((sound.shelf indexKinds).at? coordinate).or (archive.get? indexKinds root)) := by
  rw [root?, parsed]
  show ((archive.at? indexKinds coordinate).mapError QueryError.storing >>= fun found => pure (found.or _)) = _
  rw [sound.at?_eq_ok storable (name_ne_nil_of_parse parsed)]
  rfl

section
variable (sound : archive.IsSound)
include sound

theorem IsSound.exists_root?_iff : (∃ found, archive.root? indexKinds root = .ok found) ↔ IsAskable root := by
  constructor
  · intro ends
    obtain ⟨found, same⟩ := ends
    cases parsed : parse root with
    | error error =>
      rw [root?_of_unreadable parsed] at same
      cases same
    | ok given =>
      cases given with
      | none => exact .of_none parsed
      | some coordinate =>
        cases storable : isStorable coordinate.kind with
        | true => exact .of_coordinate parsed storable
        | false =>
          rw [root?_of_not_storable parsed storable] at same
          cases same
  · intro askable
    obtain ⟨given, parsed⟩ := exists_parse_eq_ok.mpr askable.readable
    cases given with
    | none => exact ⟨_, root?_of_no_coordinate parsed⟩
    | some coordinate => exact ⟨_, sound.root?_of_coordinate parsed (askable.storable coordinate parsed)⟩

/-- Where nothing is kept at the coordinate that a text is read as, the id counts. -/
theorem IsSound.root?_eq_get? (askable : IsAskable root) (absent : ¬ archive.KeepsAt root) :
    archive.root? indexKinds root = .ok (archive.get? indexKinds root) := by
  obtain ⟨given, parsed⟩ := exists_parse_eq_ok.mpr askable.readable
  cases given with
  | none => exact root?_of_no_coordinate parsed
  | some coordinate =>
    have nothing : (sound.shelf indexKinds).at? coordinate = none := by
      apply nodeAt?_newestByCoordinate_eq_none.mpr
      intro node member there
      obtain ⟨row, held, rfl⟩ := mem_nodes.mp member
      exact absent ⟨coordinate, parsed, row.toNode [], mem_nodes.mpr ⟨row, held, rfl⟩, there⟩
    rw [sound.root?_of_coordinate parsed (askable.storable coordinate parsed), nothing]
    rfl

theorem IsSound.get?_of_mem {node : Node} (member : node ∈ archive.nodes indexKinds) :
    archive.get? indexKinds node.id = some node := by
  rw [sound.get?_eq]
  exact Shelf.withId?_eq_some.mpr ⟨member, rfl⟩

theorem IsSound.get?_eq_none (absent : ¬ archive.KeepsId root) : archive.get? indexKinds root = none := by
  rw [sound.get?_eq]
  apply Option.eq_none_iff_forall_ne_some.mpr
  intro node found
  obtain ⟨member, own⟩ := Shelf.withId?_eq_some.mp found
  obtain ⟨row, held, rfl⟩ := mem_nodes.mp member
  exact absent ⟨row.toNode [], mem_nodes.mpr ⟨row, held, rfl⟩, own⟩

end

/-! ### Assembling -/

theorem assemble_of_error {settings : Settings} {error : QueryError}
    (failed : archive.root? [settings.indexKind] root = .error error) :
    archive.assemble settings root = (.error (.query error), []) := by
  simp only [assemble, failed]

theorem assemble_of_none {settings : Settings} (missing : archive.root? [settings.indexKind] root = .ok none) :
    archive.assemble settings root = (.error (.rootNotFound root), []) := by
  simp only [assemble, missing]

end Archive

namespace Command
variable {m : Type → Type} [Monad m] [LawfulMonad m] [Workspace m]

theorem publish_of_none (phrases : Phrases) (least : Graph.Severity) {settings : Settings} {archive : Archive} {root : Text}
    (missing : archive.root? [settings.indexKind] root = .ok none) :
    (publish phrases least settings archive root : Session m Unit) = fail ("Root node not found: " ++ root) none := by
  rw [publish, Archive.assemble_of_none missing]
  exact pure_bind _ _

theorem publish_of_error (phrases : Phrases) (least : Graph.Severity) {settings : Settings} {archive : Archive} {root : Text}
    {error : QueryError} (failed : archive.root? [settings.indexKind] root = .error error) :
    (publish phrases least settings archive root : Session m Unit) = fail "Assemble failed" (some error.message) := by
  rw [publish, Archive.assemble_of_error failed]
  exact pure_bind _ _

end Command

namespace Archive
open Coordinate

/-- After any sessions a root is looked up without an error just where it can be asked for. Then, if nothing is kept at the
coordinate that it is read as, the node with that id is found; and if there is none either, no work is assembled, and
publishing reports that and writes nothing. -/
theorem root_lookup_ends_iff (sessions : List Session) (root : Text) :
    (∀ indexKinds, (∃ found, (after sessions).root? indexKinds root = .ok found) ↔ IsAskable root) ∧
    (IsAskable root → ¬ (after sessions).KeepsAt root →
      (∀ indexKinds, ∀ node ∈ (after sessions).nodes indexKinds, node.id = root →
        (after sessions).root? indexKinds root = .ok (some node)) ∧
      (¬ (after sessions).KeepsId root →
        (∀ indexKinds, (after sessions).root? indexKinds root = .ok none) ∧
        ∀ settings, (after sessions).assemble settings root = (.error (.rootNotFound root), []) ∧
          ∀ (m : Type → Type) [Monad m] [LawfulMonad m] [Workspace m] (phrases : Phrases) (least : Graph.Severity),
            OnlyFails (Command.publish phrases least settings (after sessions) root : Bindery.Session m Unit)
              (line ("Error: Root node not found: " ++ root)))) ∧
    (¬ IsAskable root → ∀ settings, ∃ error, (after sessions).assemble settings root = (.error (.query error), []) ∧
      ∀ (m : Type → Type) [Monad m] [LawfulMonad m] [Workspace m] (phrases : Phrases) (least : Graph.Severity),
        OnlyFails (Command.publish phrases least settings (after sessions) root : Bindery.Session m Unit)
          (line "Error: Assemble failed" ++ line ("  " ++ error.message))) := by
  have sound := isSound_after sessions
  refine ⟨fun indexKinds => sound.exists_root?_iff, fun askable absent => ⟨?_, fun unknown => ?_⟩, fun refused settings => ?_⟩
  · rintro indexKinds node member rfl
    rw [sound.root?_eq_get? askable absent, sound.get?_of_mem member]
  · have missing : ∀ indexKinds, (after sessions).root? indexKinds root = .ok none := by
      intro indexKinds
      rw [sound.root?_eq_get? askable absent, sound.get?_eq_none unknown]
    refine ⟨missing, fun settings => ⟨assemble_of_none (missing _), ?_⟩⟩
    intro m _ _ _ phrases least
    rw [Command.publish_of_none phrases least (missing _)]
    exact onlyFails_fail _
  · cases looked : (after sessions).root? [settings.indexKind] root with
    | ok found => exact absurd (sound.exists_root?_iff.mp ⟨found, looked⟩) refused
    | error error =>
      refine ⟨error, assemble_of_error looked, ?_⟩
      intro m _ _ _ phrases least
      rw [Command.publish_of_error phrases least looked]
      exact onlyFails_fail_from _ _

/-! ### Ids that look like coordinates -/

def numberedId : Node :=
  { Graph.Resolver.chapter with id := "30041:alice:other" }

def squaredId : Node :=
  { Graph.Resolver.chapter with id := "²:alice:chapter" }

def sessionsOfIds : List Session := [⟨[numberedId, squaredId], true⟩]

/-- One node is found by its id, as there is nothing at that coordinate. The other is not, since a superscript looks like a
digit but is none. -/
theorem squared_id_not_found :
    (after sessionsOfIds).root? [30040] "30041:alice:other" = .ok (some numberedId) ∧
      squaredId ∈ (after sessionsOfIds).nodes [30040] ∧
      (¬ ∃ found, (after sessionsOfIds).root? [30040] "²:alice:chapter" = .ok found) ∧
      (after sessionsOfIds).assemble {} "nowhere" = (.error (.rootNotFound "nowhere"), []) := by
  have nothing : parse "nowhere" = .ok none := rfl
  have other : parse "30041:alice:other" = .ok (some ⟨30041, "alice", "other"⟩) := rfl
  have squared : ¬ IsAskable "²:alice:chapter" := fun askable => askable.readable ⟨_, rfl, by decide, by decide⟩
  obtain ⟨_, found, _⟩ := root_lookup_ends_iff sessionsOfIds "30041:alice:other"
  obtain ⟨ends, _⟩ := root_lookup_ends_iff sessionsOfIds "²:alice:chapter"
  obtain ⟨_, missing, _⟩ := root_lookup_ends_iff sessionsOfIds "nowhere"
  refine ⟨?_, by decide, fun given => squared ((ends [30040]).mp given), ?_⟩
  · refine (found (.of_coordinate other (by decide)) ?_).1 [30040] numberedId (by decide) rfl
    rintro ⟨coordinate, parsed, node, member, there⟩
    obtain rfl := Option.some.inj (Except.ok.inj (other.symm.trans parsed))
    revert there
    revert node
    decide
  · refine (((missing (.of_none nothing) ?_).2 ?_).2 {}).1
    · rintro ⟨coordinate, parsed, _⟩
      cases nothing.symm.trans parsed
    · show ¬ ∃ node ∈ (after sessionsOfIds).nodes [], node.id = "nowhere"
      decide

end Archive
end Bindery
