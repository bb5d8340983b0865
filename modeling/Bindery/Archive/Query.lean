import Bindery.Archive.Basic
import Bindery.Graph.Store
import Bindery.Identifier.Basic
import Bindery.Link.Reader

/-! Finding nodes in an archive: by id, by coordinate, and by what a reference says about their tags. -/

namespace Bindery

inductive QueryError where
  | number (error : NumberError)
  | storing (error : StoringError)
  deriving DecidableEq, Repr

def QueryError.message : QueryError → Text
  | .number error => error.message
  | .storing error => error.message

namespace Row

def isAt (coordinate : Coordinate) (row : Row) : Bool :=
  row.kind = coordinate.kind && row.owner = coordinate.owner && row.name = some coordinate.name

/-- Order of age, and of ids where the age is the same. -/
def comesBefore (a b : Row) : Bool :=
  a.createdAt < b.createdAt || a.createdAt = b.createdAt && Text.precedes a.id b.id

end Row

namespace Node

/-- The values of a tag as identifiers. -/
def identifiers (node : Node) (key : Text) : List Text :=
  (node.values key).map Identifier.normalize

/-- Whether a part that a reference may leave open is among a node's tags. -/
def agreesOn (node : Node) (key : Text) (part : Option Text) : Bool :=
  (Reference.named part).all (node.identifiers key).contains

/-- Whether one of some parts, if there are any, is among a node's tags. -/
def agreesOnAny (node : Node) (key : Text) (parts : List Text) : Bool :=
  parts.isEmpty || parts.any (node.identifiers key).contains

def isMeantBy (node : Node) (reference : Reference) : Bool :=
  node.agreesOn "C" reference.collection && (node.identifiers "T").contains reference.title
    && node.agreesOn "c" reference.chapter && node.agreesOnAny "s" reference.sections
    && node.agreesOnAny "v" reference.versions

end Node

namespace Archive
open Bindery.Graph

def get? (archive : Archive) (indexKinds : List Int) (id : Text) : Option Node :=
  (archive.row? id).map (Row.toNode indexKinds)

/-- All rows at a coordinate. -/
def rowsAt (archive : Archive) (coordinate : Coordinate) : Except StoringError (List Row) :=
  if isStorable coordinate.kind then .ok (archive.rows.filter (·.isAt coordinate))
  else .error .integerTooLarge

/-- The newer of two rows; the first where the age is the same. -/
def newer (first second : Row) : Row :=
  if first.createdAt < second.createdAt then second else first

def newest? : List Row → Option Row
  | [] => none
  | row :: rows => some (rows.foldl newer row)

/-- The newest node at a coordinate. -/
def at? (archive : Archive) (indexKinds : List Int) (coordinate : Coordinate) :
    Except StoringError (Option Node) := do
  return (newest? (← archive.rowsAt coordinate)).map (Row.toNode indexKinds)

/-- Nodes that a reference means, the oldest first. -/
def find (archive : Archive) (indexKinds : List Int) (reference : Reference) : List Node :=
  ((archive.rows.mergeSort Row.comesBefore).map (Row.toNode indexKinds)).filter (·.isMeantBy reference)

def rowsFor (archive : Archive) : Selector → Except StoringError (List Row)
  | .withIds ids => .ok (archive.rows.filter fun row => ids.contains row.id)
  | .atCoordinates coordinates => do return (← coordinates.mapM archive.rowsAt).flatten

/-- All nodes that a selector asks for, every revision included. -/
def select (archive : Archive) (indexKinds : List Int) (selector : Selector) :
    Except StoringError (List Node) := do
  return (← archive.rowsFor selector).map (Row.toNode indexKinds)

theorem rowsAt_eq_ok {archive : Archive} {coordinate : Coordinate} {rows : List Row}
    (found : archive.rowsAt coordinate = .ok rows) : rows = archive.rows.filter (·.isAt coordinate) := by
  unfold rowsAt at found
  split at found
  · cases found
    rfl
  · cases found

theorem mapM_rowsAt_eq_ok {archive : Archive} {coordinates : List Coordinate} {parts : List (List Row)}
    (found : coordinates.mapM archive.rowsAt = .ok parts) :
    parts = coordinates.map fun coordinate => archive.rows.filter (·.isAt coordinate) := by
  induction coordinates generalizing parts with
  | nil => cases found; rfl
  | cons coordinate coordinates ih =>
    rw [List.mapM_cons] at found
    cases first : archive.rowsAt coordinate with
    | error error => rw [first] at found; cases found
    | ok part =>
      cases rest : coordinates.mapM archive.rowsAt with
      | error error => rw [first, rest] at found; cases found
      | ok others =>
        rw [first, rest] at found
        cases found
        rw [List.map_cons, ← rowsAt_eq_ok first, ← ih rest]

theorem mem_of_mem_rowsFor {archive : Archive} {selector : Selector} {rows : List Row}
    (found : archive.rowsFor selector = .ok rows) : ∀ row ∈ rows, row ∈ archive.rows := by
  cases selector with
  | withIds ids =>
    cases found
    exact fun row member => (List.mem_filter.mp member).1
  | atCoordinates coordinates =>
    cases parts : coordinates.mapM archive.rowsAt with
    | error error => rw [rowsFor, parts] at found; cases found
    | ok parts' =>
      rw [rowsFor, parts] at found
      cases found
      intro row member
      obtain ⟨part, inside, found⟩ := List.mem_flatten.mp member
      rw [mapM_rowsAt_eq_ok parts] at inside
      obtain ⟨coordinate, _, rfl⟩ := List.mem_map.mp inside
      exact (List.mem_filter.mp found).1

def toStore (archive : Archive) (indexKinds : List Int) : Store where
  ids := archive.rows.map Row.id
  answer _ selector := (archive.select indexKinds selector).toOption
  known _ selector nodes answered node member := by
    cases found : archive.rowsFor selector with
    | error error => rw [select, found] at answered; cases answered
    | ok rows =>
      rw [select, found] at answered
      cases answered
      obtain ⟨row, inside, rfl⟩ := List.mem_map.mp member
      exact List.mem_map.mpr ⟨row, mem_of_mem_rowsFor found row inside, rfl⟩

/-- The root of a work by its coordinate or, failing that, by its id. -/
def root? (archive : Archive) (indexKinds : List Int) (root : Text) : Except QueryError (Option Node) := do
  let coordinate ← (Coordinate.parse root).mapError .number
  let found ← match coordinate with
    | none => pure none
    | some coordinate => (archive.at? indexKinds coordinate).mapError .storing
  return found.or (archive.get? indexKinds root)

/-- The references of a link, each with the nodes that it means. -/
def lookUp (archive : Archive) (indexKinds : List Int) (reader : Link.Reader) (link : Text) :
    Except NumberError (List (Reference × List Node)) := do
  return (← reader.readLink link).map fun reference => (reference, archive.find indexKinds reference)

end Archive
end Bindery
