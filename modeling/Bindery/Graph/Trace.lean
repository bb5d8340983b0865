import Bindery.Graph.Store

/-! What happens while a graph is resolved: the questions put to the store, and notices about tags that
lead nowhere. -/

namespace Bindery.Graph
open Text

inductive Severity where
  | debug
  | info
  | warning
  | error
  deriving DecidableEq, Repr

namespace Severity

def name : Severity → Text
  | .debug => "DEBUG"
  | .info => "INFO"
  | .warning => "WARNING"
  | .error => "ERROR"

def rank : Severity → Nat
  | .debug => 10
  | .info => 20
  | .warning => 30
  | .error => 40

end Severity

inductive Notice where
  | malformedCoordinate (value id : Text)
  | ownCoordinate (coordinate : Coordinate) (id : Text)
  | unsupportedKind (coordinate : Coordinate) (id : Text)
  | ownId (id : Text)
  | circular (source target : Text)
  | alreadyVisited (id : Text)
  | queryFailed (selector : Selector)
  | coordinateNotFound (coordinate : Coordinate)
  | idNotFound (id : Text)
  deriving DecidableEq, Repr

namespace Notice

/-- What a notice speaks of. -/
inductive Subject where
  | text (value : Text)
  | quotedText (value : Text)
  | selector (value : Selector)
  deriving DecidableEq, Repr

def severity : Notice → Severity
  | .queryFailed _ | .coordinateNotFound _ | .idNotFound _ => .warning
  | _ => .debug

/-- The wording, with a percent sign and a letter for each subject. -/
def template : Notice → Text
  | .malformedCoordinate .. => "Ignoring malformed coordinate %r on %s"
  | .ownCoordinate .. => "Self reference %s on %s skipped"
  | .unsupportedKind .. => "Ignoring coordinate %s of unsupported kind on %s"
  | .ownId _ => "Self reference on %s skipped"
  | .circular .. => "Circular reference %s -> %s skipped"
  | .alreadyVisited _ => "Circular reference to %s; returning empty sub-graph"
  | .queryFailed _ => "Content store query failed for %s; treating as empty"
  | .coordinateNotFound _ | .idNotFound _ => "Node %s not found after retry; dropping edge"

def subjects : Notice → List Subject
  | .malformedCoordinate value id => [.quotedText value, .text id]
  | .ownCoordinate coordinate id => [.text coordinate.toText, .text id]
  | .unsupportedKind coordinate id => [.text coordinate.toText, .text id]
  | .ownId id => [.text id]
  | .circular source target => [.text source, .text target]
  | .alreadyVisited id => [.text id]
  | .queryFailed selector => [.selector selector]
  | .coordinateNotFound coordinate => [.text coordinate.toText]
  | .idNotFound id => [.text id]

private def coordinateShown (coordinate : Coordinate) : Text :=
  "Coordinate(kind_number=" ++ ofInt coordinate.kind ++ ", owner_key=" ++ quoted coordinate.owner
    ++ ", d=" ++ quoted coordinate.name ++ ")"

/-- A list in parentheses; a single member has a comma after it. -/
private def tupleShown (members : List Text) : Text :=
  match members with
  | [only] => "(" ++ only ++ ",)"
  | _ => "(" ++ join ", " members ++ ")"

def Subject.toText : Subject → Text
  | .text value => value
  | .quotedText value => quoted value
  | .selector (.atCoordinates coordinates) =>
    "CoordinateSelector(coordinates=" ++ tupleShown (coordinates.map coordinateShown) ++ ")"
  | .selector (.withIds ids) => "IdSelector(ids=" ++ tupleShown (ids.map quoted) ++ ")"

/-- Puts one text in place of each percent sign and the letter after it. -/
def fill : Text → List Text → Text
  | '%' :: _ :: rest, subject :: subjects => subject ++ fill rest subjects
  | c :: rest, subjects => c :: fill rest subjects
  | [], _ => []

def message (notice : Notice) : Text :=
  fill notice.template (notice.subjects.map Subject.toText)

end Notice

inductive Event where
  | asked (selector : Selector)
  | noticed (notice : Notice)
  deriving DecidableEq, Repr

/-- Events in order. -/
abbrev Trace := List Event

namespace Trace

def questions (trace : Trace) : List Selector :=
  trace.filterMap fun
    | .asked selector => some selector
    | .noticed _ => none

def notices (trace : Trace) : List Notice :=
  trace.filterMap fun
    | .noticed notice => some notice
    | .asked _ => none

end Trace
end Bindery.Graph
