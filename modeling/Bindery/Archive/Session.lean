import Bindery.Archive.Basic

/-! Sessions on an archive. The nodes of a session are put one after another; what they change stays if the
session is committed and goes if it is rolled back. A session in which a node cannot be put changes nothing. -/

namespace Bindery.Archive

structure Session where
  nodes : List Node
  commits : Bool
  deriving DecidableEq, Repr

/-- The archive after a session, and what the session reports of each of its nodes. -/
def perform (archive : Archive) (session : Session) : Archive × Except StoringError (List (Status × Row)) :=
  match archive.putAll session.nodes with
  | .error error => (archive, .error error)
  | .ok (changed, reports) => (if session.commits then changed else archive, .ok reports)

/-- The archive after some sessions, the first of them on an empty archive. -/
def after (sessions : List Session) : Archive :=
  sessions.foldl (fun archive session => (archive.perform session).1) empty

end Bindery.Archive
