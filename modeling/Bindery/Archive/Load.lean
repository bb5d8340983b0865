import Bindery.Archive.Session
import Bindery.Node.File

/-! Loading a file of nodes into an archive: all of them or none. -/

namespace Bindery

inductive LoadError where
  | file (error : NodeFileError)
  | storing (error : StoringError)
  deriving Repr

namespace LoadError

def message (phrases : Phrases) : LoadError → Text
  | .file error => error.message phrases
  | .storing error => error.message

def isOfContent : LoadError → Bool
  | .file error => error.isOfContent
  | .storing (.noKindNumber _) => true
  | .storing .integerTooLarge => false

end LoadError

/-- How many nodes of a file were new, changed, or known already. -/
structure LoadCounts where
  created : Nat
  updated : Nat
  unchanged : Nat
  deriving DecidableEq, Repr

namespace LoadCounts

def ofStatuses (statuses : List Status) : LoadCounts :=
  ⟨statuses.count .created, statuses.count .updated, statuses.count .unchanged⟩

def total (counts : LoadCounts) : Nat :=
  counts.created + counts.updated + counts.unchanged

end LoadCounts

namespace Archive

def load (archive : Archive) (indexKinds : List Int) (path : Text) (source : Source) :
    Except LoadError (Archive × LoadCounts) := do
  let nodes ← (NodeFile.nodes path indexKinds source).mapError .file
  let (changed, reports) := archive.perform ⟨nodes, true⟩
  return (changed, .ofStatuses ((← reports.mapError .storing).map (·.1)))

end Archive
end Bindery
