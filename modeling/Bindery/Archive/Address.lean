import Bindery.Path

/-! The address of an archive: in memory, or in a file. -/

namespace Bindery

inductive ArchiveAddress where
  | memory
  | file (path : Text)
  deriving DecidableEq, Repr

namespace ArchiveAddress

def schemes : List Text :=
  ["sqlite", "sqlite+pysqlite"]

/-- What an address names after its scheme, which ends with a colon and two slashes. -/
def afterScheme? (url : Text) : Option Text :=
  schemes.findSome? fun scheme => Text.dropStart? (scheme ++ "://") url

def memoryName : Text := ":memory:"

/-- Reads an address. An archive has no host; what follows a question mark does not matter. -/
def ofUrl? (url : Text) : Option ArchiveAddress := do
  match (← afterScheme? url).takeWhile (· ≠ '?') with
  | [] => return .memory
  | '/' :: path => return if path.isEmpty || path = memoryName then .memory else .file (Path.normalize path)
  | _ => none

end ArchiveAddress
end Bindery
