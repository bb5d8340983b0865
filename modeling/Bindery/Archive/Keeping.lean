import Bindery.Archive.Address
import Bindery.Archive.Load
import Bindery.Json.Printer
import Bindery.Storage.Workspace

/-! Archives between one run and the next. An archive is kept as a file of nodes, in the order of its
rows, so that loading that file into an empty archive gives it back. -/

namespace Bindery

namespace Row

/-- A row as a record of a node. -/
def toRecord (row : Row) : Data :=
  let name (text : String) : Data := .text text
  .map [
    (name "id", .text row.id), (name "pubkey", .text row.owner), (name "kind", .int row.kind),
    (name "created_at", .int row.createdAt),
    (name "tags", .list (row.tags.map fun tag => .list [.text tag.key, .text tag.value])),
    (name "content", .text row.body)]

end Row

namespace Archive

def toFile (archive : Archive) : Bytes :=
  Utf8.encode (Json.compact (.list (archive.rows.map Row.toRecord)))

/-- The archive in a file; an empty file is an empty archive. -/
def ofFile? (content : Bytes) : Option Archive :=
  if content.isEmpty then some empty
  else ((empty.load [] "archive.json" (.ok content)).map (·.1)).toOption

variable {m : Type → Type} [Monad m] [Workspace m]

def keepAt (archive : Archive) : ArchiveAddress → m (Except FileError Unit)
  | .memory => return .ok ()
  | .file path => Workspace.write path archive.toFile

/-- The archive at an address, where an empty one is made if there is none. `none` if what is there is
not an archive, or if there is no place for one. -/
def openAt? : ArchiveAddress → m (Option Archive)
  | .memory => return some empty
  | .file path => do
    match ← Workspace.read path with
    | .ok content => return ofFile? content
    | .error ⟨_, .missing⟩ => return match ← empty.keepAt (.file path) with
      | .ok () => some empty
      | .error _ => none
    | .error _ => return none

end Archive
end Bindery
