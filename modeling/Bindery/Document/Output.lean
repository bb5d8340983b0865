import Bindery.Document.Markdown
import Bindery.Document.Sidecar
import Bindery.Identifier.Basic
import Bindery.Json.Printer
import Bindery.Path

/-! Documents as files: the document in one of the formats and, beside it, its sidecar. Both are named for
the title. -/

namespace Bindery

inductive Format where
  | asciiDoc
  | markdown
  deriving DecidableEq, Repr

namespace Format

/-- The ending of the file name, by which the format is also asked for. -/
def name : Format → Text
  | .asciiDoc => "adoc"
  | .markdown => "md"

structure Unsupported where
  name : Text
  deriving DecidableEq, Repr

def Unsupported.message (unsupported : Unsupported) : Text :=
  "Unsupported output format: " ++ Text.quoted unsupported.name ++ " (expected 'adoc' or 'md')"

def ofName (name : Text) : Except Unsupported Format :=
  if name = asciiDoc.name then .ok .asciiDoc
  else if name = markdown.name then .ok .markdown
  else .error ⟨name⟩

def write : Format → Document → Text
  | .asciiDoc, document => document.toAsciiDoc
  | .markdown, document => document.toMarkdown

end Format

structure File where
  path : Text
  content : Text
  deriving DecidableEq, Repr

namespace Document

/-- The name that both files share. -/
def fileName (document : Document) : Text :=
  let name := Identifier.normalize document.title
  if name.isEmpty then "document" else name

structure Files where
  document : File
  sidecar : File
  deriving DecidableEq, Repr

def files (document : Document) (directory : Text) (format : Format) : Files :=
  let path (ending : Text) : Text := Path.within directory (document.fileName ++ "." ++ ending)
  { document := ⟨path format.name, format.write document⟩
    sidecar := ⟨path "json", Json.indented document.sidecar⟩ }

end Document
end Bindery
