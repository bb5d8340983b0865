import Bindery.Document.Output
import Bindery.Storage.Source

/-! What a program works on: files below a current directory, and variables of the environment. -/

namespace Bindery

/-- Steps that read or change files. A directory is made inside one that is there; a file that is there
already is replaced. -/
class Workspace (m : Type → Type) where
  environment : m (Text → Option Text)
  isDirectory : Text → m Bool
  read : Text → m Source
  makeOne : Text → m (Except FileError Unit)
  write : Text → Bytes → m (Except FileError Unit)

namespace Workspace

variable {m : Type → Type} [Monad m] [Workspace m]

/-- An error does not matter where there is a directory anyway. -/
def allow (path : Text) (error : FileError) : m (Except FileError Unit) := do
  return if ← isDirectory path then .ok () else .error error

def makeInside (path : Text) : m (Except FileError Unit) := do
  match ← makeOne path with
  | .ok () => return .ok ()
  | .error error => allow path error

/-- Makes a directory, and those above it if one is missing. Its steps come last to first. -/
def makeSteps (root : Text) : List Text → m (Except FileError Unit)
  | [] => makeInside (Path.ofSteps root [])
  | step :: outer => do
    let path := Path.ofSteps root (step :: outer).reverse
    match ← makeOne path with
    | .ok () => return .ok ()
    | .error ⟨_, .missing⟩ =>
      match ← makeSteps root outer with
      | .ok () => makeInside path
      | .error error => return .error error
    | .error error => allow path error

def makeDirectory (path : Text) : m (Except FileError Unit) :=
  makeSteps (Path.root path) (Path.steps path).reverse

end Workspace

namespace Document.Files

/-- Writes a document and then its sidecar into a directory. The first step that fails is the last. -/
def write {m : Type → Type} [Monad m] [Workspace m] (directory : Text) (files : Files) :
    m (Except FileError Unit) := ExceptT.run do
  ExceptT.mk (Workspace.makeDirectory directory)
  ExceptT.mk (Workspace.write files.document.path (Utf8.encode files.document.content))
  ExceptT.mk (Workspace.write files.sidecar.path (Utf8.encode files.sidecar.content))

end Document.Files
end Bindery
