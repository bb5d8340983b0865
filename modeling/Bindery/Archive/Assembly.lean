import Bindery.Archive.Query
import Bindery.Settings.Basic
import Bindery.Storage.Source

/-! Assembling a work from an archive: its root is found and resolved, and the graph becomes a document. -/

namespace Bindery

inductive AssemblyError where
  | rootNotFound (root : Text)
  | query (error : QueryError)
  | number (error : NumberError)
  | refused (invalid : Invalid)
  deriving Repr

def AssemblyError.message (phrases : Phrases) : AssemblyError → Text
  | .rootNotFound root => "Root node not found: " ++ root
  | .query error => error.message
  | .number error => error.message
  | .refused invalid => phrases.refused invalid

namespace Archive
open Bindery.Graph

/-- The document of a root, and what happened while its graph was resolved. -/
def assemble (archive : Archive) (settings : Settings) (root : Text) :
    Except AssemblyError Document × Trace :=
  let indexKinds := [settings.indexKind]
  match archive.root? indexKinds root with
  | .error error => (.error (.query error), [])
  | .ok none => (.error (.rootNotFound root), [])
  | .ok (some node) =>
    match (settings.resolver (archive.toStore indexKinds)).run node [] settings.workers with
    | (.error error, trace) => (.error (.number error), trace)
    | (.ok graph, trace) =>
      ((settings.compositor.assemble true (some root) graph).mapError .refused, trace)

end Archive
end Bindery
