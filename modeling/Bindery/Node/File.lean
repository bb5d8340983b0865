import Bindery.Node.Record
import Bindery.Path
import Bindery.Storage.Source

/-! Files of nodes: a list of records, in JSON if the name of the file says so and else in YAML. -/

namespace Bindery

inductive NodeFileError where
  | source (path : Text) (error : SourceError)
  | notList (path : Text)
  | noRecord (path : Text) (position : Nat)
  | record (path : Text) (position : Nat) (error : RecordError)
  deriving Repr

namespace NodeFileError

def label (path : Text) : Text :=
  "Invalid node file " ++ path ++ ": "

/-- Whether an error is laid to the file. A path that is none, a text in no encoding or with impossible
values, and a number without end, speak for themselves. -/
def isLabelled : NodeFileError → Bool
  | .source _ (.file error) => error.fault.number?.isSome
  | .source _ (.encoding _) | .source _ (.value _) | .record _ _ .infiniteNumber => false
  | _ => true

/-- Whether an error is one of content. A file that cannot be read counts as such. -/
def isOfContent : NodeFileError → Bool
  | .source _ (.file _) => true
  | .source _ error => error.isOfContent
  | .record _ _ .infiniteNumber => false
  | _ => true

def path : NodeFileError → Text
  | .source path _ | .notList path | .noRecord path _ | .record path _ _ => path

def detail (phrases : Phrases) : NodeFileError → Text
  | .source _ error => error.message phrases
  | .notList _ => "expected a list of nodes"
  | .noRecord _ position => "entry " ++ Text.ofNat position ++ " is not a mapping"
  | .record _ _ .infiniteNumber => RecordError.infiniteNumber.message phrases.refused
  | .record _ position error =>
    "entry " ++ Text.ofNat position ++ ": " ++ error.message phrases.refused

def message (phrases : Phrases) (error : NodeFileError) : Text :=
  if error.isLabelled then label error.path ++ error.detail phrases else error.detail phrases

end NodeFileError

namespace NodeFile

def format (path : Text) : DataFormat :=
  if Path.ending path = ".json".toList then .json else .yaml

/-- Nodes from a list of records; the first record that is none stops the reading. -/
def nodesFrom (path : Text) (indexKinds : List Int) (position : Nat) :
    List Data → Except NodeFileError (List Node)
  | [] => return []
  | .map fields :: items => do
    let node ← (Node.ofRecord indexKinds fields).mapError (.record path position)
    return node :: (← nodesFrom path indexKinds (position + 1) items)
  | _ :: _ => throw (.noRecord path position)

/-- All nodes of a file, in order. -/
def nodes (path : Text) (indexKinds : List Int) (source : Source) : Except NodeFileError (List Node) := do
  match ← (source.data (format path)).mapError (.source path) with
  | .list items => nodesFrom path indexKinds 0 items
  | _ => throw (.notList path)

end NodeFile
end Bindery
