import Bindery.Settings.Basic
import Bindery.Storage.Source
import Bindery.Title.Table

/-! Where settings come from: a file, then variables of the environment, then what is asked for in one
run. Each of them beats those before it. -/

namespace Bindery

inductive SettingsError where
  | source (error : SourceError)
  | notMapping (value : Data)
  | keyNotText
  | refused (invalid : Invalid)
  deriving Repr

namespace SettingsError

def fileName : Text := "config.yaml"

def label : Text := "Invalid " ++ fileName ++ ": "

def message (phrases : Phrases) : SettingsError → Text
  | .source (.malformed format) => label ++ phrases.malformed format
  | .source error => error.message phrases
  | .notMapping value => label ++ "expected a mapping, got " ++ value.typeName
  | .keyNotText => "keywords must be strings"
  | .refused invalid => phrases.refused invalid

def isOfContent : SettingsError → Bool
  | .source error => error.isOfContent
  | .keyNotText => false
  | _ => true

end SettingsError

namespace Settings
open Check

/-- Fields in a file; an empty file, or none, has no fields. -/
def fileFields (source : Option Source) : Except SettingsError Fields :=
  match source with
  | none => .ok []
  | some source => do
    match ← (source.data .yaml).mapError .source with
    | .map fields => return fields
    | value => if value.isPresent then throw (.notMapping value) else return []

/-- The variable that sets a field. -/
def variableName (field : Text) : Text :=
  "BOOKPUB_" ++ Text.upperCase field

/-- Fields set by variables. An empty variable sets nothing. -/
def variableFields (environment : Text → Option Text) : Fields :=
  fieldNames.filterMap fun field =>
    ((environment (variableName field)).filter (!·.isEmpty)).map fun value => (.text field, .text value)

/-- Fields asked for in one run. A field that is null is not asked for. -/
def requestedFields (requested : List (Text × Data)) : Fields :=
  requested.filterMap fun (field, value) =>
    match value with
    | .null => none
    | value => some (.text field, value)

/-- Fields on top of others. -/
def overlay (fields more : Fields) : Fields :=
  more.foldl (fun done (key, value) => Data.insertField done key value) fields

def isTextKey (field : Data × Data) : Bool :=
  match field.1 with
  | .text _ => true
  | _ => false

def load (source : Option Source) (environment : Text → Option Text) (requested : List (Text × Data)) :
    Except SettingsError Settings := do
  let fields ← fileFields source
  let fields := overlay (overlay fields (variableFields environment)) (requestedFields requested)
  if fields.all isTextKey then (ofFields fields).mapError .refused else throw .keyNotText

/-- The file that holds the titles, if one is named. -/
def titlePath (settings : Settings) : Option Text :=
  (Reference.named settings.titleMap).map Path.normalize

/-- The titles of a table, or the canon. -/
def titleIndex (table : Option (Text × Source)) : Except TitleTableError TitleIndex :=
  match table with
  | none => .ok (.ofEntries TitleIndex.canon)
  | some (path, source) => do return .ofEntries (← TitleEntry.ofSource path source)

end Settings
end Bindery
