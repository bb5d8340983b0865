import Bindery.Document.Compositor
import Bindery.Graph.Resolve
import Bindery.Link.Reader
import Bindery.Document.Output

/-! Settings of the whole program, and the parts that work under them. -/

namespace Bindery

structure Settings where
  appName : Text := "bookpub"
  databaseUrl : Text := "sqlite:///bookpub.db"
  outputDirectory : Text := "dist"
  outputFormat : Format := .asciiDoc
  bodyMarkup : Heading.Markup := .asciiDoc
  titleMap : Option Text := none
  numericCollection : Text := "quran"
  numericTitleMax : Int := 114
  indexKind : Int := 30040
  leafKind : Int := 30041
  maxHeadingDepth : Int := 6
  previewLength : Int := 60
  defaultVersion : Text := []
  maxWorkers : Int := 1
  logLevel : Graph.Severity := .warning
  deriving DecidableEq, Repr

namespace Settings
open Check Checked

def formatCheck : Check Format := fun value => do
  match Format.ofName (← oneOf [Format.asciiDoc.name, Format.markdown.name] value) with
  | .ok format => return format
  | .error _ => complain .patternMismatch

def markupCheck : Check Heading.Markup := fun value => do
  let markups : List Heading.Markup := [.asciiDoc, .markdown]
  return .ofName (← oneOf (markups.map Heading.Markup.name) value)

def severityCheck : Check Graph.Severity := fun value => do
  let levels : List Graph.Severity := [.debug, .info, .warning, .error]
  let name ← oneOf (levels.map Graph.Severity.name) value
  return (levels.find? (·.name = name)).getD .warning

/-- Names of the fields, in order. -/
def fieldNames : List Text :=
  ["app_name", "db_url", "output_dir", "output_format", "body_markup", "title_map",
   "numeric_collection", "numeric_title_max", "index_kind", "leaf_kind", "max_heading_depth",
   "preview_length", "default_version", "max_workers", "log_level"]

/-- Fields that are not among the settings are left alone. -/
def ofFields (fields : Fields) : Except Invalid Settings :=
  let standard : Settings := {}
  Checked.named "Settings" <|
    (both (withDefault "app_name" standard.appName text fields)
      (both (withDefault "db_url" standard.databaseUrl text fields)
      (both (withDefault "output_dir" standard.outputDirectory text fields)
      (both (withDefault "output_format" standard.outputFormat formatCheck fields)
      (both (withDefault "body_markup" standard.bodyMarkup markupCheck fields)
      (both (withDefault "title_map" standard.titleMap (optional text) fields)
      (both (withDefault "numeric_collection" standard.numericCollection text fields)
      (both (withDefault "numeric_title_max" standard.numericTitleMax (atLeast 1 integer) fields)
      (both (withDefault "index_kind" standard.indexKind integer fields)
      (both (withDefault "leaf_kind" standard.leafKind integer fields)
      (both (withDefault "max_heading_depth" standard.maxHeadingDepth (atLeast 3 (atMost 6 integer)) fields)
      (both (withDefault "preview_length" standard.previewLength (atLeast 8 integer) fields)
      (both (withDefault "default_version" standard.defaultVersion text fields)
      (both (withDefault "max_workers" standard.maxWorkers (atLeast 1 integer) fields)
        (withDefault "log_level" standard.logLevel severityCheck fields))))))))))))))).map
      fun (appName, databaseUrl, outputDirectory, outputFormat, bodyMarkup, titleMap, numericCollection,
          numericTitleMax, indexKind, leafKind, maxHeadingDepth, previewLength, defaultVersion, maxWorkers,
          logLevel) =>
        { appName, databaseUrl, outputDirectory, outputFormat, bodyMarkup, titleMap, numericCollection,
          numericTitleMax, indexKind, leafKind, maxHeadingDepth, previewLength, defaultVersion, maxWorkers,
          logLevel }

def compositor (settings : Settings) : Compositor :=
  ⟨settings.bodyMarkup, settings.previewLength, settings.defaultVersion, settings.maxHeadingDepth⟩

def resolver (settings : Settings) (store : Graph.Store) : Graph.Resolver :=
  ⟨store, [settings.indexKind], [settings.leafKind]⟩

def workers (settings : Settings) : Graph.Workers :=
  ⟨settings.maxWorkers, fun _ => []⟩

def reader (settings : Settings) (titles : TitleIndex) : Link.Reader :=
  .new titles settings.numericCollection settings.numericTitleMax

end Settings
end Bindery
