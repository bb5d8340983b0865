import Bindery.Archive.Assembly
import Bindery.Archive.Keeping
import Bindery.Command.Basic
import Bindery.Command.Session
import Bindery.Settings.Load

/-! What each command does. -/

namespace Bindery
open Session

/-- The help for command lines. -/
def Command.help : Text := Text.unlines [
  "Usage: bookpub [--verbose] COMMAND",
  "",
  "Commands:",
  "  init [--reset]",
  "  load PATH",
  "  parse MACRO",
  "  lookup MACRO",
  "  assemble ROOT [--out-dir DIRECTORY] [--format adoc|md] [--max-workers NUMBER]"]

namespace Reference

/-- A reference together with its tags. -/
def toRecord (reference : Reference) : Data :=
  let name (text : String) : Data := .text text
  let part (value : Option Text) : Data := (value.map Data.text).getD .null
  let texts (values : List Text) : Data := .list (values.map .text)
  .map [
    (name "reference", .map [
      (name "collection", part reference.collection), (name "title", .text reference.title),
      (name "chapter", part reference.chapter), (name "sections", texts reference.sections),
      (name "versions", texts reference.versions)]),
    (name "tags", .list (reference.tags.map fun tag => texts [tag.key, tag.value]))]

/-- The tags of a reference in one line. -/
def line (reference : Reference) : Text :=
  Text.join [' '] (reference.tags.map fun tag => tag.key ++ ['='] ++ tag.value)

end Reference

namespace Command

/-- The parts of the program that report what happens in them. -/
def loadingPart : Text := "bookpub.core.pipeline"
def resolvingPart : Text := "bookpub.core.graph.resolver"

variable {m : Type → Type} [Monad m] [Workspace m]

def settings (phrases : Phrases) (requested : List (Text × Data)) : Session m Settings := do
  let source : Option Source := match ← Workspace.read SettingsError.fileName with
    | .error ⟨_, .missing⟩ => none
    | source => some source
  match Settings.load source (← Workspace.environment) requested with
  | .ok settings => return settings
  | .error error =>
    if error.isOfContent then fail (error.message phrases) none else abandon (error.message phrases)

def reader (phrases : Phrases) (settings : Settings) : Session m Link.Reader := do
  let table : Option (Text × Source) ← match settings.titlePath with
    | none => pure none
    | some path => do pure (some (path, ← Workspace.read path))
  match Settings.titleIndex table with
  | .ok titles => return settings.reader titles
  | .error error =>
    if error.isOfContent then fail "Could not load title table" (some (error.message phrases))
    else abandon (error.message phrases)

/-- The address of the archive, and what is in it. -/
def openArchive (settings : Settings) : Session m (ArchiveAddress × Archive) := do
  match ArchiveAddress.ofUrl? settings.databaseUrl with
  | none => abandon ("no archive at " ++ settings.databaseUrl)
  | some address => match ← Archive.openAt? address with
    | none => abandon ("no archive at " ++ settings.databaseUrl)
    | some archive => return (address, archive)

def keepArchive (address : ArchiveAddress) (archive : Archive) : Session m Unit := do
  match ← archive.keepAt address with
  | .ok () => return
  | .error error => abandon error.message

/-- Makes an archive ready, or empty if that is wanted. -/
def prepareArchive (phrases : Phrases) (reset : Bool) : Session m Unit := do
  let settings ← settings phrases []
  let (address, _) ← openArchive settings
  if reset then
    keepArchive address .empty
    say "Existing data cleared."
  say ("Database initialized at: " ++ settings.databaseUrl)

/-- Loads a file of nodes into the archive. -/
def loadNodes (phrases : Phrases) (least : Graph.Severity) (path : Text) : Session m Unit := do
  let settings ← settings phrases []
  let (address, archive) ← openArchive settings
  let path := Path.normalize path
  match archive.load [settings.indexKind] path (← Workspace.read path) with
  | .error error =>
    if error.isOfContent then fail (error.message phrases) none
    else fail "Load failed" (some (error.message phrases))
  | .ok (archive, counts) =>
    keepArchive address archive
    note least .info loadingPart ("Loaded " ++ Text.ofNat counts.total ++ " node(s) from " ++ path)
    say ("Load complete - " ++ Text.ofNat counts.created ++ " created, " ++ Text.ofNat counts.updated
      ++ " updated, " ++ Text.ofNat counts.unchanged ++ " unchanged")

def nothingFound {α : Type} : Session m α := do
  say "No references found."
  throw .failed

/-- Prints the references of a link. -/
def parseLink (phrases : Phrases) (link : Text) : Session m Unit := do
  let settings ← settings phrases []
  let reader ← reader phrases settings
  match reader.readLink link with
  | .error error => abandon error.message
  | .ok [] => nothingFound
  | .ok references => say (Json.indented (.list (references.map Reference.toRecord)))

/-- Prints which nodes the references of a link mean. -/
def lookUpLink (phrases : Phrases) (link : Text) : Session m Unit := do
  let settings ← settings phrases []
  let reader ← reader phrases settings
  let (_, archive) ← openArchive settings
  match archive.lookUp [settings.indexKind] reader link with
  | .error error => fail "Lookup failed" (some error.message)
  | .ok [] => nothingFound
  | .ok found =>
    for (reference, nodes) in found do
      say (reference.line ++ ": " ++ Text.ofNat nodes.length ++ " match(es)")
      for node in nodes do
        say ("  " ++ node.id)

/-- Assembles a work from an archive and writes it. -/
def publish (phrases : Phrases) (least : Graph.Severity) (settings : Settings) (archive : Archive) (root : Text) :
    Session m Unit := do
  let (result, trace) := archive.assemble settings root
  for notice in trace.notices do
    note least notice.severity resolvingPart notice.message
  match result with
  | .error (.rootNotFound root) => fail ((AssemblyError.rootNotFound root).message phrases) none
  | .error error => fail "Assemble failed" (some (error.message phrases))
  | .ok document =>
    let files := document.files settings.outputDirectory settings.outputFormat
    match ← files.write settings.outputDirectory with
    | .error error => fail "Assemble failed" (some error.message)
    | .ok () =>
      say ("  " ++ document.title ++ " -> " ++ files.document.path)
      say ("Assembled " ++ Text.ofNat document.sections.length ++ " section(s) to "
        ++ Path.parent files.sidecar.path ++ "/")

/-- Publishes a work from the archive that there is. -/
def assembleRoot (phrases : Phrases) (least : Graph.Severity) (root : Text) (options : AssemblyOptions) :
    Session m Unit := do
  let settings ← settings phrases options.settings
  let (_, archive) ← openArchive settings
  publish phrases least settings archive root

def run (phrases : Phrases) (least : Graph.Severity) : Command → Session m Unit
  | .prepare reset => prepareArchive phrases reset
  | .load path => loadNodes phrases least path
  | .parse link => parseLink phrases link
  | .lookUp link => lookUpLink phrases link
  | .assemble root options => assembleRoot phrases least root options

def misused {α : Type} (misuse : Misuse) : Session m α := do
  tell misuse.message
  throw .misused

end Command

namespace Invocation

variable {m : Type → Type} [Monad m] [Workspace m]

/-- Runs a command line. How much is reported is settled before the words after the command's name are
looked at. -/
def run (phrases : Phrases) (words : List Text) : Session m Unit := do
  if words.isEmpty then
    tell Command.help
    throw .misused
  match ofWords words with
  | .error misuse => Command.misused misuse
  | .ok .help => say Command.help
  | .ok (.action invocation) =>
    let least ← if invocation.isVerbose then pure .debug
      else do pure (← Command.settings phrases []).logLevel
    match Command.ofWords invocation.name invocation.words with
    | .error misuse => Command.misused misuse
    | .ok .help => say Command.help
    | .ok (.action command) => command.run phrases least

end Invocation
end Bindery
