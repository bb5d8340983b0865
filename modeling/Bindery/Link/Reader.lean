import Bindery.Identifier.Range
import Bindery.Link.Quoting
import Bindery.Link.Reference
import Bindery.Link.Segment
import Bindery.Title.Index

/-! Reading book links such as `[[book::bible | John 3:16-18, Ruth 1 | kjv]]` into references. A
reference takes over collection and versions from the one before it, and a list of versions at the
end serves all references that have none. -/

namespace Bindery.Link
open Text Identifier

/-- How titles are understood: through an index, except that books of one collection may be numbered
instead of named. -/
structure Reader where
  titles : TitleIndex
  numberedCollection : Text
  highestNumber : Int

namespace Reader

def new (titles : TitleIndex) (numberedCollection : Text) (highestNumber : Int) : Reader :=
  ⟨titles, normalize numberedCollection, highestNumber⟩

def isNumberedTitle (reader : Reader) (collection : Option Text) (title : Text) :
    Except NumberError Bool :=
  if collection = some reader.numberedCollection && !title.isEmpty && title.all isDecimal then do
    let number ← readDigits title
    return 1 ≤ number && (number : Int) ≤ reader.highestNumber
  else .ok false

def resolveTitle (reader : Reader) (collection : Option Text) (text : Text) :
    Except NumberError Text := do
  let title := strip text
  if ← reader.isNumberedTitle collection title then return title
  return reader.titles.resolve title

end Reader

/-- The shortest title, on one line, after which blanks and an ending follow. -/
def splitTitle? {α : Type} (ending : Text → Option α) : Text → Option (Text × α)
  | [] => none
  | c :: rest =>
    if c = '\n' then none
    else
      match if rest.head?.any isBlank then ending (stripStart rest) else none with
      | some found => some ([c], found)
      | none => (splitTitle? ending rest).map fun (title, found) => (c :: title, found)

/-- A chapter as any word, a colon, and the sections to the end of the line. -/
def chapterAndSections? (text : Text) : Option (Text × Option Text) :=
  match text.span isWordChar with
  | (chapter, ':' :: sections) =>
    if chapter.isEmpty || sections.isEmpty || sections.contains '\n' then none
    else some (chapter, some sections)
  | _ => none

/-- A chapter alone has to start with a digit. -/
def chapterAlone? : Text → Option (Text × Option Text)
  | [] => none
  | c :: rest => if isDecimal c && rest.all isWordChar then some (c :: rest, none) else none

/-- Title, chapter and sections as they are written. -/
structure Place where
  title : Text
  chapter : Option Text
  sections : Option Text
  deriving DecidableEq, Repr

def splitPlace (text : Text) : Place :=
  match (splitTitle? chapterAndSections? text).or (splitTitle? chapterAlone? text) with
  | some (title, chapter, sections) => ⟨strip title, some chapter, sections⟩
  | none => ⟨text, none, none⟩

/-- A collection still written in front of a title. -/
def embeddedCollection? (title : Text) : Option (Text × Text) :=
  let (collection, rest) := title.span isWordChar
  match stripStart rest with
  | '|' :: after =>
    let inner := stripStart after
    if collection.isEmpty || !rest.head?.any isBlank || !after.head?.any isBlank || inner.isEmpty
        || inner.contains '\n' then none
    else some (collection, inner)
  | _ => none

/-- A collection in front of the title counts only where no other is known. -/
def splitCollection (known : Option Text) (title : Text) : Option Text × Text :=
  match embeddedCollection? title, Reference.named known with
  | some (collection, inner), none => (some (normalize collection), inner)
  | _, _ => (known, title)

/-- Section paths such as `part-2:1846-1849` are flattened before ranges are expanded. -/
def readSections (text : Text) : Except NumberError (List Text) := do
  let expanded ← expandRanges (text.map fun c => if c = ':' then '-' else c)
  return (expanded.map normalize).filter (!·.isEmpty)

def Place.readSections (place : Place) : Except NumberError (List Text) :=
  match place.sections with
  | none => .ok []
  | some sections => Link.readSections sections

/-- Pipes are looked at only where no collection is inherited. -/
def separatePipes (inheritedCollection : Option Text) (content : Text) : Segments :=
  match Reference.named inheritedCollection with
  | none => (classifySegments (splitUnquoted pipeSeparator content)).2
  | some _ => ⟨content, none, []⟩

namespace Reader

/-- The answer is `none` only where there is nothing to read. -/
def readReference (reader : Reader) (content : Text) (inheritedCollection : Option Text)
    (inheritedVersions : List Text) : Except NumberError (Option Reference) := do
  let content := strip content
  if content.isEmpty then return none
  let segments := separatePipes inheritedCollection content
  let outer := (Reference.named segments.collection).or inheritedCollection
  let place := splitPlace (strip segments.main)
  let (collection, written) := splitCollection outer place.title
  let title ← reader.resolveTitle collection written
  if title.isEmpty then return none
  let sections ← place.readSections
  let versions := if segments.versions.isEmpty then inheritedVersions else segments.versions
  return some ⟨Reference.named collection, title, Reference.named (place.chapter.map normalize),
    sections, versions⟩

end Reader

def hasColonNumber : Text → Bool
  | [] => false
  | c :: rest => c = ':' && rest.head?.any isDecimal || hasColonNumber rest

def hasNumberColon : Text → Bool
  | [] => false
  | c :: rest => isDecimal c && (stripStart rest).head? = some ':' || hasNumberColon rest

/-- A number between blanks, or between a blank and the end. -/
def hasLoneNumber : Text → Bool
  | [] => false
  | c :: rest =>
    let after := rest.dropWhile isDecimal
    isBlank c && rest.head?.any isDecimal && (after.isEmpty || after.head?.any isBlank)
      || hasLoneNumber rest

/-- Something follows the last comma, after a blank. -/
def listsReferences (text : Text) : Bool :=
  match (text.splitOn ',').reverse with
  | last :: _ :: _ => last.head?.any isBlank && last.length ≥ 2
  | _ => false

/-- Whether a text before a pipe already holds a whole reference. -/
def readsAsComplete (text : Text) : Bool :=
  hasColonNumber text || hasNumberColon text || hasLoneNumber text || listsReferences text

def isVersionList (text : Text) : Bool :=
  !text.isEmpty && (words text).all (·.all isWordChar)

/-- Splits off a list of versions at the end that all references share. -/
def splitSharedVersions (content : Text) : Text × List Text :=
  match splitLastPipe? content with
  | none => (content, [])
  | some (before, after) =>
    let (before, after) := (strip before, strip after)
    if isVersionList after && readsAsComplete before then (before, versionList after) else (content, [])

def opening : Text := "[[book::"
def closing : Text := "]]"

def stripDelimiters (text : Text) : Text :=
  let text := strip text
  let inner := (dropStart? opening text).getD text
  strip ((dropEnd? closing inner).getD inner)

namespace Reader

/-- Reads references in order, each with what the ones before it leave behind. -/
def readReferences (reader : Reader) (collection : Option Text) (versions : List Text) :
    List Text → Except NumberError (List Reference)
  | [] => .ok []
  | part :: parts => do
    match ← reader.readReference part collection versions with
    | none => reader.readReferences collection versions parts
    | some reference =>
      let versions := if reference.versions.isEmpty then versions else reference.versions
      return reference :: (← reader.readReferences (reference.collection.or collection) versions parts)

/-- Reads one link, with or without its delimiters. -/
def readLink (reader : Reader) (link : Text) : Except NumberError (List Reference) :=
  let content := stripDelimiters link
  if content.isEmpty then .ok []
  else
    let (body, versions) := splitSharedVersions content
    reader.readReferences none versions (splitUnquoted commaSeparator body)

end Reader

/-- The text up to the first closing mark that leaves at least one character before it. -/
def linkBody? : Text → Option Text
  | [] => none
  | c :: rest => (bodyBefore? rest).map (c :: ·)
where
  bodyBefore? : Text → Option Text
    | [] => none
    | c :: rest =>
      if closing.isPrefixOf (c :: rest) then some [] else (bodyBefore? rest).map (c :: ·)

/-- All links of a text in order of appearance, with their delimiters. `left` counts the characters of
the link before that are still to be passed over. -/
def findLinksFrom (left : Nat) : Text → List Text
  | [] => []
  | c :: rest =>
    match left with
    | left + 1 => findLinksFrom left rest
    | 0 =>
      match (dropStart? opening (c :: rest)).bind linkBody? with
      | some body =>
        (opening ++ body ++ closing) :: findLinksFrom (opening.length + body.length + closing.length - 1) rest
      | none => findLinksFrom 0 rest

def findLinks (text : Text) : List Text :=
  findLinksFrom 0 text

/-- References of all links of a text. -/
def Reader.readText (reader : Reader) (text : Text) : Except NumberError (List Reference) := do
  return (← (findLinks text).mapM reader.readLink).flatten

end Bindery.Link
