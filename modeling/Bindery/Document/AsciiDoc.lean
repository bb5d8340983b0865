import Bindery.Document.Basic

/-! Documents written in AsciiDoc: a header with one attribute per line, the metadata in a section of its
own, and the sections. Blank lines stand between the parts. -/

namespace Bindery.Document
open Text

def blankLine : Text := ['\n', '\n']

def metadataHeading : Text := "Book Information"

/-- Headings are marked by one character, repeated once per level. -/
def headingLine (marker : Char) (part : Section) : Text :=
  List.replicate part.depth marker ++ " " ++ part.heading

/-- The heading of a section and its body, if it has one. -/
def sectionParts (marker : Char) (part : Section) : List Text :=
  headingLine marker part :: if part.body.isEmpty then [] else [part.body]

def bodyText (marker : Char) (sections : List Section) : Text :=
  join blankLine ((Section.preorderAll sections).flatMap (sectionParts marker))

/-- Metadata fields, if there are any. -/
def metadataFields (document : Document) : List Tag :=
  document.metadata.getD []

/-- Puts an ending on all lines but the last. -/
def endAllButLast (ending : Text) : List Text → List Text
  | [] => []
  | [last] => [last]
  | line :: lines => (line ++ ending) :: endAllButLast ending lines

/-- The parts of a document that are not empty, one after another. -/
def joinParts (parts : List Text) : Text :=
  join blankLine (parts.filter (!·.isEmpty)) ++ "\n"

namespace AsciiDoc

def attributeLine (field : Tag) : Text :=
  ":" ++ field.key ++ ": " ++ field.value

def header (document : Document) : Text :=
  let attributes := document.frontMatter.filter fun field => field.key ≠ ("title" : Text)
  unlines (("= " ++ document.title) :: attributes.map attributeLine)

def metadataLine (field : Tag) : Text :=
  "*" ++ field.key ++ ":* " ++ field.value

/-- A line that others follow ends in a plus sign. -/
def metadata (document : Document) : Text :=
  match document.metadataFields with
  | [] => []
  | fields =>
    let opening : List Text := ["[.book-metadata]", "== " ++ metadataHeading, []]
    unlines (opening ++ endAllButLast " +" (fields.map metadataLine))

end AsciiDoc

def toAsciiDoc (document : Document) : Text :=
  joinParts [AsciiDoc.header document, AsciiDoc.metadata document, bodyText '=' document.sections]

end Bindery.Document
