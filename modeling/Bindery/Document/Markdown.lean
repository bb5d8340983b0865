import Bindery.Document.AsciiDoc
import Bindery.Yaml.Writer

/-! Documents written in Markdown: front matter in YAML between two rules, the title, the metadata in a
section of its own, and the sections. -/

namespace Bindery.Document
open Text

namespace Markdown

/-- Fields by key: a repeated key keeps its first place and its last value. -/
def distinctFields (fields : List Tag) : List (Text × Text) :=
  fields.foldl (fun done field =>
    if done.any (·.1 = field.key) then
      done.map fun (key, value) => (key, if key = field.key then field.value else value)
    else done ++ [(field.key, field.value)]) []

def frontMatter (document : Document) : Text :=
  "---\n" ++ Yaml.Writer.writeMapping (distinctFields document.frontMatter) ++ "---"

def metadataLine (field : Tag) : Text :=
  "**" ++ field.key ++ ":** " ++ field.value

/-- Takes the blanks off the end of the last line. -/
def stripLast : List Text → List Text
  | [] => []
  | [last] => [stripEnd last]
  | line :: lines => line :: stripLast lines

/-- Two spaces at the end of a line keep it apart from the next. -/
def metadata (document : Document) : Text :=
  match document.metadataFields with
  | [] => []
  | fields =>
    let opening : List Text := ["## " ++ metadataHeading, []]
    unlines (opening ++ stripLast (endAllButLast "  " (fields.map metadataLine)))

end Markdown

def toMarkdown (document : Document) : Text :=
  joinParts [Markdown.frontMatter document, "# " ++ document.title, Markdown.metadata document,
    bodyText '#' document.sections]

end Bindery.Document
