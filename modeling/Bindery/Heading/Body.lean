import Bindery.Heading.AsciiDoc
import Bindery.Heading.Markdown

/-! Renumbering of all headings in a body, so that none competes with the heading of its section. -/

namespace Bindery.Heading
open Text

/-- How bodies are marked up; all but Markdown is read as AsciiDoc. -/
inductive Markup where
  | asciiDoc
  | markdown
  deriving DecidableEq, Repr

namespace Markup

def name : Markup → Text
  | .asciiDoc => "asciidoc"
  | .markdown => "markdown"

def ofName (name : Text) : Markup :=
  if name = markdown.name then .markdown else .asciiDoc

end Markup

def renumber (markup : Markup) (deepest depth : Int) (body : Text) : Text :=
  if body.isEmpty then body
  else
    let lines := lines (unifyLineEnds body)
    unlines (match markup with
      | .asciiDoc => AsciiDoc.renumber deepest depth lines
      | .markdown => Markdown.renumber deepest depth lines)

end Bindery.Heading
