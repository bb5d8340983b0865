import Bindery.Heading.Level
import Bindery.Markdown.Block
import Bindery.Text.Digit

/-! Headings in Markdown bodies. Only the hashes of a heading change, so that the markers of quotes and
lists before them stay; a heading that has a line under it is written with hashes on one line. -/

namespace Bindery.Heading.Markdown
open Text Bindery.Markdown

/-- One marker of a quote or list item that a gap or the end of the line follows, with the gaps around
it; what comes after it is the answer. -/
def afterMarker? (line : Text) : Option Text :=
  let marker := line.dropWhile isGap
  let digits := (marker.takeWhile isDecimal).length
  let after := match marker.drop digits with
    | [] => none
    | c :: rest =>
      if digits = 0 then
        if c = '>' || c = '*' || c = '+' || c = '-' then some rest else none
      else if digits ≤ 9 && (c = '.' || c = ')') then some rest
      else none
  (after.filter endsMarker).map (·.dropWhile isGap)

/-- What remains after all markers at the start of a line. -/
def afterMarkers : Nat → Text → Text
  | 0, line => line
  | fuel + 1, line =>
    match afterMarker? line with
    | some rest => afterMarkers fuel rest
    | none => line.dropWhile isGap

def afterContainers (line : Text) : Text :=
  afterMarkers line.length line

def containerMarkers (line : Text) : Text :=
  line.take (line.length - (afterContainers line).length)

/-- Replaces up to six hashes after the container's markers; a line without them stays as it is. -/
def replaceHashes (level : Int) (line : Text) : Text :=
  let title := afterContainers line
  let hashes := (title.takeWhile (· = '#')).length
  if hashes = 0 then line
  else containerMarkers line ++ markers '#' level ++ title.drop (min hashes 6)

def writeOnOneLine (level : Int) (line content : Text) : Text :=
  containerMarkers line ++ markers '#' level ++ " "
    ++ content.map fun c => if c = '\n' then ' ' else c

/-- The line that takes the place of a heading, given the heading's first line. -/
def headingLine (deepest depth : Int) (heading : Bindery.Markdown.Heading) (line : Text) : Text :=
  let level := targetLevel deepest depth heading.level
  match heading.style with
  | .hashes => replaceHashes level line
  | .underlined content => writeOnOneLine level line content

/-- Writes the lines from number `n` on; `skip` of them belong to the heading before. -/
def renumberFrom (deepest depth : Int) (headings : List Bindery.Markdown.Heading) (n skip : Nat) :
    List Text → List Text
  | [] => []
  | line :: rest =>
    match skip with
    | skip + 1 => renumberFrom deepest depth headings (n + 1) skip rest
    | 0 =>
      match headings.find? fun heading => heading.start = n with
      | some heading =>
        headingLine deepest depth heading line
          :: renumberFrom deepest depth headings (n + 1) (heading.stop - (n + 1)) rest
      | none => line :: renumberFrom deepest depth headings (n + 1) 0 rest

def renumber (deepest depth : Int) (lines : List Text) : List Text :=
  renumberFrom deepest depth (headings lines) 0 0 lines

end Bindery.Heading.Markdown
