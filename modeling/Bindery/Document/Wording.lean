import Bindery.Text.Case
import Bindery.Text.Digit

/-! Words for readers where a node gives none: titles out of identifiers, dates out of what was written
about a publication, and the first words of a body. -/

namespace Bindery.Wording
open Text

def isWordBreak (c : Char) : Bool :=
  c = '-' || c = '_' || isBlank c

def capitalize : Text → Text
  | [] => []
  | c :: rest => upperChar c ++ lowerCase rest

/-- `the-great-gatsby` becomes `The Great Gatsby`. -/
def titleCase (identifier : Text) : Text :=
  join [' '] ((runsOutside isWordBreak identifier).map capitalize)

/-- The shape of a day in the calendar: digits stand where the zeros are. -/
def dayShape : Text := "0000-00-00"

def fits (shape text : Text) : Bool :=
  shape.length ≤ text.length
    && (shape.zip text).all fun (s, c) => if s = '0' then isDecimal c else s = c

/-- The first four digits in a row. -/
def firstYear? : Text → Option Text
  | [] => none
  | c :: rest =>
    if fits ['0', '0', '0', '0'] (c :: rest) then some ((c :: rest).take 4) else firstYear? rest

/-- A day is kept without what follows it, a year stands for its first day, and all else is kept. -/
def revisionDate (published : Text) : Text :=
  let published := strip published
  if fits dayShape published then published.take dayShape.length
  else
    match firstYear? published with
    | some year => year ++ "-01-01"
    | none => published

def isHeadingMarker (c : Char) : Bool :=
  c = '=' || c = '#'

/-- A line without the heading markers before its text. -/
def withoutMarkers (line : Text) : Text :=
  match stripStart line with
  | [] => line
  | c :: rest =>
    let text := rest.dropWhile (· = c)
    if isHeadingMarker c && text.head?.any isBlank then text else line

def squeeze (text : Text) : Text :=
  join [' '] (words text)

def shorten (limit : Int) (text : Text) : Text :=
  if text.length > limit then stripEnd (upTo limit text) ++ "..." else text

/-- The first line of a body that says something, shortened. -/
def preview (limit : Int) (body : Text) : Text :=
  match ((brokenLines body).map fun line => squeeze (withoutMarkers line)).find? (!·.isEmpty) with
  | some text => shorten limit text
  | none => []

end Bindery.Wording
