import Bindery.Text.Basic

/-! Quoted spans inside a book link. A quote opens at the start of a token and closes at the same
mark, so an apostrophe inside a word opens nothing. Separators that begin inside a span do not
separate. -/

namespace Bindery.Link
open Text

def opensToken (previous : Option Char) : Bool :=
  match previous with
  | none => true
  | some c => isBlank c || c = '|' || c = ','

/-- For each character, whether it is inside a quoted span, its quotes included. -/
def quoteMaskFrom (span : Option Char) (previous : Option Char) : Text → List Bool
  | [] => []
  | c :: rest =>
    match span with
    | some quote => true :: quoteMaskFrom (if c = quote then none else some quote) (some c) rest
    | none =>
      if (c = '\x22' || c = '\x27') && opensToken previous then
        true :: quoteMaskFrom (some c) (some c) rest
      else false :: quoteMaskFrom none (some c) rest

def quoteMask (text : Text) : List Bool :=
  quoteMaskFrom none none text

/-- How many characters of a separator a text starts with; zero when it starts with none. -/
abbrev Separator := Text → Nat

def commaSeparator : Separator
  | ',' :: ' ' :: _ => 2
  | _ => 0

def pipeSeparator : Separator := fun text =>
  let before := (text.takeWhile isBlank).length
  match text.drop before with
  | '|' :: rest =>
    let after := (rest.takeWhile isBlank).length
    if before = 0 || after = 0 then 0 else before + 1 + after
  | _ => 0

private def extend (c : Char) : List Text → List Text
  | [] => [[c]]
  | part :: parts => (c :: part) :: parts

/-- Cuts at separators. Inside one, `left` counts its characters still to come, and they are kept if
it began inside quotes. -/
def cutUnquoted (separator : Separator) (left : Nat) (dropping : Bool) : Text → List Bool → List Text
  | c :: text, quoted :: mask =>
    match left with
    | left + 1 =>
      let parts := cutUnquoted separator left dropping text mask
      if dropping then parts else extend c parts
    | 0 =>
      match separator (c :: text) with
      | 0 => extend c (cutUnquoted separator 0 false text mask)
      | length + 1 =>
        if quoted then extend c (cutUnquoted separator length false text mask)
        else [] :: cutUnquoted separator length true text mask
  | _, _ => [[]]

/-- Parts between separators, stripped, without empty ones. -/
def splitUnquoted (separator : Separator) (text : Text) : List Text :=
  ((cutUnquoted separator 0 false text (quoteMask text)).map strip).filter (!·.isEmpty)

def cutLastPipe : Text → List Bool → Option (Text × Text)
  | c :: text, quoted :: mask =>
    match cutLastPipe text mask with
    | some (before, after) => some (c :: before, after)
    | none => if c = '|' && !quoted then some ([], text) else none
  | _, _ => none

/-- The texts before and after the last pipe outside quotes. -/
def splitLastPipe? (text : Text) : Option (Text × Text) :=
  cutLastPipe text (quoteMask text)

end Bindery.Link
