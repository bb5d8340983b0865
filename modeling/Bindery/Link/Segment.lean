import Bindery.Identifier.Basic
import Bindery.Text.Digit

/-! The parts between the pipes of one reference: what is its collection, what are its versions, and
what is left to be read as title and chapter. -/

namespace Bindery.Link
open Text Identifier

def isWordChar (c : Char) : Bool :=
  isAsciiLower c || isAsciiUpper c || isAsciiDigit c || c = '_' || c = '-'

/-- A bare identifier; one line feed may follow it. -/
def isBareWord (text : Text) : Bool :=
  let word := (dropEnd? ['\n'] text).getD text
  !word.isEmpty && word.all isWordChar

/-- Whether digits come next and a blank, a colon or the end after them. -/
def startsWithNumber (text : Text) : Bool :=
  match text.dropWhile isDecimal with
  | [] => !text.isEmpty
  | c :: _ => (text.head?.any isDecimal) && (isBlank c || c = ':')

def hasSpacedNumber : Text → Bool
  | [] => false
  | c :: rest => isBlank c && startsWithNumber rest || hasSpacedNumber rest

/-- A number that stands for itself, or a word followed by digits at the start. -/
def hasChapterNumber (text : Text) : Bool :=
  let afterWord := text.dropWhile isWordChar
  hasSpacedNumber text
    || (text.head?.any isWordChar && afterWord.head?.any isBlank
        && (stripStart afterWord).head?.any isDecimal)

def versionList (text : Text) : List Text :=
  ((words text).map normalize).filter (!·.isEmpty)

structure Segments where
  main : Text
  collection : Option Text
  versions : List Text
  deriving DecidableEq, Repr

/-- How the segments of a reference are read. A chapter number before a single pipe beats the reading
as a collection, and a bare word before a pipe is always a collection. -/
inductive SegmentRule where
  | empty
  | single
  | titleChapterVersion
  | collectionTitle
  | unsplit
  | collectionTitleVersion
  | titleVersion
  deriving DecidableEq, Repr

namespace SegmentRule

def name : SegmentRule → Text
  | .empty => "empty"
  | .single => "single"
  | .titleChapterVersion => "title-chapter-version"
  | .collectionTitle => "collection-title"
  | .unsplit => "unsplit"
  | .collectionTitleVersion => "collection-title-version"
  | .titleVersion => "title-version"

def joinPipes (segments : List Text) : Text :=
  join " | " segments

end SegmentRule

open SegmentRule in
def classifySegments : List Text → SegmentRule × Segments
  | [] => (.empty, ⟨[], none, []⟩)
  | [main] => (.single, ⟨main, none, []⟩)
  | [first, second] =>
    if hasChapterNumber first then (.titleChapterVersion, ⟨first, none, versionList second⟩)
    else if isBareWord first then (.collectionTitle, ⟨second, some (normalize first), []⟩)
    else (.unsplit, ⟨joinPipes [first, second], none, []⟩)
  | first :: second :: third :: more =>
    let rest := second :: third :: more
    let versions := versionList (rest.getLastD [])
    if isBareWord first then
      (.collectionTitleVersion, ⟨joinPipes rest.dropLast, some (normalize first), versions⟩)
    else (.titleVersion, ⟨joinPipes (first :: rest.dropLast), none, versions⟩)

end Bindery.Link
