import Bindery.Heading.Level

/-! Headings in AsciiDoc bodies. Verbatim blocks hold no headings; such a block ends on a line like the
one that opened it, or on three bare backticks where backticks opened it. -/

namespace Bindery.Heading.AsciiDoc
open Text

/-- What a line is, given the verbatim block around it. -/
inductive Line where
  | verbatim (text : Text)
  | plain (text : Text)
  | heading (marker : Char) (level : Nat) (gap : Text) (title : Text)
  deriving DecidableEq, Repr

namespace Line

def toText : Line → Text
  | .verbatim text => text
  | .plain text => text
  | .heading marker level gap title => List.replicate level marker ++ gap ++ title

end Line

def backtickFence : Text := ['\x60', '\x60', '\x60']

/-- The line that closes the verbatim block opened by a line, if it opens one. -/
def fenceOpened? (line : Text) : Option Text :=
  let line := stripEnd line
  if backtickFence.isPrefixOf line then some backtickFence
  else
    match line with
    | [] => none
    | c :: _ =>
      if (c = '-' || c = '.' || c = '+' || c = '/') && line.all (· = c) && line.length ≥ 4 then some line
      else none

def isGap (c : Char) : Bool :=
  c = ' ' || c = '\t'

/-- One to six markers, a gap and a title. -/
def heading? (line : Text) : Option Line :=
  match line with
  | [] => none
  | c :: _ =>
    let level := (line.takeWhile (· = c)).length
    let rest := line.drop level
    let gap := rest.takeWhile isGap
    let title := rest.drop gap.length
    if (c = '=' || c = '#') && level ≤ 6 && !gap.isEmpty && title.head?.any (!isBlank ·) then
      some (.heading c level gap title)
    else none

/-- Reads one line inside the verbatim block that `fence` closes, or outside of such blocks. -/
def readLine (fence : Option Text) (line : Text) : Line :=
  match fence with
  | some _ => .verbatim line
  | none =>
    match fenceOpened? line with
    | some _ => .verbatim line
    | none => (heading? line).getD (.plain line)

/-- The verbatim block that is open after a line. -/
def fenceAfter (fence : Option Text) (line : Text) : Option Text :=
  match fence with
  | some closing => if stripEnd line = closing then none else some closing
  | none => fenceOpened? line

def readLines (fence : Option Text) : List Text → List Line
  | [] => []
  | line :: rest => readLine fence line :: readLines (fenceAfter fence line) rest

def renumberLine (deepest depth : Int) : Line → Text
  | .heading marker level gap title => markers marker (targetLevel deepest depth level) ++ gap ++ title
  | line => line.toText

def renumber (deepest depth : Int) (lines : List Text) : List Text :=
  (readLines none lines).map (renumberLine deepest depth)

end Bindery.Heading.AsciiDoc
