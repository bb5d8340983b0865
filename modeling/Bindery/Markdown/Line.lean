import Bindery.Text.Basic

/-! Lines of a Markdown text as a container sees them. A container takes its own marker off each line
and keeps the column at which the rest begins, since tabs reach to the next column that is a
multiple of four. -/

namespace Bindery.Markdown
open Text

def isGap (c : Char) : Bool :=
  c = ' ' || c = '\t'

/-- Passes over spaces and tabs from a column on: how many there are, and the column reached. Tab stops
lie `base` columns before the multiples of four. -/
def spanGap (base column : Nat) : Text → Nat × Nat
  | [] => (0, column)
  | c :: rest =>
    if c = '\t' then
      let (count, reached) := spanGap base (column + (4 - (column + base) % 4)) rest
      (count + 1, reached)
    else if c = ' ' then
      let (count, reached) := spanGap base (column + 1) rest
      (count + 1, reached)
    else (0, column)

/-- `shift` characters stand before the content, which is indented by `indent` columns; `origin` is the
column at which the text begins. A lazy line, which a paragraph may go on with although it left the
container, has a negative indent. -/
structure Line where
  number : Nat
  text : Text
  shift : Nat
  indent : Int
  origin : Nat
  deriving DecidableEq, Repr

namespace Line

def ofText (number : Nat) (text : Text) : Line :=
  let (shift, column) := spanGap 0 0 text
  ⟨number, text, shift, column, 0⟩

def content (line : Line) : Text :=
  line.text.drop line.shift

def isEmpty (line : Line) : Bool :=
  line.content.isEmpty

def lazily (line : Line) : Line :=
  { line with indent := -1 }

/-- The line inside a quote: without the quote mark and one space after it. A tab after the mark gives
that space and leaves the rest of its width. -/
def insideQuote (line : Line) : Line :=
  let column := line.indent.toNat + 1
  let (text, start, tabWidth, spaced) : Text × Nat × Nat × Nat :=
    match line.content.drop 1 with
    | ' ' :: rest => (rest, column + 1, 0, 1)
    | '\t' :: rest =>
      if (line.origin + column) % 4 = 3 then (rest, column + 1, 0, 1) else ('\t' :: rest, column, 1, 1)
    | rest => (rest, column, 0, 0)
  let (shift, reached) := spanGap (line.origin + tabWidth) start text
  ⟨line.number, text, shift, reached - start, line.indent.toNat + 1 + spaced⟩

/-- Takes off up to `edge` columns of indent; markers before the content count as indent. -/
def cutFrom (edge : Int) (origin : Nat) (column : Nat) (before : Nat) : Text → Text
  | [] => List.replicate (column - edge).toNat ' '
  | c :: rest =>
    if edge ≤ column then List.replicate (column - edge).toNat ' ' ++ c :: rest
    else if c = '\t' then cutFrom edge origin (column + (4 - (column + origin) % 4)) (before - 1) rest
    else if c = ' ' || before > 0 then cutFrom edge origin (column + 1) (before - 1) rest
    else c :: rest

def withoutIndent (edge : Int) (line : Line) : Text :=
  cutFrom edge line.origin 0 line.shift line.text

end Line

/-- Text of a paragraph: its lines without the indent of their container, stripped at both ends. -/
def paragraphText (edge : Int) (lines : List Line) : Text :=
  strip (unlines (lines.map (Line.withoutIndent edge)))

end Bindery.Markdown
