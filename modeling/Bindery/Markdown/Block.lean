import Bindery.Markdown.Html
import Bindery.Markdown.LinkDefinition

/-! Block structure of Markdown, as far as it decides which lines are headings: quotes and lists hold
blocks of their own, and code, HTML and link definitions hold no headings. Containers are nested no
deeper than twenty levels; what lies deeper is passed over. -/

namespace Bindery.Markdown
open Text

inductive Container where
  | quote
  | bulletItem
  | numberedItem
  deriving DecidableEq, Repr

/-- A heading is marked by hashes before it or by a line under it. -/
inductive HeadingStyle where
  | hashes
  | underlined (content : Text)
  deriving DecidableEq, Repr

/-- A heading takes the lines from `start` up to, and not including, `stop`; `path` names the containers
around it, outermost first. -/
structure Heading where
  start : Nat
  stop : Nat
  level : Nat
  style : HeadingStyle
  path : List Container
  deriving DecidableEq, Repr

/-- Where blocks are read: the column at which the container's content begins, the column of the list
around it (negative outside of lists), and the containers around. -/
structure Context where
  edge : Int
  listEdge : Int
  path : List Container
  deriving DecidableEq, Repr

namespace Context

def outermost : Context :=
  ⟨0, -1, []⟩

def isCode (context : Context) (line : Line) : Bool :=
  line.indent - context.edge ≥ 4

end Context

/-! ### Openings of blocks -/

/-- The mark of a fence and how often it stands there. -/
def fenceMark? (content : Text) : Option (Char × Nat) :=
  match content with
  | [] => none
  | c :: _ =>
    let marks := (content.takeWhile (· = c)).length
    if (c = '~' || c = '\x60') && marks ≥ 3 && !(c = '\x60' && (content.drop marks).contains '\x60') then
      some (c, marks)
    else none

def closesFence (mark : Char) (width : Nat) (content : Text) : Bool :=
  let marks := (content.takeWhile (· = mark)).length
  marks ≥ max width 1 && (content.drop marks).all isGap

def isQuoted (content : Text) : Bool :=
  content.head? = some '>'

/-- Three or more of one mark and nothing else. -/
def isRule (content : Text) : Bool :=
  match content with
  | [] => false
  | c :: rest =>
    (c = '*' || c = '-' || c = '_') && rest.all (fun d => d = c || isGap d) && content.count c ≥ 3

/-- The sign of a list item is its bullet, or the mark after its number. -/
structure ListMarker where
  number : Option Nat
  sign : Char
  width : Nat
  deriving DecidableEq, Repr

def endsMarker (text : Text) : Bool :=
  match text with
  | [] => true
  | c :: _ => isGap c

def listMarker? (content : Text) : Option ListMarker :=
  let digits := content.takeWhile isAsciiDigit
  match content.drop digits.length with
  | [] => none
  | c :: rest =>
    if !endsMarker rest then none
    else if digits.isEmpty then
      if c = '*' || c = '-' || c = '+' then some ⟨none, c, 1⟩ else none
    else if (c = '.' || c = ')') && digits.length ≤ 9 then
      some ⟨some ((String.ofList digits).toNat?.getD 0), c, digits.length + 1⟩
    else none

/-- A list may begin here. It breaks off a paragraph only with a first item that is not empty and has
no number but one. -/
def opensList? (context : Context) (inParagraph : Bool) (line : Line) : Option ListMarker :=
  if context.isCode line then none
  else if context.listEdge ≥ 0 && line.indent - context.listEdge ≥ 4 && line.indent < context.edge then none
  else
    (listMarker? line.content).filter fun marker =>
      !(inParagraph && line.indent ≥ context.edge
        && ((marker.number.any (· ≠ 1)) || (line.content.drop marker.width).all isGap))

def hashLevel? (content : Text) : Option Nat :=
  let level := (content.takeWhile (· = '#')).length
  if 1 ≤ level && level ≤ 6 && endsMarker (content.drop level) then some level else none

/-- The level of a heading that has this line under it. -/
def underlineLevel? (content : Text) : Option Nat :=
  match content with
  | [] => none
  | c :: _ =>
    if (c = '=' || c = '-') && (content.dropWhile (· = c)).all isGap then
      some (if c = '=' then 1 else 2)
    else none

def opensHtml? (context : Context) (line : Line) : Option HtmlKind :=
  if context.isCode line then none else htmlKind? line.content

/-- Whether an item of a list ends before this line although the list could go on. -/
def breaksList (context : Context) (line : Line) : Bool :=
  !context.isCode line
    && ((fenceMark? line.content).isSome || isQuoted line.content || isRule line.content)

/-- Whether a paragraph ends before this line although it is not empty. -/
def breaksParagraph (context : Context) (inParagraph : Bool) (line : Line) : Bool :=
  breaksList context line || (opensList? context inParagraph line).isSome
    || (opensHtml? context line).any HtmlKind.mayBreakParagraph
    || (!context.isCode line && (hashLevel? line.content).isSome)

/-! ### Extents of blocks, as numbers of lines after the first -/

/-- Empty lines belong to code only where more code follows. -/
def codeExtent (context : Context) : List Line → Nat
  | [] => 0
  | line :: rest =>
    let further := codeExtent context rest
    if line.isEmpty then (if further = 0 then 0 else further + 1)
    else if context.isCode line then further + 1
    else 0

def fenceExtent (context : Context) (mark : Char) (width : Nat) : List Line → Nat
  | [] => 0
  | line :: rest =>
    if !line.isEmpty && line.indent < context.edge then 0
    else if !context.isCode line && closesFence mark width line.content then 1
    else fenceExtent context mark width rest + 1

def htmlExtent (context : Context) (kind : HtmlKind) : List Line → Nat
  | [] => 0
  | line :: rest =>
    if line.indent < context.edge then 0
    else if kind.endsOn line.content then (if line.isEmpty then 0 else 1)
    else htmlExtent context kind rest + 1

/-- A line that goes on with a paragraph whatever stands on it. -/
def continues (context : Context) (line : Line) : Bool :=
  line.indent - context.edge > 3 || line.indent < 0

def paragraphExtent (context : Context) (inParagraph : Bool) : List Line → Nat
  | [] => 0
  | line :: rest =>
    if line.isEmpty then 0
    else if continues context line || !breaksParagraph context inParagraph line then
      paragraphExtent context inParagraph rest + 1
    else 0

/-- The underline of the paragraph that these lines go on with: its level and the lines before it. -/
def underline? (context : Context) : List Line → Option (Nat × Nat)
  | [] => none
  | line :: rest =>
    if line.isEmpty then none
    else
      match if continues context line || line.indent < context.edge then none
        else underlineLevel? line.content with
      | some level => some (level, 0)
      | none =>
        if continues context line || !breaksParagraph context true line then
          (underline? context rest).map fun (level, before) => (level, before + 1)
        else none

/-! ### Blocks -/

/-- Headings found, and how many lines were read. -/
structure Reading where
  headings : List Heading
  taken : Nat
  deriving DecidableEq, Repr

/-- How the blocks inside a container are read. -/
abbrev BlockReader := Context → List Line → Reading

/-- The lines of a quote, as they are inside it. Lines without a quote mark belong to it only as
continuation of a paragraph. -/
def quoteLines (context : Context) (afterEmpty : Bool) : List Line → List Line
  | [] => []
  | line :: rest =>
    if line.isEmpty then []
    else if isQuoted line.content && line.indent ≥ context.edge then
      line.insideQuote :: quoteLines context line.insideQuote.isEmpty rest
    else if afterEmpty || breaksParagraph context false line then []
    else line.lazily :: quoteLines context afterEmpty rest

/-- Reads a quote that begins on the first line. -/
def readQuote (inside : BlockReader) (context : Context) (line : Line) (rest : List Line) : Reading :=
  let first := line.insideQuote
  inside ⟨0, context.listEdge, context.path ++ [.quote]⟩
    (first :: quoteLines context first.isEmpty rest)

/-- Reads the content of one list item. An item whose first two lines are empty holds nothing. -/
def readItem (inside : BlockReader) (context : Context) (marker : ListMarker) (line : Line)
    (rest : List Line) : Reading :=
  let after := line.content.drop marker.width
  let start := line.indent.toNat + marker.width
  let (gap, column) := spanGap line.origin start after
  let isBlank := (after.drop gap).isEmpty
  let width := if isBlank || column - start > 4 then 1 else column - start
  if isBlank && (rest.head?.all Line.isEmpty) then ⟨[], min 2 (rest.length + 1)⟩
  else
    inside ⟨start + width, context.edge,
        context.path ++ [if marker.number.isSome then .numberedItem else .bulletItem]⟩
      ({ line with shift := line.shift + marker.width + gap, indent := column } :: rest)

/-- The marker of a further item of the same list. -/
def nextMarker? (context : Context) (marker : ListMarker) (line : Line) : Option ListMarker :=
  if line.indent < context.edge || context.isCode line || breaksList context line then none
  else
    (listMarker? line.content).filter fun next =>
      next.sign = marker.sign && next.number.isSome = marker.number.isSome

/-- Reads the items of a list. -/
def readItems (inside : BlockReader) (context : Context) (marker : ListMarker) (line : Line)
    (rest : List Line) : Reading :=
  let item := readItem inside context marker line rest
  let used := item.taken - 1
  match h : rest.drop used with
  | [] => ⟨item.headings, used + 1⟩
  | next :: more =>
    match nextMarker? context marker next with
    | none => ⟨item.headings, used + 1⟩
    | some marker =>
      let others := readItems inside context marker next more
      ⟨item.headings ++ others.headings, used + 1 + others.taken⟩
termination_by rest.length
decreasing_by
  have : (rest.drop used).length ≤ rest.length := by simp
  rw [h] at this
  exact this

/-- How many further lines a link definition takes that begins on this line. -/
def readDefinition? (context : Context) (line : Line) (rest : List Line) : Option Nat :=
  if line.content.head? = some '[' then
    definitionExtent? (paragraphText context.edge
      (line :: rest.take (paragraphExtent context false rest)))
  else none

/-- Reads the block that begins on a line that is not empty. -/
def readBlock (insideQuote insideItem : BlockReader) (context : Context) (line : Line)
    (rest : List Line) : Reading :=
  if context.isCode line then ⟨[], codeExtent context rest + 1⟩
  else if let some (mark, width) := fenceMark? line.content then
    ⟨[], fenceExtent context mark width rest + 1⟩
  else if isQuoted line.content then readQuote insideQuote context line rest
  else if isRule line.content then ⟨[], 1⟩
  else if let some marker := opensList? context false line then
    readItems insideItem context marker line rest
  else if let some further := readDefinition? context line rest then ⟨[], further + 1⟩
  else if let some kind := htmlKind? line.content then
    ⟨[], if kind.endsOn line.content then 1 else htmlExtent context kind rest + 1⟩
  else if let some level := hashLevel? line.content then
    ⟨[⟨line.number, line.number + 1, level, .hashes, context.path⟩], 1⟩
  else if let some (level, before) := underline? context rest then
    let content := paragraphText context.edge (line :: rest.take before)
    ⟨[⟨line.number, line.number + before + 2, level, .underlined content, context.path⟩], before + 2⟩
  else ⟨[], paragraphExtent context true rest + 1⟩

/-- Reads blocks until one does not reach the edge of the container. -/
def readBlocks (insideQuote insideItem : BlockReader) (context : Context) : List Line → Reading
  | [] => ⟨[], 0⟩
  | line :: rest =>
    if line.isEmpty then
      let others := readBlocks insideQuote insideItem context rest
      ⟨others.headings, others.taken + 1⟩
    else if line.indent < context.edge then ⟨[], 0⟩
    else
      let block := readBlock insideQuote insideItem context line rest
      let used := block.taken - 1
      let others := readBlocks insideQuote insideItem context (rest.drop used)
      ⟨block.headings ++ others.headings, used + 1 + others.taken⟩
termination_by lines => lines.length
decreasing_by
  · simp
  · simp only [List.length_drop, List.length_cons]; omega

/-- Passes over what is nested too deeply. -/
def passOver (context : Context) (lines : List Line) : Reading :=
  match lines.dropWhile Line.isEmpty with
  | [] => ⟨[], lines.length⟩
  | line :: rest =>
    if line.indent < context.edge then ⟨[], lines.length - (rest.length + 1)⟩ else ⟨[], lines.length⟩

/-- Reads blocks with room for so many levels of containers; a list takes two, itself and its item. -/
def readWithin : Nat → BlockReader
  | 0 => passOver
  | 1 => readBlocks passOver passOver
  | room + 2 => readBlocks (readWithin (room + 1)) (readWithin room)

def deepestNesting : Nat := 20

/-- Null characters have no place in a text. -/
def replaceNull (text : Text) : Text :=
  text.map fun c => if c.toNat = 0 then Char.ofNat 0xfffd else c

def readLines (lines : List Text) : List Line :=
  lines.mapIdx fun number text => .ofText number (replaceNull text)

/-- All headings of a text given by its lines, in order. -/
def headings (lines : List Text) : List Heading :=
  (readWithin deepestNesting .outermost (readLines lines)).headings

end Bindery.Markdown
