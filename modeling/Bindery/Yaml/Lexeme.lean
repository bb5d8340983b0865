import Bindery.Data.ValueFault
import Bindery.Yaml.Scalar

/-! The lexical forms of YAML: quoted, plain and block scalars with the folding of their lines, names of
anchors, tags and directives. Each form is read from the front of a text and leaves the rest. Line
ends are line feeds; two other separators end lines too and are kept in a scalar. -/

namespace Bindery.Yaml
open Text

inductive Fault where
  | malformed
  | value (fault : ValueFault)
  deriving DecidableEq, Repr

abbrev Reading (α : Type) := Except Fault α

namespace Lexeme

def isBreak (c : Char) : Bool :=
  c = '\n' || c.toNat = 0x85 || c.toNat = 0x2028 || c.toNat = 0x2029

def isGap (c : Char) : Bool :=
  c = ' ' || c = '\t'

def isSpacing (c : Char) : Bool :=
  isGap c || isBreak c

/-- The end of a text is as good as a space. -/
def spacingFollows (rest : Text) : Bool :=
  rest.head?.all isSpacing

/-- As above, where a tab is none. -/
def spaceFollows (rest : Text) : Bool :=
  rest.head?.all fun c => c = ' ' || isBreak c

def isFlowMark (c : Char) : Bool :=
  c = ',' || c = '[' || c = ']' || c = '\x7b' || c = '\x7d'

/-- What a line break adds to a scalar. -/
def breakChar (c : Char) : Char :=
  if c.toNat = 0x2028 || c.toNat = 0x2029 then c else '\n'

/-- A line that begins or ends a document. -/
def atDocumentMark (text : Text) : Bool :=
  (startsWith "---" text || startsWith "..." text) && spacingFollows (text.drop 3)

/-- A single line feed becomes a space; of several the first is dropped. -/
def foldBreaks (first : Char) (others : Text) : Text :=
  if breakChar first ≠ '\n' then breakChar first :: others
  else if others.isEmpty then [' ']
  else others

/-! ### Quoted scalars -/

/-- Passes over blank lines inside quotes, and over the gap before the next word. -/
def readBlankLines (fuel : Nat) (text : Text) : Reading (Text × Text) :=
  match fuel with
  | 0 => .error .malformed
  | fuel + 1 =>
    if atDocumentMark text then .error .malformed
    else
      match text.dropWhile isGap with
      | [] => .ok ([], [])
      | c :: rest =>
        if isBreak c then do
          let (breaks, rest) ← readBlankLines fuel rest
          return (breakChar c :: breaks, rest)
        else .ok ([], c :: rest)

/-- White space inside quotes. A gap stays as it is unless a line ends after it. -/
def readQuotedSpace (text : Text) : Reading (Text × Text) :=
  match text.dropWhile isGap with
  | [] => .error .malformed
  | c :: rest =>
    if isBreak c then do
      let (breaks, rest) ← readBlankLines (rest.length + 1) rest
      return (foldBreaks c breaks, rest)
    else .ok (text.takeWhile isGap, c :: rest)

def escapes : List (Char × Nat) :=
  [('0', 0x0), ('a', 0x7), ('b', 0x8), ('t', 0x9), ('\t', 0x9), ('n', 0xa), ('v', 0xb), ('f', 0xc),
   ('r', 0xd), ('e', 0x1b), (' ', 0x20), ('\x22', 0x22), ('\\', 0x5c), ('/', 0x2f), ('N', 0x85),
   ('_', 0xa0), ('L', 0x2028), ('P', 0x2029)]

/-- How many hexadecimal digits follow the letter of an escape. -/
def escapeLength? : Char → Option Nat
  | 'x' => some 2
  | 'u' => some 4
  | 'U' => some 8
  | _ => none

def hexDigit (c : Char) : Nat :=
  if isAsciiDigit c then c.toNat - 48
  else if isAsciiLower c then c.toNat - 87
  else c.toNat - 55

def hexValue (digits : Text) : Nat :=
  digits.foldl (fun value c => 16 * value + hexDigit c) 0

/-- The character with a code; a surrogate has none of its own. -/
def charOfCode (code : Nat) : Reading Char :=
  if code ≥ 0x80000000 then .error (.value .codePointTooLong)
  else if code ≥ 0x110000 then .error (.value .codePoint)
  else if 0xd800 ≤ code && code < 0xe000 then .ok (Char.ofNat 0xfffd)
  else .ok (Char.ofNat code)

/-- What stands after a backslash. A line end is left out, with the gap after it. -/
def readEscape (text : Text) : Reading (Text × Text) :=
  match text with
  | [] => .error .malformed
  | c :: rest =>
    match escapes.lookup c, escapeLength? c with
    | some code, _ => .ok ([Char.ofNat code], rest)
    | none, some length => do
      let digits := rest.take length
      if digits.length = length && digits.all Scalar.isHexDigit then
        return ([← charOfCode (hexValue digits)], rest.drop length)
      else .error .malformed
    | none, none => if isBreak c then readBlankLines (rest.length + 1) rest else .error .malformed

/-- Reads up to the closing quote. Inside single quotes a quote is written twice. -/
def readQuoted (fuel : Nat) (quote : Char) (text : Text) : Reading (Text × Text) :=
  match fuel, text with
  | 0, _ | _, [] => .error .malformed
  | fuel + 1, c :: rest =>
    if c = quote then
      match quote, rest with
      | '\x27', '\x27' :: rest => do
        let (ending, rest) ← readQuoted fuel quote rest
        return ('\x27' :: ending, rest)
      | _, _ => .ok ([], rest)
    else do
      let (piece, rest) ←
        if isSpacing c then readQuotedSpace (c :: rest)
        else if c = '\\' && quote = '\x22' then readEscape rest
        else .ok ([c], rest)
      let (ending, rest) ← readQuoted fuel quote rest
      return (piece ++ ending, rest)

/-! ### Plain scalars -/

/-- Where a word of a plain scalar ends. Inside brackets their marks end it too. -/
def endsWord (inFlow : Bool) (c : Char) (rest : Text) : Bool :=
  isSpacing c || (c = ':' && (spacingFollows rest || inFlow && rest.head?.any isFlowMark))
    || (inFlow && (isFlowMark c || c = '?'))

def spanWord (inFlow : Bool) : Text → Text × Text
  | [] => ([], [])
  | c :: rest =>
    if endsWord inFlow c rest then ([], c :: rest)
    else
      let (word, after) := spanWord inFlow rest
      (c :: word, after)

/-- The space after a word: what it adds if the scalar goes on, and the line end in it, if there is one. -/
structure PlainSpace where
  content : Text
  crossesLine : Bool
  column : Nat
  rest : Text

/-- Passes over spaces and blank lines from a column on. -/
def readPlainLines (column : Nat) : Text → Text × Nat × Bool × Text
  | [] => ([], column, true, [])
  | c :: rest =>
    if c = ' ' then readPlainLines (column + 1) rest
    else if isBreak c then
      if atDocumentMark rest then ([], 0, false, rest)
      else
        let (breaks, reached, goesOn, after) := readPlainLines 0 rest
        (breakChar c :: breaks, reached, goesOn, after)
    else ([], column, true, c :: rest)

/-- The space between two words, or `none` where the scalar cannot go on. -/
def readPlainSpace (text : Text) : Option PlainSpace × Bool × Text :=
  let after := text.dropWhile (· = ' ')
  match after with
  | [] => (none, false, [])
  | c :: rest =>
    if isBreak c then
      if atDocumentMark rest then (none, true, rest)
      else
        let (breaks, column, goesOn, rest) := readPlainLines 0 rest
        if goesOn then (some ⟨foldBreaks c breaks, true, column, rest⟩, true, rest)
        else (none, true, rest)
    else if after.length = text.length then (none, false, after)
    else (some ⟨text.takeWhile (· = ' '), false, 0, after⟩, false, after)

/-- Reads a plain scalar whose lines must be indented to a column. Answers the scalar, whether a line
ended after its last word, and the rest. -/
def readPlain (fuel : Nat) (inFlow : Bool) (indent : Int) (text : Text) : Text × Bool × Text :=
  match fuel with
  | 0 => ([], false, text)
  | fuel + 1 =>
    let (word, rest) := spanWord inFlow text
    match readPlainSpace rest with
    | (none, crosses, rest) => (word, crosses, rest)
    | (some space, crosses, rest) =>
      let isOutside := space.crossesLine && !inFlow && (space.column : Int) < indent
      if rest.head? = some '#' || isOutside || (spanWord inFlow rest).1.isEmpty then (word, crosses, rest)
      else
        let (ending, crosses, rest) := readPlain fuel inFlow indent rest
        (word ++ space.content ++ ending, crosses, rest)

/-! ### Block scalars -/

/-- What is done with line ends at the end of a block. -/
inductive Chomping where
  | strip
  | clip
  | keep
  deriving DecidableEq, Repr

def chomping? : Char → Option Chomping
  | '-' => some .strip
  | '+' => some .keep
  | _ => none

/-- One digit that tells how far the lines of a block are indented. -/
def readIncrement (text : Text) : Reading (Option Nat × Text) :=
  match text with
  | c :: rest =>
    if c = '0' then .error .malformed
    else if isAsciiDigit c then .ok (some (c.toNat - 48), rest)
    else .ok (none, text)
  | [] => .ok (none, [])

def readChomping (text : Text) : Option Chomping × Text :=
  match text with
  | c :: rest => match chomping? c with
    | some chomping => (some chomping, rest)
    | none => (none, text)
  | [] => (none, [])

/-- Both indicators of a block, in either order. -/
def readIndicators (text : Text) : Reading (Chomping × Option Nat × Text) := do
  let (first, rest) := readChomping text
  let (increment, rest) ← readIncrement rest
  let (second, rest) := match first with
    | some _ => (none, rest)
    | none => if increment.isSome then readChomping rest else (none, rest)
  return ((first.or second).getD .clip, increment, rest)

/-- The rest of a line that may hold a comment and nothing else. -/
def skipToLineEnd (text : Text) : Reading Text :=
  let rest := text.dropWhile (· = ' ')
  let rest := if rest.head? = some '#' then rest.dropWhile (!isBreak ·) else rest
  match rest with
  | [] => .ok []
  | c :: rest => if isBreak c then .ok rest else .error .malformed

/-- Blank lines at the start of a block: their ends, the widest indentation met, the column reached. -/
def readLeadingLines (column widest : Nat) : Text → Text × Nat × Nat × Text
  | [] => ([], widest, column, [])
  | c :: rest =>
    if c = ' ' then readLeadingLines (column + 1) (max widest (column + 1)) rest
    else if isBreak c then
      let (breaks, widest, column, rest) := readLeadingLines 0 widest rest
      (breakChar c :: breaks, widest, column, rest)
    else ([], widest, column, c :: rest)

/-- Blank lines inside a block: at most the block's indentation is taken off each line. -/
def readBlockBreaks (indent column : Nat) : Text → Text × Nat × Text
  | [] => ([], column, [])
  | c :: rest =>
    if c = ' ' && column < indent then readBlockBreaks indent (column + 1) rest
    else if isBreak c then
      let (breaks, column, rest) := readBlockBreaks indent 0 rest
      (breakChar c :: breaks, column, rest)
    else ([], column, c :: rest)

/-- What stands between two lines of a block. Lines are folded only where neither is indented further. -/
def lineJoint (folded : Bool) (line next : Text) (ending : Char) (breaks : Text) : Text :=
  if folded && ending = '\n' && !line.head?.any isGap && !next.head?.any isGap then
    (if breaks.isEmpty then [' '] else []) ++ breaks
  else ending :: breaks

/-- Line ends after the last line. -/
def chomp (chomping : Chomping) (ending : Option Char) (breaks : Text) : Text :=
  match chomping with
  | .strip => []
  | .clip => ending.toList
  | .keep => ending.toList ++ breaks

/-- Lines of a block from the start of one on, without its indentation. -/
def readBlockLines (fuel : Nat) (folded : Bool) (chomping : Chomping) (indent : Nat) (text : Text) :
    Text × Text :=
  match fuel with
  | 0 => ([], text)
  | fuel + 1 =>
    let line := text.takeWhile (!isBreak ·)
    match text.dropWhile (!isBreak ·) with
    | [] => (line, [])
    | c :: rest =>
      let (breaks, column, next) := readBlockBreaks indent 0 rest
      if column = indent && !next.isEmpty then
        let (ending, rest) := readBlockLines fuel folded chomping indent next
        (line ++ lineJoint folded line next (breakChar c) breaks ++ ending, rest)
      else (line ++ chomp chomping (some (breakChar c)) breaks, next)

/-- Reads a block after its first character; `least` is the least indentation of its lines. -/
def readBlock (folded : Bool) (least : Nat) (text : Text) : Reading (Text × Text) := do
  let (chomping, increment, rest) ← readIndicators text
  if !spaceFollows rest then throw .malformed
  let rest ← skipToLineEnd rest
  let (breaks, indent, column, rest) := match increment with
    | some step =>
      let indent := least + step - 1
      let (breaks, column, rest) := readBlockBreaks indent 0 rest
      (breaks, indent, column, rest)
    | none =>
      let (breaks, widest, column, rest) := readLeadingLines 0 0 rest
      (breaks, max least widest, column, rest)
  if column = indent && !rest.isEmpty then
    let (content, rest) := readBlockLines (rest.length + 1) folded chomping indent rest
    return (breaks ++ content, rest)
  else return (chomp chomping none breaks, rest)

/-! ### Names -/

def isNameChar (c : Char) : Bool :=
  isAsciiDigit c || isAsciiLower c || isAsciiUpper c || c = '-' || c = '_'

def spanName (text : Text) : Text × Text :=
  text.span isNameChar

def endsAnchor : List Char :=
  ['?', ':', ',', ']', '\x7d', '%', '@', '\x60']

/-- The name of an anchor or of an alias to it. -/
def readAnchor (text : Text) : Reading (Text × Text) :=
  let (name, rest) := spanName text
  if !name.isEmpty && rest.head?.all (fun c => isSpacing c || endsAnchor.contains c) then
    .ok (name, rest)
  else .error .malformed

def tagPunctuation : List Char :=
  ['-', ';', '/', '?', ':', '@', '&', '=', '+', '$', ',', '_', '.', '!', '~', '*', '\x27', '(', ')',
   '[', ']', '%']

def isTagChar (c : Char) : Bool :=
  isAsciiDigit c || isAsciiLower c || isAsciiUpper c || tagPunctuation.contains c

/-- A tag: the handle of a namespace, if there is one, and a name in it. -/
structure TagName where
  handle : Option Text
  suffix : Text
  deriving DecidableEq, Repr

def readTagSuffix (text : Text) : Reading (Text × Text) :=
  let (name, rest) := text.span isTagChar
  if name.isEmpty then .error .malformed else .ok (name, rest)

/-- A handle: an exclamation mark, or a name between two of them. -/
def readHandle? (text : Text) : Option (Text × Text) :=
  match text with
  | '!' :: rest =>
    let (name, after) := spanName rest
    match after with
    | '!' :: after => some ('!' :: name ++ ['!'], after)
    | _ => none
  | _ => none

/-- A tag from its exclamation mark on. -/
def readTagName (text : Text) : Reading (TagName × Text) :=
  match text with
  | '!' :: '<' :: rest => do
    let (suffix, rest) ← readTagSuffix rest
    match rest with
    | '>' :: rest => return (⟨none, suffix⟩, rest)
    | _ => .error .malformed
  | _ :: rest =>
    if spacingFollows rest then .ok (⟨none, ['!']⟩, rest)
    else if (rest.takeWhile fun c => !(c = ' ' || isBreak c)).contains '!' then
      match readHandle? text with
      | some (handle, rest) => do
        let (suffix, rest) ← readTagSuffix rest
        return (⟨some handle, suffix⟩, rest)
      | none => .error .malformed
    else do
      let (suffix, rest) ← readTagSuffix rest
      return (⟨some ['!'], suffix⟩, rest)
  | [] => .error .malformed

def readTag (text : Text) : Reading (TagName × Text) := do
  let (tag, rest) ← readTagName text
  if spaceFollows rest then return (tag, rest) else .error .malformed

inductive Directive where
  | version (major : Nat)
  | tag (handle uri : Text)
  | other
  deriving DecidableEq, Repr

/-- A part of a version. -/
def readVersionNumber (text : Text) : Reading (Nat × Text) := do
  let (digits, rest) := text.span isAsciiDigit
  if digits.isEmpty then throw .malformed
  return (← (readDigits digits).mapError fun error => .value (.number error), rest)

def readVersion (text : Text) : Reading (Directive × Text) := do
  let (major, rest) ← readVersionNumber (text.dropWhile (· = ' '))
  match rest with
  | '.' :: rest =>
    let (_, rest) ← readVersionNumber rest
    if spaceFollows rest then return (.version major, rest) else throw .malformed
  | _ => throw .malformed

def readTagDirective (text : Text) : Reading (Directive × Text) := do
  let text := text.dropWhile (· = ' ')
  let (handle, rest) ← match readHandle? text, text with
    | some (handle, rest), _ => .ok (handle, rest)
    | none, '!' :: rest => .ok (['!'], rest)
    | none, _ => .error .malformed
  if rest.head? ≠ some ' ' then throw .malformed
  let (uri, rest) ← readTagSuffix (rest.dropWhile (· = ' '))
  if spaceFollows rest then return (.tag handle uri, rest) else throw .malformed

/-- A directive after its percent sign, to the end of its line. -/
def readDirective (text : Text) : Reading (Directive × Text) := do
  let (name, rest) := spanName text
  if name.isEmpty || !spaceFollows rest then throw .malformed
  let (directive, rest) ←
    if name = "YAML".toList then readVersion rest
    else if name = "TAG".toList then readTagDirective rest
    else .ok (.other, rest.dropWhile (!isBreak ·))
  return (directive, ← skipToLineEnd rest)

end Lexeme
end Bindery.Yaml
