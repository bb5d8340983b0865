import Bindery.Text.Quoted
import Bindery.Yaml.Scalar

/-! Writing a mapping of texts as YAML, one key to a line. A text stands without quotes where it reads
back as that text; else it is put in single quotes, and in double quotes where it holds what only an
escape can say. Long texts go on in the next line, indented. -/

namespace Bindery.Yaml.Writer
open Text

/-- Past this column a text may go on in the next line. -/
def width : Nat := 80

def indentation : Text := [' ', ' ']

def isBreak (c : Char) : Bool :=
  c = '\n' || c.toNat = 0x85 || c.toNat = 0x2028 || c.toNat = 0x2029

/-- White space beside an indicator. -/
def isSpacing (c : Char) : Bool :=
  c = '\x00' || c = ' ' || c = '\t' || c = '\r' || isBreak c

def isVisibleAscii (c : Char) : Bool :=
  ' ' ≤ c && c ≤ '~'

/-- Characters of the basic plane beyond the first 160 code points. -/
def isVisibleBeyond (c : Char) : Bool :=
  (0xa0 ≤ c.toNat && c.toNat ≤ 0xd7ff) || (0xe000 ≤ c.toNat && c.toNat ≤ 0xfffd && c.toNat ≠ 0xfeff)

/-- Characters that only an escape can stand for. -/
def needsEscape (c : Char) : Bool :=
  !(c = '\n' || isVisibleAscii c || c.toNat = 0x85 || isVisibleBeyond c
    || (0x10000 ≤ c.toNat && c.toNat < 0x10ffff))

def opensNode : List Char :=
  ['#', ',', '[', ']', '\x7b', '\x7d', '&', '*', '!', '|', '>', '\x27', '\x22', '%', '@', '\x60']

def spacingFollows (rest : Text) : Bool :=
  rest.head?.all isSpacing

/-- A first character that would be read as a mark. -/
def startsWithIndicator : Text → Bool
  | [] => false
  | c :: rest => opensNode.contains c || ((c = '?' || c = ':' || c = '-') && spacingFollows rest)

/-- A mark inside a text: a colon before a space, or a number sign after one. -/
def holdsIndicator : Text → Bool
  | [] => false
  | c :: rest =>
    (isSpacing c && rest.head? = some '#') || (rest.head? = some ':' && spacingFollows (rest.drop 1))
      || holdsIndicator rest

def looksLikeMarkup (text : Text) : Bool :=
  startsWith "---" text || startsWith "..." text || startsWithIndicator text || holdsIndicator text

def isSpaceOrBreak (c : Char) : Bool :=
  c = ' ' || isBreak c

def hasNeighbours (first second : Char → Bool) : Text → Bool
  | a :: b :: rest => (first a && second b) || hasNeighbours first second (b :: rest)
  | _ => false

def breakBeforeSpace : Text → Bool :=
  hasNeighbours isBreak (· = ' ')

def spaceBeforeBreak : Text → Bool :=
  hasNeighbours (· = ' ') isBreak

inductive Style where
  | plain
  | singleQuoted
  | doubleQuoted
  deriving DecidableEq, Repr

def plainAllowed (text : Text) : Bool :=
  Scalar.kind text = .text && !text.head?.any isSpaceOrBreak && !text.getLast?.any isSpaceOrBreak
    && !text.any (fun c => isBreak c || needsEscape c) && !looksLikeMarkup text

def singleQuotesAllowed (text : Text) : Bool :=
  !breakBeforeSpace text && !spaceBeforeBreak text && !text.any needsEscape

def style (text : Text) : Style :=
  if plainAllowed text then .plain
  else if singleQuotesAllowed text then .singleQuoted
  else .doubleQuoted

/-- What has been written of a text, and the column reached. -/
structure Progress where
  written : Text
  column : Nat

namespace Progress

def write (progress : Progress) (text : Text) : Progress :=
  ⟨progress.written ++ text, progress.column + text.length⟩

/-- Writes line ends and then the indentation. -/
def newLine (progress : Progress) (ends : Text) : Progress :=
  ⟨progress.written ++ ends ++ indentation, indentation.length⟩

end Progress

inductive RunKind where
  | spaces
  | breaks
  | words
  deriving DecidableEq, Repr

def runKind (c : Char) : RunKind :=
  if c = ' ' then .spaces else if isBreak c then .breaks else .words

/-- Maximal runs of spaces, of line breaks, and of all else. -/
def runs (text : Text) : List Text :=
  text.splitBy fun a b => runKind a = runKind b

/-- Line breaks inside quotes: a line feed needs one more, since one alone would be read as a space. -/
def breakEnds (run : Text) : Text :=
  if run.head? = some '\n' then '\n' :: run else run

def doubleQuotes (run : Text) : Text :=
  run.flatMap fun c => if c = '\x27' then [c, c] else [c]

/-- Writes one run. A single space between words may become a line end. -/
def writeRun (splits : Bool) (progress : Progress) (run : Text) : Progress :=
  match run.head?.map runKind with
  | some .spaces =>
    if splits && run.length = 1 && progress.column > width then progress.newLine ['\n']
    else progress.write run
  | some .breaks => progress.newLine (breakEnds run)
  | _ => progress.write (doubleQuotes run)

/-- A space at either end of a quoted text stays where it is. -/
def writeRuns (splits : Bool) (isFirst : Bool) (progress : Progress) : List Text → Progress
  | [] => progress
  | [run] => writeRun false progress run
  | run :: rest => writeRuns splits false (writeRun (splits && !isFirst) progress run) rest

def writeSingleQuoted (splits : Bool) (column : Nat) (text : Text) : Text :=
  let opened : Progress := ⟨['\x27'], column + 1⟩
  (writeRuns splits true opened (runs text)).written ++ ['\x27']

/-- Writes one run of spaces or of all else. -/
def writePlainRun (splits : Bool) (progress : Progress) (run : Text) : Progress :=
  if splits && run = [' '] && progress.column > width then progress.newLine ['\n']
  else progress.write run

def writePlain (splits : Bool) (column : Nat) (text : Text) : Text :=
  ((runs text).foldl (writePlainRun splits) ⟨[], column⟩).written

def shortEscapes : List (Nat × Char) :=
  [(0x0, '0'), (0x7, 'a'), (0x8, 'b'), (0x9, 't'), (0xa, 'n'), (0xb, 'v'), (0xc, 'f'), (0xd, 'r'),
   (0x1b, 'e'), (0x22, '\x22'), (0x5c, '\\'), (0x85, 'N'), (0x2028, 'L'), (0x2029, 'P')]

def upperHex (width n : Nat) : Text :=
  (hexDigits width n).map fun c => if isAsciiLower c then Char.ofNat (c.toNat - 32) else c

def escape (c : Char) : Text :=
  match shortEscapes.lookup c.toNat with
  | some letter => ['\\', letter]
  | none =>
    if c.toNat ≤ 0xff then '\\' :: 'x' :: upperHex 2 c.toNat
    else if c.toNat ≤ 0xffff then '\\' :: 'u' :: upperHex 4 c.toNat
    else '\\' :: 'U' :: upperHex 8 c.toNat

def standsForItself (c : Char) : Bool :=
  c ≠ '\x22' && c ≠ '\\' && !isBreak c && (isVisibleAscii c || isVisibleBeyond c)

/-- Ends the line inside double quotes. A backslash keeps the line end out of the text, and another
keeps a space at the start of the next line in it. -/
def splitLine (progress : Progress) (next : Option Char) : Progress :=
  let progress := (progress.write ['\\']).newLine ['\n']
  if next = some ' ' then progress.write ['\\'] else progress

/-- Writes the characters after the first. Lines end before a space, or on either side of an escape,
but not before the last character. -/
def writeEscaped (splits afterEscape : Bool) (progress : Progress) : Text → Progress
  | [] => progress
  | c :: rest =>
    let inside := splits && !rest.isEmpty
    if standsForItself c then
      let progress :=
        if inside && (c = ' ' || afterEscape) && progress.column > width then splitLine progress (some c)
        else progress
      writeEscaped splits false (progress.write [c]) rest
    else
      let progress := progress.write (escape c)
      let progress :=
        if inside && progress.column > width + 1 then splitLine progress rest.head? else progress
      writeEscaped splits true progress rest

def writeDoubleQuoted (splits : Bool) (column : Nat) (text : Text) : Text :=
  let opened : Progress := ⟨['\x22'], column + 1⟩
  let closed := match text with
    | [] => opened
    | c :: rest =>
      writeEscaped splits (!standsForItself c)
        (opened.write (if standsForItself c then [c] else escape c)) rest
  closed.written ++ ['\x22']

def write (splits : Bool) (column : Nat) (text : Text) : Text :=
  match style text with
  | .plain => writePlain splits column text
  | .singleQuoted => writeSingleQuoted splits column text
  | .doubleQuoted => writeDoubleQuoted splits column text

/-- A key that needs no mark of its own: short, not empty and on one line. -/
def isSimpleKey (key : Text) : Bool :=
  key.length < 123 && !key.isEmpty && !key.any isBreak

/-- A key and its value. Any but a simple key is marked, and its value begins in a line of its own. -/
def writeField (field : Text × Text) : Text :=
  let (key, value) := field
  if isSimpleKey key then
    let key := write false 0 key
    key ++ ": " ++ write true (key.length + 2) value ++ "\n"
  else "? " ++ write true 2 key ++ "\n: " ++ write true 2 value ++ "\n"

def writeMapping (fields : List (Text × Text)) : Text :=
  if fields.isEmpty then "\x7b\x7d\n" else fields.flatMap writeField

end Bindery.Yaml.Writer
