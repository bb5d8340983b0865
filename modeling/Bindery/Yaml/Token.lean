import Bindery.Yaml.Lexeme

/-! The tokens of a YAML text. Indentation is turned into brackets: a block opens where a sequence entry or
a key stands further right than the block around it, and closes where a token stands further left. A
key is often known as such only at the colon after it, so its place among the tokens is kept until then. -/

namespace Bindery.Yaml
open Text Lexeme

inductive Token where
  | directive (directive : Directive)
  | documentStart
  | documentEnd
  | blockSequenceStart
  | blockMappingStart
  | blockEnd
  | flowSequenceStart
  | flowSequenceEnd
  | flowMappingStart
  | flowMappingEnd
  | flowEntry
  | blockEntry
  | key
  | value
  | alias (name : Text)
  | anchor (name : Text)
  | tag (name : TagName)
  | scalar (isPlain : Bool) (content : Text)
  deriving DecidableEq, Repr

/-- A token that a colon may yet make a key. `place` counts the tokens before it. A required key
stands where the block around it allows nothing else. -/
structure PossibleKey where
  place : Nat
  isRequired : Bool
  index : Nat
  line : Nat
  column : Nat
  deriving DecidableEq, Repr

/-- How far a text has been cut into tokens. The tokens are in reverse; `keys` has one place for each
open bracket and one for the block around all of them. -/
structure Scan where
  rest : Text
  index : Nat
  line : Nat
  column : Nat
  indent : Int
  outerIndents : List Int
  keys : List (Option PossibleKey)
  allowsKey : Bool
  tokens : List Token

def isByteOrderMark (c : Char) : Bool :=
  c.toNat = 0xfeff

namespace Scan

def start (text : Text) : Scan :=
  { rest := text, index := 0, line := 0, column := 0, indent := -1, outerIndents := [], keys := [none]
    allowsKey := true, tokens := [] }

def inFlow (scan : Scan) : Bool :=
  scan.keys.length > 1

def emit (scan : Scan) (token : Token) : Scan :=
  { scan with tokens := token :: scan.tokens }

/-- Puts a token where `place` tokens stand before it. -/
def emitAt (scan : Scan) (place : Nat) (token : Token) : Scan :=
  let later := scan.tokens.length - place
  { scan with tokens := scan.tokens.take later ++ token :: scan.tokens.drop later }

/-- A byte order mark takes no column. -/
def columnAfter (column : Nat) : Text → Nat
  | [] => column
  | c :: rest =>
    columnAfter (if isBreak c then 0 else if isByteOrderMark c then column else column + 1) rest

/-- Moves on to the rest of the text. -/
def moveTo (scan : Scan) (rest : Text) : Scan :=
  let passed := scan.rest.take (scan.rest.length - rest.length)
  { scan with
    rest := rest
    index := scan.index + passed.length
    line := scan.line + passed.countP isBreak
    column := columnAfter scan.column passed }

/-- Passes over spaces, comments and line ends; answers whether a line ended. -/
def passSpace (inComment : Bool) : Text → Bool × Text
  | [] => (false, [])
  | c :: rest =>
    if isBreak c then (true, (passSpace false rest).2)
    else if inComment then passSpace true rest
    else if c = ' ' then passSpace false rest
    else if c = '#' then passSpace true rest
    else (false, c :: rest)

def toNextToken (scan : Scan) : Scan :=
  let (crosses, rest) := passSpace false scan.rest
  let moved := scan.moveTo rest
  if crosses && !scan.inFlow then { moved with allowsKey := true } else moved

/-- Whether a possible key can be one no longer: a key and its colon stand on one line, not too far
apart. -/
def isStale (scan : Scan) (key : PossibleKey) : Bool :=
  key.line ≠ scan.line || scan.index - key.index > 1024

def dropStaleKeys (scan : Scan) : Reading Scan :=
  let isStaleKey (key : Option PossibleKey) : Bool := key.any scan.isStale
  if scan.keys.any fun key => isStaleKey key && key.any (·.isRequired) then .error .malformed
  else .ok { scan with keys := scan.keys.map fun key => if isStaleKey key then none else key }

/-- Forgets the possible key of the innermost bracket. -/
def dropKey (scan : Scan) : Reading Scan :=
  match scan.keys with
  | some key :: keys => if key.isRequired then .error .malformed else .ok { scan with keys := none :: keys }
  | _ => .ok scan

/-- Notes that a key may begin here. -/
def noteKey (scan : Scan) : Reading Scan :=
  if scan.allowsKey then do
    let scan ← scan.dropKey
    let isRequired := !scan.inFlow && scan.indent = scan.column
    let key : PossibleKey := ⟨scan.tokens.length, isRequired, scan.index, scan.line, scan.column⟩
    return { scan with keys := some key :: scan.keys.tail }
  else .ok scan

def closeBlocks (column : Int) : List Int → Int → List Token → Int × List Int × List Token
  | [], indent, tokens => (indent, [], tokens)
  | outer :: outers, indent, tokens =>
    if indent > column then closeBlocks column outers outer (.blockEnd :: tokens)
    else (indent, outer :: outers, tokens)

/-- Closes the blocks that are indented further than a column. -/
def unwind (scan : Scan) (column : Int) : Scan :=
  if scan.inFlow then scan
  else
    let (indent, outers, tokens) := closeBlocks column scan.outerIndents scan.indent scan.tokens
    { scan with indent := indent, outerIndents := outers, tokens := tokens }

/-- Whether a block opens at a column. -/
def opensBlock (scan : Scan) (column : Nat) : Bool :=
  !scan.inFlow && scan.indent < column

def openBlock (scan : Scan) (column : Nat) : Scan :=
  { scan with indent := column, outerIndents := scan.indent :: scan.outerIndents }

/-- Moves past the characters of a token that is a fixed mark. -/
def mark (scan : Scan) (length : Nat) (token : Token) : Scan :=
  (scan.emit token).moveTo (scan.rest.drop length)

def endBlocks (scan : Scan) : Reading Scan := do
  let scan ← (scan.unwind (-1)).dropKey
  return { scan with allowsKey := false }

def openFlow (scan : Scan) (token : Token) : Reading Scan := do
  let scan ← scan.noteKey
  return { scan.mark 1 token with keys := none :: scan.keys, allowsKey := true }

def closeFlow (scan : Scan) (token : Token) : Reading Scan :=
  match scan.keys with
  | _ :: outer :: keys => .ok { scan.mark 1 token with keys := outer :: keys, allowsKey := false }
  | _ => .error .malformed

def blockEntry (scan : Scan) : Reading Scan := do
  if !scan.inFlow && !scan.allowsKey then throw .malformed
  let scan :=
    if scan.opensBlock scan.column then (scan.openBlock scan.column).emit .blockSequenceStart else scan
  let scan ← { scan with allowsKey := true }.dropKey
  return scan.mark 1 .blockEntry

def markedKey (scan : Scan) : Reading Scan := do
  if !scan.inFlow && !scan.allowsKey then throw .malformed
  let scan :=
    if scan.opensBlock scan.column then (scan.openBlock scan.column).emit .blockMappingStart else scan
  let scan ← { scan with allowsKey := !scan.inFlow }.dropKey
  return scan.mark 1 .key

/-- A colon makes the possible key before it a key, and may open a block there. -/
def value (scan : Scan) : Reading Scan := do
  match scan.keys with
  | some key :: keys =>
    let opens := scan.opensBlock key.column
    let scan := { scan with keys := none :: keys, allowsKey := false }.emitAt key.place .key
    let scan := if opens then (scan.openBlock key.column).emitAt key.place .blockMappingStart else scan
    return scan.mark 1 .value
  | _ =>
    if !scan.inFlow && !scan.allowsKey then throw .malformed
    let scan :=
      if scan.opensBlock scan.column then (scan.openBlock scan.column).emit .blockMappingStart else scan
    let scan ← { scan with allowsKey := !scan.inFlow }.dropKey
    return scan.mark 1 .value

/-- A token that a key may begin with, read from the front of the text. -/
def readNode (scan : Scan) (read : Text → Reading (Token × Text)) : Reading Scan := do
  let scan ← scan.noteKey
  let (token, rest) ← read scan.rest
  return { (scan.emit token).moveTo rest with allowsKey := false }

def readName (make : Text → Token) (text : Text) : Reading (Token × Text) := do
  let (name, rest) ← readAnchor (text.drop 1)
  return (make name, rest)

def readTagToken (text : Text) : Reading (Token × Text) := do
  let (name, rest) ← readTag text
  return (.tag name, rest)

def readQuotedToken (quote : Char) (text : Text) : Reading (Token × Text) := do
  let (content, rest) ← readQuoted (text.length + 1) quote (text.drop 1)
  return (.scalar false content, rest)

def plain (scan : Scan) : Reading Scan := do
  let scan ← scan.noteKey
  let (content, crosses, rest) := readPlain (scan.rest.length + 1) scan.inFlow (scan.indent + 1) scan.rest
  return { (scan.emit (.scalar true content)).moveTo rest with allowsKey := crosses }

def block (scan : Scan) (folded : Bool) : Reading Scan := do
  let scan ← { scan with allowsKey := true }.dropKey
  let (content, rest) ← readBlock folded (max (scan.indent + 1) 1).toNat (scan.rest.drop 1)
  return (scan.emit (.scalar false content)).moveTo rest

def directive (scan : Scan) : Reading Scan := do
  let scan ← scan.endBlocks
  let (directive, rest) ← readDirective (scan.rest.drop 1)
  return (scan.emit (.directive directive)).moveTo rest

def documentMark (scan : Scan) (token : Token) : Reading Scan := do
  let scan ← scan.endBlocks
  return scan.mark 3 token

def startsPlain (inFlow : Bool) (c : Char) (rest : Text) : Bool :=
  let indicators : List Char :=
    ['-', '?', ':', ',', '[', ']', '\x7b', '\x7d', '#', '&', '*', '!', '|', '>', '\x27', '\x22', '%', '@',
     '\x60']
  (!isSpacing c && !indicators.contains c)
    || (!spacingFollows rest && (c = '-' || (!inFlow && (c = '?' || c = ':'))))

/-- Takes the next token from a text that begins with a character. -/
def step (scan : Scan) (c : Char) (rest : Text) : Reading Scan :=
  let atLineStart := scan.column = 0
  let marks (start : Text) : Bool := atLineStart && startsWith start scan.rest && atDocumentMark scan.rest
  if c = '%' && atLineStart then scan.directive
  else if marks "---" then scan.documentMark .documentStart
  else if marks "..." then scan.documentMark .documentEnd
  else if c = '[' then scan.openFlow .flowSequenceStart
  else if c = '\x7b' then scan.openFlow .flowMappingStart
  else if c = ']' then scan.closeFlow .flowSequenceEnd
  else if c = '\x7d' then scan.closeFlow .flowMappingEnd
  else if c = ',' then do
    let scan ← { scan with allowsKey := true }.dropKey
    return scan.mark 1 .flowEntry
  else if c = '-' && spacingFollows rest then scan.blockEntry
  else if c = '?' && (scan.inFlow || spacingFollows rest) then scan.markedKey
  else if c = ':' && (scan.inFlow || spacingFollows rest) then scan.value
  else if c = '*' then scan.readNode (readName .alias)
  else if c = '&' then scan.readNode (readName .anchor)
  else if c = '!' then scan.readNode readTagToken
  else if c = '|' && !scan.inFlow then scan.block false
  else if c = '>' && !scan.inFlow then scan.block true
  else if c = '\x27' || c = '\x22' then scan.readNode (readQuotedToken c)
  else if startsPlain scan.inFlow c rest then scan.plain
  else .error .malformed

/-- Cuts the rest of a text into tokens. Every step takes at least one character. -/
def run (fuel : Nat) (scan : Scan) : Reading (List Token) :=
  match fuel with
  | 0 => .error .malformed
  | fuel + 1 => do
    let scan ← scan.toNextToken.dropStaleKeys
    match scan.rest with
    | [] => do
      let scan ← scan.endBlocks
      return scan.tokens.reverse
    | c :: rest => run fuel (← (scan.unwind scan.column).step c rest)

end Scan

/-- Characters that may stand in a text at all. -/
def isAllowed (c : Char) : Bool :=
  c = '\t' || c = '\n' || (' ' ≤ c && c ≤ '~') || c.toNat = 0x85 || (0xa0 ≤ c.toNat && c.toNat ≤ 0xfffd)
    || 0x10000 ≤ c.toNat

/-- A byte order mark in front of a text is no part of it. -/
def dropByteOrderMark : Text → Text
  | [] => []
  | c :: rest => if isByteOrderMark c then rest else c :: rest

def tokens (text : Text) : Reading (List Token) :=
  let text := dropByteOrderMark (unifyLineEnds text)
  if text.all isAllowed then (Scan.start text).run (text.length + 1) else .error .malformed

end Bindery.Yaml
