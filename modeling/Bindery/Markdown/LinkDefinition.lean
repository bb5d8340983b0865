import Bindery.Markdown.Line

/-! Definitions of link targets, such as `[label]: target 'title'`. They are no paragraphs, so an
underline after one makes no heading of it. -/

namespace Bindery.Markdown
open Text

/-- A label up to its closing bracket. -/
def readLabel : Text → Option (Text × Text)
  | [] => none
  | '[' :: _ => none
  | ']' :: rest => some ([], rest)
  | '\\' :: c :: rest => (readLabel rest).map fun (label, after) => ('\\' :: c :: label, after)
  | c :: rest => (readLabel rest).map fun (label, after) => (c :: label, after)

def skipSpace (text : Text) : Text :=
  text.dropWhile fun c => isGap c || c = '\n'

/-- A target in angle brackets, which stays on one line. -/
def bracketedTarget : Text → Option (Text × Text)
  | [] => none
  | '\n' :: _ => none
  | '<' :: _ => none
  | '>' :: rest => some ([], rest)
  | '\\' :: c :: rest => (bracketedTarget rest).map fun (target, after) => ('\\' :: c :: target, after)
  | c :: rest => (bracketedTarget rest).map fun (target, after) => (c :: target, after)

/-- A target up to a space, a control character or a closing parenthesis that none opens. -/
def bareTarget (opened : Nat) (text : Text) : Option (Text × Text) :=
  let finish := if opened = 0 then some ([], text) else none
  match text with
  | [] => finish
  | '\\' :: ' ' :: _ => finish
  | '\\' :: c :: rest => (bareTarget opened rest).map fun (target, after) => ('\\' :: c :: target, after)
  | c :: rest =>
    if c.toNat ≤ 32 || c.toNat = 127 then finish
    else if c = '(' then
      if opened ≥ 32 then none
      else (bareTarget (opened + 1) rest).map fun (target, after) => (c :: target, after)
    else if c = ')' then
      if opened = 0 then finish
      else (bareTarget (opened - 1) rest).map fun (target, after) => (c :: target, after)
    else (bareTarget opened rest).map fun (target, after) => (c :: target, after)

def readTarget (text : Text) : Option (Text × Text) :=
  match text with
  | '<' :: rest => bracketedTarget rest
  | _ => (bareTarget 0 text).filter fun (target, _) => !target.isEmpty

/-- A title up to its closing mark. -/
def titleUpTo (mark : Char) : Text → Option (Text × Text)
  | [] => none
  | [c] => if c = mark then some ([], []) else none
  | c :: d :: rest =>
    if c = mark then some ([], d :: rest)
    else if c = '(' && mark = ')' then none
    else if c = '\\' then (titleUpTo mark rest).map fun (title, after) => (c :: d :: title, after)
    else (titleUpTo mark (d :: rest)).map fun (title, after) => (c :: title, after)

def readTitle (text : Text) : Option (Text × Text) :=
  match text with
  | '\x22' :: rest => titleUpTo '\x22' rest
  | '\x27' :: rest => titleUpTo '\x27' rest
  | '(' :: rest => titleUpTo ')' rest
  | _ => none

def isPunctuation (c : Char) : Bool :=
  33 ≤ c.toNat && c.toNat ≤ 126 && !isAsciiDigit c && !isAsciiLower c && !isAsciiUpper c

/-- Numbers of characters, in tens or sixteens, up to a semicolon. -/
def readCharacterNumber (text : Text) : Option (Char × Text) :=
  match text with
  | '&' :: '#' :: rest => do
    let (digits, after) ← cutAt ';' rest
    let (base, digits) := match digits with
      | 'x' :: hex | 'X' :: hex => (16, hex)
      | decimal => (10, decimal)
    let values ← digits.mapM fun c =>
      let value := if isAsciiDigit c then some (c.toNat - 48)
        else if 'a' ≤ c && c ≤ 'f' then some (c.toNat - 87)
        else if 'A' ≤ c && c ≤ 'F' then some (c.toNat - 55) else none
      value.filter (· < base)
    if values.isEmpty || values.length > 8 then none
    else some (Char.ofNat (values.foldl (fun n d => n * base + d) 0), after)
  | _ => none

def namedCharacters : List (Text × Char) :=
  [("&colon;", ':'), ("&Tab;", '\t'), ("&NewLine;", '\n')]

def readCharacterName (text : Text) : Option (Char × Text) :=
  namedCharacters.findSome? fun (name, c) => (dropStart? name text).map (c, ·)

/-- A target as it is meant, without escapes. -/
def unescape (fuel : Nat) (text : Text) : Text :=
  match fuel, text with
  | 0, _ => text
  | _, [] => []
  | fuel + 1, c :: rest =>
    match (readCharacterNumber text).or (readCharacterName text), c, rest with
    | some (d, after), _, _ => d :: unescape fuel after
    | none, '\\', d :: after =>
      if isPunctuation d then d :: unescape fuel after else c :: unescape fuel rest
    | none, _, _ => c :: unescape fuel rest

def refusedSchemes : List Text :=
  ["vbscript:", "javascript:", "file:", "data:"]

def acceptedData : List Text :=
  ["data:image/gif;", "data:image/png;", "data:image/jpeg;", "data:image/webp;"]

/-- Targets that would run code are no targets. -/
def isSafeTarget (target : Text) : Bool :=
  let shown := (strip (unescape target.length target)).map fun c =>
    if isAsciiUpper c then Char.ofNat (c.toNat + 32) else c
  acceptedData.any (·.isPrefixOf shown) || !refusedSchemes.any (·.isPrefixOf shown)

def endsLine (text : Text) : Bool :=
  match text.dropWhile isGap with
  | [] => true
  | c :: _ => c = '\n'

/-- What remains after a definition. A title that something follows on its line is none, and then the
target has to end its line. -/
def afterDefinition? (text : Text) : Option Text := do
  let inner ← dropStart? ['['] text
  let (label, rest) ← readLabel inner
  let rest ← dropStart? [':'] rest
  let (target, rest) ← readTarget (skipSpace rest)
  if !isSafeTarget target || !isPresent label then none
  else
    let start := skipSpace rest
    let titled := if start.length = rest.length then none else readTitle start
    match titled with
    | some (title, after) =>
      if endsLine after then some after
      else if !title.isEmpty && endsLine rest then some rest
      else none
    | none => if endsLine rest then some rest else none

/-- How many further lines a definition takes after its first. -/
def definitionExtent? (text : Text) : Option Nat :=
  (afterDefinition? text).map fun rest => (text.take (text.length - rest.length)).count '\n'

end Bindery.Markdown
