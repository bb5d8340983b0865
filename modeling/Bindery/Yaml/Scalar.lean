import Bindery.Text.Integer

/-! What a scalar without quotes stands for. Most stand for themselves; certain spellings are truth
values, numbers, moments in time, null, or marks inside a mapping. -/

namespace Bindery.Yaml
open Text

inductive ScalarKind where
  | text
  | bool
  | float
  | int
  | merge
  | null
  | stamp
  | value
  deriving DecidableEq, Repr

/-- A day with the time after it, as written. Each part has one or two digits, the year has four, the
minute and the second two. -/
structure Stamp where
  year : Text
  month : Text
  day : Text
  clock : Option (Text × Text × Text)
  fraction : Text
  zone : Text
  deriving DecidableEq, Repr

namespace Scalar

def isDigitOrBar (c : Char) : Bool :=
  isAsciiDigit c || c = '_'

def isHexDigit (c : Char) : Bool :=
  isAsciiDigit c || ('a' ≤ c && c ≤ 'f') || ('A' ≤ c && c ≤ 'F')

def trueWords : List Text := ["yes", "Yes", "YES", "true", "True", "TRUE", "on", "On", "ON"]

def falseWords : List Text := ["no", "No", "NO", "false", "False", "FALSE", "off", "Off", "OFF"]

def nullWords : List Text := ["~", "null", "Null", "NULL", ""]

def infinityWords : List Text := [".inf", ".Inf", ".INF"]

def undefinedWords : List Text := [".nan", ".NaN", ".NAN"]

/-- Digits with underscores among them, but not in front. -/
def isDigitRun (text : Text) : Bool :=
  text.head?.any isAsciiDigit && text.all isDigitOrBar

/-- A power of ten, which needs its sign. -/
def isPower : Text → Bool
  | e :: sign :: digits =>
    (e = 'e' || e = 'E') && (sign = '+' || sign = '-') && !digits.isEmpty && digits.all isAsciiDigit
  | _ => false

/-- What may follow the decimal point. -/
def isFractionAndPower (text : Text) : Bool :=
  let rest := text.dropWhile isDigitOrBar
  rest.isEmpty || isPower rest

/-- A digit of a number to the base sixty. -/
def isSixtieth : Text → Bool
  | [c] => isAsciiDigit c
  | [c, d] => '0' ≤ c && c ≤ '5' && isAsciiDigit d
  | _ => false

/-- Parts with colons between them, at least two. -/
def sexagesimal? (text : Text) : Option (Text × List Text) :=
  match text.splitOn ':' with
  | first :: second :: rest => some (first, second :: rest)
  | _ => none

def isPointFloat (text : Text) : Bool :=
  match cutAt '.' text with
  | some (whole, rest) => isDigitRun whole && isFractionAndPower rest
  | none => false

def isSexagesimalFloat (text : Text) : Bool :=
  match cutAt '.' text with
  | some (whole, fraction) =>
    fraction.all isDigitOrBar && (sexagesimal? whole).any fun (first, rest) =>
      isDigitRun first && rest.all isSixtieth
  | none => false

/-- A float that begins with its point takes no sign. -/
def isFloat (text : Text) : Bool :=
  let (_, unsigned) := splitSign text
  isPointFloat unsigned || isSexagesimalFloat unsigned || infinityWords.contains unsigned
    || undefinedWords.contains text
    || match text with
      | '.' :: rest => rest.head?.any isAsciiDigit && isFractionAndPower rest
      | _ => false

def isInt (text : Text) : Bool :=
  match (splitSign text).2 with
  | ['0'] => true
  | '0' :: 'b' :: digits => !digits.isEmpty && digits.all fun c => c = '0' || c = '1' || c = '_'
  | '0' :: 'x' :: digits => !digits.isEmpty && digits.all fun c => isHexDigit c || c = '_'
  | '0' :: digits => !digits.isEmpty && digits.all fun c => ('0' ≤ c && c ≤ '7') || c = '_'
  | unsigned =>
    isDigitRun unsigned || (sexagesimal? unsigned).any fun (first, rest) =>
      isDigitRun first && rest.all isSixtieth

/-- Takes one or two digits. -/
def takePair? : Text → Option (Text × Text)
  | c :: d :: rest =>
    if isAsciiDigit c then
      some (if isAsciiDigit d then ([c, d], rest) else ([c], d :: rest))
    else none
  | [c] => if isAsciiDigit c then some ([c], []) else none
  | [] => none

/-- Takes an exact count of digits. -/
def takeDigits? (count : Nat) (text : Text) : Option (Text × Text) :=
  let digits := text.take count
  if digits.length = count && digits.all isAsciiDigit then some (digits, text.drop count) else none

def isZone : Text → Bool
  | [] => true
  | ['Z'] => true
  | sign :: rest =>
    (sign = '+' || sign = '-') && (takePair? rest).any fun (_, after) =>
      match after with
      | [] => true
      | ':' :: minutes => minutes.length = 2 && minutes.all isAsciiDigit
      | _ => false

def isGap (c : Char) : Bool :=
  c = ' ' || c = '\t'

/-- The rest of a stamp after its day. -/
def clock? (text : Text) : Option ((Text × Text × Text) × Text × Text) := do
  let text ← match text with
    | 'T' :: rest | 't' :: rest => some rest
    | c :: rest => if isGap c then some (rest.dropWhile isGap) else none
    | [] => none
  let (hour, text) ← takePair? text
  let (minute, text) ← takeDigits? 2 (← dropStart? [':'] text)
  let (second, text) ← takeDigits? 2 (← dropStart? [':'] text)
  let (fraction, text) := match text with
    | '.' :: rest => (rest.takeWhile isAsciiDigit, rest.dropWhile isAsciiDigit)
    | _ => ([], text)
  let zone := text.dropWhile isGap
  if isZone zone && (!zone.isEmpty || text.isEmpty) then some ((hour, minute, second), fraction, zone)
  else none

def stamp? (text : Text) : Option Stamp := do
  let (year, text) ← takeDigits? 4 text
  let (month, text) ← takePair? (← dropStart? ['-'] text)
  let (day, text) ← takePair? (← dropStart? ['-'] text)
  if text.isEmpty then some ⟨year, month, day, none, [], []⟩
  else
    let (clock, fraction, zone) ← clock? text
    some ⟨year, month, day, some clock, fraction, zone⟩

/-- Whether a scalar is a stamp by its spelling. A day without a time then needs two digits, and so does its
month. -/
def isStamp (text : Text) : Bool :=
  (stamp? text).any fun stamp => stamp.clock.isSome || stamp.month.length = 2 && stamp.day.length = 2

/-- What a scalar without quotes stands for. -/
def kind (text : Text) : ScalarKind :=
  if trueWords.contains text || falseWords.contains text then .bool
  else if isFloat text then .float
  else if isInt text then .int
  else if text = ['<', '<'] then .merge
  else if nullWords.contains text then .null
  else if isStamp text then .stamp
  else if text = ['='] then .value
  else .text

end Scalar
end Bindery.Yaml
