import Bindery.Data.Basic
import Bindery.Text.Case
import Bindery.Yaml.Lexeme

/-! Values of scalars: integers in four bases and to the base sixty, floats, days and moments. -/

namespace Bindery.Yaml.Scalar
open Text

def readNumber (digits : Text) : Reading Int :=
  (readInt digits).mapError fun error => .value (.number error)

/-- A number without the blanks around it, in digits of the first script. -/
def plainNumber (text : Text) : Text :=
  (((text.dropWhile isNumberBlank).reverse.dropWhile isNumberBlank).reverse).map fun c =>
    ((digitValue? c).map fun digit => Char.ofNat (48 + digit)).getD c

/-- A zero and a letter may name the base in front of a number. -/
def dropBaseMark (base : Nat) (digits : Text) : Text :=
  let letters : List Char := if base = 2 then ['b', 'B'] else if base = 8 then ['o', 'O'] else ['x', 'X']
  match digits with
  | '0' :: c :: rest => if letters.contains c then rest else digits
  | _ => digits

/-- Reads a number to a base that is a power of two. -/
def readInBase (base : Nat) (text : Text) : Reading Int :=
  let (negative, unsigned) := splitSign (plainNumber text)
  let digits := dropBaseMark base unsigned
  let isDigit (c : Char) : Bool := isHexDigit c && Lexeme.hexDigit c < base
  if digits.isEmpty || !digits.all isDigit then .error (.value (.notInBase base text))
  else
    let value : Int := (digits.foldl (fun value c => base * value + Lexeme.hexDigit c) 0 : Nat)
    .ok (if negative then -value else value)

/-- Reads parts with colons between them, the last of which counts units. -/
def readSixtieths (parts : List Text) : Reading Int := do
  return (← parts.mapM readNumber).foldl (fun value digit => 60 * value + digit) 0

def readMagnitude (digits : Text) : Reading Int :=
  match digits with
  | [] => .error (.value .noDigits)
  | ['0'] => .ok 0
  | '0' :: 'b' :: digits => readInBase 2 digits
  | '0' :: 'x' :: digits => readInBase 16 digits
  | '0' :: _ => readInBase 8 digits
  | _ => if digits.contains ':' then readSixtieths (digits.splitOn ':') else readNumber digits

def readInteger (content : Text) : Reading Int := do
  let (negative, digits) := splitSign (content.filter (· ≠ '_'))
  let value ← readMagnitude digits
  return if negative then -value else value

/-- A decimal with an optional fraction and an optional power of ten. -/
def decimal? (text : Text) : Option Binary64 := do
  let (whole, rest) := text.span isAsciiDigit
  let (fraction, rest) := match rest with
    | '.' :: rest => rest.span isAsciiDigit
    | _ => ([], rest)
  let power ← match rest with
    | [] => some 0
    | 'e' :: rest =>
      let (negative, digits) := splitSign rest
      if digits.isEmpty || !digits.all isAsciiDigit then none
      else
        let size : Int := valueOfDigits digits
        some (if negative then -size else size)
    | _ => none
  if whole.isEmpty && fraction.isEmpty then none
  else some (.ofDecimal false (valueOfDigits (whole ++ fraction)) (power - fraction.length))

/-- Reads a decimal, or the name of a float that is none. -/
def readDecimal (text : Text) : Reading Binary64 :=
  let (negative, unsigned) := splitSign (plainNumber text)
  let value :=
    if unsigned = "inf".toList || unsigned = "infinity".toList then some (.infinite false)
    else if unsigned = "nan".toList then some .undefined
    else decimal? unsigned
  match value with
  | some value => .ok (if negative then value.negate else value)
  | none => .error (.value (.notDecimal text))

/-- Adds up parts from the last, which counts units. No part counts units too large for a float. -/
def sumSixtieths (unit : Nat) (sum : Binary64) : List Binary64 → Reading Binary64
  | [] => .ok sum
  | part :: parts =>
    match (Binary64.ofInt unit).toInt? with
    | some nearest => sumSixtieths (60 * unit) (sum.add (part.mulNat nearest.toNat)) parts
    | none => .error (.value .unitTooLarge)

def readFloatMagnitude (digits : Text) : Reading Binary64 := do
  if digits = ".inf".toList then return .infinite false
  else if digits = ".nan".toList then return .undefined
  else if digits.contains ':' then
    sumSixtieths 1 (.ofInt 0) (← (digits.splitOn ':').mapM readDecimal).reverse
  else readDecimal digits

def readFloat (content : Text) : Reading Binary64 := do
  let spelled := lowerCase (content.filter (· ≠ '_'))
  if spelled.isEmpty then throw (.value .noDigits)
  let (negative, digits) := splitSign spelled
  let value ← readFloatMagnitude digits
  return if negative then value.negate else value

/-- The distance of a zone from universal time in seconds. -/
def zoneSeconds (zone : Text) : Option Int :=
  match zone with
  | [] => none
  | ['Z'] => some 0
  | sign :: rest =>
    let (hours, rest) := rest.span isAsciiDigit
    let seconds : Int := 3600 * valueOfDigits hours + 60 * valueOfDigits (rest.drop 1)
    some (if sign = '-' then -seconds else seconds)

/-- Six places of a fraction of a second. -/
def microseconds (fraction : Text) : Nat :=
  let digits := fraction.take 6
  valueOfDigits (digits ++ List.replicate (6 - digits.length) '0')

/-- Reads a stamp; a line may end after it. -/
def readStamp (content : Text) : Reading Data :=
  match stamp? ((dropEnd? ['\n'] content).getD content) with
  | none => .error (.value .noStamp)
  | some stamp =>
    let date : Date := ⟨valueOfDigits stamp.year, valueOfDigits stamp.month, valueOfDigits stamp.day⟩
    match stamp.clock with
    | none => (date.check.map Data.date).mapError fun error => .value (.calendar error)
    | some (hour, minute, second) =>
      let moment : Moment := ⟨date, valueOfDigits hour, valueOfDigits minute, valueOfDigits second,
        microseconds stamp.fraction, zoneSeconds stamp.zone⟩
      (moment.check.map Data.moment).mapError fun error => .value (.calendar error)

/-- Reads one of the words for truth values, however it is capitalised. -/
def readTruthValue (content : Text) : Reading Bool :=
  let word := lowerCase content
  if trueWords.contains word then .ok true
  else if falseWords.contains word then .ok false
  else .error (.value (.notTruthValue word))

/-- The value of a scalar of a kind. The two marks of mappings have no value of their own. -/
def read (kind : ScalarKind) (content : Text) : Reading Data :=
  match kind with
  | .text => .ok (.text content)
  | .bool => do return .bool (← readTruthValue content)
  | .null => .ok .null
  | .int => do return .int (← readInteger content)
  | .float => do return .float (← readFloat content)
  | .stamp => readStamp content
  | .merge | .value => .error .malformed

/-- Kinds by the names of their tags. -/
def kindNames : List (Text × ScalarKind) :=
  [("str", .text), ("bool", .bool), ("float", .float), ("int", .int), ("null", .null),
   ("timestamp", .stamp), ("merge", .merge), ("value", .value)]

end Bindery.Yaml.Scalar
