import Bindery.Data.Basic

/-! Reading JSON. The names of the floats without a value are accepted, and a key that occurs twice
keeps its last value. Each value read costs at least one character, which bounds the nesting. -/

namespace Bindery.Json
open Text

inductive Fault where
  | malformed
  | number (error : NumberError)
  deriving DecidableEq, Repr

abbrev Reading (α : Type) := Except Fault α

def isSpace (c : Char) : Bool :=
  c = ' ' || c = '\t' || c = '\n' || c = '\r'

def skipSpace (text : Text) : Text :=
  text.dropWhile isSpace

def hexValue? (c : Char) : Option Nat :=
  if '0' ≤ c && c ≤ '9' then some (c.toNat - 48)
  else if 'a' ≤ c && c ≤ 'f' then some (c.toNat - 87)
  else if 'A' ≤ c && c ≤ 'F' then some (c.toNat - 55)
  else none

def readUnit : Text → Option (Nat × Text)
  | a :: b :: c :: d :: rest => do
    return ((((← hexValue? a) * 16 + (← hexValue? b)) * 16 + (← hexValue? c)) * 16 + (← hexValue? d), rest)
  | _ => none

def escapedChar? : Char → Option Char
  | '\x22' => some '\x22'
  | '\\' => some '\\'
  | '/' => some '/'
  | 'b' => some '\x08'
  | 'f' => some '\x0c'
  | 'n' => some '\n'
  | 'r' => some '\r'
  | 't' => some '\t'
  | _ => none

/-- The character of a code unit; a surrogate that stands alone has none of its own. -/
def unitChar (unit : Nat) : Char :=
  if 0xd800 ≤ unit && unit < 0xe000 then Char.ofNat 0xfffd else Char.ofNat unit

def joinSurrogates? (high low : Nat) : Option Char :=
  if 0xd800 ≤ high && high < 0xdc00 && 0xdc00 ≤ low && low < 0xe000 then
    some (Char.ofNat (0x10000 + (high - 0xd800) * 0x400 + (low - 0xdc00)))
  else none

/-- One escape after its backslash. -/
def readEscape (text : Text) : Reading (Char × Text) :=
  match text with
  | 'u' :: rest =>
    match readUnit rest with
    | none => .error .malformed
    | some (unit, rest) =>
      let pair? : Option (Char × Text) :=
        match rest with
        | '\\' :: 'u' :: more => do
          let (low, more) ← readUnit more
          return (← joinSurrogates? unit low, more)
        | _ => none
      .ok (pair?.getD (unitChar unit, rest))
  | c :: rest =>
    match escapedChar? c with
    | some d => .ok (d, rest)
    | none => .error .malformed
  | [] => .error .malformed

/-- Reads up to the closing quote. -/
def readText (fuel : Nat) (text : Text) : Reading (Text × Text) :=
  match fuel, text with
  | 0, _ | _, [] => .error .malformed
  | fuel + 1, c :: rest =>
    if c = '\x22' then .ok ([], rest)
    else if c = '\\' then do
      let (d, rest) ← readEscape rest
      let (ending, rest) ← readText fuel rest
      return (d :: ending, rest)
    else if c.toNat < 32 then .error .malformed
    else do
      let (ending, rest) ← readText fuel rest
      return (c :: ending, rest)

def spanDigits (text : Text) : Text × Text :=
  text.span isAsciiDigit

/-- The power of ten after its letter; without digits the letter is no part of the number. -/
def readPower? (text : Text) : Option (Int × Text) :=
  match text with
  | c :: rest =>
    if c = 'e' || c = 'E' then
      let (negative, rest) := splitSign rest
      let (digits, rest) := spanDigits rest
      if digits.isEmpty then none
      else
        let size : Int := valueOfDigits digits
        some (if negative then -size else size, rest)
    else none
  | [] => none

def readFraction? (text : Text) : Option (Text × Text) :=
  match text with
  | '.' :: rest =>
    let (digits, rest) := spanDigits rest
    if digits.isEmpty then none else some (digits, rest)
  | _ => none

def readNumber (text : Text) : Reading (Data × Text) := do
  let (negative, rest) := match text with | '-' :: rest => (true, rest) | _ => (false, text)
  let (whole, rest) ← match rest with
    | '0' :: rest => .ok (['0'], rest)
    | _ =>
      let (digits, rest) := spanDigits rest
      if digits.isEmpty then .error .malformed else .ok (digits, rest)
  let (fraction, afterFraction) := (readFraction? rest).getD ([], rest)
  let (power, afterPower) := (readPower? afterFraction).getD (0, afterFraction)
  if fraction.isEmpty && afterPower.length = rest.length then
    match readDigits whole with
    | .ok value => return (.int (if negative then -(value : Int) else value), rest)
    | .error fault => .error (.number fault)
  else
    let digits := valueOfDigits (whole ++ fraction)
    return (.float (.ofDecimal negative digits (power - fraction.length)), afterPower)

def literals : List (Text × Data) :=
  [("null", .null), ("true", .bool true), ("false", .bool false), ("NaN", .float .undefined),
   ("Infinity", .float (.infinite false)), ("-Infinity", .float (.infinite true))]

def readScalar (text : Text) : Reading (Data × Text) :=
  match literals.findSome? fun (name, value) => (dropStart? name text).map (value, ·) with
  | some found => .ok found
  | none =>
    match text with
    | '\x22' :: rest => do
      let (value, rest) ← readText (rest.length + 1) rest
      return (.text value, rest)
    | _ => readNumber text

def readKey (text : Text) : Reading (Text × Text) := do
  match text with
  | '\x22' :: rest =>
    let (key, rest) ← readText (rest.length + 1) rest
    match skipSpace rest with
    | ':' :: rest => return (key, skipSpace rest)
    | _ => .error .malformed
  | _ => .error .malformed

mutual

def readValue (fuel : Nat) (text : Text) : Reading (Data × Text) :=
  match fuel with
  | 0 => .error .malformed
  | fuel + 1 =>
    match text with
    | '[' :: rest =>
      match skipSpace rest with
      | ']' :: rest => .ok (.list [], rest)
      | rest => do
        let (items, rest) ← readItems fuel rest
        return (.list items, rest)
    | '\x7b' :: rest =>
      match skipSpace rest with
      | '\x7d' :: rest => .ok (.map [], rest)
      | rest => do
        let (fields, rest) ← readFields fuel rest
        return (Data.ofFields fields, rest)
    | _ => readScalar text

def readItems (fuel : Nat) (text : Text) : Reading (List Data × Text) :=
  match fuel with
  | 0 => .error .malformed
  | fuel + 1 => do
    let (item, rest) ← readValue fuel text
    match skipSpace rest with
    | ']' :: rest => return ([item], rest)
    | ',' :: rest =>
      let (items, rest) ← readItems fuel (skipSpace rest)
      return (item :: items, rest)
    | _ => .error .malformed

def readFields (fuel : Nat) (text : Text) : Reading (List (Text × Data) × Text) :=
  match fuel with
  | 0 => .error .malformed
  | fuel + 1 => do
    let (key, rest) ← readKey text
    let (value, rest) ← readValue fuel rest
    match skipSpace rest with
    | '\x7d' :: rest => return ([(key, value)], rest)
    | ',' :: rest =>
      let (fields, rest) ← readFields fuel (skipSpace rest)
      return ((key, value) :: fields, rest)
    | _ => .error .malformed

end

/-- A whole document: one value with nothing but space around it. -/
def read (text : Text) : Reading Data := do
  let (value, rest) ← readValue (2 * text.length + 2) (skipSpace text)
  if (skipSpace rest).isEmpty then return value else .error .malformed

end Bindery.Json
