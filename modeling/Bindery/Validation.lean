import Bindery.Data.Basic
import Bindery.Link.Reference

/-! Checking data against the shape that a record asks for. All faults are reported, each with the path
to it, in the order of the record's fields. -/

namespace Bindery

/-- What is wrong with a value. -/
inductive Complaint where
  | missing
  | notText
  | notInteger
  | unreadableInteger
  | integerTooLong
  | fractionalInteger
  | notFinite
  | tooSmall
  | tooLarge
  | patternMismatch
  | notInEnumeration
  | notSequence
  | sequenceTooLong
  | notRecord
  deriving DecidableEq, Repr

namespace Complaint

def name : Complaint → Text
  | .missing => "missing"
  | .notText => "string_type"
  | .notInteger => "int_type"
  | .unreadableInteger => "int_parsing"
  | .integerTooLong => "int_parsing_size"
  | .fractionalInteger => "int_from_float"
  | .notFinite => "finite_number"
  | .tooSmall => "greater_than_equal"
  | .tooLarge => "less_than_equal"
  | .patternMismatch => "string_pattern_mismatch"
  | .notInEnumeration => "enum"
  | .notSequence => "tuple_type"
  | .sequenceTooLong => "too_long"
  | .notRecord => "model_type"

end Complaint

structure FieldError where
  path : List Text
  complaint : Complaint
  deriving DecidableEq, Repr

/-- A record that was refused, with everything that is wrong with it. -/
structure Invalid where
  record : Text
  errors : List FieldError
  deriving DecidableEq, Repr

/-- How many faults there are, and in what. -/
def Invalid.headline (invalid : Invalid) : Text :=
  let count := invalid.errors.length
  let noun : Text := if count = 1 then " validation error for " else " validation errors for "
  Text.ofNat count ++ noun ++ invalid.record

abbrev Checked (α : Type) := Except (List FieldError) α

namespace Checked

def complain {α : Type} (complaint : Complaint) : Checked α :=
  .error [⟨[], complaint⟩]

def within {α : Type} (step : Text) (result : Checked α) : Checked α :=
  result.mapError fun errors => errors.map fun error => { error with path := step :: error.path }

/-- Both results, or the faults of both. -/
def both {α β : Type} (first : Checked α) (second : Checked β) : Checked (α × β) :=
  match first, second with
  | .ok a, .ok b => .ok (a, b)
  | .error errors, .ok _ => .error errors
  | .ok _, .error errors => .error errors
  | .error errors, .error more => .error (errors ++ more)

def all {α : Type} : List (Checked α) → Checked (List α)
  | [] => .ok []
  | first :: rest => (both first (all rest)).map fun (a, as) => a :: as

end Checked

abbrev Check (α : Type) := Data → Checked α

namespace Check
open Checked Text

def text : Check Text
  | .text value => .ok value
  | _ => complain .notText

def optional {α : Type} (check : Check α) : Check (Option α)
  | .null => .ok none
  | value => (check value).map some

/-- Blanks that may surround an integer: all but the four information separators. -/
def isPadding (c : Char) : Bool :=
  isBlank c && !(0x1c ≤ c.toNat && c.toNat ≤ 0x1f)

def trimPadding (text : Text) : Text :=
  ((text.dropWhile isPadding).reverse.dropWhile isPadding).reverse

/-- A decimal part of zeros changes nothing. -/
def dropZeroFraction (text : Text) : Text :=
  match cutAt '.' text with
  | some (whole, fraction) => if fraction.all (· = '0') then whole else text
  | none => text

/-- Digits of the first script with single underscores between them. -/
def plainDigits? : Text → Option Text
  | [] => some []
  | c :: rest =>
    if isAsciiDigit c then (plainDigits? rest).map (c :: ·)
    else if c = '_' && rest.head?.any isAsciiDigit then plainDigits? rest
    else none

def integerText (text : Text) : Checked Int :=
  let (negative, unsigned) := splitSign (dropZeroFraction (trimPadding text))
  match unsigned.head?.filter isAsciiDigit, plainDigits? unsigned with
  | some _, some digits =>
    if digits.length > digitLimit then complain .integerTooLong
    else
      let value : Int := valueOfDigits digits
      .ok (if negative then -value else value)
  | _, _ => complain .unreadableInteger

def integer : Check Int
  | .bool value => .ok (if value then 1 else 0)
  | .int value => .ok value
  | .float value =>
    match value.truncate?, value.toInt? with
    | none, _ => complain .notFinite
    | some _, some n => .ok n
    | some _, none => complain .fractionalInteger
  | .text value => integerText value
  | _ => complain .notInteger

def atLeast (low : Int) (check : Check Int) : Check Int := fun value => do
  let n ← check value
  if n < low then complain .tooSmall else return n

def atMost (high : Int) (check : Check Int) : Check Int := fun value => do
  let n ← check value
  if n > high then complain .tooLarge else return n

def oneOf (choices : List Text) : Check Text := fun value => do
  let choice ← text value
  if choices.contains choice then return choice else complain .patternMismatch

def indexed {α : Type} (check : Check α) (start : Nat) (items : List Data) : List (Checked α) :=
  items.mapIdx fun i item => within (ofNat (start + i)) (check item)

def sequence {α : Type} (check : Check α) : Check (List α)
  | .list items => Checked.all (indexed check 0 items)
  | _ => complain .notSequence

/-- A pair of texts. Missing members are reported where they would stand. -/
def tag : Check Tag
  | .list [] => .error [⟨["0"], .missing⟩, ⟨["1"], .missing⟩]
  | .list [key] =>
    (both (within "0" (text key)) (within "1" (complain .missing : Checked Text))).map fun (k, v) => ⟨k, v⟩
  | .list [key, value] => (both (within "0" (text key)) (within "1" (text value))).map fun (k, v) => ⟨k, v⟩
  | .list _ => complain .sequenceTooLong
  | _ => complain .notSequence

abbrev Fields := List (Data × Data)

def required {α : Type} (name : Text) (check : Check α) (fields : Fields) : Checked α :=
  within name (match Data.fieldOf? fields name with
    | none => complain .missing
    | some value => check value)

def withDefault {α : Type} (name : Text) (default : α) (check : Check α) (fields : Fields) : Checked α :=
  match Data.fieldOf? fields name with
  | none => .ok default
  | some value => within name (check value)

end Check

namespace Checked

def named {α : Type} (record : Text) (result : Checked α) : Except Invalid α :=
  result.mapError fun errors => ⟨record, errors⟩

end Checked
end Bindery
