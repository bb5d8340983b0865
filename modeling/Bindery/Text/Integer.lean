import Bindery.Text.Digit
import Bindery.Text.Quoted

/-! Integers in texts. Digits of any script may be mixed, a single underscore may stand between
two digits, and a number of more than 4300 digits is neither read nor written. -/

namespace Bindery

inductive NumberError where
  | tooManyDigits (count : Nat)
  | tooLargeToWrite
  | notANumber (text : Text)
  deriving DecidableEq, Repr

namespace NumberError

def message : NumberError → Text
  | .tooManyDigits count =>
    "Exceeds the limit (4300 digits) for integer string conversion: value has " ++ Text.ofNat count
      ++ " digits; use sys.set_int_max_str_digits() to increase the limit"
  | .tooLargeToWrite =>
    "Exceeds the limit (4300 digits) for integer string conversion; "
      ++ "use sys.set_int_max_str_digits() to increase the limit"
  | .notANumber text => "invalid literal for int() with base 10: " ++ (Text.quoted text).take 200

end NumberError

namespace Text

def digitLimit : Nat := 4300

def valueOfDigits (digits : Text) : Nat :=
  digits.foldl (fun value c => 10 * value + (digitValue? c).getD 0) 0

/-- Reads a text already known to hold decimal digits only. -/
def readDigits (digits : Text) : Except NumberError Nat :=
  if digits.length > digitLimit then .error (.tooManyDigits digits.length)
  else .ok (valueOfDigits digits)

/-- Splits off digits with single underscores between them, and drops the underscores. -/
def digitGroups : Text → Option (Text × Text)
  | [] => some ([], [])
  | c :: rest =>
    if isDecimal c then (digitGroups rest).map fun (digits, after) => (c :: digits, after)
    else if c = '_' then
      match rest with
      | d :: _ => if isDecimal d then digitGroups rest else none
      | [] => none
    else some ([], c :: rest)

/-- The blanks that may surround a number: the six of the first 128 code points that are spaces or
line ends, and all blanks beyond. -/
def isNumberBlank (c : Char) : Bool :=
  c = ' ' || ('\t' ≤ c && c ≤ '\r') || (c.toNat > 127 && isBlank c)

def splitSign : Text → Bool × Text
  | '-' :: rest => (true, rest)
  | '+' :: rest => (false, rest)
  | text => (false, text)

def readInt (text : Text) : Except NumberError Int :=
  let (negative, unsigned) := splitSign (text.dropWhile isNumberBlank)
  match unsigned.head?.filter isDecimal, digitGroups unsigned with
  | some _, some (digits, after) =>
    if digits.length > digitLimit then .error (.tooManyDigits digits.length)
    else if after.all isNumberBlank then
      let value : Int := valueOfDigits digits
      .ok (if negative then -value else value)
    else .error (.notANumber text)
  | _, _ => .error (.notANumber text)

def writeInt (n : Int) : Except NumberError Text :=
  if (Nat.toDigits 10 n.natAbs).length > digitLimit then .error .tooLargeToWrite else .ok (ofInt n)

end Text
end Bindery
