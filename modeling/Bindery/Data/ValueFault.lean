import Bindery.Data.Calendar

/-! Values that a well-formed text asks for and that there are none of. -/

namespace Bindery

inductive ValueFault where
  | number (error : NumberError)
  | notInBase (base : Nat) (digits : Text)
  | notDecimal (text : Text)
  | noDigits
  | unitTooLarge
  | notTruthValue (word : Text)
  | noStamp
  | calendar (error : CalendarError)
  | codePoint
  | codePointTooLong
  deriving DecidableEq, Repr

namespace ValueFault

def message : ValueFault → Text
  | .number error => error.message
  | .notInBase base digits =>
    "invalid literal for int() with base " ++ Text.ofNat base ++ ": " ++ (Text.quoted digits).take 200
  | .notDecimal text => "could not convert string to float: " ++ Text.quoted text
  | .noDigits => "string index out of range"
  | .unitTooLarge => "int too large to convert to float"
  | .notTruthValue word => Text.quoted word
  | .noStamp => "'NoneType' object has no attribute 'groupdict'"
  | .calendar error => error.message
  | .codePoint => "chr() arg not in range(0x110000)"
  | .codePointTooLong => "Python int too large to convert to C int"

/-- Whether a fault is one of content. A unit or a code point beyond all bounds is not, nor is a scalar whose
tag announces a number without digits, a truth value or a stamp that it is not. -/
def isOfContent : ValueFault → Bool
  | .noDigits | .unitTooLarge | .notTruthValue _ | .noStamp | .codePointTooLong => false
  | _ => true

end ValueFault
end Bindery
