import Bindery.Text.Basic

/-! Binary floating point numbers of 64 bits, held exactly: a sign, a whole mantissa and a power of
two. Reading rounds a decimal to the nearest such number, ties to the even mantissa; writing takes
the fewest digits that read back. -/

namespace Bindery

/-- A finite number stands for `mantissa * 2 ^ exponent`; a normal mantissa has 53 binary digits. -/
inductive Binary64 where
  | finite (negative : Bool) (mantissa : Nat) (exponent : Int)
  | infinite (negative : Bool)
  | undefined
  deriving DecidableEq, Repr

namespace Binary64

def twoTo (exponent : Nat) : Nat :=
  Nat.pow 2 exponent

def tenTo (exponent : Nat) : Nat :=
  Nat.pow 10 exponent

def lowestExponent : Int := -1074
def highestExponent : Int := 971

/-- Scales a quotient by a power of two and leaves it a quotient. -/
def shiftRatio (numerator denominator : Nat) (exponent : Int) : Nat × Nat :=
  if exponent < 0 then (numerator * twoTo exponent.natAbs, denominator)
  else (numerator, denominator * twoTo exponent.natAbs)

def roundRatio (numerator denominator : Nat) : Nat :=
  let whole := numerator / denominator
  let twice := 2 * (numerator % denominator)
  if twice > denominator || twice = denominator && whole % 2 = 1 then whole + 1 else whole

/-- The nearest number to a quotient of naturals. -/
def ofRatio (negative : Bool) (numerator denominator : Nat) : Binary64 :=
  if numerator = 0 then .finite negative 0 lowestExponent
  else
    let low : Int := (numerator.log2 : Int) - denominator.log2 - 53
    let (n, d) := shiftRatio numerator denominator low
    let exponent := max (if n / d ≥ twoTo 53 then low + 1 else low) lowestExponent
    let (n, d) := shiftRatio numerator denominator exponent
    let mantissa := roundRatio n d
    let (mantissa, exponent) := if mantissa = twoTo 53 then (twoTo 52, exponent + 1) else (mantissa, exponent)
    if exponent > highestExponent then .infinite negative else .finite negative mantissa exponent

/-- A decimal as a quotient: `digits * 10 ^ exponent`. -/
def decimalRatio (digits : Nat) (exponent : Int) : Nat × Nat :=
  if exponent < 0 then (digits, tenTo exponent.natAbs) else (digits * tenTo exponent.natAbs, 1)

/-- Exponents far outside the range are cut first: below, all is zero, and above, all is infinite. -/
def ofDecimal (negative : Bool) (digits : Nat) (exponent : Int) : Binary64 :=
  let size := (Nat.toDigits 10 digits).length
  if digits = 0 || exponent + size < -400 then .finite negative 0 lowestExponent
  else if exponent + size > 400 then .infinite negative
  else
    let (n, d) := decimalRatio digits exponent
    ofRatio negative n d

def magnitudeRatio (mantissa : Nat) (exponent : Int) : Nat × Nat :=
  if exponent < 0 then (mantissa, twoTo exponent.natAbs) else (mantissa * twoTo exponent.natAbs, 1)

def ofInt (n : Int) : Binary64 :=
  ofRatio (n < 0) n.natAbs 1

def isZero : Binary64 → Bool
  | .finite _ mantissa _ => mantissa = 0
  | _ => false

/-- The whole part, toward zero. -/
def truncate? : Binary64 → Option Int
  | .finite negative mantissa exponent =>
    let (n, d) := magnitudeRatio mantissa exponent
    some (if negative then -((n / d : Nat) : Int) else (n / d : Nat))
  | _ => none

/-- The integer that a number is, if it is one. -/
def toInt? : Binary64 → Option Int
  | .finite negative mantissa exponent =>
    let (n, d) := magnitudeRatio mantissa exponent
    if n % d = 0 then some (if negative then -((n / d : Nat) : Int) else (n / d : Nat)) else none
  | _ => none

private def signed (negative : Bool) (n : Nat) : Int :=
  if negative then -(n : Int) else n

private def ofSignedRatio (numerator : Int) (denominator : Nat) : Binary64 :=
  ofRatio (numerator < 0) numerator.natAbs denominator

def add : Binary64 → Binary64 → Binary64
  | .finite s m e, .finite t n f =>
    let (a, b) := magnitudeRatio m e
    let (c, d) := magnitudeRatio n f
    let sum := signed s a * d + signed t c * b
    if sum = 0 then .finite (s && t) 0 lowestExponent else ofSignedRatio sum (b * d)
  | .undefined, _ => .undefined
  | _, .undefined => .undefined
  | .infinite s, .infinite t => if s = t then .infinite s else .undefined
  | .infinite s, _ => .infinite s
  | _, .infinite t => .infinite t

def mulNat : Binary64 → Nat → Binary64
  | .finite s m e, n =>
    let (a, b) := magnitudeRatio m e
    ofRatio s (a * n) b
  | x, _ => x

def negate : Binary64 → Binary64
  | .finite s m e => .finite (!s) m e
  | .infinite s => .infinite (!s)
  | .undefined => .undefined

/-- Same value; the two zeros are the same and an undefined number differs from all. -/
def sameValue : Binary64 → Binary64 → Bool
  | .finite s m e, .finite t n f => (m = 0 && n = 0) || (s = t && m = n && e = f)
  | .infinite s, .infinite t => s = t
  | _, _ => false

/-- How far the decimal point of a quotient is from standing before its first digit. -/
def pointPosition (numerator denominator : Nat) : Int :=
  if numerator ≥ denominator then (Nat.toDigits 10 (numerator / denominator)).length
  else
    let zeros := (Nat.toDigits 10 (denominator / numerator)).length
    -- between one tenth and one when the inverse lies between one and ten
    if numerator * tenTo zeros ≥ denominator * 10 then 2 - (zeros : Int)
    else if numerator * tenTo zeros ≥ denominator then 1 - (zeros : Int)
    else -(zeros : Int)

/-- Decimals of `count` digits next to a value: the nearer one that reads back, if one does. -/
def nearestDigits? (count : Nat) (numerator denominator : Nat) (point : Int) : Option (Nat × Int) :=
  let step := point - count
  let (n, d) :=
    if step < 0 then (numerator * tenTo step.natAbs, denominator)
    else (numerator, denominator * tenTo step.natAbs)
  let low := n / d
  let target := ofRatio false numerator denominator
  let readsBack (digits : Nat) : Bool := ofDecimal false digits step = target
  let upIsNearer := 2 * (n % d) > d || (2 * (n % d) = d && low % 2 = 1)
  let first := if upIsNearer then low + 1 else low
  let second := if upIsNearer then low else low + 1
  if readsBack first then some (first, step)
  else if readsBack second then some (second, step)
  else none

def shortestDigits (numerator denominator : Nat) : Nat × Int :=
  let point := pointPosition numerator denominator
  ((List.range' 1 17).findSome? fun count => nearestDigits? count numerator denominator point).getD
    (numerator / denominator, 0)

private def trimZeros (digits : Text) : Text :=
  (digits.reverse.dropWhile (· = '0')).reverse

/-- Positional while the point stands no further than 16 digits after the first digit and no further
than four places before it, else with a power of ten. -/
def layOut (digits : Text) (point : Int) : Text :=
  if -4 < point && point ≤ 16 then
    if point ≤ 0 then "0." ++ List.replicate point.natAbs '0' ++ digits
    else if digits.length ≤ point.natAbs then
      digits ++ List.replicate (point.natAbs - digits.length) '0' ++ ".0"
    else digits.take point.natAbs ++ "." ++ digits.drop point.natAbs
  else
    let power := point - 1
    let size := Text.ofNat power.natAbs
    let fraction : Text := if digits.length > 1 then '.' :: digits.drop 1 else []
    digits.take 1 ++ fraction ++ (if power < 0 then "e-" else "e+")
      ++ List.replicate (2 - size.length) '0' ++ size

def toText : Binary64 → Text
  | .undefined => "nan"
  | .infinite negative => if negative then "-inf" else "inf"
  | .finite negative mantissa exponent =>
    let sign : Text := if negative then ['-'] else []
    if mantissa = 0 then sign ++ "0.0"
    else
      let (n, d) := magnitudeRatio mantissa exponent
      let (value, step) := shortestDigits n d
      let digits := Text.ofNat value
      sign ++ layOut (trimZeros digits) (digits.length + step)

end Binary64
end Bindery
