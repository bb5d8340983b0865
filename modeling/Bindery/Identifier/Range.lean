import Bindery.Text.Integer

/-! Lists of section numbers: `4-6,8` stands for four, five, six and eight. What is not a rising range
of two numbers is kept as it stands. -/

namespace Bindery.Identifier
open Text

def splitRange? (text : Text) : Option (Text × Text) :=
  let first := stripStart text
  let hyphen := stripStart (first.dropWhile isDecimal)
  match hyphen with
  | '-' :: rest =>
    let last := stripStart rest
    let (low, high) := (first.takeWhile isDecimal, last.takeWhile isDecimal)
    if !low.isEmpty && !high.isEmpty && (last.dropWhile isDecimal).all isBlank then some (low, high)
    else none
  | _ => none

def expandRange (text : Text) : Except NumberError (List Text) :=
  match splitRange? text with
  | none => .ok [text]
  | some (low, high) => do
    let first ← readDigits low
    let last ← readDigits high
    if first > last then return [text]
    return (List.range' first (last + 1 - first)).map ofNat

def expandRanges (text : Text) : Except NumberError (List Text) := do
  let parts := ((text.splitOn ',').map strip).filter (!·.isEmpty)
  return (← parts.mapM expandRange).flatten

end Bindery.Identifier
