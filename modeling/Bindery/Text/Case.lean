import Bindery.Text.CaseTable

/-! Upper and lower case. One letter may become several, and a capital sigma that closes a word
becomes the final small sigma. -/

namespace Bindery.Text

def lowerChar (c : Char) : Text :=
  if c.toNat < 128 then [if isAsciiUpper c then Char.ofNat (c.toNat + 32) else c]
  else if c.toNat = 0x130 then ['i', Char.ofNat 0x307]
  else [(lowerRuns.findSome? (·.partner? c.toNat)).getD c]

def upperChar (c : Char) : Text :=
  if c.toNat < 128 then [if isAsciiLower c then Char.ofNat (c.toNat - 32) else c]
  else match upperExpansions.lookup c.toNat with
    | some codes => codes.map Char.ofNat
    | none => [(upperRuns.findSome? (·.partner? c.toNat)).getD c]

def upperCase (text : Text) : Text :=
  text.flatMap upperChar

/-- Whether the nearest character that context rules do not look through has case. -/
def meetsCased (characters : Text) : Bool :=
  match characters.dropWhile (inRanges caseIgnorableRanges) with
  | [] => false
  | c :: _ => inRanges casedRanges c

/-- Lower case of what follows, where `before` is what came before it, last character first. -/
def lowerAfter (before : Text) : Text → Text
  | [] => []
  | c :: rest =>
    (if c.toNat = 0x3a3 && meetsCased before && !meetsCased rest then [Char.ofNat 0x3c2] else lowerChar c)
      ++ lowerAfter (c :: before) rest

def lowerCase (text : Text) : Text :=
  lowerAfter [] text

end Bindery.Text
