/-! Text is a list of code points: every rule of this library counts, cuts and compares code
points. Blank characters are the spaces and line ends of all scripts. -/

namespace Bindery

abbrev Text := List Char

instance : Coe String Text := ⟨String.toList⟩

namespace Text

def inRanges (ranges : List (Nat × Nat)) (c : Char) : Bool :=
  ranges.any fun (first, last) => first ≤ c.toNat && c.toNat ≤ last

def blankRanges : List (Nat × Nat) :=
  [(0x9, 0xd), (0x1c, 0x20), (0x85, 0x85), (0xa0, 0xa0), (0x1680, 0x1680), (0x2000, 0x200a),
   (0x2028, 0x2029), (0x202f, 0x202f), (0x205f, 0x205f), (0x3000, 0x3000)]

def isBlank (c : Char) : Bool :=
  inRanges blankRanges c

def stripStart (text : Text) : Text :=
  text.dropWhile isBlank

def stripEnd (text : Text) : Text :=
  (text.reverse.dropWhile isBlank).reverse

def strip (text : Text) : Text :=
  stripEnd (stripStart text)

/-- A text of blanks alone says nothing. -/
def isPresent (text : Text) : Bool :=
  !text.all isBlank

/-- The maximal runs of characters outside a class. -/
def runsOutside (separates : Char → Bool) (text : Text) : List Text :=
  (text.splitOnP separates).filter (!·.isEmpty)

def words (text : Text) : List Text :=
  runsOutside isBlank text

def join (separator : Text) (parts : List Text) : Text :=
  separator.intercalate parts

def dropStart? : (start text : Text) → Option Text
  | [], text => some text
  | _ :: _, [] => none
  | s :: start, c :: text => if s = c then dropStart? start text else none

def dropEnd? (ending text : Text) : Option Text :=
  (dropStart? ending.reverse text.reverse).map List.reverse

def startsWith (start text : Text) : Bool :=
  start.isPrefixOf text

def occursIn (part : Text) : Text → Bool
  | [] => part.isEmpty
  | c :: rest => part.isPrefixOf (c :: rest) || occursIn part rest

/-- Every carriage return ends a line, alone or together with a line feed after it. -/
def unifyLineEnds : Text → Text
  | [] => []
  | '\r' :: '\n' :: rest => '\n' :: unifyLineEnds rest
  | c :: rest => (if c = '\r' then '\n' else c) :: unifyLineEnds rest

def isLineBreak (c : Char) : Bool :=
  inRanges [(0xa, 0xd), (0x1c, 0x1e), (0x85, 0x85), (0x2028, 0x2029)] c

/-- Lines without their ends; an end at the very end opens no further line. -/
def brokenLines : Text → List Text
  | [] => []
  | '\r' :: '\n' :: rest => [] :: brokenLines rest
  | c :: rest =>
    if isLineBreak c then [] :: brokenLines rest
    else match brokenLines rest with
      | [] => [[c]]
      | line :: lines => (c :: line) :: lines

def lines (text : Text) : List Text :=
  text.splitOn '\n'

def unlines (lines : List Text) : Text :=
  join ['\n'] lines

/-- Reads up to the first mark; `none` when there is no mark. -/
def cutAt (mark : Char) : Text → Option (Text × Text)
  | [] => none
  | c :: rest =>
    if c = mark then some ([], rest)
    else (cutAt mark rest).map fun (before, after) => (c :: before, after)

/-- Part of a text before a position counted from the start, or from the end when negative. -/
def upTo (position : Int) (text : Text) : Text :=
  text.take (if position < 0 then (text.length + position).toNat else position.toNat)

def ofNat (n : Nat) : Text :=
  Nat.toDigits 10 n

def ofInt : Int → Text
  | .ofNat n => ofNat n
  | .negSucc n => '-' :: ofNat (n + 1)

/-- Order by code points, a beginning before its continuations. -/
def precedes : Text → Text → Bool
  | [], _ => true
  | _ :: _, [] => false
  | a :: rest, b :: others => a < b || a == b && precedes rest others

def isAsciiDigit (c : Char) : Bool :=
  '0' ≤ c && c ≤ '9'

def isAsciiLower (c : Char) : Bool :=
  'a' ≤ c && c ≤ 'z'

def isAsciiUpper (c : Char) : Bool :=
  'A' ≤ c && c ≤ 'Z'

end Text
end Bindery
