import Bindery.Data.Basic

/-! Writing data as JSON. Only visible characters of the first 128 stand for themselves; a code point
beyond 16 bits is written as a pair of surrogates. -/

namespace Bindery.Json
open Text

def escapeUnit (unit : Nat) : Text :=
  '\\' :: 'u' :: hexDigits 4 unit

def escapeChar (c : Char) : Text :=
  if c = '\x22' || c = '\\' then ['\\', c]
  else if c = '\n' then ['\\', 'n']
  else if c = '\r' then ['\\', 'r']
  else if c = '\t' then ['\\', 't']
  else if c = '\x08' then ['\\', 'b']
  else if c = '\x0c' then ['\\', 'f']
  else if ' ' ≤ c && c ≤ '~' then [c]
  else if c.toNat < 0x10000 then escapeUnit c.toNat
  else
    let offset := c.toNat - 0x10000
    escapeUnit (0xd800 + offset / 0x400) ++ escapeUnit (0xdc00 + offset % 0x400)

def writeText (text : Text) : Text :=
  ['\x22'] ++ text.flatMap escapeChar ++ ['\x22']

/-- Floats without a value have names in place of digits. -/
def writeFloat : Binary64 → Text
  | .undefined => "NaN"
  | .infinite negative => if negative then "-Infinity" else "Infinity"
  | value => value.toText

def writeScalar : Data → Text
  | .bool value => if value then "true" else "false"
  | .int value => ofInt value
  | .float value => writeFloat value
  | .text value => writeText value
  | .date value => writeText value.toText
  | .moment value => writeText value.toText
  | _ => "null"

/-- Separators between members and between a key and its value, and what opens each line. -/
structure Layout where
  indent : Option Nat

namespace Layout

def compact : Layout := ⟨none⟩
def indented : Layout := ⟨some 2⟩

def lineStart (layout : Layout) (depth : Nat) : Text :=
  match layout.indent with
  | none => []
  | some width => '\n' :: List.replicate (width * depth) ' '

def between (layout : Layout) (depth : Nat) : Text :=
  match layout.indent with
  | none => ", "
  | some _ => ',' :: layout.lineStart depth

def enclose (layout : Layout) (depth : Nat) (opening closing : Char) (members : List Text) : Text :=
  if members.isEmpty then [opening, closing]
  else
    [opening] ++ layout.lineStart (depth + 1) ++ join (layout.between (depth + 1)) members
      ++ layout.lineStart depth ++ [closing]

end Layout

mutual

def write (layout : Layout) (depth : Nat) : Data → Text
  | .list items => layout.enclose depth '[' ']' (writeItems layout (depth + 1) items)
  | .map fields => layout.enclose depth '\x7b' '\x7d' (writeFields layout (depth + 1) fields)
  | value => writeScalar value

def writeItems (layout : Layout) (depth : Nat) : List Data → List Text
  | [] => []
  | item :: items => write layout depth item :: writeItems layout depth items

def writeFields (layout : Layout) (depth : Nat) : List (Data × Data) → List Text
  | [] => []
  | (key, value) :: fields =>
    let name := match key with | .text name => writeText name | other => writeText (writeScalar other)
    (name ++ ": " ++ write layout depth value) :: writeFields layout depth fields

end

def compact (value : Data) : Text :=
  write .compact 0 value

def indented (value : Data) : Text :=
  write .indented 0 value

end Bindery.Json
