import Bindery.Text.Basic
import Bindery.Text.PrintableTable

/-! Quoted text: how a value is shown inside a message. Single quotes enclose it, or double quotes
if it holds a single quote and no double quote; what is not visible is escaped. -/

namespace Bindery.Text

def isPrintable (c : Char) : Bool :=
  !inRanges unprintableRanges c

def hexDigits (width n : Nat) : Text :=
  let digits := Nat.toDigits 16 n
  List.replicate (width - digits.length) '0' ++ digits

def escapeCode (n : Nat) : Text :=
  if n < 0x100 then '\\' :: 'x' :: hexDigits 2 n
  else if n < 0x10000 then '\\' :: 'u' :: hexDigits 4 n
  else '\\' :: 'U' :: hexDigits 8 n

def quotedChar (quote c : Char) : Text :=
  if c = quote || c = '\\' then ['\\', c]
  else if c = '\t' then ['\\', 't']
  else if c = '\n' then ['\\', 'n']
  else if c = '\r' then ['\\', 'r']
  else if isPrintable c then [c]
  else escapeCode c.toNat

def quoted (text : Text) : Text :=
  let quote := if text.contains '\x27' && !text.contains '\x22' then '\x22' else '\x27'
  [quote] ++ text.flatMap (quotedChar quote) ++ [quote]

end Bindery.Text
