import Bindery.Text.Quoted

/-! Text as bytes. A character takes one to four bytes; a sequence that is longer than it need be, or that
stands for a surrogate, is none. -/

namespace Bindery

abbrev Bytes := List UInt8

inductive EncodingFault where
  | invalidStart
  | invalidContinuation
  | unexpectedEnd
  deriving DecidableEq, Repr

/-- A faulty sequence: its place, its length and its first byte. -/
structure EncodingError where
  position : Nat
  length : Nat
  byte : UInt8
  fault : EncodingFault
  deriving DecidableEq, Repr

namespace EncodingError
open Text

def faultText : EncodingFault → Text
  | .invalidStart => "invalid start byte"
  | .invalidContinuation => "invalid continuation byte"
  | .unexpectedEnd => "unexpected end of data"

def placeText (error : EncodingError) : Text :=
  if error.length = 1 then
    "byte 0x" ++ hexDigits 2 error.byte.toNat ++ " in position " ++ ofNat error.position
  else
    "bytes in position " ++ ofNat error.position ++ "-" ++ ofNat (error.position + error.length - 1)

def message (error : EncodingError) : Text :=
  "'utf-8' codec can't decode " ++ error.placeText ++ ": " ++ faultText error.fault

end EncodingError

namespace Utf8

/-- What the first byte of a character says: its own bits, how many bytes follow, and the range of the
next of them. The other bytes have the full range. -/
structure Lead where
  bits : Nat
  following : Nat
  low : Nat
  high : Nat

def lead? (byte : Nat) : Option Lead :=
  if byte < 0x80 then some ⟨byte, 0, 0x80, 0xbf⟩
  else if byte < 0xc2 then none
  else if byte < 0xe0 then some ⟨byte - 0xc0, 1, 0x80, 0xbf⟩
  else if byte < 0xf0 then
    some ⟨byte - 0xe0, 2, if byte = 0xe0 then 0xa0 else 0x80, if byte = 0xed then 0x9f else 0xbf⟩
  else if byte < 0xf5 then
    some ⟨byte - 0xf0, 3, if byte = 0xf0 then 0x90 else 0x80, if byte = 0xf4 then 0x8f else 0xbf⟩
  else none

/-- Reads the bytes that follow the first; `size` of them are read already. A fault comes with the
length of the faulty sequence. -/
def readFollowing (bits following low high size : Nat) (bytes : Bytes) :
    Except (Nat × EncodingFault) (Nat × Bytes) :=
  match following, bytes with
  | 0, _ => .ok (bits, bytes)
  | _ + 1, [] => .error (size, .unexpectedEnd)
  | following + 1, byte :: rest =>
    if low ≤ byte.toNat && byte.toNat ≤ high then
      readFollowing (64 * bits + (byte.toNat - 0x80)) following 0x80 0xbf (size + 1) rest
    else .error (size, .invalidContinuation)

def decodeFrom (fuel position : Nat) (bytes : Bytes) : Except EncodingError Text :=
  match fuel, bytes with
  | 0, _ | _, [] => .ok []
  | fuel + 1, byte :: rest =>
    match lead? byte.toNat with
    | none => .error ⟨position, 1, byte, .invalidStart⟩
    | some lead =>
      match readFollowing lead.bits lead.following lead.low lead.high 1 rest with
      | .error (length, fault) => .error ⟨position, length, byte, fault⟩
      | .ok (code, rest) => do
        return Char.ofNat code :: (← decodeFrom fuel (position + lead.following + 1) rest)

def decode (bytes : Bytes) : Except EncodingError Text :=
  decodeFrom bytes.length 0 bytes

def encode (text : Text) : Bytes :=
  (String.ofList text).toUTF8.toList

end Utf8
end Bindery
