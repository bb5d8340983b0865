import Bindery.Data.Binary64
import Bindery.Text.Integer

/-! Data as read from files: the values that both data formats share, and the dates of one of them.
A mapping keeps its keys in order of first appearance. -/

namespace Bindery

structure Date where
  year : Nat
  month : Nat
  day : Nat
  deriving DecidableEq, Repr

/-- A time of day on a date; the zone is its distance from universal time in seconds. -/
structure Moment where
  date : Date
  hour : Nat
  minute : Nat
  second : Nat
  micro : Nat
  zone : Option Int
  deriving DecidableEq, Repr

inductive Data where
  | null
  | bool (value : Bool)
  | int (value : Int)
  | float (value : Binary64)
  | text (value : Text)
  | date (value : Date)
  | moment (value : Moment)
  | list (items : List Data)
  | map (fields : List (Data × Data))
  deriving Repr

namespace Data

instance : Inhabited Data := ⟨.null⟩
instance : Coe Text Data := ⟨.text⟩

/-- What a value is called in messages. -/
def typeName : Data → Text
  | .null => "NoneType"
  | .bool _ => "bool"
  | .int _ => "int"
  | .float _ => "float"
  | .text _ => "str"
  | .date _ => "date"
  | .moment _ => "datetime"
  | .list _ => "list"
  | .map _ => "dict"

def qualifiedTypeName : Data → Text
  | .date _ => "datetime.date"
  | .moment _ => "datetime.datetime"
  | value => value.typeName

/-- Empty values, zero and null count as absent. -/
def isPresent : Data → Bool
  | .null => false
  | .bool value => value
  | .int value => value ≠ 0
  | .float value => !value.isZero
  | .text value => !value.isEmpty
  | .list items => !items.isEmpty
  | .map fields => !fields.isEmpty
  | .date _ | .moment _ => true

private def asNumber? : Data → Option (Int ⊕ Binary64)
  | .bool value => some (.inl (if value then 1 else 0))
  | .int value => some (.inl value)
  | .float value => some (match value.toInt? with | some n => .inl n | none => .inr value)
  | _ => none

/-- Whether two scalars are the same key. Numbers are compared by value, whatever their type. -/
def sameKey (a b : Data) : Bool :=
  match asNumber? a, asNumber? b with
  | some (.inl m), some (.inl n) => m = n
  | some (.inr x), some (.inr y) => x.sameValue y
  | some _, _ | _, some _ => false
  | none, none =>
    match a, b with
    | .null, .null => true
    | .text s, .text t => s = t
    | .date s, .date t => s = t
    | .moment s, .moment t => s = t
    | _, _ => false

/-- Sets the value of a key: a key already there keeps its place. -/
def insertField (fields : List (Data × Data)) (key value : Data) : List (Data × Data) :=
  if fields.any fun field => field.1.sameKey key then
    fields.map fun field => if field.1.sameKey key then (field.1, value) else field
  else fields ++ [(key, value)]

def fieldOf? (fields : List (Data × Data)) (name : Text) : Option Data :=
  (fields.find? fun field => match field.1 with | .text key => key = name | _ => false).map (·.2)

def ofFields (fields : List (Text × Data)) : Data :=
  .map (fields.foldl (fun done (key, value) => insertField done (.text key) value) [])

end Data

namespace Date

private def padded (width n : Nat) : Text :=
  let digits := Text.ofNat n
  List.replicate (width - digits.length) '0' ++ digits

def toText (date : Date) : Text :=
  padded 4 date.year ++ "-" ++ padded 2 date.month ++ "-" ++ padded 2 date.day

end Date

namespace Moment
open Date

private def zoneText (seconds : Int) : Text :=
  let size := seconds.natAbs
  let sign := if seconds < 0 then '-' else '+'
  let rest : Text := if size % 60 = 0 then [] else ':' :: padded 2 (size % 60)
  sign :: padded 2 (size / 3600) ++ ":" ++ padded 2 (size / 60 % 60) ++ rest

def toText (moment : Moment) : Text :=
  let fraction : Text := if moment.micro = 0 then [] else '.' :: padded 6 moment.micro
  moment.date.toText ++ " " ++ padded 2 moment.hour ++ ":" ++ padded 2 moment.minute ++ ":"
    ++ padded 2 moment.second ++ fraction ++ (moment.zone.map zoneText).getD []

end Moment

namespace Data
open Text

/-- A length of time in whole days and the seconds beyond them. -/
def spanShown (seconds : Int) : Text :=
  let days := seconds.fdiv 86400
  let rest := seconds - days * 86400
  let parts : List Text :=
    (if days = 0 then [] else ["days=" ++ ofInt days])
      ++ (if rest = 0 then [] else ["seconds=" ++ ofInt rest])
  "datetime.timedelta(" ++ join ", " parts ++ ")"

private def zoneShown (seconds : Int) : Text :=
  if seconds = 0 then "datetime.timezone.utc" else "datetime.timezone(" ++ spanShown seconds ++ ")"

private def momentShown (moment : Moment) : Text :=
  let clock : List Nat :=
    [moment.date.year, moment.date.month, moment.date.day, moment.hour, moment.minute]
  let fine : List Nat :=
    if moment.micro ≠ 0 then [moment.second, moment.micro]
    else if moment.second ≠ 0 then [moment.second] else []
  let zone : List Text := moment.zone.toList.map fun seconds => "tzinfo=" ++ zoneShown seconds
  "datetime.datetime(" ++ join ", " ((clock ++ fine).map ofNat ++ zone) ++ ")"

mutual

/-- How a value is shown inside a message. -/
def shown : Data → Except NumberError Text
  | .null => .ok "None"
  | .bool value => .ok (if value then "True" else "False")
  | .int value => writeInt value
  | .float value => .ok value.toText
  | .text value => .ok (quoted value)
  | .date value =>
    .ok ("datetime.date(" ++ join ", " [ofNat value.year, ofNat value.month, ofNat value.day] ++ ")")
  | .moment value => .ok (momentShown value)
  | .list items => do return "[" ++ join ", " (← shownItems items) ++ "]"
  | .map fields => do return "\x7b" ++ join ", " (← shownFields fields) ++ "\x7d"

def shownItems : List Data → Except NumberError (List Text)
  | [] => .ok []
  | item :: items => do return (← shown item) :: (← shownItems items)

def shownFields : List (Data × Data) → Except NumberError (List Text)
  | [] => .ok []
  | (key, value) :: fields => do
    return ((← shown key) ++ ": " ++ (← shown value)) :: (← shownFields fields)

end

/-- A value as text: a text is itself, a date is in its usual form, all else is as shown. -/
def toText : Data → Except NumberError Text
  | .text value => .ok value
  | .date value => .ok value.toText
  | .moment value => .ok value.toText
  | value => value.shown

end Data
end Bindery
