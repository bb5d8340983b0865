import Bindery.Data.Basic

/-! Days of the Gregorian calendar and times of day, checked part by part. -/

namespace Bindery

/-- The part for which there is no such day or time. A zone is less than a day away from universal
time. -/
inductive CalendarError where
  | year (number : Nat)
  | month
  | day
  | hour
  | minute
  | second
  | zone (seconds : Int)
  deriving DecidableEq, Repr

def CalendarError.message : CalendarError → Text
  | .year number => "year " ++ Text.ofNat number ++ " is out of range"
  | .month => "month must be in 1..12"
  | .day => "day is out of range for month"
  | .hour => "hour must be in 0..23"
  | .minute => "minute must be in 0..59"
  | .second => "second must be in 0..59"
  | .zone seconds =>
    "offset must be a timedelta strictly between -timedelta(hours=24) and timedelta(hours=24), not "
      ++ Data.spanShown seconds ++ "."

namespace Date

def isLeapYear (year : Nat) : Bool :=
  year % 4 = 0 && (year % 100 ≠ 0 || year % 400 = 0)

def monthLength (year month : Nat) : Nat :=
  if month = 2 then (if isLeapYear year then 29 else 28)
  else if month = 4 || month = 6 || month = 9 || month = 11 then 30
  else 31

def check (date : Date) : Except CalendarError Date :=
  if date.year = 0 || date.year > 9999 then .error (.year date.year)
  else if date.month = 0 || date.month > 12 then .error .month
  else if date.day = 0 || date.day > monthLength date.year date.month then .error .day
  else .ok date

end Date

def Moment.check (moment : Moment) : Except CalendarError Moment := do
  match moment.zone with
  | some seconds => if seconds.natAbs ≥ 86400 then throw (.zone seconds)
  | none => pure ()
  discard (moment.date.check)
  if moment.hour > 23 then throw .hour
  if moment.minute > 59 then throw .minute
  if moment.second > 59 then throw .second
  return moment

end Bindery
