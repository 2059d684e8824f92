import Reshape.Number

/-! Calendar dates and points in time, as files may hold them. Both are written year first; a point
in time may know its distance from universal time. -/

namespace Reshape

structure Date where
  year : Nat
  month : Nat
  day : Nat
  deriving DecidableEq, Repr

/-- A point in time. The offset counts minutes east of universal time. -/
structure Moment where
  date : Date
  hour : Nat
  minute : Nat
  second : Nat
  micros : Nat
  offset : Option Int
  deriving DecidableEq, Repr

/-- What is wrong with the parts of a date or of a point in time. -/
inductive CalendarFault
  | year (n : Nat)
  | month
  | day
  | hour
  | minute
  | second
  | offset (minutes : Int)
  deriving DecidableEq, Repr

/-! ### Making -/

namespace Date

def isLeap (year : Nat) : Bool := year % 4 == 0 && (year % 100 != 0 || year % 400 == 0)

def daysIn (year month : Nat) : Nat :=
  if month = 2 then (if isLeap year then 29 else 28)
  else if month = 4 || month = 6 || month = 9 || month = 11 then 30
  else 31

def make (year month day : Nat) : Except CalendarFault Date :=
  if year = 0 || year > 9999 then .error (.year year)
  else if month = 0 || month > 12 then .error .month
  else if day = 0 || day > daysIn year month then .error .day
  else .ok ⟨year, month, day⟩

end Date

namespace Moment

/-- The offset is less than a day. -/
def make (year month day hour minute second micros : Nat) (offset : Option Int) :
    Except CalendarFault Moment := do
  if let some o := offset then
    if o.natAbs ≥ 1440 then .error (.offset o)
  let date ← Date.make year month day
  if hour > 23 then .error .hour
  else if minute > 59 then .error .minute
  else if second > 59 then .error .second
  else return ⟨date, hour, minute, second, micros, offset⟩

end Moment

/-! ### Writing -/

/-- A duration in minutes, as whole days and the seconds beyond them. -/
def displayDuration (minutes : Int) : String :=
  let days := minutes.fdiv 1440
  let seconds := (minutes - days * 1440) * 60
  let parts := (if days = 0 then [] else ["days=" ++ toString days]) ++
    (if seconds = 0 then [] else ["seconds=" ++ toString seconds])
  "datetime.timedelta(" ++ ", ".intercalate parts ++ ")"

namespace Date

def text (d : Date) : String :=
  padded 4 d.year ++ "-" ++ padded 2 d.month ++ "-" ++ padded 2 d.day

def parts (d : Date) : List String := [toString d.year, toString d.month, toString d.day]

def display (d : Date) : String := "datetime.date(" ++ ", ".intercalate d.parts ++ ")"

end Date

namespace Moment

def offsetText (minutes : Int) : String :=
  (if minutes < 0 then "-" else "+") ++ padded 2 (minutes.natAbs / 60) ++ ":" ++
    padded 2 (minutes.natAbs % 60)

def text (m : Moment) : String :=
  m.date.text ++ " " ++ padded 2 m.hour ++ ":" ++ padded 2 m.minute ++ ":" ++
    padded 2 m.second ++ (if m.micros = 0 then "" else "." ++ padded 6 m.micros) ++
    (m.offset.map offsetText).getD ""

/-- Seconds and fractions are left out where they are zero. -/
def clockParts (m : Moment) : List String :=
  [toString m.hour, toString m.minute] ++
    (if m.micros ≠ 0 then [toString m.second, toString m.micros]
    else if m.second ≠ 0 then [toString m.second]
    else [])

def displayOffset (minutes : Int) : String :=
  "tzinfo=" ++
    if minutes = 0 then "datetime.timezone.utc"
    else "datetime.timezone(" ++ displayDuration minutes ++ ")"

def display (m : Moment) : String :=
  "datetime.datetime(" ++
    ", ".intercalate (m.date.parts ++ m.clockParts ++ (m.offset.map displayOffset).toList) ++ ")"

end Moment

namespace CalendarFault

def message : CalendarFault → String
  | .year n => "year " ++ toString n ++ " is out of range"
  | .month => "month must be in 1..12"
  | .day => "day is out of range for month"
  | .hour => "hour must be in 0..23"
  | .minute => "minute must be in 0..59"
  | .second => "second must be in 0..59"
  | .offset n =>
    "offset must be a timedelta strictly between -timedelta(hours=24) and " ++
      "timedelta(hours=24), not " ++ displayDuration n ++ "."

end CalendarFault

end Reshape
