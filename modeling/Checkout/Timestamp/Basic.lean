import Checkout.Text.Digits

/-!
# Points in time

A point in time as the calendar and clock of UTC show it, to the nanosecond. The second may be the
leap second 60. Moving between time zones changes the minute of the day and at most the
neighbouring date, so no count of days is needed.
-/

namespace Checkout

/-- A date of the proleptic Gregorian calendar. -/
structure CalendarDate where
  year : Int
  month : Nat
  day : Nat
  deriving DecidableEq, Repr, Inhabited

/-- Leap years have a 29th of February. -/
def isLeapYear (year : Int) : Bool :=
  year % 4 = 0 && (year % 100 ≠ 0 || year % 400 = 0)

/-- The number of days in a month. -/
def daysInMonth (year : Int) (month : Nat) : Nat :=
  if month = 2 then (if isLeapYear year then 29 else 28)
  else if month = 4 ∨ month = 6 ∨ month = 9 ∨ month = 11 then 30
  else 31

namespace CalendarDate

/-- The years that can be named. -/
def yearInRange (year : Int) : Bool :=
  -262143 ≤ year && year ≤ 262142

/-- Whether the date exists. -/
def valid (date : CalendarDate) : Bool :=
  yearInRange date.year && 1 ≤ date.month && date.month ≤ 12 && 1 ≤ date.day &&
    date.day ≤ daysInMonth date.year date.month

/-- The following day. -/
def next (date : CalendarDate) : CalendarDate :=
  if date.day < daysInMonth date.year date.month then { date with day := date.day + 1 }
  else if date.month < 12 then { date with month := date.month + 1, day := 1 }
  else { year := date.year + 1, month := 1, day := 1 }

/-- The preceding day. -/
def previous (date : CalendarDate) : CalendarDate :=
  if 1 < date.day then { date with day := date.day - 1 }
  else if 1 < date.month then
    { date with month := date.month - 1, day := daysInMonth date.year (date.month - 1) }
  else { year := date.year - 1, month := 12, day := 31 }

end CalendarDate

/-- A point in time, as shown in UTC. -/
structure Timestamp where
  date : CalendarDate
  hour : Nat
  minute : Nat
  second : Nat
  nanosecond : Nat
  deriving DecidableEq, Repr, Inhabited

namespace Timestamp

/-- Whether calendar and clock can show the point in time. -/
def valid (time : Timestamp) : Bool :=
  time.date.valid && time.hour ≤ 23 && time.minute ≤ 59 && time.second ≤ 60 &&
    time.nanosecond ≤ 999999999

/-- The point in time that a clock `offset` minutes ahead of UTC shows as `time`, if it has a date. -/
def fromZone? (offset : Int) (time : Timestamp) : Option Timestamp :=
  let minutes : Int := (time.hour * 60 + time.minute : Nat) - offset
  let date :=
    if minutes < 0 then time.date.previous
    else if 1440 ≤ minutes then time.date.next
    else time.date
  let ofDay := (minutes % 1440).toNat
  if date.valid then
    some { time with date := date, hour := ofDay / 60, minute := ofDay % 60 }
  else none

/-- The point in time so many seconds, and nanoseconds of the next one, after 1970 began. -/
def ofClock (seconds nanosecond : Nat) : Timestamp where
  date := Nat.repeat CalendarDate.next (seconds / 86400) ⟨1970, 1, 1⟩
  hour := seconds % 86400 / 3600
  minute := seconds % 3600 / 60
  second := seconds % 60
  nanosecond := nanosecond

example : ofClock 5270399 7 = ⟨⟨1970, 3, 2⟩, 23, 59, 59, 7⟩ := by decide +kernel

/-- Years outside 0 to 9999 carry a sign. -/
def renderYear (year : Int) : String :=
  if 0 ≤ year ∧ year ≤ 9999 then padded 4 year.toNat
  else (if year < 0 then "-" else "+") ++ padded 4 year.natAbs

/-- The fraction of a second in as many groups of three digits as it needs. -/
def renderFraction (nanosecond : Nat) : String :=
  if nanosecond = 0 then ""
  else if nanosecond % 1000000 = 0 then "." ++ padded 3 (nanosecond / 1000000)
  else if nanosecond % 1000 = 0 then "." ++ padded 6 (nanosecond / 1000)
  else "." ++ padded 9 nanosecond

/-- The form of RFC 3339, in UTC. -/
def render (time : Timestamp) : String :=
  renderYear time.date.year ++ "-" ++ padded 2 time.date.month ++ "-" ++ padded 2 time.date.day ++
    "T" ++ padded 2 time.hour ++ ":" ++ padded 2 time.minute ++ ":" ++ padded 2 time.second ++
    renderFraction time.nanosecond ++ "Z"

end Timestamp

end Checkout
