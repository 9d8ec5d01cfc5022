/-!
# Civil time

Dates of the proleptic Gregorian calendar with a time of day, and the instants that they
name in universal time. A minute may have a sixtieth second, the leap second; it shares the
second before it and is told apart by its nanoseconds.
-/

namespace Quicklook.Time

/-! ## §1 Instants -/

/-- An instant: seconds since the beginning of 1970 and nanoseconds within the second. In a
    leap second there are a thousand million nanoseconds or more. -/
structure Timestamp where
  /-- Seconds since the beginning of 1970. -/
  seconds : Int
  /-- Nanoseconds within the second. -/
  nanos : Nat
deriving Repr, DecidableEq

namespace Timestamp

/-- Earlier in seconds, or in the same second and earlier in nanoseconds. -/
def Before (a b : Timestamp) : Prop :=
  a.seconds < b.seconds ∨ (a.seconds = b.seconds ∧ a.nanos < b.nanos)

instance (a b : Timestamp) : Decidable (a.Before b) :=
  inferInstanceAs (Decidable (_ ∨ _))

end Timestamp

/-! ## §2 The calendar -/

/-- Whether a year has a 29th of February. -/
def isLeapYear (y : Int) : Bool :=
  y % 4 == 0 && (y % 100 != 0 || y % 400 == 0)

/-- The days of the months of a year. -/
def monthLengths (y : Int) : List Nat :=
  [31, if isLeapYear y then 29 else 28, 31, 30, 31, 30, 31, 31, 30, 31, 30, 31]

/-- The days of a month, counted from one; no days in a month that does not exist. -/
def daysInMonth (y : Int) (m : Nat) : Nat :=
  if m = 0 then 0 else (monthLengths y).getD (m - 1) 0

/-- The days of a year before a month. -/
def daysBeforeMonth (y : Int) (m : Nat) : Nat :=
  ((monthLengths y).take (m - 1)).foldl (· + ·) 0

/-- The days before a year, counted from the beginning of the year one. -/
def daysBeforeYear (y : Int) : Int :=
  365 * (y - 1) + (y - 1) / 4 - (y - 1) / 100 + (y - 1) / 400

/-- The days between the beginning of 1970 and a date. -/
def dayNumber (y : Int) (m d : Nat) : Int :=
  daysBeforeYear y - daysBeforeYear 1970 + daysBeforeMonth y m + d - 1

/-! ## §3 Dates with a time of day -/

/-- A date and a time of day. -/
structure Civil where
  year : Int
  /-- The month, from 1. -/
  month : Nat
  /-- The day of the month, from 1. -/
  day : Nat
  hour : Nat
  minute : Nat
  /-- The second, from 0; 60 is the leap second. -/
  second : Nat
deriving Repr, DecidableEq

namespace Civil

/-- Whether a date exists and its time is one of the day's, in the years that a timestamp
    covers. -/
def Valid (c : Civil) : Prop :=
  -262143 ≤ c.year ∧ c.year ≤ 262142 ∧ 1 ≤ c.month ∧ c.month ≤ 12 ∧
  1 ≤ c.day ∧ c.day ≤ daysInMonth c.year c.month ∧
  c.hour ≤ 23 ∧ c.minute ≤ 59 ∧ c.second ≤ 60

instance (c : Civil) : Decidable c.Valid :=
  inferInstanceAs (Decidable (_ ∧ _))

/-- The instant that a date and time names in universal time. -/
def timestamp (c : Civil) : Timestamp :=
  { seconds := dayNumber c.year c.month c.day * 86400 + c.hour * 3600 + c.minute * 60 +
      min c.second 59
    nanos := if c.second = 60 then 1000000000 else 0 }

end Civil

end Quicklook.Time
