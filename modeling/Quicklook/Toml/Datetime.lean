/-!
# Dates and times in settings

A calendar date, a time of day and an offset from universal time, of which a value may have
the first, the second, the first two, or all. Its text is the same however it was written:
a `T` between date and time, no zeros at the end of the fraction, and `Z` only where `Z`
was meant.
-/

namespace Quicklook.Toml

/-! ## §1 Parts -/

/-- A calendar date. -/
structure CalendarDate where
  /-- The year, of four digits. -/
  year : Nat
  /-- The month, from 1. -/
  month : Nat
  /-- The day of the month, from 1. -/
  day : Nat
deriving Repr, DecidableEq

/-- A time of day. -/
structure ClockTime where
  hour : Nat
  minute : Nat
  /-- The second; 60 is the leap second. -/
  second : Nat
  /-- Nanoseconds within the second. -/
  nanos : Nat
deriving Repr, DecidableEq

/-- An offset from universal time. -/
inductive ZoneOffset where
  /-- None. -/
  | zulu
  | minutes (n : Int)
deriving Repr, DecidableEq

/-- A date, a time, or both; with both there may be an offset. -/
inductive Datetime where
  | date (d : CalendarDate)
  | time (t : ClockTime)
  | both (d : CalendarDate) (t : ClockTime) (offset : Option ZoneOffset)
deriving Repr, DecidableEq

/-! ## §2 Text -/

/-- A number in at least `width` digits. -/
def padded (width n : Nat) : List Char :=
  let digits := Nat.toDigits 10 n
  List.replicate (width - digits.length) '0' ++ digits

/-- A date as `YYYY-MM-DD`. -/
def CalendarDate.chars (d : CalendarDate) : List Char :=
  padded 4 d.year ++ '-' :: padded 2 d.month ++ '-' :: padded 2 d.day

/-- A fraction of a second with its point; nothing for none. -/
def fraction (nanos : Nat) : List Char :=
  if nanos = 0 then [] else '.' :: ((padded 9 nanos).reverse.dropWhile (· == '0')).reverse

/-- A time as `hh:mm:ss` and its fraction. -/
def ClockTime.chars (t : ClockTime) : List Char :=
  padded 2 t.hour ++ ':' :: padded 2 t.minute ++ ':' :: padded 2 t.second ++ fraction t.nanos

/-- An offset as `Z` or as a sign, hours and minutes. -/
def ZoneOffset.chars : ZoneOffset → List Char
  | .zulu => ['Z']
  | .minutes n =>
    (if n < 0 then '-' else '+') :: padded 2 (n.natAbs / 60) ++ ':' :: padded 2 (n.natAbs % 60)

/-- The text of a date, a time, or both. -/
def Datetime.text : Datetime → String
  | .date d => String.ofList d.chars
  | .time t => String.ofList t.chars
  | .both d t offset =>
    String.ofList (d.chars ++ 'T' :: t.chars ++ (offset.map ZoneOffset.chars).getD [])

/-- The key under which a table that stands for a date has its text. -/
def dateKey : String :=
  "$__toml_private_datetime"

end Quicklook.Toml
