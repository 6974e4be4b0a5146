import TabularView.Text.Digit

set_option autoImplicit false

/-! # Calendar dates and instants

Dates are those of the proleptic Gregorian calendar: the leap-year rule holds for every year,
negative ones included. An instant counts seconds from the start of 1970 in UTC, without leap
seconds, and nanoseconds within the second.

`CalendarDate.toDays` numbers the days and `CalendarDate.ofDays` undoes it; the year of a day is
found by an estimate that is off by at most one. -/

namespace TabularView

/-! ## Years and months -/

/-- A year divisible by four, but by a hundred only if also by four hundred. -/
def isLeapYear (year : Int) : Bool :=
  year % 4 == 0 && (year % 100 != 0 || year % 400 == 0)

/-- The lengths of the twelve months. -/
def monthLengths (leap : Bool) : List Nat :=
  [31, if leap then 29 else 28, 31, 30, 31, 30, 31, 31, 30, 31, 30, 31]

/-- The number of days from the start of the year zero to the start of a year. -/
def daysBeforeYear (year : Int) : Int :=
  365 * year + (year + 3) / 4 - (year + 99) / 100 + (year + 399) / 400

/-- The number of days from the start of the year zero to the start of 1970. -/
def epochDay : Int := daysBeforeYear 1970

theorem daysBeforeYear_add_one (year : Int) :
    daysBeforeYear (year + 1) = daysBeforeYear year + if isLeapYear year then 366 else 365 := by
  unfold daysBeforeYear isLeapYear
  split <;> rename_i h <;> simp only [Bool.and_eq_true, Bool.or_eq_true, beq_iff_eq, bne_iff_ne,
    not_and, not_or] at h <;> omega

/-! ## Dates -/

/-- A year, a month from 1 to 12 and a day of that month. -/
structure CalendarDate where
  year : Int
  month : Nat
  day : Nat
deriving DecidableEq, Repr

namespace CalendarDate

/-- The length of a month of a year; no such month has no days. -/
def daysInMonth (year : Int) (month : Nat) : Nat :=
  if month = 0 then 0 else ((monthLengths (isLeapYear year))[month - 1]?).getD 0

/-- The date with these numbers, if the calendar has it. -/
def of? (year : Int) (month day : Nat) : Option CalendarDate :=
  if 1 ≤ day ∧ day ≤ daysInMonth year month then some { year, month, day } else none

/-- The day's number, the first of January 1970 being zero. -/
def toDays (d : CalendarDate) : Int :=
  daysBeforeYear d.year - epochDay +
    (((monthLengths (isLeapYear d.year)).take (d.month - 1)).foldr (· + ·) 0 : Nat) +
    (d.day : Int) - 1

/-- The month and day of the `n`-th day of a run of months, `n` counted from zero. -/
def monthAndDay (month : Nat) : List Nat → Nat → Nat × Nat
  | [], n => (month, n + 1)
  | length :: rest, n =>
    if n < length then (month, n + 1) else monthAndDay (month + 1) rest (n - length)

/-- The year that holds the day with this number, counted from the start of the year zero. -/
def yearOf (day : Int) : Int :=
  let guess := day * 400 / 146097
  if day < daysBeforeYear guess then guess - 1
  else if daysBeforeYear (guess + 1) ≤ day then guess + 1
  else guess

/-- The date of the day with this number, the first of January 1970 being zero. -/
def ofDays (n : Int) : CalendarDate :=
  let day := n + epochDay
  let year := yearOf day
  let (month, dayOfMonth) := monthAndDay 1 (monthLengths (isLeapYear year))
    (day - daysBeforeYear year).toNat
  { year, month, day := dayOfMonth }

end CalendarDate

/-! ## Instants -/

/-- Seconds since the start of 1970 and nanoseconds within that second. -/
structure Instant where
  seconds : Int
  nanos : Nat
deriving DecidableEq, Repr

namespace Instant

/-- The number of seconds in a day. -/
def secondsPerDay : Int := 86400

/-- The instant of a date and a time of day, both in UTC. -/
def ofDate (date : CalendarDate) (hour minute second nanos : Nat) : Instant where
  seconds := date.toDays * secondsPerDay + hour * 3600 + minute * 60 + second
  nanos := nanos

/-- The instant with another number of seconds before it. -/
def earlier (t : Instant) (seconds : Int) : Instant :=
  { t with seconds := t.seconds - seconds }

/-- The date of an instant. -/
def date (t : Instant) : CalendarDate :=
  .ofDays (t.seconds / secondsPerDay)

/-- Seconds since midnight. -/
def secondOfDay (t : Instant) : Nat :=
  (t.seconds % secondsPerDay).toNat

/-- A year in four digits; outside 0 to 9999 it carries a sign. -/
def yearText (year : Int) : String :=
  if 0 ≤ year ∧ year ≤ 9999 then Text.padded 4 year.toNat
  else (if year < 0 then "-" else "+") ++ Text.padded 4 year.natAbs

/-- The fraction of a second with three, six or nine digits, or nothing when it is zero. -/
def fractionText (nanos : Nat) : String :=
  if nanos = 0 then ""
  else if nanos % 1000000 = 0 then "." ++ Text.padded 3 (nanos / 1000000)
  else if nanos % 1000 = 0 then "." ++ Text.padded 6 (nanos / 1000)
  else "." ++ Text.padded 9 nanos

/-- The instant as `YYYY-MM-DD HH:MM:SS` in UTC, with a fraction if it has one. -/
def text (t : Instant) : String :=
  let d := t.date
  let s := t.secondOfDay
  yearText d.year ++ "-" ++ Text.twoDigits d.month ++ "-" ++ Text.twoDigits d.day ++ " " ++
    Text.twoDigits (s / 3600) ++ ":" ++ Text.twoDigits (s / 60 % 60) ++ ":" ++
    Text.twoDigits (s % 60) ++ fractionText t.nanos

/-- The milliseconds since the start of 1970 that an archive may be stamped with: those of the years
-262143 to 262142. -/
def isArchivableMillis (millis : Int) : Bool :=
  -8334601228800000 ≤ millis && millis ≤ 8210266876799999

end Instant

end TabularView
