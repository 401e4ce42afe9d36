/-!
# Timestamps

A moment in time as a calendar shows it: a date of the years 0 to 9999, a time of day, and how far the
clock is ahead of universal time.
-/

namespace SurfaceRegistry

/-- Whether a year has a 29 February. -/
def isLeapYear (year : Nat) : Bool :=
  year % 4 == 0 && (year % 100 != 0 || year % 400 == 0)

/-- How many days a month has. -/
def daysInMonth (year month : Nat) : Nat :=
  if month = 2 then if isLeapYear year then 29 else 28
  else if month = 4 ∨ month = 6 ∨ month = 9 ∨ month = 11 then 30
  else 31

/-- A day of the calendar. -/
structure Date where
  /-- The year. -/
  year : Nat
  /-- The month, from 1. -/
  month : Nat
  /-- The day of the month, from 1. -/
  day : Nat
  /-- The year has at most four digits. -/
  year_lt : year < 10000
  /-- There is such a month. -/
  month_bounds : 1 ≤ month ∧ month ≤ 12
  /-- There is such a day in the month. -/
  day_bounds : 1 ≤ day ∧ day ≤ daysInMonth year month
  deriving DecidableEq

/-- The date with these numbers, if there is one. -/
def Date.ofNumbers? (year month day : Nat) : Option Date :=
  if hy : year < 10000 then
    if hm : 1 ≤ month ∧ month ≤ 12 then
      if hd : 1 ≤ day ∧ day ≤ daysInMonth year month then some ⟨year, month, day, hy, hm, hd⟩
      else none
    else none
  else none

/-- Whether the date is the last day of its month. -/
def Date.isEndOfMonth (d : Date) : Bool :=
  d.day == daysInMonth d.year d.month

/-- A time of day. -/
structure TimeOfDay where
  /-- The hour. -/
  hour : Fin 24
  /-- The minute. -/
  minute : Fin 60
  /-- The second. -/
  second : Fin 60
  /-- The part of the second, in nanoseconds. -/
  nanosecond : Fin 1000000000
  deriving DecidableEq

/-- How far a clock is ahead of universal time or behind it: less than a day, in whole minutes. -/
structure UtcOffset where
  /-- The minutes ahead. -/
  minutes : Int
  /-- It is less than a day. -/
  minutes_lt : minutes.natAbs < 24 * 60
  deriving DecidableEq

/-- The offset of universal time. -/
def UtcOffset.zero : UtcOffset :=
  ⟨0, by decide⟩

/-- A moment in time. -/
structure Timestamp where
  /-- The date. -/
  date : Date
  /-- The time of day. -/
  time : TimeOfDay
  /-- The offset of the clock that shows them. -/
  offset : UtcOffset
  deriving DecidableEq

namespace Timestamp

/-- The first moment of 1970 in universal time. -/
def epoch : Timestamp where
  date := ⟨1970, 1, 1, by decide, by decide, by decide⟩
  time := ⟨0, 0, 0, 0⟩
  offset := .zero

instance : Inhabited Timestamp := ⟨epoch⟩

/-- The year, month and day that lie a number of days after the start of 1970. -/
def civilOfDays (days : Nat) : Nat × Nat × Nat :=
  let z := days + 719468
  let era := z / 146097
  let doe := z % 146097
  let yoe := (doe - doe / 1460 + doe / 36524 - doe / 146096) / 365
  let doy := doe - (365 * yoe + yoe / 4 - yoe / 100)
  let mp := (5 * doy + 2) / 153
  let month := if mp < 10 then mp + 3 else mp - 9
  let year := yoe + era * 400 + (if month ≤ 2 then 1 else 0)
  (year, month, doy - (153 * mp + 2) / 5 + 1)

/-- The moment a number of seconds and nanoseconds after the start of 1970, in universal time, up to
the end of the year 9999. -/
def ofEpoch? (seconds : Nat) (nanosecond : Fin 1000000000) : Option Timestamp :=
  let (year, month, day) := civilOfDays (seconds / 86400)
  (Date.ofNumbers? year month day).map fun date =>
    { date
      time :=
        { hour := Fin.ofNat 24 (seconds / 3600)
          minute := Fin.ofNat 60 (seconds / 60)
          second := Fin.ofNat 60 seconds
          nanosecond }
      offset := .zero }

end Timestamp

end SurfaceRegistry
