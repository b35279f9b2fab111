/-!
# The civil calendar

Days are counted from the first of January 1970, in both directions and without end. `Date.ofDays`
and `Date.toDays` pass between that count and a date of the Gregorian calendar, which is taken to
hold for all years, year 0 and those before it included.

Both work in cycles of 400 years, after which the calendar repeats, and let the year begin in March:
the leap day is then the last of its year, and the lengths of the months before it never change.
-/

namespace LeaseCatalog

/-- A date of the Gregorian calendar. -/
structure Date where
  /-- The year; year 0 is the one before year 1. -/
  year : Int
  /-- The month, from 1 for January to 12. -/
  month : Nat
  /-- The day of the month, from 1. -/
  day : Nat
deriving DecidableEq

namespace Date

/-- Whether a year has a 29th of February. -/
def isLeap (year : Int) : Bool := year % 4 == 0 && (year % 100 != 0 || year % 400 == 0)

/-- The number of days of a month. -/
def daysInMonth (year : Int) (month : Nat) : Nat :=
  if month = 2 then (if isLeap year then 29 else 28)
  else if month = 4 ∨ month = 6 ∨ month = 9 ∨ month = 11 then 30
  else 31

/-- Whether month and day exist in the calendar. -/
def exists? (d : Date) : Bool :=
  1 ≤ d.month && d.month ≤ 12 && 1 ≤ d.day && d.day ≤ daysInMonth d.year d.month

/-- The days in a cycle of 400 years. -/
def daysPerCycle : Nat := 146097

/-- The day count of the first of March of year 0, with its sign changed. -/
def daysToMarchZero : Int := 719468

/-- The year of the cycle, counted from March, in which a day of the cycle lies. -/
def yearOfCycle (day : Nat) : Nat := (day - day / 1460 + day / 36524 - day / 146096) / 365

/-- The first day of a year of the cycle. -/
def firstDayOfYear (year : Nat) : Nat := 365 * year + year / 4 - year / 100

/-- The month, counted from 0 for March, in which a day of the year lies. -/
def monthOfYear (day : Nat) : Nat := (5 * day + 2) / 153

/-- The first day of a month that is counted from 0 for March. -/
def firstDayOfMonth (month : Nat) : Nat := (153 * month + 2) / 5

/-- The date of a day count. -/
def ofDays (days : Int) : Date :=
  let fromMarch := days + daysToMarchZero
  let cycle := fromMarch / daysPerCycle
  let day := (fromMarch % daysPerCycle).toNat
  let year := yearOfCycle day
  let dayOfYear := day - firstDayOfYear year
  let month := monthOfYear dayOfYear
  let dayOfMonth := dayOfYear - firstDayOfMonth month + 1
  if month < 10 then ⟨cycle * 400 + year, month + 3, dayOfMonth⟩
  else ⟨cycle * 400 + year + 1, month - 9, dayOfMonth⟩

/-- The day count of a date. -/
def toDays (d : Date) : Int :=
  let year := if d.month ≤ 2 then d.year - 1 else d.year
  let month := if d.month ≤ 2 then d.month + 9 else d.month - 3
  let dayOfYear := firstDayOfMonth month + (d.day - 1)
  let day := firstDayOfYear (year % 400).toNat + dayOfYear
  year / 400 * daysPerCycle + day - daysToMarchZero

example : ofDays 0 = ⟨1970, 1, 1⟩ := by decide
example : ofDays (-719528) = ⟨0, 1, 1⟩ := by decide
example : toDays ⟨2000, 2, 29⟩ = 11016 := by decide

end Date

end LeaseCatalog
