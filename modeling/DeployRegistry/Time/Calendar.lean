/-!
# The calendar

Dates of the Gregorian calendar, extended to all years from 1 on, and their day numbers: day 0 is
the first day of year 1.
-/

namespace DeployRegistry.Time

set_option autoImplicit false

def isLeap (year : Nat) : Bool := year % 4 == 0 && (year % 100 != 0 || year % 400 == 0)

def daysInMonth (year month : Nat) : Nat :=
  if month = 2 then (if isLeap year then 29 else 28)
  else if month = 4 ∨ month = 6 ∨ month = 9 ∨ month = 11 then 30 else 31

/-- The days before the first of January of a year. -/
def daysBeforeYear (year : Nat) : Nat :=
  let p := year - 1
  365 * p + p / 4 - p / 100 + p / 400

structure Date where
  year : Nat
  month : Nat
  day : Nat
  deriving DecidableEq, Inhabited

namespace Date

/-- A day that the calendar has, in the years that are written with four digits. These start with
the year before year 1. -/
def isValid (d : Date) : Bool :=
  d.year ≤ 9999 && 1 ≤ d.month && d.month ≤ 12 && 1 ≤ d.day &&
    d.day ≤ daysInMonth d.year d.month

def daysBeforeMonth (year month : Nat) : Nat :=
  (List.range (month - 1)).foldl (fun n i => n + daysInMonth year (i + 1)) 0

def dayNumber (d : Date) : Nat :=
  daysBeforeYear d.year + daysBeforeMonth d.year d.month + (d.day - 1)

end Date

/-- The first of the next years, from a given one on, that does not end before a day number. -/
def yearFrom : Nat → Nat → Nat → Nat
  | 0, year, _ => year
  | fuel + 1, year, n =>
    if n < daysBeforeYear (year + 1) then year else yearFrom fuel (year + 1) n

/-- The year in which a day number lies. Four hundred years have 146097 days, so the search starts
at most two years too early. -/
def yearOf (n : Nat) : Nat := yearFrom 3 (n * 400 / 146097) n

/-- The month and the day in it of a day within the year. -/
def monthFrom (year : Nat) : Nat → Nat → Nat → Nat × Nat
  | 0, month, day => (month, day + 1)
  | fuel + 1, month, day =>
    if day < daysInMonth year month then (month, day + 1)
    else monthFrom year fuel (month + 1) (day - daysInMonth year month)

def ofDayNumber (n : Nat) : Date :=
  let year := yearOf n
  let (month, day) := monthFrom year 11 1 (n - daysBeforeYear year)
  ⟨year, month, day⟩

end DeployRegistry.Time
