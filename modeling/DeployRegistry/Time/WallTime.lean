import DeployRegistry.Time.Calendar
import DeployRegistry.Number.Digits

/-!
# Wall-clock times

A point on the wall clock, without an offset: the microseconds since midnight of the first day of
year 1. Times are ordered by that number.
-/

namespace DeployRegistry

set_option autoImplicit false

open Number

structure WallTime where
  micros : Nat
  deriving DecidableEq, Inhabited

namespace WallTime

instance : LE WallTime := ⟨fun a b => a.micros ≤ b.micros⟩

instance : LT WallTime := ⟨fun a b => a.micros < b.micros⟩

instance (a b : WallTime) : Decidable (a ≤ b) := inferInstanceAs (Decidable (a.micros ≤ b.micros))

instance (a b : WallTime) : Decidable (a < b) := inferInstanceAs (Decidable (a.micros < b.micros))

theorem le_def (a b : WallTime) : a ≤ b ↔ a.micros ≤ b.micros := Iff.rfl

theorem lt_def (a b : WallTime) : a < b ↔ a.micros < b.micros := Iff.rfl

@[ext] theorem ext {a b : WallTime} (h : a.micros = b.micros) : a = b := by
  cases a; cases b; simp_all

def microsPerDay : Nat := 86400000000

/-- The day number of the first of January 1970. -/
def epochDay : Nat := 719162

def epochSeconds : Nat := epochDay * 86400

/-- The first microsecond that is no longer in the year 9999. -/
def endMicros : Nat := Time.daysBeforeYear 10000 * microsPerDay

def ofDate (d : Time.Date) : WallTime := ⟨d.dayNumber * microsPerDay⟩

def ofClock (d : Time.Date) (hour minute second micro : Nat) : WallTime :=
  ⟨d.dayNumber * microsPerDay + (hour * 3600 + minute * 60 + second) * 1000000 + micro⟩

def date (t : WallTime) : Time.Date := Time.ofDayNumber (t.micros / microsPerDay)

def secondOfDay (t : WallTime) : Nat := t.micros % microsPerDay / 1000000

def microOfSecond (t : WallTime) : Nat := t.micros % 1000000

/-- Whole seconds since the start of 1970, the fraction of a second dropped downwards. -/
def unixSeconds (t : WallTime) : Int := (t.micros / 1000000 : Nat) - (epochSeconds : Int)

def dateText (t : WallTime) : List Char :=
  padded 4 t.date.year ++ '-' :: padded 2 t.date.month ++ '-' :: padded 2 t.date.day

def clockText (t : WallTime) : List Char :=
  let s := t.secondOfDay
  padded 2 (s / 3600) ++ ':' :: padded 2 (s / 60 % 60) ++ ':' :: padded 2 (s % 60)

/-- Six digits behind a point, or nothing at a whole second. -/
def fractionText (t : WallTime) : List Char :=
  if t.microOfSecond = 0 then [] else '.' :: padded 6 t.microOfSecond

/-- The date, the letter `T` and the time of day. -/
def chars (t : WallTime) : List Char := t.dateText ++ 'T' :: t.clockText ++ t.fractionText

def text (t : WallTime) : String := String.ofList t.chars

/-- The date and the time of day to the second, with a blank between them. -/
def plainText (t : WallTime) : String := String.ofList (t.dateText ++ ' ' :: t.clockText)

end WallTime

end DeployRegistry
