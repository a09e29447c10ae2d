import DeployRegistry.Number.Digits
import DeployRegistry.Number.Rounding

/-!
# Decimal numerals

Numbers as they are written: a whole number, or a decimal with a point or an exponent. A numeral
has a value, which is exact, and a text.
-/

namespace DeployRegistry.Number

set_option autoImplicit false

/-- The number `magnitude * 10 ^ exponent` with a sign, which a zero has as well. -/
structure Decimal where
  negative : Bool
  magnitude : Nat
  exponent : Int
  deriving DecidableEq, Inhabited

namespace Decimal

def toRat (d : Decimal) : Rat :=
  let q :=
    if 0 ≤ d.exponent then (d.magnitude : Rat) * (10 : Rat) ^ d.exponent.toNat
    else (d.magnitude : Rat) / (10 : Rat) ^ (-d.exponent).toNat
  if d.negative then -q else q

/-- One more than the power of ten of the leading digit. -/
def leading (d : Decimal) : Int := ((digits d.magnitude).length : Int) + d.exponent

/-- The digits of the magnitude without the zeros at its end; at least one digit stays. -/
def significant (d : Decimal) : List Char :=
  match ((digits d.magnitude).reverse.dropWhile (· == '0')).reverse with
  | [] => ['0']
  | ds => ds

/-- The digits with a point, for a number whose leading digit is near the point. -/
def positional (ds : List Char) (point : Int) : List Char :=
  if point ≤ 0 then '0' :: '.' :: (List.replicate (-point).toNat '0' ++ ds)
  else if (ds.length : Int) ≤ point then
    ds ++ List.replicate (point - ds.length).toNat '0' ++ ['.', '0']
  else ds.take point.toNat ++ '.' :: ds.drop point.toNat

/-- One digit before the point, and the power of ten with a sign and two digits. -/
def scientific (ds : List Char) (point : Int) : List Char :=
  let power := point - 1
  let sign := if power < 0 then '-' else '+'
  let fraction := match ds.drop 1 with
    | [] => []
    | rest => '.' :: rest
  ds.take 1 ++ fraction ++ 'e' :: sign :: padded 2 power.natAbs

/-- A point is written when the leading digit lies between the fourth place behind the point and
the sixteenth before it; an exponent otherwise. -/
def text (d : Decimal) : List Char :=
  let sign := if d.negative then ['-'] else []
  if d.magnitude = 0 then sign ++ ['0', '.', '0']
  else if -4 < d.leading ∧ d.leading ≤ 16 then sign ++ positional d.significant d.leading
  else sign ++ scientific d.significant d.leading

end Decimal

/-- A number as it is written: without a point and exponent, or with one of them. -/
inductive Numeral
  | whole (n : Int)
  | decimal (d : Decimal)
  deriving DecidableEq, Inhabited

namespace Numeral

def toRat : Numeral → Rat
  | whole n => n
  | decimal d => d.toRat

def text : Numeral → String
  | whole n => intText n
  | decimal d => String.ofList d.text

end Numeral

/-- What a run of characters writes before its first character that is no digit. -/
def spanDigits (cs : List Char) : List Char × List Char :=
  (cs.takeWhile Char.isDigit, cs.dropWhile Char.isDigit)

theorem spanDigits_digits (n : Nat) {rest : List Char}
    (h : ∀ c ∈ rest.head?, c.isDigit = false) :
    spanDigits (digits n ++ rest) = (digits n, rest) := by
  have hd := isDigit_of_mem_digits n
  have ht : rest.takeWhile Char.isDigit = [] ∧ rest.dropWhile Char.isDigit = rest := by
    cases rest with
    | nil => simp
    | cons c rest => simp [h c (by simp)]
  simp [spanDigits, List.takeWhile_append_of_pos hd, List.dropWhile_append_of_pos hd, ht]

/-- The power of ten behind the letter `e`, if there is one. -/
def powerOfText? : List Char → Option Int
  | [] => some 0
  | c :: rest =>
    if c = 'e' ∨ c = 'E' then
      match rest with
      | '-' :: ds => (number? ds).map fun n => -(n : Int)
      | '+' :: ds => (number? ds).map fun n => (n : Int)
      | ds => (number? ds).map fun n => (n : Int)
    else none

/-- Digits with or without a point, and perhaps a power of ten. -/
def Decimal.ofText? (negative : Bool) (cs : List Char) : Option Decimal := do
  let (before, rest) := spanDigits cs
  let (behind, rest) := match rest with
    | '.' :: more => spanDigits more
    | other => ([], other)
  let power ← powerOfText? rest
  if before = [] ∧ behind = [] then none
  else some ⟨negative, ofDigits (before ++ behind), power - behind.length⟩

end DeployRegistry.Number
