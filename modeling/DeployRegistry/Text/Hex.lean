/-!
# Hexadecimal digits

Digits of base sixteen in both letter cases, and their values.
-/

namespace DeployRegistry.Text.Hex

set_option autoImplicit false

/-- The value of a hexadecimal digit of either case. -/
def value? (c : Char) : Option Nat :=
  if '0' ≤ c ∧ c ≤ '9' then some (c.toNat - 48)
  else if 'a' ≤ c ∧ c ≤ 'f' then some (c.toNat - 87)
  else if 'A' ≤ c ∧ c ≤ 'F' then some (c.toNat - 55)
  else none

def isDigit (c : Char) : Bool := (value? c).isSome

def lowerDigit (n : Nat) : Char := Nat.digitChar (n % 16)

def upperDigit (n : Nat) : Char := (Nat.digitChar (n % 16)).toUpper

theorem value?_lowerDigit {n : Nat} (h : n < 16) : value? (lowerDigit n) = some n := by
  have hall : ∀ k < 16, value? (lowerDigit k) = some k := by decide
  exact hall n h

theorem value?_upperDigit {n : Nat} (h : n < 16) : value? (upperDigit n) = some n := by
  have hall : ∀ k < 16, value? (upperDigit k) = some k := by decide
  exact hall n h

/-- The value of a run of digits, most significant first. -/
def number? (cs : List Char) : Option Nat :=
  cs.foldl (fun acc c => acc.bind fun n => (value? c).map (16 * n + ·)) (some 0)

/-- Four lower-case digits. -/
def fourDigits (n : Nat) : List Char :=
  [lowerDigit (n / 4096), lowerDigit (n / 256), lowerDigit (n / 16), lowerDigit n]

end DeployRegistry.Text.Hex
