import DeployRegistry.Number.Decimal

/-!
# Numbers of double precision

The binary floating-point numbers of 53 significant bits. The value of a finite one is a fraction;
beyond all fractions lie the two infinities and the value that is no number. Sums and products are
the nearest numbers of the format. The main statements are `less_irrefl` and `less_trans`.
-/

namespace DeployRegistry.Number

set_option autoImplicit false

/-- The zero with a minus sign is a number of its own, of the same value as the other zero. -/
inductive Binary64
  | finite (q : Rat)
  | negativeZero
  | infinite (negative : Bool)
  | notANumber
  deriving DecidableEq, Inhabited

namespace Binary64

def twoPow (e : Int) : Rat := if 0 ≤ e then (2 : Rat) ^ e.toNat else 1 / (2 : Rat) ^ (-e).toNat

/-- The power of two at the leading bit of `n / d`. -/
def leadingBit (n d : Nat) : Int :=
  let guess : Int := (n.log2 : Int) - (d.log2 : Int)
  if twoPow guess ≤ (n : Rat) / (d : Rat) then guess else guess - 1

/-- The nearest fraction that has 53 significant bits, ties going to the even one. -/
def rounded (q : Rat) : Rat :=
  if q = 0 then 0
  else
    let unit := max (leadingBit q.num.natAbs q.den - 52) (-1074)
    (halfEvenRat (q / twoPow unit) : Rat) * twoPow unit

/-- The nearest number of the format; an infinity beyond its range. -/
def ofRat (q : Rat) : Binary64 :=
  let r := rounded q
  if twoPow 1024 ≤ r then infinite false
  else if r ≤ -twoPow 1024 then infinite true
  else if r = 0 ∧ q < 0 then negativeZero
  else finite r

/-- The number of the format that a decimal is read as. Numerals with a leading digit far outside
the range are not expanded. -/
def ofDecimal (d : Decimal) : Binary64 :=
  let zero := if d.negative then negativeZero else finite 0
  if d.magnitude = 0 then zero
  else if 310 < d.leading then infinite d.negative
  else if d.leading < -330 then zero
  else ofRat d.toRat

/-- The nearest number to a whole one, if there is a finite one. -/
def ofInt? (n : Int) : Option Binary64 :=
  match ofRat n with
  | infinite _ => none
  | b => some b

/-- The value of a finite number. -/
def value? : Binary64 → Option Rat
  | finite q => some q
  | negativeZero => some 0
  | infinite _ => none
  | notANumber => none

theorem ofRat_ne_notANumber (q : Rat) : ofRat q ≠ notANumber := by
  unfold ofRat
  dsimp only
  repeat' split
  all_goals exact Binary64.noConfusion

/-- Whether one number is less than another one; a value that is no number is less than nothing,
and nothing is less than it. -/
def less : Binary64 → Binary64 → Bool
  | notANumber, _ => false
  | _, notANumber => false
  | infinite negative, infinite other => negative && !other
  | infinite negative, _ => negative
  | _, infinite negative => !negative
  | a, b => decide (a.value?.getD 0 < b.value?.getD 0)

theorem less_irrefl (a : Binary64) : a.less a = false := by
  cases a with
  | finite q => simp [less, value?]
  | negativeZero => decide
  | infinite negative => cases negative <;> rfl
  | notANumber => rfl

theorem less_trans {a b c : Binary64} (hab : a.less b = true) (hbc : b.less c = true) :
    a.less c = true := by
  cases a <;> cases b <;> cases c <;>
    simp_all [less, value?] <;> grind

/-- Whether one number is at most another one; a value that is no number is at most nothing, and
nothing is at most it. -/
def atMost (a b : Binary64) : Bool := a != notANumber && b != notANumber && !b.less a

theorem atMost_iff (a b : Binary64) :
    a.atMost b = true ↔ a ≠ notANumber ∧ b ≠ notANumber ∧ b.less a = false := by
  simp [atMost, and_assoc]

/-- The number of two that is not less than the other; the first one where they are equal. -/
def larger (a b : Binary64) : Binary64 := if a.less b then b else a

def smaller (a b : Binary64) : Binary64 := if b.less a then b else a

theorem not_larger_less (a b : Binary64) : (a.larger b).less a = false := by
  unfold larger
  split
  · rename_i h
    cases hb : b.less a with
    | false => rfl
    | true => exact absurd (less_trans h hb) (by simp [less_irrefl])
  · exact less_irrefl a

theorem not_larger_less_right (a b : Binary64) : (a.larger b).less b = false := by
  unfold larger
  split
  · exact less_irrefl b
  · simp_all

theorem less_of_less_of_not_less {a b c : Binary64} (hab : a.less b = true)
    (hcb : c.less b = false) (hc : c ≠ notANumber) : a.less c = true := by
  cases a <;> cases b <;> cases c <;>
    simp_all [less, value?] <;> grind

theorem less_of_not_less_of_less {a b c : Binary64} (ha : a ≠ notANumber)
    (hba : b.less a = false) (hbc : b.less c = true) : a.less c = true := by
  cases a <;> cases b <;> cases c <;>
    simp_all [less, value?] <;> grind

/-- No number between two bounds is above the larger one. -/
theorem not_larger_less_smaller {a b c : Binary64} (hc : c ≠ notANumber) :
    (a.larger c).less (a.larger (b.smaller c)) = false := by
  rw [larger.eq_1 a (b.smaller c)]
  split
  · rw [smaller]
    split
    · exact not_larger_less_right a c
    · rename_i hcb
      rw [larger]
      split
      · simpa using hcb
      · rename_i hac
        cases hab : a.less b with
        | false => rfl
        | true => exact absurd (less_of_less_of_not_less hab (by simpa using hcb) hc) hac
  · exact not_larger_less a c

/-- The nearest number to a sum. -/
def add : Binary64 → Binary64 → Binary64
  | notANumber, _ => notANumber
  | _, notANumber => notANumber
  | infinite negative, infinite other =>
    if negative = other then infinite negative else notANumber
  | infinite negative, _ => infinite negative
  | _, infinite negative => infinite negative
  | negativeZero, negativeZero => negativeZero
  | a, b => ofRat (a.value?.getD 0 + b.value?.getD 0)

@[simp] theorem add_notANumber (a : Binary64) : a.add notANumber = notANumber := by
  cases a <;> rfl

/-- The number a given number of times doubled. -/
def doubled (times : Nat) : Binary64 → Binary64
  | finite q => ofRat (q * twoPow times)
  | b => b

end Binary64

end DeployRegistry.Number
