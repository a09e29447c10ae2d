/-!
# Rounding

A quotient of natural numbers rounded to the nearest natural number, a half going to the even
neighbour. The main statement is `two_mul_halfEven_close`: the result is within half a unit.
-/

namespace DeployRegistry.Number

set_option autoImplicit false

/-- The natural number nearest to `n / d`; of two that are equally near, the even one. -/
def halfEven (n d : Nat) : Nat :=
  let q := n / d
  let r := n % d
  if 2 * r < d then q
  else if d < 2 * r then q + 1
  else if q % 2 = 0 then q else q + 1

theorem two_mul_halfEven_close {n d : Nat} (hd : 0 < d) :
    2 * n ≤ 2 * (d * halfEven n d) + d ∧ 2 * (d * halfEven n d) ≤ 2 * n + d := by
  have hn : d * (n / d) + n % d = n := Nat.div_add_mod n d
  have hr : n % d < d := Nat.mod_lt n hd
  simp only [halfEven]
  split
  · omega
  · split
    · rw [Nat.mul_add]; omega
    · split
      · omega
      · rw [Nat.mul_add]; omega

/-- The whole number nearest to a fraction, a half going away from zero. -/
def halfAway (q : Rat) : Int :=
  if q < 0 then -((-q + 1 / 2).floor) else (q + 1 / 2).floor

/-- The whole number nearest to a fraction, a half going to the even neighbour. -/
def halfEvenRat (q : Rat) : Int :=
  if q < 0 then -(halfEven q.num.natAbs q.den : Int) else (halfEven q.num.natAbs q.den : Int)

end DeployRegistry.Number
