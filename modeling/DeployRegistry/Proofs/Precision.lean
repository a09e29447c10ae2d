import DeployRegistry.Number.Binary64
import Mathlib.Algebra.Order.Field.Power
import Mathlib.Algebra.Order.Field.Rat
import Mathlib.Data.Rat.Cast.Order
import Mathlib.Tactic.FieldSimp
import Mathlib.Tactic.Linarith
import Mathlib.Tactic.NormNum
import Mathlib.Tactic.Positivity
import Mathlib.Tactic.Ring

/-!
# How far a clock can be trusted

The readings of a clock are numbers of double precision, and so is the moment at which something
ends. That moment is rounded, yet no reading falls between it and the exact one: a reading before
the rounded end is before the end itself. The main statement is `within_of_less_add`.
-/

namespace DeployRegistry.Number

set_option autoImplicit false

theorem halfEvenRat_le_add_half (q : Rat) : (halfEvenRat q : Rat) ≤ q + 1 / 2 := by
  have hden : (0 : Rat) < q.den := by exact_mod_cast q.den_pos
  have hq : q * q.den = q.num := Rat.mul_den_eq_num q
  obtain ⟨hlow, hhigh⟩ := two_mul_halfEven_close (n := q.num.natAbs) q.den_pos
  have hlow' : (2 * q.num.natAbs : Rat) ≤
      2 * (q.den * halfEven q.num.natAbs q.den) + q.den := by exact_mod_cast hlow
  have hhigh' : (2 * (q.den * halfEven q.num.natAbs q.den) : Rat) ≤
      2 * q.num.natAbs + q.den := by exact_mod_cast hhigh
  have habs : ((q.num.natAbs : Nat) : Rat) = |(q.num : Rat)| := by
    rw [← Int.cast_abs, Int.abs_eq_natAbs]
    rfl
  refine le_of_mul_le_mul_right ?_ hden
  unfold halfEvenRat
  split
  · next hneg =>
    have hnum : (q.num : Rat) ≤ 0 := by
      rw [← hq]
      exact mul_nonpos_of_nonpos_of_nonneg hneg.le hden.le
    rw [abs_of_nonpos hnum] at habs
    push_cast
    linarith
  · next hpos =>
    have hnum : (0 : Rat) ≤ q.num := by
      rw [← hq]
      exact mul_nonneg (not_lt.mp hpos) hden.le
    rw [abs_of_nonneg hnum] at habs
    push_cast
    linarith

/-- A fraction is not rounded past a whole number. -/
theorem halfEvenRat_le {q : Rat} {k : Int} (h : q ≤ k) : halfEvenRat q ≤ k := by
  have hround := halfEvenRat_le_add_half q
  have hlt : (halfEvenRat q : Rat) < ((k + 1 : Int) : Rat) := by
    push_cast
    linarith
  have := Int.cast_lt.mp hlt
  omega

namespace Binary64

theorem twoPow_eq_zpow (e : Int) : twoPow e = (2 : Rat) ^ e := by
  unfold twoPow
  split
  · next h =>
    obtain ⟨n, rfl⟩ := Int.eq_ofNat_of_zero_le h
    simp
  · next h =>
    obtain ⟨n, hn⟩ := Int.eq_ofNat_of_zero_le (show 0 ≤ -e by omega)
    have he : e = -(n : Int) := by omega
    subst he
    simp

theorem twoPow_pos (e : Int) : 0 < twoPow e := by
  rw [twoPow_eq_zpow]
  positivity

theorem twoPow_add (a b : Int) : twoPow (a + b) = twoPow a * twoPow b := by
  simp only [twoPow_eq_zpow]
  exact zpow_add₀ (by norm_num) a b

theorem twoPow_le {a b : Int} (h : a ≤ b) : twoPow a ≤ twoPow b := by
  simp only [twoPow_eq_zpow]
  exact zpow_le_zpow_right₀ (by norm_num) h

/-- No fraction other than zero lies below its leading bit. -/
theorem twoPow_leadingBit_le {n d : Nat} (hn : n ≠ 0) (hd : 0 < d) :
    twoPow (leadingBit n d) ≤ (n : Rat) / d := by
  unfold leadingBit
  dsimp only
  split
  · assumption
  · have hnum : (2 : Rat) ^ n.log2 ≤ n := by exact_mod_cast Nat.log2_self_le hn
    have hden : (d : Rat) < 2 ^ (d.log2 + 1) := by exact_mod_cast Nat.lt_log2_self
    have hd' : (0 : Rat) < d := by exact_mod_cast hd
    rw [le_div_iff₀ hd', twoPow_eq_zpow]
    calc (2 : Rat) ^ ((n.log2 : Int) - d.log2 - 1) * d
        ≤ 2 ^ ((n.log2 : Int) - d.log2 - 1) * 2 ^ (d.log2 + 1) := by gcongr
      _ = 2 ^ n.log2 := by
          rw [← zpow_natCast, ← zpow_natCast, ← zpow_add₀ (by norm_num)]
          congr 1
          push_cast
          ring
      _ ≤ n := hnum

theorem abs_eq_natAbs_div (q : Rat) : |q| = (q.num.natAbs : Rat) / q.den := by
  rw [Rat.abs_def, Rat.divInt_eq_div]
  simp only [Int.cast_natCast]

theorem twoPow_leadingBit_le_abs {q : Rat} (hq : q ≠ 0) :
    twoPow (leadingBit q.num.natAbs q.den) ≤ |q| := by
  have hnum : q.num.natAbs ≠ 0 := by simpa using hq
  rw [abs_eq_natAbs_div]
  exact twoPow_leadingBit_le hnum q.den_pos

/-- A whole number of 53 bits times a power of two in the range of the format. -/
def Held (q : Rat) : Prop :=
  ∃ m e : Int, q = m * twoPow e ∧ |m| < 2 ^ 53 ∧ -1074 ≤ e ∧ e ≤ 971

theorem Held.lt {q : Rat} (h : Held q) : q < twoPow 1024 := by
  obtain ⟨m, e, rfl, hm, _, he⟩ := h
  have hm' : (m : Rat) < twoPow 53 := by
    have hlt : m < 2 ^ 53 := (le_abs_self m).trans_lt hm
    rw [twoPow_eq_zpow]
    exact_mod_cast hlt
  calc (m : Rat) * twoPow e < twoPow 53 * twoPow e := by
        have := twoPow_pos e
        gcongr
    _ = twoPow (53 + e) := (twoPow_add 53 e).symm
    _ ≤ twoPow 1024 := twoPow_le (by omega)

theorem Held.abs_lt {m e lead : Int} (hm : |m| < 2 ^ 53) (he : e < lead - 52) :
    |(m : Rat) * twoPow e| < twoPow lead := by
  have hm' : |(m : Rat)| < twoPow 53 := by
    rw [twoPow_eq_zpow]
    exact_mod_cast hm
  have hpos := twoPow_pos e
  calc |(m : Rat) * twoPow e| = |(m : Rat)| * twoPow e := by rw [abs_mul, abs_of_pos hpos]
    _ < twoPow 53 * twoPow e := by gcongr
    _ = twoPow (53 + e) := (twoPow_add 53 e).symm
    _ ≤ twoPow lead := twoPow_le (by omega)

theorem halfEvenRat_div_mul_le {x u : Rat} (hu : 0 < u) {k : Int} (h : x ≤ k * u) :
    (halfEvenRat (x / u) : Rat) * u ≤ k * u := by
  have hk : halfEvenRat (x / u) ≤ k := by
    apply halfEvenRat_le
    rwa [div_le_iff₀ hu]
  have hk' : (halfEvenRat (x / u) : Rat) ≤ k := by exact_mod_cast hk
  exact mul_le_mul_of_nonneg_right hk' hu.le

/-- A fraction is not rounded past a whole number of 53 bits times a power of two. -/
theorem rounded_le_scaled {x : Rat} {m e : Int} (hm : |m| < 2 ^ 53) (he : -1074 ≤ e)
    (h : x ≤ m * twoPow e) : rounded x ≤ m * twoPow e := by
  unfold rounded
  split
  · next hx =>
    rw [hx] at h
    exact h
  next hx =>
  dsimp only
  have hlead := twoPow_leadingBit_le_abs hx
  generalize leadingBit x.num.natAbs x.den = lead at hlead
  obtain ⟨u, hu⟩ : ∃ u, u = max (lead - 52) (-1074) := ⟨_, rfl⟩
  rw [← hu]
  rcases le_or_gt u e with hle | hlt
  · -- The number of the format is a whole multiple of the unit.
    have hsplit : (m : Rat) * twoPow e = ((m * 2 ^ (e - u).toNat : Int) : Rat) * twoPow u := by
      have he' : e = ((e - u).toNat : Int) + u := by omega
      rw [he', twoPow_add, twoPow_eq_zpow ((e - u).toNat : Int)]
      push_cast
      rw [zpow_natCast, show ((e - u).toNat : Int) + u - u = ((e - u).toNat : Int) by omega]
      simp only [Int.toNat_natCast]
      ring
    rw [hsplit] at h ⊢
    exact halfEvenRat_div_mul_le (twoPow_pos u) h
  · -- Its leading bit is below that of the fraction, which is therefore negative.
    have hulead : u = lead - 52 := by omega
    have habs := Held.abs_lt hm (hulead ▸ hlt)
    have hunit : twoPow lead = ((2 ^ 52 : Int) : Rat) * twoPow u := by
      have hlead' : lead = 52 + u := by omega
      rw [hlead', twoPow_add, twoPow_eq_zpow 52]
      norm_num
    have hneg : x < 0 := by
      by_contra hpos
      rw [abs_of_nonneg (not_lt.mp hpos)] at hlead
      have := (abs_lt.mp habs).2
      linarith
    have hx' : x ≤ ((-2 ^ 52 : Int) : Rat) * twoPow u := by
      rw [abs_of_neg hneg] at hlead
      push_cast at hunit ⊢
      linarith
    have hround := halfEvenRat_div_mul_le (twoPow_pos u) hx'
    have := (abs_lt.mp habs).1
    push_cast at hunit hround
    linarith

theorem rounded_le_of_held {x n : Rat} (hn : Held n) (h : x ≤ n) : rounded x ≤ n := by
  obtain ⟨m, e, rfl, hm, he, _⟩ := hn
  exact rounded_le_scaled hm he h

/-! Readings of a clock, and what lies between them. -/

/-- A finite number of the format. -/
def IsReading (b : Binary64) : Prop := ∃ q, b.value? = some q ∧ Held q

theorem isReading_int {m : Int} (h : |m| < 2 ^ 53) : (finite m).IsReading := by
  refine ⟨m, rfl, m, 0, ?_, h, by norm_num, by norm_num⟩
  rw [twoPow_eq_zpow, zpow_zero, mul_one]

theorem IsReading.ne_notANumber {b : Binary64} (h : b.IsReading) : b ≠ notANumber := by
  rintro rfl
  obtain ⟨q, hq, _⟩ := h
  cases hq

/-- A span that is a number ends at a number. -/
theorem IsReading.add_ne_notANumber {since span : Binary64} (h : since.IsReading)
    (hspan : span ≠ notANumber) : since.add span ≠ notANumber := by
  obtain ⟨q, hq, _⟩ := h
  cases since <;> cases span <;> simp_all [add, value?, ofRat_ne_notANumber]

/-- Less than a span lies between two readings, in exact numbers; everything is less than an
infinite span. -/
def Within (span since now : Binary64) : Prop :=
  ∃ s n, since.value? = some s ∧ now.value? = some n ∧
    (span = infinite false ∨ ∃ l, span.value? = some l ∧ n - s < l)

theorem less_ofRat {now : Binary64} {n x : Rat} (hvalue : now.value? = some n) (hn : Held n)
    (h : now.less (ofRat x) = true) : n < x := by
  by_contra hge
  have hround := rounded_le_of_held hn (not_lt.mp hge)
  have hrange := hn.lt
  unfold ofRat at h
  dsimp only at h
  split at h
  · next hover => linarith
  · split at h
    · cases now <;> simp_all [less, value?]
    · split at h
      · next hzero =>
        cases now <;> simp_all [less, value?]
        linarith
      · cases now <;> simp_all [less, value?] <;> linarith

theorem less_add {since now span : Binary64} {s n l : Rat} (hs : since.value? = some s)
    (hl : span.value? = some l) (hvalue : now.value? = some n) (hn : Held n)
    (h : now.less (since.add span) = true) : n < s + l := by
  by_cases hzero : since = negativeZero ∧ span = negativeZero
  · obtain ⟨rfl, rfl⟩ := hzero
    cases hs
    cases hl
    rw [Rat.add_zero]
    cases now with
    | finite q =>
      obtain rfl := Option.some.inj hvalue
      exact of_decide_eq_true h
    | negativeZero => cases h
    | infinite negative => cases hvalue
    | notANumber => cases hvalue
  · have hadd : since.add span = ofRat (s + l) := by
      cases since <;> cases span <;> simp_all [add, value?]
    rw [hadd] at h
    exact less_ofRat hvalue hn h

/-- A reading before the rounded end of a span is within the span. -/
theorem within_of_less_add {since now span : Binary64} (hsince : since.IsReading)
    (hnow : now.IsReading) (h : now.less (since.add span) = true) : Within span since now := by
  obtain ⟨s, hs, _⟩ := hsince
  obtain ⟨n, hn, hheld⟩ := hnow
  refine ⟨s, n, hs, hn, ?_⟩
  cases hl : span.value? with
  | some l =>
    have := less_add hs hl hn hheld h
    exact Or.inr ⟨l, rfl, by linarith⟩
  | none =>
    -- A span without a value is no number or infinite, and nothing is before its end if it is not
    -- the positive infinity.
    cases span with
    | infinite negative =>
      cases negative with
      | false => exact Or.inl rfl
      | true => cases since <;> cases now <;> simp_all [add, less, value?]
    | notANumber => cases since <;> cases now <;> simp_all [add, less, value?]
    | finite q => cases hl
    | negativeZero => cases hl

end Binary64

end DeployRegistry.Number
