import DeployRegistry.Proofs.Precision
import Mathlib.Data.EReal.Inv

/-!
# Doubled numbers

A number of double precision is doubled without a rounding, however often, until it is beyond the
range of the format. So what is computed by doubling and comparing is what the exact values give,
among the real numbers and the two infinities. The main statements are `rounded_scaled` and
`toEReal_doubled`.
-/

namespace DeployRegistry.Number

set_option autoImplicit false

theorem halfEvenRat_neg (q : Rat) : halfEvenRat (-q) = -halfEvenRat q := by
  rcases lt_trichotomy q 0 with h | rfl | h
  · simp [halfEvenRat, h, not_lt.mpr h.le]
  · decide
  · simp [halfEvenRat, h, not_lt.mpr h.le]

namespace Binary64

theorem rounded_neg (q : Rat) : rounded (-q) = -rounded q := by
  by_cases hq : q = 0
  · simp [hq, rounded]
  · have hunit : leadingBit (-q).num.natAbs (-q).den = leadingBit q.num.natAbs q.den := by simp
    simp only [rounded, neg_eq_zero, if_neg hq, hunit, neg_div, halfEvenRat_neg]
    push_cast
    ring

/-- A whole number of 53 bits times a power of two is not rounded. -/
theorem rounded_scaled {m e : Int} (hm : |m| < 2 ^ 53) (he : -1074 ≤ e) :
    rounded (m * twoPow e) = m * twoPow e := by
  apply le_antisymm (rounded_le_scaled hm he le_rfl)
  have hneg : rounded (-(m * twoPow e)) ≤ -(m * twoPow e) := by
    have h := rounded_le_scaled (x := (-m : Int) * twoPow e) (by rwa [abs_neg]) he le_rfl
    push_cast at h
    rwa [neg_mul] at h
  rw [rounded_neg] at hneg
  exact neg_le_neg_iff.mp hneg

/-- A fraction lies below twice its leading bit. -/
theorem lt_twoPow_leadingBit_add_one {n d : Nat} (hd : 0 < d) :
    (n : Rat) / d < twoPow (leadingBit n d + 1) := by
  have hd' : (0 : Rat) < d := by exact_mod_cast hd
  unfold leadingBit
  dsimp only
  split
  · have hnum : (n : Rat) < 2 ^ (n.log2 + 1) := by exact_mod_cast Nat.lt_log2_self
    have hden : (2 : Rat) ^ d.log2 ≤ d := by exact_mod_cast Nat.log2_self_le hd.ne'
    rw [div_lt_iff₀ hd', twoPow_eq_zpow]
    calc (n : Rat) < 2 ^ (n.log2 + 1) := hnum
      _ = 2 ^ ((n.log2 : Int) - d.log2 + 1) * 2 ^ d.log2 := by
          rw [← zpow_natCast, ← zpow_natCast, ← zpow_add₀ (by norm_num)]
          congr 1
          push_cast
          ring
      _ ≤ 2 ^ ((n.log2 : Int) - d.log2 + 1) * d := by gcongr
  · next h =>
    rw [sub_add_cancel]
    exact not_le.mp h

theorem abs_lt_twoPow_leadingBit (q : Rat) :
    |q| < twoPow (leadingBit q.num.natAbs q.den + 1) := by
  rw [abs_eq_natAbs_div]
  exact lt_twoPow_leadingBit_add_one q.den_pos

theorem abs_halfEvenRat_le {q : Rat} {k : Int} (h : |q| ≤ k) : |halfEvenRat q| ≤ k := by
  obtain ⟨hlow, hhigh⟩ := abs_le.mp h
  have hneg : halfEvenRat (-q) ≤ k := halfEvenRat_le (by linarith)
  rw [halfEvenRat_neg] at hneg
  exact abs_le.mpr ⟨by omega, halfEvenRat_le hhigh⟩

/-- Below the end of the range, a multiple of the smallest number with few enough bits is a number
of the format. -/
theorem held_scaled {m e : Int} (hm : |m| ≤ 2 ^ 53) (he : -1074 ≤ e)
    (h : |(m : Rat) * twoPow e| < twoPow 1024) : Held (m * twoPow e) := by
  rcases le_or_gt 971 e with hbig | hsmall
  · -- Bits are moved from the power of two to the whole number.
    obtain ⟨t, ht⟩ := Int.eq_ofNat_of_zero_le (show 0 ≤ e - 971 by omega)
    have hsplit : (m : Rat) * twoPow e = ((m * 2 ^ t : Int) : Rat) * twoPow 971 := by
      have he' : e = (t : Int) + 971 := by omega
      rw [he', twoPow_add, twoPow_eq_zpow t, zpow_natCast]
      push_cast
      ring
    rw [hsplit] at h ⊢
    refine ⟨_, _, rfl, ?_, by norm_num, le_rfl⟩
    have hrange : twoPow 1024 = twoPow 53 * twoPow 971 := twoPow_add 53 971
    rw [abs_mul, abs_of_pos (twoPow_pos 971), hrange] at h
    have hlt := lt_of_mul_lt_mul_right h (twoPow_pos 971).le
    rw [twoPow_eq_zpow 53, ← Int.cast_abs] at hlt
    exact_mod_cast hlt
  · rcases hm.lt_or_eq with hlt | heq
    · exact ⟨m, e, rfl, hlt, he, hsmall.le⟩
    · obtain ⟨k, hk⟩ : (2 : Int) ∣ m := by
        rw [← dvd_abs, heq]
        norm_num
      refine ⟨k, 1 + e, ?_, ?_, by omega, by omega⟩
      · rw [hk, twoPow_add, twoPow_eq_zpow 1]
        push_cast
        ring
      · rw [hk, abs_mul] at heq
        norm_num at heq ⊢
        omega

theorem held_zero : Held 0 := ⟨0, 0, by simp, by norm_num, by norm_num, by norm_num⟩

/-- What a fraction is rounded to is a number of the format, unless it is beyond its range. -/
theorem held_rounded {q : Rat} (h : |rounded q| < twoPow 1024) : Held (rounded q) := by
  by_cases hq : q = 0
  · rw [hq, rounded, if_pos rfl]
    exact held_zero
  · obtain ⟨unit, hunit⟩ : ∃ unit, unit = max (leadingBit q.num.natAbs q.den - 52) (-1074) :=
      ⟨_, rfl⟩
    have hrounded : rounded q = (halfEvenRat (q / twoPow unit) : Rat) * twoPow unit := by
      rw [rounded, if_neg hq, ← hunit]
    rw [hrounded] at h ⊢
    refine held_scaled (abs_halfEvenRat_le ?_) (by omega) h
    have hpos := twoPow_pos unit
    rw [abs_div, abs_of_pos hpos, div_le_iff₀ hpos]
    calc |q| ≤ twoPow (leadingBit q.num.natAbs q.den + 1) := (abs_lt_twoPow_leadingBit q).le
      _ ≤ twoPow (53 + unit) := twoPow_le (by omega)
      _ = ((2 ^ 53 : Int) : Rat) * twoPow unit := by
          rw [twoPow_add, twoPow_eq_zpow 53]
          norm_num

/-! The numbers that the format has, and their values. -/

/-- A number of the format: a finite one has a value that the format can hold. -/
def IsDouble (b : Binary64) : Prop := ∀ q, b.value? = some q → Held q

theorem isDouble_finite {q : Rat} (h : Held q) : (finite q).IsDouble := by
  intro v hv
  cases hv
  exact h

/-- A number without a value is one of the format. -/
theorem isDouble_of_value?_eq_none {b : Binary64} (h : b.value? = none) : b.IsDouble := by
  intro v hv
  rw [h] at hv
  cases hv

theorem isDouble_negativeZero : negativeZero.IsDouble := by
  intro v hv
  cases hv
  exact held_zero

theorem isDouble_ofRat (q : Rat) : (ofRat q).IsDouble := by
  unfold ofRat
  dsimp only
  split
  · exact isDouble_of_value?_eq_none rfl
  · next hover =>
    split
    · exact isDouble_of_value?_eq_none rfl
    · next hunder =>
      split
      · exact isDouble_negativeZero
      · exact isDouble_finite (held_rounded (abs_lt.mpr ⟨not_le.mp hunder, not_le.mp hover⟩))

theorem isDouble_ofDecimal (d : Decimal) : (ofDecimal d).IsDouble := by
  have hzero : (if d.negative then negativeZero else finite 0).IsDouble := by
    split
    · exact isDouble_negativeZero
    · exact isDouble_finite held_zero
  unfold ofDecimal
  dsimp only
  split
  · exact hzero
  · split
    · exact isDouble_of_value?_eq_none rfl
    · split
      · exact hzero
      · exact isDouble_ofRat _

/-- The value of a number among the real numbers and the infinities. -/
noncomputable def toEReal : Binary64 → EReal
  | finite q => ((q : ℝ) : EReal)
  | negativeZero => 0
  | infinite false => ⊤
  | infinite true => ⊥
  | notANumber => 0

theorem toEReal_zero : (finite 0).toEReal = 0 := by simp [toEReal]

theorem toEReal_of_value {b : Binary64} {q : Rat} (h : b.value? = some q) :
    b.toEReal = ((q : ℝ) : EReal) := by
  cases b with
  | finite q' =>
    cases h
    rfl
  | negativeZero =>
    cases h
    simp [toEReal]
  | infinite negative => cases h
  | notANumber => cases h

theorem less_iff {a b : Binary64} (ha : a ≠ notANumber) (hb : b ≠ notANumber) :
    a.less b = true ↔ a.toEReal < b.toEReal := by
  rcases a with p | _ | (_ | _) | _ <;> rcases b with q | _ | (_ | _) | _ <;>
    simp [less, toEReal, value?] at ha hb ⊢
  all_goals exact_mod_cast decide_eq_true_iff

theorem larger_ne_notANumber {a b : Binary64} (ha : a ≠ notANumber) :
    a.larger b ≠ notANumber := by
  unfold larger
  split
  · next h =>
    rintro rfl
    cases a <;> cases h
  · exact ha

theorem smaller_ne_notANumber {a b : Binary64} (ha : a ≠ notANumber) :
    a.smaller b ≠ notANumber := by
  unfold smaller
  split
  · next h =>
    rintro rfl
    cases h
  · exact ha

theorem toEReal_larger {a b : Binary64} (ha : a ≠ notANumber) (hb : b ≠ notANumber) :
    (a.larger b).toEReal = max a.toEReal b.toEReal := by
  unfold larger
  split
  · next h => exact (max_eq_right ((less_iff ha hb).mp h).le).symm
  · next h => exact (max_eq_left (not_lt.mp (mt (less_iff ha hb).mpr h))).symm

theorem toEReal_smaller {a b : Binary64} (ha : a ≠ notANumber) (hb : b ≠ notANumber) :
    (a.smaller b).toEReal = min a.toEReal b.toEReal := by
  unfold smaller
  split
  · next h => exact (min_eq_right ((less_iff hb ha).mp h).le).symm
  · next h => exact (min_eq_left (not_lt.mp (mt (less_iff hb ha).mpr h))).symm

theorem coe_twoPow (t : Nat) : (((twoPow t : Rat) : ℝ) : EReal) = 2 ^ t := by
  rw [twoPow_eq_zpow, zpow_natCast]
  push_cast
  rfl

theorem two_pow_pos (t : Nat) : (0 : EReal) < 2 ^ t := by
  rw [← coe_twoPow]
  exact_mod_cast twoPow_pos t

/-- No number of the format is between the end of its range and infinity. -/
theorem IsDouble.toEReal_lt {b : Binary64} (hb : b.IsDouble) (h : b ≠ infinite false) :
    b.toEReal < 2 ^ 1024 := by
  cases hvalue : b.value? with
  | some q =>
    rw [toEReal_of_value hvalue, ← coe_twoPow]
    exact_mod_cast (hb q hvalue).lt
  | none =>
    cases b with
    | finite q => cases hvalue
    | negativeZero => cases hvalue
    | infinite negative =>
      cases negative with
      | false => exact absurd rfl h
      | true => exact (two_pow_pos 1024).bot_lt
    | notANumber => exact two_pow_pos 1024

/-- What a number comes to that is not rounded: itself, or an infinity beyond the range. -/
theorem toEReal_ofRat {x : Rat} (h : rounded x = x) :
    (ofRat x).toEReal = ((x : ℝ) : EReal) ∨
      ((2 ^ 1024 : EReal) ≤ ((x : ℝ) : EReal) ∧ (ofRat x).toEReal = ⊤) ∨
      (((x : ℝ) : EReal) < 0 ∧ (ofRat x).toEReal = ⊥) := by
  have hend : (0 : Rat) < twoPow 1024 := twoPow_pos 1024
  unfold ofRat
  rw [h]
  dsimp only
  split
  · next hover =>
    refine Or.inr (Or.inl ⟨?_, rfl⟩)
    rw [← coe_twoPow]
    exact_mod_cast hover
  · split
    · next hunder =>
      refine Or.inr (Or.inr ⟨?_, rfl⟩)
      have hneg : x < 0 := by linarith
      exact_mod_cast hneg
    · split
      · next hzero => exact absurd hzero.1 hzero.2.ne
      · exact Or.inl rfl

/-- Doubling is exact up to the range of the format. -/
theorem toEReal_doubled {b : Binary64} (hb : b.IsDouble) (h : b ≠ notANumber) (t : Nat) :
    (b.doubled t).toEReal = b.toEReal * 2 ^ t ∨
      ((2 ^ 1024 : EReal) ≤ b.toEReal * 2 ^ t ∧ (b.doubled t).toEReal = ⊤) ∨
      (b.toEReal * 2 ^ t < 0 ∧ (b.doubled t).toEReal = ⊥) := by
  have hpos := two_pow_pos t
  cases b with
  | finite q =>
    obtain ⟨m, e, rfl, hm, he, -⟩ := hb q rfl
    have hproduct : (m : Rat) * twoPow e * twoPow t = m * twoPow (e + t) := by
      rw [twoPow_add, mul_assoc]
    have hexact : rounded (m * twoPow e * twoPow t) = m * twoPow e * twoPow t := by
      rw [hproduct]
      exact rounded_scaled hm (by omega)
    have hvalue : (finite (m * twoPow e)).toEReal * 2 ^ t =
        (((m * twoPow e * twoPow t : Rat) : ℝ) : EReal) := by
      rw [← coe_twoPow, toEReal, ← EReal.coe_mul, Rat.cast_mul (_ * _)]
    rw [hvalue]
    exact toEReal_ofRat hexact
  | negativeZero => exact Or.inl (zero_mul _).symm
  | infinite negative =>
    cases negative with
    | false => exact Or.inl (EReal.top_mul_of_pos hpos).symm
    | true => exact Or.inl (EReal.bot_mul_of_pos hpos).symm
  | notANumber => exact absurd rfl h

theorem IsDouble.doubled {b : Binary64} (hb : b.IsDouble) (t : Nat) : (b.doubled t).IsDouble := by
  cases b with
  | finite q => exact isDouble_ofRat _
  | negativeZero => exact hb
  | infinite negative => exact hb
  | notANumber => exact hb

theorem doubled_eq_notANumber_iff (b : Binary64) (t : Nat) :
    b.doubled t = notANumber ↔ b = notANumber := by
  cases b with
  | finite q => simpa [doubled] using ofRat_ne_notANumber _
  | negativeZero => rfl
  | infinite negative => rfl
  | notANumber => rfl

theorem toEReal_doubled_of_le {b : Binary64} (hb : b.IsDouble) (h : b ≠ notANumber) {t : Nat}
    (hover : (2 ^ 1024 : EReal) ≤ b.toEReal * 2 ^ t) : (b.doubled t).toEReal = ⊤ := by
  by_contra hne
  have htop : b.doubled t ≠ infinite false := by
    intro heq
    rw [heq] at hne
    exact hne rfl
  have hlt := (hb.doubled t).toEReal_lt htop
  rcases toEReal_doubled hb h t with hexact | ⟨_, hinf⟩ | ⟨hneg, _⟩
  · rw [hexact] at hlt
    exact absurd hover (not_le.mpr hlt)
  · exact hne hinf
  · exact absurd ((two_pow_pos 1024).trans_le hover) (not_lt.mpr hneg.le)

theorem toEReal_doubled_of_lt {b : Binary64} (hb : b.IsDouble) (h : b ≠ notANumber)
    (hnonneg : 0 ≤ b.toEReal) {t : Nat} (hunder : b.toEReal * 2 ^ t < 2 ^ 1024) :
    (b.doubled t).toEReal = b.toEReal * 2 ^ t := by
  rcases toEReal_doubled hb h t with hexact | ⟨hover, _⟩ | ⟨hneg, _⟩
  · exact hexact
  · exact absurd hunder (not_lt.mpr hover)
  · exact absurd (mul_nonneg hnonneg (two_pow_pos t).le) (not_le.mpr hneg)

theorem toEReal_doubled_mono {b : Binary64} (hb : b.IsDouble) (hnonneg : 0 ≤ b.toEReal)
    {s t : Nat} (hst : s ≤ t) : (b.doubled s).toEReal ≤ (b.doubled t).toEReal := by
  by_cases h : b = notANumber
  · rw [h]
    rfl
  · by_cases hover : (2 ^ 1024 : EReal) ≤ b.toEReal * 2 ^ t
    · rw [toEReal_doubled_of_le hb h hover]
      exact le_top
    · have hpow : (2 : EReal) ^ s ≤ 2 ^ t := by
        rw [← coe_twoPow, ← coe_twoPow]
        exact_mod_cast twoPow_le (Int.ofNat_le.mpr hst)
      have hle : b.toEReal * 2 ^ s ≤ b.toEReal * 2 ^ t := mul_le_mul_of_nonneg_left hpow hnonneg
      have hunder := not_le.mp hover
      rw [toEReal_doubled_of_lt hb h hnonneg hunder,
        toEReal_doubled_of_lt hb h hnonneg (hle.trans_lt hunder)]
      exact hle

end Binary64

end DeployRegistry.Number
