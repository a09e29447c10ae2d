/-!
# Decimal digits

The decimal digits of a natural number and the number that a run of digits writes. The main
statement is `ofDigits_digits`.
-/

namespace DeployRegistry.Number

set_option autoImplicit false

def digitChar (d : Nat) : Char := Char.ofNat (48 + d % 10)

def digitValue (c : Char) : Nat := c.toNat - 48

theorem digitValue_digitChar {d : Nat} (h : d < 10) : digitValue (digitChar d) = d := by
  have hall : ∀ k < 10, digitValue (digitChar k) = k := by decide
  exact hall d h

theorem isDigit_digitChar (d : Nat) : (digitChar d).isDigit = true := by
  have hall : ∀ k < 10, (Char.ofNat (48 + k)).isDigit = true := by decide
  exact hall (d % 10) (Nat.mod_lt _ (by omega))

/-- The digits of a number, most significant first; zero has the one digit `0`. -/
def digits (n : Nat) : List Char :=
  if n < 10 then [digitChar n] else digits (n / 10) ++ [digitChar n]

theorem digits_ne_nil (n : Nat) : digits n ≠ [] := by
  rw [digits]
  split <;> simp

theorem isDigit_of_mem_digits (n : Nat) : ∀ c ∈ digits n, c.isDigit = true := by
  rw [digits]
  split
  · intro c hc
    obtain rfl : c = digitChar n := by simpa using hc
    exact isDigit_digitChar n
  · intro c hc
    rcases List.mem_append.mp hc with hc | hc
    · exact isDigit_of_mem_digits (n / 10) c hc
    · obtain rfl : c = digitChar n := by simpa using hc
      exact isDigit_digitChar n

theorem head?_digits_ne_zero {n : Nat} (h : 0 < n) : (digits n).head? ≠ some '0' := by
  rw [digits]
  split
  · next hlt =>
    have hall : ∀ k < 10, 0 < k → some (digitChar k) ≠ some '0' := by decide
    exact hall n hlt h
  · next hle =>
    have hfront := head?_digits_ne_zero (n := n / 10) (by omega)
    cases hd : digits (n / 10) with
    | nil => exact absurd hd (digits_ne_nil _)
    | cons c rest =>
      rw [hd] at hfront
      exact hfront

theorem exists_digit (n : Nat) : ∃ d ds, digits n = d :: ds ∧ d.isDigit = true := by
  cases hd : digits n with
  | nil => exact absurd hd (digits_ne_nil n)
  | cons d ds => exact ⟨d, ds, rfl, isDigit_of_mem_digits n d (hd ▸ List.mem_cons_self)⟩

/-- The first digit of a number is zero only where it is the only one. -/
theorem digits_cases (n : Nat) :
    n = 0 ∨ ∃ d ds, digits n = d :: ds ∧ d ≠ '0' ∧ d.isDigit = true := by
  by_cases hzero : n = 0
  · exact Or.inl hzero
  · have hfirst := head?_digits_ne_zero (Nat.pos_of_ne_zero hzero)
    obtain ⟨d, ds, hd, hdigit⟩ := exists_digit n
    refine Or.inr ⟨d, ds, hd, ?_, hdigit⟩
    intro heq
    rw [hd, heq] at hfirst
    exact hfirst rfl

theorem length_digits_mono {m n : Nat} (h : m ≤ n) : (digits m).length ≤ (digits n).length := by
  rw [digits.eq_def m]
  split
  · exact List.length_pos_iff.mpr (digits_ne_nil n)
  · rw [digits.eq_def n, if_neg (by omega), List.length_append, List.length_append]
    exact Nat.add_le_add_right (length_digits_mono (Nat.div_le_div_right h)) 1

/-- The number written by digits, read from the left. -/
def ofDigits (cs : List Char) : Nat := cs.foldl (fun n c => 10 * n + digitValue c) 0

theorem ofDigits_append_singleton (cs : List Char) (c : Char) :
    ofDigits (cs ++ [c]) = 10 * ofDigits cs + digitValue c := by
  simp [ofDigits]

theorem digitValue_digitChar_mod (n : Nat) : digitValue (digitChar n) = n % 10 := by
  have h : digitChar n = digitChar (n % 10) := by simp [digitChar]
  rw [h, digitValue_digitChar (Nat.mod_lt _ (by omega))]

@[simp] theorem ofDigits_digits (n : Nat) : ofDigits (digits n) = n := by
  rw [digits]
  split
  · rename_i h
    simp [ofDigits, digitValue_digitChar h]
  · rw [ofDigits_append_singleton, ofDigits_digits (n / 10), digitValue_digitChar_mod]
    omega

/-- The number that a text writes, when it is one or more digits and nothing else. -/
def number? (cs : List Char) : Option Nat :=
  if cs ≠ [] ∧ cs.all Char.isDigit then some (ofDigits cs) else none

/-- At least `width` digits, filled with zeros on the left. -/
def padded (width n : Nat) : List Char :=
  List.replicate (width - (digits n).length) '0' ++ digits n

def natText (n : Nat) : String := String.ofList (digits n)

def intText (n : Int) : String :=
  if n < 0 then String.ofList ('-' :: digits n.natAbs) else natText n.natAbs

end DeployRegistry.Number
