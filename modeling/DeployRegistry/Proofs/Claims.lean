import DeployRegistry.Token.Claims

/-!
# What claims have to say

The registered claims of a token allow a second, or the token is unusable, or one of their times is
no time that could be compared. The main statements are `Token.checkClaims_eq_ok_iff` and
`Token.checkClaims_error`.
-/

namespace DeployRegistry.Token

set_option autoImplicit false

open Number

section

variable {ε α β : Type} {x : Except ε α} {f : α → Except ε β}

theorem ok_bind (a : α) (f : α → Except ε β) : (Except.ok a >>= f) = f a := rfl

theorem bind_eq_ok_iff {b : β} : (x >>= f) = .ok b ↔ ∃ a, x = .ok a ∧ f a = .ok b := by
  constructor
  · intro h
    cases x with
    | error e => cases h
    | ok a => exact ⟨a, rfl, h⟩
  · intro h
    obtain ⟨a, rfl, hb⟩ := h
    exact hb

theorem error_cases {e : ε} (h : (x >>= f) = .error e) :
    x = .error e ∨ ∃ a, x = .ok a ∧ f a = .error e := by
  cases x with
  | error e' =>
    cases h
    exact Or.inl rfl
  | ok a => exact Or.inr ⟨a, rfl, h⟩

end

/-! The time of a claim. -/

/-- A time that is claimed can be told, and is good. -/
def Timely (claims : Json.Members) (name : String) (g : Int → Prop) : Prop :=
  ∀ v, claim? claims name = some v → ∃ n, second v = .ok n ∧ g n

/-- A claimed time that cannot be compared: it is no time at all, or it has no end. -/
inductive Incomparable : Json → Refusal → Prop
  | nothing : Incomparable .null .timeless
  | list (items : List Json) : Incomparable (.arr items) .timeless
  | object (members : Json.Members) : Incomparable (.obj members) .timeless
  | number {d : Decimal} {negative : Bool} (h : Binary64.ofDecimal d = .infinite negative) :
    Incomparable (.num (.decimal d)) .endless
  | unbounded {u : Unbounded} (h : u ≠ .notANumber) : Incomparable (.unbounded u) .endless

theorem Incomparable.second_eq {v : Json} {e : Refusal} (h : Incomparable v e) :
    second v = .error e := by
  cases h with
  | nothing => rfl
  | list items => rfl
  | object members => rfl
  | number h =>
    rw [second, h]
    rfl
  | @unbounded u h =>
    cases u with
    | notANumber => exact absurd rfl h
    | infinity => rfl
    | negativeInfinity => rfl

theorem second_error {v : Json} {e : Refusal} (h : second v = .error e) :
    e = .unusable ∨ Incomparable v e := by
  unfold second at h
  split at h
  · cases h
  · unfold secondOfNumber at h
    split at h
    · cases h
      exact Or.inl rfl
    · next negative hinfinite =>
      cases h
      exact Or.inr (.number hinfinite)
    · cases h
  · cases h
  · split at h
    · cases h
    · cases h
      exact Or.inl rfl
  · cases h
    exact Or.inl rfl
  · next hbounded =>
    cases h
    exact Or.inr (.unbounded hbounded)
  · cases h
    exact Or.inr .nothing
  · cases h
    exact Or.inr (.list _)
  · cases h
    exact Or.inr (.object _)

section

variable {claims : Json.Members} {name : String} {g : Int → Prop} [DecidablePred g]

theorem checkTime_eq_ok_iff :
    checkTime claims name (fun n => decide (g n)) = .ok () ↔ Timely claims name g := by
  unfold checkTime Timely
  cases claim? claims name with
  | none => simp
  | some v =>
    constructor
    · intro h w hw
      cases hw
      obtain ⟨n, hn, h⟩ := bind_eq_ok_iff.1 h
      by_cases hgood : g n
      · exact ⟨n, hn, hgood⟩
      · rw [if_neg (by simpa using hgood)] at h
        cases h
    · intro h
      obtain ⟨n, hn, hgood⟩ := h v rfl
      exact bind_eq_ok_iff.2 ⟨n, hn, if_pos (decide_eq_true hgood)⟩

theorem checkTime_error {e : Refusal}
    (h : checkTime claims name (fun n => decide (g n)) = .error e) :
    e = .unusable ∨ ∃ v, claim? claims name = some v ∧ Incomparable v e := by
  unfold checkTime at h
  cases hfound : claim? claims name with
  | none =>
    rw [hfound] at h
    cases h
  | some v =>
    rw [hfound] at h
    rcases error_cases h with h | ⟨n, _, h⟩
    · rcases second_error h with h | h
      · exact Or.inl h
      · exact Or.inr ⟨v, rfl, h⟩
    · split at h
      · cases h
      · cases h
        exact Or.inl rfl

theorem checkTime_of_incomparable {v : Json} {e : Refusal} (hv : claim? claims name = some v)
    (h : Incomparable v e) : checkTime claims name (fun n => decide (g n)) = .error e := by
  rw [checkTime, hv]
  simp only [h.second_eq, bind, Except.bind]

end

/-! All claims that are registered. -/

theorem checkAbsent_eq_ok_iff {claims : Json.Members} {name : String} :
    checkAbsent claims name = .ok () ↔ claim? claims name = none := by
  unfold checkAbsent Json.Members.has claim?
  cases Json.Members.member? claims name with
  | none => simp
  | some v => simp

theorem unusable_of_checkAbsent {claims : Json.Members} {name : String} {e : Refusal}
    (h : checkAbsent claims name = .error e) : e = .unusable := by
  unfold checkAbsent at h
  split at h
  · cases h
    rfl
  · cases h

theorem checkText_eq_ok_iff {claims : Json.Members} {name : String} :
    checkText claims name = .ok () ↔ ∀ v, claim? claims name = some v → ∃ text, v = .str text := by
  unfold checkText
  cases claim? claims name with
  | none => simp
  | some v => cases v <;> simp

theorem unusable_of_checkText {claims : Json.Members} {name : String} {e : Refusal}
    (h : checkText claims name = .error e) : e = .unusable := by
  unfold checkText at h
  split at h
  · cases h
  · cases h
  · cases h
    rfl

/-- The registered claims of a token that is good at a second. -/
structure Allows (now : Int) (claims : Json.Members) : Prop where
  issued : Timely claims "iat" fun _ => True
  begun : Timely claims "nbf" fun n => n ≤ now
  unexpired : Timely claims "exp" fun n => now ≤ n
  unaddressed : claim? claims "aud" = none
  subject : ∀ v, claim? claims "sub" = some v → ∃ text, v = .str text
  named : ∀ v, claim? claims "jti" = some v → ∃ text, v = .str text
  undigested : claim? claims "at_hash" = none

variable {now : Int} {claims : Json.Members}

theorem checkClaims_eq_ok_iff : checkClaims now claims = .ok () ↔ Allows now claims := by
  unfold checkClaims
  constructor
  · intro h
    obtain ⟨_, hissued, h⟩ := bind_eq_ok_iff.1 h
    obtain ⟨_, hbegun, h⟩ := bind_eq_ok_iff.1 h
    obtain ⟨_, hunexpired, h⟩ := bind_eq_ok_iff.1 h
    obtain ⟨_, hunaddressed, h⟩ := bind_eq_ok_iff.1 h
    obtain ⟨_, hsubject, h⟩ := bind_eq_ok_iff.1 h
    obtain ⟨_, hnamed, h⟩ := bind_eq_ok_iff.1 h
    exact ⟨(checkTime_eq_ok_iff (g := fun _ => True)).1 hissued, checkTime_eq_ok_iff.1 hbegun,
      checkTime_eq_ok_iff.1 hunexpired, checkAbsent_eq_ok_iff.1 hunaddressed,
      checkText_eq_ok_iff.1 hsubject, checkText_eq_ok_iff.1 hnamed, checkAbsent_eq_ok_iff.1 h⟩
  · intro h
    refine bind_eq_ok_iff.2 ⟨(), (checkTime_eq_ok_iff (g := fun _ => True)).2 h.issued, ?_⟩
    refine bind_eq_ok_iff.2 ⟨(), checkTime_eq_ok_iff.2 h.begun, ?_⟩
    refine bind_eq_ok_iff.2 ⟨(), checkTime_eq_ok_iff.2 h.unexpired, ?_⟩
    refine bind_eq_ok_iff.2 ⟨(), checkAbsent_eq_ok_iff.2 h.unaddressed, ?_⟩
    refine bind_eq_ok_iff.2 ⟨(), checkText_eq_ok_iff.2 h.subject, ?_⟩
    refine bind_eq_ok_iff.2 ⟨(), checkText_eq_ok_iff.2 h.named, ?_⟩
    exact checkAbsent_eq_ok_iff.2 h.undigested

/-- The times of a token are told one after the other, and one of them cannot be compared. -/
inductive Mistimed (now : Int) (claims : Json.Members) : Refusal → Prop
  | issued {v : Json} {e : Refusal} (hv : claim? claims "iat" = some v) (h : Incomparable v e) :
    Mistimed now claims e
  | begun {v : Json} {e : Refusal} (hissued : Timely claims "iat" fun _ => True)
    (hv : claim? claims "nbf" = some v) (h : Incomparable v e) : Mistimed now claims e
  | unexpired {v : Json} {e : Refusal} (hissued : Timely claims "iat" fun _ => True)
    (hbegun : Timely claims "nbf" fun n => n ≤ now)
    (hv : claim? claims "exp" = some v) (h : Incomparable v e) : Mistimed now claims e

theorem Mistimed.checkClaims_eq {e : Refusal} (h : Mistimed now claims e) :
    checkClaims now claims = .error e := by
  have hpassed : Timely claims "iat" (fun _ => True) →
      checkTime claims "iat" (fun _ => true) = .ok () :=
    (checkTime_eq_ok_iff (g := fun _ => True)).2
  cases h with
  | issued hv h =>
    have hfailed : checkTime claims "iat" (fun _ => true) = .error e :=
      checkTime_of_incomparable (g := fun _ => True) hv h
    rw [checkClaims, hfailed]
    rfl
  | begun hissued hv h =>
    have hfailed := checkTime_of_incomparable (g := fun n => n ≤ now) hv h
    rw [checkClaims, hpassed hissued, hfailed]
    rfl
  | unexpired hissued hbegun hv h =>
    have hfailed := checkTime_of_incomparable (g := fun n => now ≤ n) hv h
    rw [checkClaims, hpassed hissued, checkTime_eq_ok_iff.2 hbegun, hfailed]
    rfl

theorem checkClaims_error {e : Refusal} (h : checkClaims now claims = .error e) :
    e = .unusable ∨ Mistimed now claims e := by
  rcases error_cases h with h | ⟨_, hissued, h⟩
  · rcases checkTime_error (g := fun _ => True) h with h | ⟨v, hv, h⟩
    · exact Or.inl h
    · exact Or.inr (.issued hv h)
  have hissued := (checkTime_eq_ok_iff (g := fun _ => True)).1 hissued
  rcases error_cases h with h | ⟨_, hbegun, h⟩
  · rcases checkTime_error h with h | ⟨v, hv, h⟩
    · exact Or.inl h
    · exact Or.inr (.begun hissued hv h)
  have hbegun := checkTime_eq_ok_iff.1 hbegun
  rcases error_cases h with h | ⟨_, _, h⟩
  · rcases checkTime_error h with h | ⟨v, hv, h⟩
    · exact Or.inl h
    · exact Or.inr (.unexpired hissued hbegun hv h)
  rcases error_cases h with h | ⟨_, _, h⟩
  · exact Or.inl (unusable_of_checkAbsent h)
  rcases error_cases h with h | ⟨_, _, h⟩
  · exact Or.inl (unusable_of_checkText h)
  rcases error_cases h with h | ⟨_, _, h⟩
  · exact Or.inl (unusable_of_checkText h)
  · exact Or.inl (unusable_of_checkAbsent h)

end DeployRegistry.Token
