import DeployRegistry.Proofs.Doubling
import DeployRegistry.Proofs.Inquiries
import Mathlib.Algebra.Order.BigOperators.Group.List
import Mathlib.Order.Bounds.Basic

/-!
# Attempts and the waits between them

Attempts are made until one succeeds or fails for good, or as many were made as are allowed. How
long the waits between them are is what the exact numbers of the settings give. The main statements
are `RetryPolicy.run_of_endsWith`, `RetryPolicy.Sound.prescribes_wait` and
`Settings.retry_schedule`.
-/

namespace DeployRegistry

set_option autoImplicit false

open Number

/-! Attempts that are made again and again. -/

section

variable {σ ε α : Type} (attempt : StateM σ (Except ε α))

/-- The state after so many attempts. -/
def stateAfter (start : σ) : Nat → σ
  | 0 => start
  | n + 1 => (attempt.run (stateAfter start n)).2

/-- What comes of an attempt; the first one has the number one. -/
def nthOutcome (start : σ) (number : Nat) : Except ε α :=
  (attempt.run (stateAfter attempt start (number - 1))).1

theorem run_eq_nthOutcome (start : σ) :
    attempt.run start = (nthOutcome attempt start 1, stateAfter attempt start 1) := rfl

theorem stateAfter_succ (start : σ) (n : Nat) :
    stateAfter attempt start (n + 1) = stateAfter attempt (attempt.run start).2 n := by
  induction n with
  | zero => rfl
  | succ n ih => rw [stateAfter, ih, stateAfter]

theorem nthOutcome_succ (start : σ) {n : Nat} (hn : 1 ≤ n) :
    nthOutcome attempt start (n + 1) = nthOutcome attempt (attempt.run start).2 n := by
  obtain ⟨n, rfl⟩ := Nat.exists_eq_add_of_le' hn
  simp only [nthOutcome, Nat.add_sub_cancel, stateAfter_succ]

/-- A failure that is worth another attempt. -/
def IsRetryable (passing : ε → Prop) : Except ε α → Prop
  | .ok _ => False
  | .error e => passing e

/-- The attempts end with this one: it is the first whose outcome is no retryable failure, or the
last that is allowed. -/
def EndsWith (passing : ε → Prop) (start : σ) (most k : Nat) : Prop :=
  IsLeast {i | 1 ≤ i ∧ i ≤ most ∧
    (¬ IsRetryable passing (nthOutcome attempt start i) ∨ i = most)} k

theorem exists_endsWith (passing : ε → Prop) (start : σ) {most : Nat} (h : 0 < most) :
    ∃ k, EndsWith attempt passing start most k := by
  classical
  have hlast : ∃ i, 1 ≤ i ∧ i ≤ most ∧
      (¬ IsRetryable passing (nthOutcome attempt start i) ∨ i = most) :=
    ⟨most, h, le_rfl, Or.inr rfl⟩
  exact ⟨Nat.find hlast, Nat.find_spec hlast, fun i hi => Nat.find_min' hlast hi⟩

variable {attempt} {passing : ε → Prop} {start : σ}

theorem EndsWith.retryable {most k i : Nat} (h : EndsWith attempt passing start most k)
    (hi : 1 ≤ i) (hik : i < k) : IsRetryable passing (nthOutcome attempt start i) := by
  by_contra hnot
  exact absurd (h.2 ⟨hi, hik.le.trans h.1.2.1, Or.inl hnot⟩) (not_le.mpr hik)

/-- What ends the attempts ends those that are left after the first one. -/
theorem EndsWith.later {most k : Nat} (h : EndsWith attempt passing start (most + 1) (k + 1))
    (hk : 1 ≤ k) : EndsWith attempt passing (attempt.run start).2 most k := by
  obtain ⟨⟨_, hmost, hend⟩, hleast⟩ := h
  refine ⟨⟨hk, Nat.le_of_succ_le_succ hmost, ?_⟩, ?_⟩
  · rw [nthOutcome_succ attempt start hk] at hend
    exact hend.imp_right Nat.succ.inj
  · rintro i ⟨hi, himost, hiend⟩
    apply Nat.le_of_succ_le_succ
    apply hleast
    refine ⟨Nat.le_add_left 1 i, Nat.succ_le_succ himost, ?_⟩
    rw [nthOutcome_succ attempt start hi]
    exact hiend.imp_right (congrArg Nat.succ)

namespace RetryPolicy

variable (p : RetryPolicy) {transient : ε → Bool}

theorem run_attemptFrom_final {left number : Nat}
    (h : ¬ IsRetryable (transient · = true) (nthOutcome attempt start 1)) :
    (p.attemptFrom transient attempt left number).run start =
      (⟨nthOutcome attempt start 1, []⟩, stateAfter attempt start 1) := by
  cases left with
  | zero => rfl
  | succ left =>
    rw [run_attemptFrom_succ, run_eq_nthOutcome]
    cases hfirst : nthOutcome attempt start 1 with
    | ok a => rfl
    | error e =>
      rw [hfirst] at h
      exact if_neg h

theorem run_attemptFrom_retried {left number : Nat} {later : Attempts ε α} {world : σ}
    (h : IsRetryable (transient · = true) (nthOutcome attempt start 1))
    (hlater : (p.attemptFrom transient attempt left (number + 1)).run (attempt.run start).2 =
      (later, world)) :
    (p.attemptFrom transient attempt (left + 1) number).run start =
      (⟨later.result, p.wait number :: later.waits⟩, world) := by
  rw [run_attemptFrom_succ]
  rw [run_eq_nthOutcome] at hlater ⊢
  cases hfirst : nthOutcome attempt start 1 with
  | ok a =>
    rw [hfirst] at h
    exact h.elim
  | error e =>
    rw [hfirst] at h
    dsimp only at hlater ⊢
    rw [hlater]
    exact if_pos h

/-- The attempts are those up to the one that they end with, with a wait behind every other. -/
theorem run_attemptFrom_of_endsWith {left : Nat} : ∀ {number k : Nat} {start : σ},
    EndsWith attempt (transient · = true) start (left + 1) k →
    (p.attemptFrom transient attempt left number).run start =
      (⟨nthOutcome attempt start k, (List.range (k - 1)).map fun j => p.wait (number + j)⟩,
        stateAfter attempt start k) := by
  induction left with
  | zero =>
    intro number k start h
    obtain rfl : k = 1 := Nat.le_antisymm h.1.2.1 h.1.1
    rfl
  | succ left ih =>
    intro number k start h
    obtain ⟨k, rfl⟩ := Nat.exists_eq_add_of_le' h.1.1
    cases k with
    | zero =>
      -- More attempts are allowed, so it is its outcome that makes the first one the last.
      exact p.run_attemptFrom_final (h.1.2.2.resolve_right (by omega))
    | succ k =>
      have hretry := h.retryable le_rfl (Nat.succ_lt_succ (Nat.succ_pos k))
      have hlater := @ih (number + 1) _ _ (h.later (Nat.succ_pos k))
      rw [p.run_attemptFrom_retried hretry hlater, nthOutcome_succ attempt start (Nat.succ_pos k),
        stateAfter_succ attempt start (k + 1)]
      have hwaits : (List.range (k + 1)).map (fun j => p.wait (number + j)) =
          p.wait number :: (List.range k).map fun j => p.wait (number + 1 + j) := by
        rw [List.range_succ_eq_map, List.map_cons, List.map_map]
        congr 1
        apply List.map_congr_left
        intro j _
        exact congrArg p.wait (by omega)
      simp only [Nat.add_sub_cancel, hwaits]

theorem run_of_endsWith {k : Nat} (h : EndsWith attempt (transient · = true) start p.attempts k) :
    (p.run transient attempt).run start =
      (⟨nthOutcome attempt start k, (List.range (k - 1)).map fun j => p.wait (j + 1)⟩,
        stateAfter attempt start k) := by
  have hmost : p.attempts - 1 + 1 = p.attempts := Nat.sub_add_cancel p.attempts_pos
  rw [← hmost] at h
  simp only [run, p.run_attemptFrom_of_endsWith h, Nat.add_comm 1]

end RetryPolicy

end

/-! The length of a wait. -/

open Binary64

/-- A length of time: a number that is not below zero. -/
structure IsSpan (b : Binary64) : Prop where
  isDouble : b.IsDouble
  number : b ≠ .notANumber
  nonneg : 0 ≤ b.toEReal

namespace RetryPolicy

/-- The bounds are lengths of time, in any order; the factor may be any value. -/
structure Sound (p : RetryPolicy) : Prop where
  least : IsSpan p.least
  most : IsSpan p.most
  factor : p.factor.IsDouble

/-- What the wait after the failed attempt of this number is. It is what the exact numbers give,
except where the format has none: under an upper bound of infinity a product beyond its range
counts as infinite, and a factor that is no number leaves the lower bound. -/
structure Prescribes (p : RetryPolicy) (n : Nat) (b : Binary64) : Prop where
  number : b ≠ .notANumber
  exact : p.factor ≠ .notANumber →
    (p.most.toEReal ≠ ⊤ ∨ p.factor.toEReal * 2 ^ (n - 1) < 2 ^ 1024) →
    b.toEReal = max p.least.toEReal (min (p.factor.toEReal * 2 ^ (n - 1)) p.most.toEReal)
  unbounded : p.factor ≠ .notANumber → p.most.toEReal = ⊤ →
    2 ^ 1024 ≤ p.factor.toEReal * 2 ^ (n - 1) → b.toEReal = ⊤
  unordered : p.factor = .notANumber → b.toEReal = p.least.toEReal
  ge : p.least.toEReal ≤ b.toEReal
  le : b.toEReal ≤ max p.least.toEReal p.most.toEReal

variable {p : RetryPolicy}

theorem floor_ne_notANumber : p.floor ≠ .notANumber := larger_ne_notANumber (by decide)

theorem wait_ne_notANumber (n : Nat) : p.wait n ≠ .notANumber :=
  larger_ne_notANumber floor_ne_notANumber

namespace Sound

variable (hp : p.Sound)
include hp

theorem toEReal_floor : p.floor.toEReal = p.least.toEReal := by
  rw [floor, toEReal_larger (by decide) hp.least.number, toEReal_zero,
    max_eq_right hp.least.nonneg]

theorem toEReal_wait (n : Nat) (hfactor : p.factor ≠ .notANumber) :
    (p.wait n).toEReal =
      max p.least.toEReal (min (p.factor.doubled (n - 1)).toEReal p.most.toEReal) := by
  have hdoubled : p.factor.doubled (n - 1) ≠ .notANumber :=
    mt (doubled_eq_notANumber_iff _ _).mp hfactor
  rw [wait, toEReal_larger floor_ne_notANumber (smaller_ne_notANumber hdoubled),
    toEReal_smaller hdoubled hp.most.number, hp.toEReal_floor]

theorem toEReal_wait_unordered (n : Nat) (hfactor : p.factor = .notANumber) :
    (p.wait n).toEReal = p.least.toEReal := by
  have hproduct : p.factor.doubled (n - 1) = .notANumber :=
    (doubled_eq_notANumber_iff _ _).mpr hfactor
  have hwait : p.wait n = p.floor := by
    rw [wait, hproduct]
    cases p.most <;> cases p.floor <;> rfl
  rw [hwait, hp.toEReal_floor]

theorem toEReal_wait_exact (n : Nat) (hfactor : p.factor ≠ .notANumber)
    (h : p.most.toEReal ≠ ⊤ ∨ p.factor.toEReal * 2 ^ (n - 1) < 2 ^ 1024) :
    (p.wait n).toEReal =
      max p.least.toEReal (min (p.factor.toEReal * 2 ^ (n - 1)) p.most.toEReal) := by
  rw [hp.toEReal_wait n hfactor]
  rcases toEReal_doubled hp.factor hfactor (n - 1) with hexact | ⟨hover, hinf⟩ | ⟨hneg, hinf⟩
  · rw [hexact]
  · -- The bound is a number of the format, so it is below what is beyond the range.
    have hne : p.most.toEReal ≠ ⊤ := h.resolve_right (not_lt.mpr hover)
    have hmost : p.most.toEReal < 2 ^ 1024 := hp.most.isDouble.toEReal_lt fun heq => hne (by
      rw [heq]
      rfl)
    rw [hinf, min_eq_right le_top, min_eq_right (hmost.le.trans hover)]
  · -- What is below zero is below the lower bound.
    have hlow : min (p.factor.toEReal * 2 ^ (n - 1)) p.most.toEReal ≤ p.least.toEReal :=
      (min_le_left _ _).trans (hneg.le.trans hp.least.nonneg)
    rw [hinf, min_eq_left bot_le, max_eq_left bot_le, max_eq_left hlow]

theorem toEReal_wait_unbounded (n : Nat) (hfactor : p.factor ≠ .notANumber)
    (hmost : p.most.toEReal = ⊤) (hover : 2 ^ 1024 ≤ p.factor.toEReal * 2 ^ (n - 1)) :
    (p.wait n).toEReal = ⊤ := by
  rw [hp.toEReal_wait n hfactor, toEReal_doubled_of_le hp.factor hfactor hover, hmost, min_self]
  exact max_eq_right le_top

theorem wait_le (n : Nat) :
    (p.wait n).toEReal ≤ max p.least.toEReal p.most.toEReal := by
  have hlarger : p.floor.larger p.most ≠ .notANumber := larger_ne_notANumber floor_ne_notANumber
  have hnot := p.not_less_wait n hp.most.number
  rw [← Bool.not_eq_true, less_iff hlarger (wait_ne_notANumber n),
    toEReal_larger floor_ne_notANumber hp.most.number, hp.toEReal_floor] at hnot
  exact not_lt.mp hnot

theorem le_wait (n : Nat) : p.least.toEReal ≤ (p.wait n).toEReal := by
  have hnot := p.not_wait_less n
  rw [← Bool.not_eq_true, less_iff (wait_ne_notANumber n) floor_ne_notANumber,
    hp.toEReal_floor] at hnot
  exact not_lt.mp hnot

theorem prescribes_wait (n : Nat) : p.Prescribes n (p.wait n) where
  number := wait_ne_notANumber n
  exact := hp.toEReal_wait_exact n
  unbounded := hp.toEReal_wait_unbounded n
  unordered := hp.toEReal_wait_unordered n
  ge := hp.le_wait n
  le := hp.wait_le n

theorem wait_mono (hfactor : 0 ≤ p.factor.toEReal) {m n : Nat} (hmn : m ≤ n) :
    (p.wait m).toEReal ≤ (p.wait n).toEReal := by
  by_cases hnone : p.factor = .notANumber
  · rw [hp.toEReal_wait_unordered m hnone, hp.toEReal_wait_unordered n hnone]
  · rw [hp.toEReal_wait m hnone, hp.toEReal_wait n hnone]
    have hdoubled := toEReal_doubled_mono hp.factor hfactor (Nat.sub_le_sub_right hmn 1)
    exact max_le_max le_rfl (min_le_min hdoubled le_rfl)

end Sound

/-- The laws of the waits between attempts: each is what is prescribed, they do not decrease unless
the factor is below zero, and there is an upper bound of their sum. -/
structure Paced (p : RetryPolicy) (waits : List Binary64) : Prop where
  each : ∀ i (h : i < waits.length), p.Prescribes (i + 1) waits[i]
  ascending : 0 ≤ p.factor.toEReal → ∀ i j (_ : i ≤ j) (_ : j < waits.length),
    waits[i].toEReal ≤ waits[j].toEReal
  total : (waits.map toEReal).sum ≤
    ((p.attempts - 1 : Nat) : EReal) * max p.least.toEReal p.most.toEReal

theorem Sound.paced (hp : p.Sound) {k : Nat} (hk : k ≤ p.attempts) :
    p.Paced ((List.range (k - 1)).map fun j => p.wait (j + 1)) where
  each i h := by
    rw [List.getElem_map, List.getElem_range]
    exact hp.prescribes_wait (i + 1)
  ascending hfactor i j hij hj := by
    simp only [List.getElem_map, List.getElem_range]
    exact hp.wait_mono hfactor (Nat.succ_le_succ hij)
  total := by
    have hbound : 0 ≤ max p.least.toEReal p.most.toEReal := hp.least.nonneg.trans (le_max_left _ _)
    have hsum := List.sum_le_card_nsmul
      (((List.range (k - 1)).map fun j => p.wait (j + 1)).map toEReal)
      (max p.least.toEReal p.most.toEReal) (by
        intro x hx
        simp only [List.map_map, List.mem_map] at hx
        obtain ⟨j, _, rfl⟩ := hx
        exact hp.wait_le (j + 1))
    refine hsum.trans ?_
    rw [← EReal.nsmul_eq_mul]
    apply nsmul_le_nsmul_left hbound
    simpa using Nat.sub_le_sub_right hk 1

end RetryPolicy

/-- A failure that passes: the host was too slow or not to be reached, it reported trouble of its
own, or it was asked too often. -/
inductive Mishap.Passing : Mishap → Prop
  | trouble {code : Nat} (least : 500 ≤ code) (most : code < 600) : Passing (.status code)
  | overdue : Passing (.status 408)
  | excess : Passing (.status 429)
  | slow {f : Fault} (message : String) (h : f = .timeout ∨ f = .connectTimeout ∨
      f = .readTimeout ∨ f = .writeTimeout ∨ f = .poolTimeout) : Passing (.fault f message)
  | cut {f : Fault} (message : String) (h : f = .network ∨ f = .connect ∨ f = .read ∨
      f = .write ∨ f = .close) : Passing (.fault f message)

theorem Mishap.isTransient_iff (m : Mishap) : m.isTransient = true ↔ m.Passing := by
  constructor
  · intro h
    cases m with
    | status code =>
      rcases (isTransient_status_iff code).mp h with ⟨hleast, hmost⟩ | rfl | rfl
      · exact .trouble hleast hmost
      · exact .overdue
      · exact .excess
    | fault f message =>
      by_cases hslow : f = .timeout ∨ f = .connectTimeout ∨ f = .readTimeout ∨
          f = .writeTimeout ∨ f = .poolTimeout
      · exact .slow message hslow
      · refine .cut message ?_
        cases f <;> simp [Mishap.isTransient, Fault.isTransient] at h hslow ⊢
    | nowhere target => cases h
  · rintro (⟨hleast, hmost⟩ | _ | _ | ⟨message, rfl | rfl | rfl | rfl | rfl⟩ |
      ⟨message, rfl | rfl | rfl | rfl | rfl⟩)
    · exact (isTransient_status_iff _).mpr (Or.inl ⟨hleast, hmost⟩)
    all_goals rfl

/-! Settings. -/

theorem isDouble_of_numberOfText? {cs : List Char} {b : Binary64}
    (h : Form.numberOfText? cs = some b) : b.IsDouble := by
  unfold Form.numberOfText? at h
  split at h
  dsimp only at h
  split at h
  · cases h
    exact isDouble_of_value?_eq_none rfl
  · split at h
    · cases h
      exact isDouble_of_value?_eq_none rfl
    · obtain ⟨d, _, rfl⟩ := Option.map_eq_some_iff.mp h
      exact isDouble_ofDecimal d

theorem isDouble_of_number {s : String} {b : Binary64} (h : Form.number s = .valid b) :
    b.IsDouble := by
  unfold Form.number at h
  dsimp only at h
  split at h
  · next found hfound =>
    cases h
    cases hread : Form.numberOfText? (Text.trimList Text.isBlank s.toList) with
    | some b =>
      rw [hread] at hfound
      cases hfound
      exact isDouble_of_numberOfText? hread
    | none =>
      rw [hread] at hfound
      obtain ⟨cs, _, hcs⟩ := Option.bind_eq_some_iff.mp hfound
      exact isDouble_of_numberOfText? hcs
  · cases h

namespace Settings

theorem isSpan_of_numberFrom {s : String} {b : Binary64} (h : numberFrom s = .valid b) :
    IsSpan b := by
  unfold numberFrom at h
  cases hread : Form.number s with
  | invalid issues =>
    rw [hread] at h
    cases h
  | valid found =>
    rw [hread] at h
    dsimp only [Form.Checked.andThen] at h
    split at h
    · cases h
    · next hnot =>
      cases h
      obtain ⟨hnumber, hless⟩ := not_or.mp hnot
      refine ⟨isDouble_of_number hread, hnumber, ?_⟩
      rw [less_iff hnumber (by decide), toEReal_zero] at hless
      exact not_lt.mp hless

theorem read_eq_valid {α : Type} {source : Source} {name : String}
    {rule : String → Form.Checked α} {default a : α}
    (h : read source name rule default = .valid a) :
    (∃ text, rule text = .valid a) ∨ a = default := by
  unfold read at h
  cases hfound : find? source name with
  | none =>
    rw [hfound] at h
    cases h
    exact Or.inr rfl
  | some text =>
    rw [hfound] at h
    exact Or.inl ⟨text, (Form.Checked.under_eq_valid_iff _ _ _).mp h⟩

theorem isSpan_default {q : Rat} (hq : 0 ≤ q) (hheld : Held q) : IsSpan (finite q) where
  isDouble := isDouble_finite hheld
  number := Binary64.noConfusion
  nonneg := by
    rw [toEReal]
    exact_mod_cast hq

theorem isSpan_of_read {source : Source} {name : String} {q : Rat} {b : Binary64} (hq : 0 ≤ q)
    (hheld : Held q) (h : read source name numberFrom (finite q) = .valid b) : IsSpan b := by
  rcases read_eq_valid h with ⟨text, htext⟩ | rfl
  · exact isSpan_of_numberFrom htext
  · exact isSpan_default hq hheld

/-- Accepted settings bound the waits by lengths of time. -/
theorem ofSource_yields (source : Source) : (ofSource source).Yields fun s =>
    IsSpan s.retryLeast ∧ IsSpan s.retryMost ∧ s.retryFactor.IsDouble := by
  have hleast : (read source "EXTERNAL_API_RETRY_MIN_WAIT" numberFrom (.finite (1 / 2))).Yields
      IsSpan := fun b => isSpan_of_read (by norm_num) ⟨1, -1, by norm_num [twoPow], by norm_num,
    by norm_num, by norm_num⟩
  have hmost : (read source "EXTERNAL_API_RETRY_MAX_WAIT" numberFrom (.finite 2)).Yields IsSpan :=
    fun b => isSpan_of_read (by norm_num) ⟨2, 0, by norm_num [twoPow], by norm_num, by norm_num,
      by norm_num⟩
  have hfactor : (read source "EXTERNAL_API_RETRY_MULTIPLIER" Form.number (.finite 1)).Yields
      IsDouble := by
    intro b h
    rcases read_eq_valid h with ⟨text, htext⟩ | rfl
    · exact isDouble_of_number htext
    · exact isDouble_finite ⟨1, 0, by norm_num [twoPow], by norm_num, by norm_num, by norm_num⟩
  unfold ofSource
  iterate 3 apply Form.Checked.Yields.skip
  refine .seq hfactor (.seq hmost (.seq hleast ?_))
  iterate 17 apply Form.Checked.Yields.skip
  apply Form.Checked.Yields.map
  intros
  constructor
  · assumption
  · exact ⟨by assumption, by assumption⟩

theorem sound_of_ofSource {source : Source} {s : Settings} (hs : ofSource source = .valid s)
    (token base : Option String) (cache : Option (Cache Question Bool)) (connection : Connection) :
    (Client.create s token base cache connection).retry.Sound :=
  have ⟨hleast, hmost, hfactor⟩ := ofSource_yields source s hs
  ⟨hleast, hmost, hfactor⟩

/-- Whatever comes of the attempts, they are made in the number and at the pace of the settings:
up to the first that succeeds or fails for good, or to the last that is allowed, whose outcome is
that of the whole. Any failure that has no part in an exchange is for good. -/
theorem retry_schedule {source : Source} {s : Settings} (hs : ofSource source = .valid s)
    (token base : Option String) (cache : Option (Cache Question Bool)) (connection : Connection)
    {σ ε α : Type} (mishap? : ε → Option Mishap) (attempt : StateM σ (Except ε α)) (start : σ) :
    (Client.create s token base cache connection).retry.Sound ∧
    ∃ k waits,
      EndsWith attempt (fun e => ∃ m, mishap? e = some m ∧ m.Passing) start s.retryAttempts.1 k ∧
      ((Client.create s token base cache connection).retry.run
          (fun e => (mishap? e).any Mishap.isTransient) attempt).run start =
        (⟨nthOutcome attempt start k, waits⟩, stateAfter attempt start k) ∧
      waits.length = k - 1 ∧
      (Client.create s token base cache connection).retry.Paced waits := by
  have hsound := sound_of_ofSource hs token base cache connection
  have hpassing : (fun e => ∃ m, mishap? e = some m ∧ m.Passing) =
      fun e => (mishap? e).any Mishap.isTransient = true := by
    funext e
    simp only [Option.any_eq_true, Mishap.isTransient_iff]
  rw [hpassing]
  obtain ⟨k, hk⟩ := exists_endsWith attempt
    (fun e => (mishap? e).any Mishap.isTransient = true) start s.retryAttempts.2
  refine ⟨hsound, k, _, hk, RetryPolicy.run_of_endsWith _ hk, ?_, hsound.paced hk.1.2.1⟩
  rw [List.length_map, List.length_range]

deriving instance DecidableEq for RetryPolicy

/-- The pace that settings come to. -/
def pace? : Form.Checked Settings → Option RetryPolicy
  | .valid s => some (Client.create s none none none .separate).retry
  | .invalid _ => none

theorem eq_valid_of_pace? {c : Form.Checked Settings} {p : RetryPolicy} (h : pace? c = some p) :
    ∃ s, c = .valid s ∧ (Client.create s none none none .separate).retry = p := by
  cases c with
  | valid s => exact ⟨s, rfl, Option.some.inj h⟩
  | invalid issues => cases h

/-- An attempt whose outcomes are written down beforehand. -/
def rehearsed : StateM (List (Except Mishap String)) (Except Mishap String)
  | [] => (.ok "", [])
  | outcome :: rest => (outcome, rest)

def twiceRefused : List (Except Mishap String) :=
  [.error (.status 503), .error (.status 429), .ok "found"]

def briskSource : Source :=
  [("LOG_LEVEL", "INFO"), ("EXTERNAL_API_RETRY_ATTEMPTS", "3"),
    ("EXTERNAL_API_RETRY_MIN_WAIT", "0.75"), ("EXTERNAL_API_RETRY_MAX_WAIT", "3")]

theorem retry_schedule_twice_refused : ∃ s, ofSource briskSource = .valid s ∧
    (Client.create s none none none .separate).retry =
      ⟨3, by decide, .finite (3 / 4), .finite 3, .finite 1⟩ ∧
    (Client.create s none none none .separate).retry.Sound ∧
    ∃ k waits,
      EndsWith rehearsed (fun e => ∃ m, some e = some m ∧ m.Passing) twiceRefused
        s.retryAttempts.1 k ∧
      ((Client.create s none none none .separate).retry.run
          (fun e => (some e).any Mishap.isTransient) rehearsed).run twiceRefused =
        (⟨nthOutcome rehearsed twiceRefused k, waits⟩, stateAfter rehearsed twiceRefused k) ∧
      waits.length = k - 1 ∧
      (Client.create s none none none .separate).retry.Paced waits := by
  obtain ⟨s, hs, hpace⟩ := eq_valid_of_pace? (c := ofSource briskSource)
    (p := ⟨3, by decide, .finite (3 / 4), .finite 3, .finite 1⟩) (by decide +kernel)
  exact ⟨s, hs, hpace, retry_schedule hs none none none .separate some rehearsed twiceRefused⟩

/-- Settings without an upper bound of the waits. -/
def boundlessSource : Source :=
  [("LOG_LEVEL", "INFO"), ("EXTERNAL_API_RETRY_ATTEMPTS", "3"),
    ("EXTERNAL_API_RETRY_MAX_WAIT", "inf"), ("EXTERNAL_API_RETRY_MULTIPLIER", "1e308")]

/-- An attempt at a host that is always down. -/
def unavailable : StateM Unit (Except Mishap String) := pure (.error (.status 503))

theorem nthOutcome_unavailable (n : Nat) : nthOutcome unavailable () n = .error (.status 503) := rfl

/-- A wait without an upper bound is infinite where its exact length is beyond the range. -/
theorem boundless_wait_infinite : ∃ s waits, ofSource boundlessSource = .valid s ∧
    ((Client.create s none none none .separate).retry.run Mishap.isTransient unavailable).run () =
      (⟨.error (.status 503), waits⟩, ()) ∧
    ∃ wait, waits[1]? = some wait ∧
      wait.toEReal = ⊤ ∧
      wait.toEReal ≠
        max s.retryLeast.toEReal (min (s.retryFactor.toEReal * 2 ^ 1) s.retryMost.toEReal) := by
  obtain ⟨s, hs, hpace⟩ := eq_valid_of_pace? (c := ofSource boundlessSource)
    (p := ⟨3, by decide, .finite (1 / 2), .infinite false, .finite (rounded (10 ^ 308))⟩)
    (by decide +kernel)
  have hattempts : (Client.create s none none none .separate).retry.attempts = 3 :=
    congrArg RetryPolicy.attempts hpace
  have hleast : s.retryLeast = .finite (1 / 2) := congrArg RetryPolicy.least hpace
  have hfactor : s.retryFactor = .finite (rounded (10 ^ 308)) :=
    congrArg RetryPolicy.factor hpace
  have hends : EndsWith unavailable (Mishap.isTransient · = true) ()
      (Client.create s none none none .separate).retry.attempts 3 := by
    rw [hattempts]
    exact ⟨⟨by omega, le_rfl, Or.inr rfl⟩, fun i hi => (hi.2.2.resolve_left (not_not.mpr rfl)).ge⟩
  have hrun := RetryPolicy.run_of_endsWith _ hends
  rw [nthOutcome_unavailable, Subsingleton.elim (stateAfter _ _ _) ()] at hrun
  have hwait : (Client.create s none none none .separate).retry.wait 2 = .infinite false := by
    rw [hpace]
    decide +kernel
  refine ⟨s, _, hs, hrun, .infinite false, congrArg some hwait, rfl, ?_⟩
  -- The exact length is a product of real numbers, so it is below infinity.
  have hproduct : s.retryFactor.toEReal * 2 ^ 1 = (((rounded (10 ^ 308) : ℝ) * 2 : ℝ) : EReal) := by
    rw [hfactor, toEReal, pow_one, EReal.coe_mul]
    rfl
  rw [hleast, hproduct]
  refine (max_lt (EReal.coe_lt_top _) ?_).ne'
  exact (min_le_left _ _).trans_lt (EReal.coe_lt_top _)

end Settings

end DeployRegistry
