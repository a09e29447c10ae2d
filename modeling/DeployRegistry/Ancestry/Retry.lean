import DeployRegistry.Number.Binary64

/-!
# Repeated attempts

An attempt that fails for a transient reason is made again after a wait, a limited number of times.
The waits double from one to the next and stay between two bounds; the lower bound wins where they
disagree. The main statements are `not_wait_less` and `not_less_wait`.
-/

namespace DeployRegistry

set_option autoImplicit false

open Number

structure RetryPolicy where
  attempts : Nat
  attempts_pos : 0 < attempts
  least : Binary64
  most : Binary64
  factor : Binary64

namespace RetryPolicy

/-- The wait that is never undercut. -/
def floor (p : RetryPolicy) : Binary64 := (Binary64.finite 0).larger p.least

/-- The wait after a failed attempt, the first of which has the number one. -/
def wait (p : RetryPolicy) (number : Nat) : Binary64 :=
  p.floor.larger ((p.factor.doubled (number - 1)).smaller p.most)

theorem not_wait_less (p : RetryPolicy) (number : Nat) :
    (p.wait number).less p.floor = false :=
  Binary64.not_larger_less _ _

theorem not_less_wait (p : RetryPolicy) (number : Nat) (h : p.most ≠ .notANumber) :
    (p.floor.larger p.most).less (p.wait number) = false :=
  Binary64.not_larger_less_smaller h

end RetryPolicy

/-- How a run of attempts ended, and the waits between them. -/
structure Attempts (ε α : Type) where
  result : Except ε α
  waits : List Binary64

/-- The number of attempts that were made. -/
def Attempts.count {ε α : Type} (a : Attempts ε α) : Nat := a.waits.length + 1

namespace RetryPolicy

variable {m : Type → Type} [Monad m] {ε α : Type}

/-- The attempt with a given number and those after it, while `left` more are allowed. -/
def attemptFrom (p : RetryPolicy) (transient : ε → Bool) (attempt : m (Except ε α)) :
    Nat → Nat → m (Attempts ε α)
  | 0, _ => do
    let result ← attempt
    pure ⟨result, []⟩
  | left + 1, number => do
    match ← attempt with
    | .ok a => pure ⟨.ok a, []⟩
    | .error e =>
      if transient e then do
        let later ← p.attemptFrom transient attempt left (number + 1)
        pure ⟨later.result, p.wait number :: later.waits⟩
      else pure ⟨.error e, []⟩

/-- Attempts up to the first that succeeds or fails for good; the last failure stands. -/
def run (p : RetryPolicy) (transient : ε → Bool) (attempt : m (Except ε α)) :
    m (Attempts ε α) :=
  p.attemptFrom transient attempt (p.attempts - 1) 1

end RetryPolicy

end DeployRegistry
