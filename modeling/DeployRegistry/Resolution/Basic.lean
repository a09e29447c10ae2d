import DeployRegistry.Access.Rules
import DeployRegistry.Resolution.Criteria

/-!
# Resolution

Finding the environments that run what is looked for. Each candidate goes through a chain of
checks, the cheapest first, and a check runs only when all before it passed. The checks may have
effects and may fail: they live in a monad, and a failure ends the resolution.
-/

namespace DeployRegistry

set_option autoImplicit false

/-- What resolution asks about a candidate. -/
structure Checks (m : Type → Type) where
  allowed : Option String → Action → Environment → m Bool
  recentlyUpdated : Environment → String → m Bool
  includesCommit : Environment → String → m Bool

/-- A check that was asked for. -/
inductive Check
  | allowed (caller : Option String) (action : Action) (e : Environment)
  | recentlyUpdated (e : Environment) (ref : String)
  | includesCommit (e : Environment) (sha : String)
  deriving DecidableEq

/-- The checks that a candidate has to pass, in their order. -/
def Criteria.checks (c : Criteria) (caller : Option String) (e : Environment) : List Check :=
  .allowed caller .readEnvironment e ::
    ((match c.ref with
      | some ref => if c.recentlyUpdated then [.recentlyUpdated e ref] else []
      | none => []) ++
    (match c.ref, c.commit with
      | some _, some sha => [.includesCommit e sha]
      | _, _ => []))

namespace Criteria

/-- The checks that criteria call for on a candidate. -/
inductive Due (c : Criteria) (caller : Option String) (e : Environment) : Check → Prop
  | allowed : Due c caller e (.allowed caller .readEnvironment e)
  | recentlyUpdated (ref : String) (hr : c.ref = some ref) (hu : c.recentlyUpdated = true) :
      Due c caller e (.recentlyUpdated e ref)
  | includesCommit (ref sha : String) (hr : c.ref = some ref) (hc : c.commit = some sha) :
      Due c caller e (.includesCommit e sha)

theorem mem_checks_iff_due (c : Criteria) (caller : Option String) (e : Environment)
    (check : Check) : check ∈ c.checks caller e ↔ c.Due caller e check := by
  constructor
  · intro h
    rcases List.mem_cons.mp h with rfl | h
    · exact .allowed
    rcases List.mem_append.mp h with h | h
    · split at h
      · next ref hr =>
        split at h
        · next hu =>
          obtain rfl := List.mem_singleton.mp h
          exact .recentlyUpdated ref hr hu
        · cases h
      · cases h
    · split at h
      · next ref sha hr hc =>
        obtain rfl := List.mem_singleton.mp h
        exact .includesCommit ref sha hr hc
      · cases h
  · intro h
    cases h with
    | allowed => exact List.mem_cons_self
    | recentlyUpdated ref hr hu => simp [checks, hr, hu]
    | includesCommit ref sha hr hc => simp [checks, hr, hc]

end Criteria

section

variable {m : Type → Type} [Monad m]

def Checks.run (k : Checks m) : Check → m Bool
  | .allowed caller action e => k.allowed caller action e
  | .recentlyUpdated e ref => k.recentlyUpdated e ref
  | .includesCommit e sha => k.includesCommit e sha

/-- The checks run one after the other up to the first that does not pass. -/
def Checks.passes (k : Checks m) : List Check → m Bool
  | [] => pure true
  | check :: rest => do
    if ← k.run check then k.passes rest else pure false

/-- The elements that satisfy a test with effects, in their order. -/
def selectAll {α : Type} (test : α → m Bool) : List α → m (List α)
  | [] => pure []
  | a :: rest => do
    if ← test a then
      let others ← selectAll test rest
      pure (a :: others)
    else selectAll test rest

/-- The first element that satisfies a test with effects; those after it are not tested. -/
def selectFirst {α : Type} (test : α → m Bool) : List α → m (List α)
  | [] => pure []
  | a :: rest => do
    if ← test a then pure [a] else selectFirst test rest

/-- The environments of a project that run what is looked for and that the caller may read. -/
def Checks.resolve (k : Checks m) (s : Store) (project : String) (caller : Option String)
    (c : Criteria) : m (List Environment) :=
  let test := fun e => k.passes (c.checks caller e)
  if c.latestOnly then selectFirst test (s.candidates project c)
  else selectAll test (s.candidates project c)

/-- The same checks, each noted before it runs. -/
def Checks.noted (k : Checks m) (note : Check → m Unit) : Checks m where
  allowed caller action e := do
    note (.allowed caller action e)
    k.allowed caller action e
  recentlyUpdated e ref := do
    note (.recentlyUpdated e ref)
    k.recentlyUpdated e ref
  includesCommit e sha := do
    note (.includesCommit e sha)
    k.includesCommit e sha

end

end DeployRegistry
