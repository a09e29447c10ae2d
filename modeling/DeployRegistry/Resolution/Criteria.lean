import DeployRegistry.Store.Basic

/-!
# Criteria and candidates

What is looked for: a ref, a commit or both, with switches. A deployment matches by its ref when a
ref is given, and by its commit otherwise. The candidates are the available environments of a
project with a matching deployment, by the time of their last deployment. The main statement is
`mem_candidates_iff`.
-/

namespace DeployRegistry

set_option autoImplicit false

structure Criteria where
  ref : Option String
  commit : Option String
  latestOnly : Bool
  withTags : Bool
  recentlyUpdated : Bool
  deriving DecidableEq, Inhabited

/-- Whether a deployment is one of those looked for. Tags widen the search for a ref only; without
a ref and a commit nothing matches. -/
def Criteria.matches (c : Criteria) (d : Deployment) : Bool :=
  match c.ref, c.commit with
  | some ref, _ => d.ref == ref || (c.withTags && d.tag)
  | none, some sha => d.sha == sha
  | none, none => false

/-- Earlier last deployments come first and none at all comes before any; at equal times the
smaller id comes first. -/
def deployedBefore (timeA timeB : Option WallTime) (idA idB : String) : Bool :=
  match timeA, timeB with
  | none, none => decide (idA ≤ idB)
  | none, some _ => true
  | some _, none => false
  | some a, some b => a < b || (a == b && decide (idA ≤ idB))

namespace Store

def oldestFirst (s : Store) (a b : Environment) : Bool :=
  deployedBefore (s.lastDeployed? a.id) (s.lastDeployed? b.id) a.id b.id

def newestFirst (s : Store) (a b : Environment) : Bool := s.oldestFirst b a

/-- Whether an environment of the project is available and has a matching deployment. -/
def isCandidate (s : Store) (project : String) (c : Criteria) (e : Environment) : Bool :=
  e.state == .available &&
    s.deployments.any fun d => d.project == project && d.environment == e.id && c.matches d

def candidates (s : Store) (project : String) (c : Criteria) : List Environment :=
  ((s.environmentsOf project).filter (s.isCandidate project c)).mergeSort
    (if c.latestOnly then s.newestFirst else s.oldestFirst)

theorem mem_candidates_iff (s : Store) (project : String) (c : Criteria) (e : Environment) :
    e ∈ s.candidates project c ↔
      e ∈ s.environments ∧ e.project = project ∧ e.state = .available ∧
        ∃ d ∈ s.deployments, d.project = project ∧ d.environment = e.id ∧ c.matches d = true := by
  simp [candidates, isCandidate, mem_environmentsOf_iff, and_assoc]

end Store

end DeployRegistry
