import DeployRegistry.Store.Basic
import DeployRegistry.Memo

/-!
# What is live in an environment

The last successful deployment of an environment is what runs in it. It is looked up once and
remembered, also when there was none, so that all answers about one environment speak of the same
deployment. Whether that deployment includes a commit is either known from the store or a question
to the host of the repository.
-/

namespace DeployRegistry

set_option autoImplicit false

/-- Is one commit of a repository reachable from another one? -/
structure Question where
  repository : String
  ancestor : String
  descendant : String
  deriving DecidableEq, Inhabited

/-- The live deployments that were looked up so far, by environment. -/
abbrev Snapshots := Memo String (Option Deployment)

def Snapshots.live (m : Snapshots) (s : Store) (environment : String) :
    Option Deployment × Snapshots :=
  m.ask environment (s.lastSuccess? environment)

/-- Whether the live deployment came from a ref. -/
def cameFrom (live : Option Deployment) (ref : String) : Bool := live.any (·.ref == ref)

/-- How it is settled whether a live deployment includes a commit. -/
inductive Inclusion
  | known (answer : Bool)
  | ask (q : Question)
  deriving DecidableEq, Inhabited

/-- The repository of a project, when the project is there and names one. -/
def Store.repository? (s : Store) (project : String) : Option String :=
  match s.project? project with
  | none => none
  | some p => p.repository.filter (· ≠ "")

/-- Nothing is included where nothing is live; the deployed commit is included; any other commit
is a question to the host, if there is one and the project names a repository. -/
def Store.inclusion (s : Store) (hosted : Bool) (live : Option Deployment) (e : Environment)
    (sha : String) : Inclusion :=
  match live with
  | none => .known false
  | some d =>
    if d.sha = sha then .known true
    else match s.repository? e.project with
      | none => .known false
      | some repository => if hosted then .ask ⟨repository, sha, d.sha⟩ else .known false

@[simp] theorem Store.inclusion_none (s : Store) (hosted : Bool) (e : Environment)
    (sha : String) : s.inclusion hosted none e sha = .known false := rfl

theorem Store.inclusion_self (s : Store) (hosted : Bool) (d : Deployment) (e : Environment) :
    s.inclusion hosted (some d) e d.sha = .known true := by
  simp [Store.inclusion]

@[simp] theorem cameFrom_none (ref : String) : cameFrom none ref = false := rfl

@[simp] theorem cameFrom_some (d : Deployment) (ref : String) :
    cameFrom (some d) ref = (d.ref == ref) := rfl

end DeployRegistry
