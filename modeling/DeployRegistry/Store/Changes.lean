import DeployRegistry.Store.Basic

/-!
# Changes of the store

The elementary changes: records are added at the end of their table, and a field of a record is
replaced. Nothing else of the store moves.
-/

namespace DeployRegistry.Store

set_option autoImplicit false

def addUser (s : Store) (u : User) : Store := { s with users := s.users ++ [u] }

def addProject (s : Store) (p : Project) : Store := { s with projects := s.projects ++ [p] }

def addMembership (s : Store) (m : Membership) : Store :=
  { s with memberships := s.memberships ++ [m] }

def addEnvironment (s : Store) (e : Environment) : Store :=
  { s with environments := s.environments ++ [e] }

def addDeployment (s : Store) (d : Deployment) : Store :=
  { s with deployments := s.deployments ++ [d] }

/-- The state of the environment with the id; the record counts as changed when it is another
state. -/
def setState (s : Store) (id : String) (state : EnvState) : Store :=
  { s with environments := s.environments.map fun e =>
      if e.id = id then { e with state := state, changed := e.changed || e.state != state } else e }

def setVisibility (s : Store) (project : String) (v : Visibility) : Store :=
  { s with projects := s.projects.map fun p =>
      if p.id = project then { p with visibility := v, changed := p.changed || p.visibility != v }
      else p }

def setRepository (s : Store) (project : String) (repository : Option String) : Store :=
  { s with projects := s.projects.map fun p =>
      if p.id = project then
        { p with repository := repository, changed := p.changed || p.repository != repository }
      else p }

/-- The role of a user in a project; no role ends the membership. -/
def setRole (s : Store) (project user : String) : Option Role → Store
  | some role =>
    { s with memberships := s.memberships.map fun m =>
        if m.project = project ∧ m.user = user then { m with role := role } else m }
  | none =>
    { s with memberships := s.memberships.filter fun m =>
        !(m.project == project && m.user == user) }

theorem mem_memberships_addMembership_iff (s : Store) (m n : Membership) :
    n ∈ (s.addMembership m).memberships ↔ n ∈ s.memberships ∨ n = m := by
  simp [addMembership]

theorem mem_environments_addEnvironment_iff (s : Store) (e f : Environment) :
    f ∈ (s.addEnvironment e).environments ↔ f ∈ s.environments ∨ f = e := by
  simp [addEnvironment]

theorem mem_deployments_addDeployment_iff (s : Store) (d c : Deployment) :
    c ∈ (s.addDeployment d).deployments ↔ c ∈ s.deployments ∨ c = d := by
  simp [addDeployment]

end DeployRegistry.Store
