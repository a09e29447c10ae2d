import DeployRegistry.Store.Records

/-!
# The store and its queries

All records of the registry, as one value. Queries read it; none of them changes it. The main
statements are the membership lemmas of the queries.
-/

namespace DeployRegistry

set_option autoImplicit false

structure Store where
  users : List User
  projects : List Project
  memberships : List Membership
  environments : List Environment
  deployments : List Deployment
  deriving DecidableEq, Inhabited

/-- The latest of some times. -/
def latest? : List WallTime → Option WallTime
  | [] => none
  | t :: rest =>
    match latest? rest with
    | none => some t
    | some u => some (if u ≤ t then t else u)

theorem latest?_eq_none_iff (ts : List WallTime) : latest? ts = none ↔ ts = [] := by
  cases ts with
  | nil => simp [latest?]
  | cons t rest => simp only [latest?]; split <;> simp

theorem latest?_mem {ts : List WallTime} {u : WallTime} (h : latest? ts = some u) : u ∈ ts := by
  induction ts generalizing u with
  | nil => simp [latest?] at h
  | cons t rest ih =>
    simp only [latest?] at h
    split at h
    · simp_all
    · rename_i v hv
      have hm := ih hv
      split at h <;> simp_all

theorem le_latest? {ts : List WallTime} {u t : WallTime} (h : latest? ts = some u)
    (ht : t ∈ ts) : t ≤ u := by
  induction ts generalizing u with
  | nil => simp at ht
  | cons s rest ih =>
    simp only [latest?] at h
    split at h
    · rename_i hr
      rw [latest?_eq_none_iff] at hr
      simp_all [WallTime.le_def]
    · rename_i v hv
      rcases List.mem_cons.mp ht with rfl | ht
      · split at h <;> simp_all [WallTime.le_def]; omega
      · have hle := ih hv ht
        split at h <;> simp_all [WallTime.le_def]; omega

/-- Whether one deployment comes before another in a listing: later times first, and at one time
the greater id first. -/
def Deployment.notBefore (a b : Deployment) : Bool :=
  b.time < a.time || (a.time == b.time && decide (b.id ≤ a.id))

namespace Store

def empty : Store := ⟨[], [], [], [], []⟩

def user? (s : Store) (id : String) : Option User := s.users.find? (·.id == id)

def project? (s : Store) (id : String) : Option Project := s.projects.find? (·.id == id)

def membership? (s : Store) (user project : String) : Option Membership :=
  s.memberships.find? fun m => m.user == user && m.project == project

/-- The role of a user in a project. -/
def role? (s : Store) (user project : String) : Option Role :=
  (s.membership? user project).map (·.role)

/-- The environment with an id, when it belongs to the project. -/
def environment? (s : Store) (project id : String) : Option Environment :=
  s.environments.find? fun e => e.id == id && e.project == project

def environmentNamed? (s : Store) (project name : String) : Option Environment :=
  s.environments.find? fun e => e.project == project && e.name == name

def environmentsOf (s : Store) (project : String) : List Environment :=
  s.environments.filter (·.project == project)

/-- All deployments to an environment. -/
def deploymentsTo (s : Store) (environment : String) : List Deployment :=
  s.deployments.filter (·.environment == environment)

/-- The time of the latest deployment to an environment, whatever became of it. -/
def lastDeployed? (s : Store) (environment : String) : Option WallTime :=
  latest? ((s.deploymentsTo environment).map (·.time))

/-- The successful deployment to an environment that comes first in a listing. -/
def lastSuccess? (s : Store) (environment : String) : Option Deployment :=
  (((s.deploymentsTo environment).filter (·.status == .success)).mergeSort
    Deployment.notBefore).head?

theorem user?_id {s : Store} {id : String} {u : User} (h : s.user? id = some u) : u.id = id := by
  simpa using List.find?_some h

theorem project?_id {s : Store} {id : String} {p : Project} (h : s.project? id = some p) :
    p.id = id := by
  simpa using List.find?_some h

theorem project?_mem {s : Store} {id : String} {p : Project} (h : s.project? id = some p) :
    p ∈ s.projects :=
  List.mem_of_find?_eq_some h

theorem mem_environmentsOf_iff (s : Store) (project : String) (e : Environment) :
    e ∈ s.environmentsOf project ↔ e ∈ s.environments ∧ e.project = project := by
  simp [environmentsOf]

theorem mem_deploymentsTo_iff (s : Store) (environment : String) (d : Deployment) :
    d ∈ s.deploymentsTo environment ↔ d ∈ s.deployments ∧ d.environment = environment := by
  simp [deploymentsTo]

theorem environment?_eq_some {s : Store} {project id : String} {e : Environment}
    (h : s.environment? project id = some e) :
    e ∈ s.environments ∧ e.id = id ∧ e.project = project := by
  have hp := List.find?_some h
  simp only [Bool.and_eq_true, beq_iff_eq] at hp
  exact ⟨List.mem_of_find?_eq_some h, hp.1, hp.2⟩

theorem environmentNamed?_eq_some {s : Store} {project name : String} {e : Environment}
    (h : s.environmentNamed? project name = some e) :
    e ∈ s.environments ∧ e.project = project ∧ e.name = name := by
  have hp := List.find?_some h
  simp only [Bool.and_eq_true, beq_iff_eq] at hp
  exact ⟨List.mem_of_find?_eq_some h, hp.1, hp.2⟩

theorem lastSuccess?_mem {s : Store} {environment : String} {d : Deployment}
    (h : s.lastSuccess? environment = some d) :
    d ∈ s.deployments ∧ d.environment = environment ∧ d.status = .success := by
  have hm := List.mem_of_head? h
  simp only [List.mem_mergeSort, List.mem_filter, mem_deploymentsTo_iff, beq_iff_eq] at hm
  exact ⟨hm.1.1, hm.1.2, hm.2⟩

end Store

end DeployRegistry
