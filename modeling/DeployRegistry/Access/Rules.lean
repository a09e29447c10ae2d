import DeployRegistry.Store.Basic

/-!
# Who may do what

The rules of access: what an action asks of a caller's role in a project. Reading is open to
everyone on an open project and to members on any other; the writing actions ask for a writing
role. The main statement is `mayRead_of_mayWrite`: whoever may write may read.
-/

namespace DeployRegistry

set_option autoImplicit false

inductive Action
  | readEnvironment
  | stopEnvironment
  | createEnvironment
  | createDeployment
  | other (name : String)
  deriving DecidableEq, Inhabited

namespace Action

def name : Action → String
  | readEnvironment => "read_environment"
  | stopEnvironment => "stop_environment"
  | createEnvironment => "create_environment"
  | createDeployment => "create_deployment"
  | other name => name

/-- The action with a name; a name that the rules do not know is an action of its own. -/
def ofName (s : String) : Action :=
  if s = "read_environment" then readEnvironment
  else if s = "stop_environment" then stopEnvironment
  else if s = "create_environment" then createEnvironment
  else if s = "create_deployment" then createDeployment
  else other s

end Action

def Role.mayWrite : Role → Bool
  | .owner => true
  | .developer => true
  | .reporter => false
  | .guest => false

/-- Whether a caller with the given role in a project may act on it. -/
def Action.permitted (action : Action) (p : Project) (role : Option Role) : Bool :=
  match action with
  | .readEnvironment => p.isOpen || role.isSome
  | .stopEnvironment => role.any Role.mayWrite
  | .createEnvironment => role.any Role.mayWrite
  | .createDeployment => role.any Role.mayWrite
  | .other _ => false

theorem mayRead_of_mayWrite {action : Action} {p : Project} {role : Option Role}
    (h : action.permitted p role = true) : Action.readEnvironment.permitted p role = true := by
  cases action <;> cases role <;> simp_all [Action.permitted]

/-- What an action is asked for: a project, an environment, or anything else. -/
inductive Resource
  | project (p : Project)
  | environment (e : Environment)
  | other

namespace Store

/-- The project whose rules govern a resource. -/
def projectOf? (s : Store) : Resource → Option Project
  | .project p => some p
  | .environment e => s.project? e.project
  | .other => none

/-- The role of a caller in a project; a caller without a name has none. -/
def callerRole? (s : Store) (caller : Option String) (project : String) : Option Role :=
  caller.bind fun user => s.role? user project

/-- Whether a caller may act on a resource, by the present memberships. -/
def allowed (s : Store) (caller : Option String) (action : Action) (r : Resource) : Bool :=
  match s.projectOf? r with
  | none => false
  | some p => action.permitted p (s.callerRole? caller p.id)

@[simp] theorem callerRole?_none (s : Store) (project : String) :
    s.callerRole? none project = none := rfl

@[simp] theorem callerRole?_some (s : Store) (user project : String) :
    s.callerRole? (some user) project = s.role? user project := rfl

end Store

end DeployRegistry
