import DeployRegistry.Time.WallTime

/-!
# Records of the registry

Users, projects, memberships, environments and deployments, with the closed vocabularies that their
fields are drawn from. Of the moments at which a record was made and altered, which nothing but an
answer shows, a record keeps only whether there is one of the latter.
-/

namespace DeployRegistry

set_option autoImplicit false

/-- A finite vocabulary, in the order in which it is presented, with a name for each word. -/
class Named (α : Type) where
  all : List α
  name : α → String

namespace Named

variable {α : Type} [Named α]

def ofName? (s : String) : Option α := (all : List α).find? fun a => name a == s

def names (α : Type) [Named α] : List String := (all : List α).map name

theorem name_of_ofName? {s : String} {a : α} (h : ofName? s = some a) : name a = s := by
  simpa using List.find?_some h

end Named

inductive Role
  | owner
  | developer
  | reporter
  | guest
  deriving DecidableEq, Inhabited

/-- Who may read a project: everyone, or its members. -/
inductive Visibility
  | members
  | everyone
  deriving DecidableEq, Inhabited

inductive EnvState
  | available
  | stopping
  | stopped
  deriving DecidableEq, Inhabited

inductive DeployStatus
  | created
  | running
  | success
  | failed
  | canceled
  deriving DecidableEq, Inhabited

instance : Named Role where
  all := [.owner, .developer, .reporter, .guest]
  name
    | .owner => "owner"
    | .developer => "developer"
    | .reporter => "reporter"
    | .guest => "guest"

instance : Named Visibility where
  all := [.members, .everyone]
  name
    | .members => "private"
    | .everyone => "public"

instance : Named EnvState where
  all := [.available, .stopping, .stopped]
  name
    | .available => "available"
    | .stopping => "stopping"
    | .stopped => "stopped"

instance : Named DeployStatus where
  all := [.created, .running, .success, .failed, .canceled]
  name
    | .created => "created"
    | .running => "running"
    | .success => "success"
    | .failed => "failed"
    | .canceled => "canceled"

structure User where
  id : String
  name : String
  email : String
  deriving DecidableEq, Inhabited

/-- A project may name the repository in which its commits live. `changed` tells whether the record
was altered after its creation. -/
structure Project where
  id : String
  name : String
  repository : Option String
  visibility : Visibility
  changed : Bool
  deriving DecidableEq, Inhabited

def Project.isOpen (p : Project) : Bool := p.visibility == .everyone

structure Membership where
  id : String
  user : String
  project : String
  role : Role
  deriving DecidableEq, Inhabited

/-- A place to deploy to. `changed` tells whether the record was altered after its creation. -/
structure Environment where
  id : String
  project : String
  name : String
  state : EnvState
  changed : Bool
  deriving DecidableEq, Inhabited

/-- One deployment of a ref at a commit; it is never altered. -/
structure Deployment where
  id : String
  project : String
  environment : String
  ref : String
  tag : Bool
  sha : String
  status : DeployStatus
  time : WallTime
  deriving DecidableEq, Inhabited

end DeployRegistry
