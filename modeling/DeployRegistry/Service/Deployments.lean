import DeployRegistry.Service.Projects

/-!
# Deployments of a project

Recording a deployment, and listing the deployments of a project page by page, the newest first.
-/

namespace DeployRegistry

set_option autoImplicit false

open Form

namespace Registry

/-- The environment of a project with a name, created when there is none. -/
def environmentFor (r : Registry) (ids : Ids) (project name : String) : Environment × Registry :=
  match r.store.environmentNamed? project name with
  | some e => (e, r)
  | none =>
    let e : Environment := ⟨ids r.issued, project, name, .available, false⟩
    (e, ⟨r.store.addEnvironment e, r.issued + 1⟩)

/-- A new deployment. It keeps the wall-clock time that was submitted, without the offset of its
zone, or else the present time. -/
def recordDeployment (r : Registry) (ids : Ids) (now : WallTime) (user project : String)
    (f : NewDeployment) : Except Denial (Deployment × Registry) := do
  let p ← r.store.readable (some user) project
  r.store.authorize (some user) p .createDeployment
  let (e, r) := r.environmentFor ids p.id f.environment
  let d : Deployment := {
    id := ids r.issued
    project := p.id
    environment := e.id
    ref := f.ref
    tag := f.tag
    sha := f.sha
    status := f.status
    time := f.time.elim now (·.wall) }
  pure (d, ⟨r.store.addDeployment d, r.issued + 1⟩)

end Registry

/-- Which deployments are listed, and which page of the list. -/
structure Listing where
  environment : Option String
  ref : Option String
  limit : Nat
  offset : Nat
  deriving DecidableEq, Inhabited

namespace Store

/-- An absent or empty restriction restricts nothing. -/
def meets (wanted : Option String) (found : String) : Bool :=
  (wanted.filter (· ≠ "")).all (found == ·)

/-- The deployments of a project that a listing is about, the newest first. -/
def listed (s : Store) (project : String) (l : Listing) : List Deployment :=
  (s.deployments.filter fun d => d.project == project && meets l.environment d.environment &&
    meets l.ref d.ref).mergeSort Deployment.notBefore

/-- One page of a list. -/
def page (l : Listing) (ds : List Deployment) : List Deployment := (ds.drop l.offset).take l.limit

/-- A page of the deployments of a project, and the number of all of them. -/
def listDeployments (s : Store) (caller : Option String) (project : String) (l : Listing) :
    Except Denial (List Deployment × Nat) := do
  let p ← s.readable caller project
  let ds := s.listed p.id l
  pure (page l ds, ds.length)

end Store

end DeployRegistry
