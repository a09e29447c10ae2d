import DeployRegistry.Json.Value
import DeployRegistry.Store.Basic

/-!
# Records in answers

The shapes in which records are shown. When a record was made and when it was last altered is filled
in by the store's own clock; no check and no query reads these moments. A record only keeps whether
it was altered, and its moments are what that clock has for its id.
-/

namespace DeployRegistry.Http

set_option autoImplicit false

/-- What the store's own clock showed when a record was made and when it was last altered, by the id
of the record. -/
structure Clock where
  made : String → String
  altered : String → String

/-- The clock that always shows one moment. -/
instance : Coe String Clock := ⟨fun moment => ⟨fun _ => moment, fun _ => moment⟩⟩

namespace Shape

def nameOf {α : Type} [Named α] (a : α) : Json := .str (Named.name a)

variable (clock : Clock)

def made (id : String) : String × Json := ("created_at", .str (clock.made id))

/-- A record that was never altered has no moment of its alteration. -/
def altered (id : String) (changed : Bool) : String × Json :=
  ("updated_at", if changed then .str (clock.altered id) else .null)

def project (p : Project) : Json := .obj [
  ("id", .str p.id),
  ("name", .str p.name),
  ("repo_full_name", Json.ofText? p.repository),
  ("visibility", nameOf p.visibility),
  made clock p.id,
  altered clock p.id p.changed]

def membership (m : Membership) : Json := .obj [
  ("id", .str m.id),
  ("project_id", .str m.project),
  ("user_id", .str m.user),
  ("role", nameOf m.role),
  made clock m.id]

def environment (s : Store) (e : Environment) : Json := .obj [
  ("id", .str e.id),
  ("project_id", .str e.project),
  ("name", .str e.name),
  ("state", nameOf e.state),
  ("last_deployed_at", Json.ofOption (fun t => .str t.text) (s.lastDeployed? e.id)),
  made clock e.id,
  altered clock e.id e.changed]

def environments (s : Store) (es : List Environment) : Json :=
  .obj [("environments", .arr (es.map (environment clock s)))]

def deployment (d : Deployment) : Json := .obj [
  ("id", .str d.id),
  ("project_id", .str d.project),
  ("environment_id", .str d.environment),
  ("ref", .str d.ref),
  ("tag", .bool d.tag),
  ("sha", .str d.sha),
  ("status", nameOf d.status),
  ("deployed_at", .str d.time.text),
  made clock d.id]

/-- A page of deployments and the number of all of them. -/
def deployments (ds : List Deployment) (total : Nat) : Json :=
  .obj [("deployments", .arr (ds.map (deployment clock))), ("total", Json.int total)]

end Shape

end DeployRegistry.Http
