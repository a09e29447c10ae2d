import DeployRegistry.Access.Roles
import DeployRegistry.History.Snapshots
import DeployRegistry.Resolution.Basic

/-!
# Checks against the store

The checks of resolution as the registry answers them: access by the remembered roles, and
questions about what is live by the snapshots and the host of the repository.
-/

namespace DeployRegistry

set_option autoImplicit false

/-- What one resolution remembers. -/
structure Recollection where
  roles : Roles
  snapshots : Snapshots

namespace Recollection

def empty : Recollection := ⟨Memo.empty, Memo.empty⟩

section

variable {m : Type → Type} [Monad m]

def allowed (s : Store) (caller : Option String) (action : Action) (r : Resource) :
    StateT Recollection m Bool := fun known =>
  let (answer, roles) := known.roles.allowed s caller action r
  pure (answer, { known with roles := roles })

/-- The live deployment of an environment, as it was when first asked for. -/
def live (s : Store) (environment : String) : StateT Recollection m (Option Deployment) :=
  fun known =>
    let (d, snapshots) := known.snapshots.live s environment
    pure (d, { known with snapshots := snapshots })

def recentlyUpdated (s : Store) (e : Environment) (ref : String) : StateT Recollection m Bool := do
  let d ← live s e.id
  pure (cameFrom d ref)

/-- Asks the host only where the store does not know the answer. -/
def includesCommit (s : Store) (host : Option (Question → m Bool)) (e : Environment)
    (sha : String) : StateT Recollection m Bool := do
  let d ← live s e.id
  match s.inclusion host.isSome d e sha with
  | .known answer => pure answer
  | .ask q =>
    match host with
    | none => pure false
    | some ask => ask q

end

end Recollection

/-- The checks as the store and a host answer them. -/
def Checks.stored {m : Type → Type} [Monad m] (s : Store)
    (host : Option (Question → m Bool)) : Checks (StateT Recollection m) where
  allowed caller action e := Recollection.allowed s caller action (.environment e)
  recentlyUpdated := Recollection.recentlyUpdated s
  includesCommit := Recollection.includesCommit s host

end DeployRegistry
