import DeployRegistry.Resolution.Stored
import DeployRegistry.Service.Projects

/-!
# Environments of a project

Listing, showing, creating, stopping and starting environments, and finding those that run a ref or
a commit.
-/

namespace DeployRegistry

set_option autoImplicit false

open Form

def byName (a b : Environment) : Bool := decide (a.name ≤ b.name)

namespace Store

/-- The environments of a project in the order of their names, all of them or those in a state. -/
def listEnvironments (s : Store) (caller : Option String) (project : String)
    (state : Option EnvState) : Except Denial (List Environment) := do
  let p ← s.readable caller project
  let found := (s.environmentsOf p.id).filter fun e => state.all (e.state == ·)
  pure ((found.mergeSort byName).filter fun e =>
    s.allowed caller .readEnvironment (.environment e))

def getEnvironment (s : Store) (caller : Option String) (project id : String) :
    Except Denial Environment := do
  let p ← s.readable caller project
  match s.environment? p.id id with
  | none => throw .noEnvironment
  | some e =>
    if s.allowed caller .readEnvironment (.environment e) then pure e else throw .noEnvironment

/-- The environments that run what is looked for, in a project that the caller may read. -/
def findEnvironments {m : Type → Type} [Monad m] (s : Store) (caller : Option String)
    (project : String) (c : Criteria) (host : Option (Question → m Bool)) :
    m (Except Denial (List Environment)) :=
  match s.readable caller project with
  | .error d => pure (.error d)
  | .ok p => do
    let es ← ((Checks.stored s host).resolve s p.id caller c).run' Recollection.empty
    pure (.ok es)

end Store

namespace Registry

def createEnvironment (r : Registry) (ids : Ids) (user project : String) (f : NewEnvironment) :
    Except Denial (Environment × Registry) := do
  let s := r.store
  let p ← s.readable (some user) project
  s.authorize (some user) p .createEnvironment
  if (s.environmentNamed? p.id f.name).isSome then throw (.nameTaken f.name)
  let e : Environment := ⟨ids r.issued, p.id, f.name, .available, false⟩
  pure (e, ⟨s.addEnvironment e, r.issued + 1⟩)

/-- Brings an environment to a state; one that is in the state already is not touched. -/
def moveEnvironment (r : Registry) (user project id : String) (state : EnvState) :
    Except Denial (Environment × Registry) := do
  let s := r.store
  let p ← s.readable (some user) project
  match s.environment? p.id id with
  | none => throw .noEnvironment
  | some e => do
    s.authorize (some user) p .stopEnvironment
    if e.state = state then pure (e, r)
    else pure ({ e with state := state, changed := true },
      { r with store := s.setState e.id state })

end Registry

end DeployRegistry
