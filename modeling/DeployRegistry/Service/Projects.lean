import DeployRegistry.Access.Rules
import DeployRegistry.Form.Submissions
import DeployRegistry.Service.Denial
import DeployRegistry.Store.Changes

/-!
# Projects and their members

What callers may ask of projects. A project that the caller may not read is reported as missing, so
that its existence is not disclosed. The main statement is `readable_eq_ok_iff`.
-/

namespace DeployRegistry

set_option autoImplicit false

open Form

/-- The store, and how many ids were issued for its records. -/
structure Registry where
  store : Store
  issued : Nat
  deriving DecidableEq, Inhabited

/-- The ids of new records, by the order of their issue. -/
abbrev Ids := Nat → String

namespace Store

/-- The project with an id, when the caller may read it. -/
def readable (s : Store) (caller : Option String) (project : String) : Except Denial Project :=
  match s.project? project with
  | none => .error .noProject
  | some p =>
    if p.isOpen then .ok p
    else if (s.callerRole? caller p.id).isSome then .ok p
    else .error .noProject

def authorize (s : Store) (caller : Option String) (p : Project) (action : Action) :
    Except Denial Unit :=
  if s.allowed caller action (.project p) then .ok () else .error .forbidden

theorem readable_eq_ok_iff (s : Store) (caller : Option String) (project : String)
    (p : Project) :
    s.readable caller project = .ok p ↔
      s.project? project = some p ∧ (p.isOpen = true ∨ (s.callerRole? caller p.id).isSome) := by
  simp only [readable]
  cases h : s.project? project with
  | none => simp
  | some q =>
    simp only [Option.some.injEq]
    constructor
    · intro hq
      split at hq
      · injection hq with hq; subst hq; simp_all
      · split at hq
        · injection hq with hq; subst hq; simp_all
        · cases hq
    · rintro ⟨rfl, hp⟩
      by_cases ho : q.isOpen = true <;> simp_all

end Store

namespace Registry

def empty : Registry := ⟨.empty, 0⟩

/-- A new project, whose first member is its owner. -/
def createProject (r : Registry) (ids : Ids) (user : String) (f : NewProject) :
    Project × Registry :=
  let p : Project := ⟨ids r.issued, f.name, f.repository, f.visibility, false⟩
  let m : Membership := ⟨ids (r.issued + 1), user, p.id, .owner⟩
  (p, ⟨(r.store.addProject p).addMembership m, r.issued + 2⟩)

/-- A new member of a project; only owners add members. -/
def addMember (r : Registry) (ids : Ids) (user project : String) (f : NewMember) :
    Except Denial (Membership × Registry) := do
  let s := r.store
  let p ← s.readable (some user) project
  if s.role? user p.id ≠ some .owner then throw .ownersOnly
  match s.user? f.user with
  | none => throw .noUser
  | some invited =>
    if (s.membership? invited.id p.id).isSome then throw .alreadyMember
    let m : Membership := ⟨ids r.issued, invited.id, p.id, f.role⟩
    pure (m, ⟨s.addMembership m, r.issued + 1⟩)

end Registry

end DeployRegistry
