import DeployRegistry.Access.Rules
import DeployRegistry.Memo

/-!
# Remembered roles

The role of a user in a project is looked up once and remembered, also when there was none. While
what is remembered agrees with the present memberships, the answers are theirs
(`allowed_of_current`).
-/

namespace DeployRegistry

set_option autoImplicit false

/-- The roles that were looked up so far, by user and project. -/
abbrev Roles := Memo (String × String) (Option Role)

namespace Roles

/-- The role of a caller in a project, from memory if it was looked up before. A caller without a
name is never looked up. -/
def roleFor (m : Roles) (s : Store) (caller : Option String) (project : String) :
    Option Role × Roles :=
  match caller with
  | none => (none, m)
  | some user => m.ask (user, project) (s.role? user project)

def allowed (m : Roles) (s : Store) (caller : Option String) (action : Action) (r : Resource) :
    Bool × Roles :=
  match s.projectOf? r with
  | none => (false, m)
  | some p =>
    let (role, m) := m.roleFor s caller p.id
    (action.permitted p role, m)

/-- Everything that is remembered still holds. -/
def Current (m : Roles) (s : Store) : Prop :=
  ∀ user project role, m.find? (user, project) = some role → role = s.role? user project

theorem current_empty (s : Store) : Current Memo.empty s := by
  intro user project role h
  simp at h

theorem roleFor_of_current {m : Roles} {s : Store} (h : m.Current s) (caller : Option String)
    (project : String) :
    (m.roleFor s caller project).1 = s.callerRole? caller project ∧
      (m.roleFor s caller project).2.Current s := by
  cases caller with
  | none => exact ⟨rfl, h⟩
  | some user =>
    simp only [roleFor, Store.callerRole?_some]
    cases hf : m.find? (user, project) with
    | some role => rw [Memo.ask_of_find? hf]; exact ⟨h _ _ _ hf, h⟩
    | none =>
      rw [Memo.ask_of_find?_none hf]
      refine ⟨rfl, fun u p role hr => ?_⟩
      rw [Memo.find?_cons] at hr
      split at hr
      · simp_all
      · exact h u p role hr

theorem allowed_of_current {m : Roles} {s : Store} (h : m.Current s) (caller : Option String)
    (action : Action) (r : Resource) :
    (m.allowed s caller action r).1 = s.allowed caller action r ∧
      (m.allowed s caller action r).2.Current s := by
  simp only [allowed, Store.allowed]
  cases s.projectOf? r with
  | none => exact ⟨rfl, h⟩
  | some p =>
    have hp := roleFor_of_current h caller p.id
    exact ⟨by simp [hp.1], hp.2⟩

end Roles

end DeployRegistry
