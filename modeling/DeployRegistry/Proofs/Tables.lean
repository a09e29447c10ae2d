import DeployRegistry.Proofs.Visibility

/-!
# Writes to the tables

One record is written at a time: a new one at the end of its table, or the state of an environment.
Nothing is ever taken away. The constraints of the tables stay as long as each write takes no key
that is there already.
-/

namespace DeployRegistry

set_option autoImplicit false

/-- Two records of one environment, which may be in different states. -/
structure Environment.Same (e f : Environment) : Prop where
  id : e.id = f.id
  project : e.project = f.project
  name : e.name = f.name

theorem Environment.Same.refl (e : Environment) : e.Same e := ⟨rfl, rfl, rfl⟩

theorem Environment.Same.trans {e f g : Environment} (h : e.Same f) (h' : f.Same g) : e.Same g :=
  ⟨h.id.trans h'.id, h.project.trans h'.project, h.name.trans h'.name⟩

/-- One record that is written: a new one, or the state of one that is there. -/
inductive Write
  | project (p : Project)
  | membership (m : Membership)
  | environment (e : Environment)
  | deployment (d : Deployment)
  | state (id : String) (state : EnvState)

/-! The rows that are new in each of the tables. -/

namespace Write

def projects : Write → List Project
  | .project p => [p]
  | _ => []

def memberships : Write → List Membership
  | .membership m => [m]
  | _ => []

def environments : Write → List Environment
  | .environment e => [e]
  | _ => []

def deployments : Write → List Deployment
  | .deployment d => [d]
  | _ => []

theorem mem_projects_iff {w : Write} {p : Project} : p ∈ w.projects ↔ w = .project p := by
  cases w <;> simp [projects, eq_comm]

theorem mem_memberships_iff {w : Write} {m : Membership} :
    m ∈ w.memberships ↔ w = .membership m := by
  cases w <;> simp [memberships, eq_comm]

theorem mem_deployments_iff {w : Write} {d : Deployment} :
    d ∈ w.deployments ↔ w = .deployment d := by
  cases w <;> simp [deployments, eq_comm]

end Write

/-- Whether the constraints on keys let a write pass: a new record shares no key with one that is
there. A state is not part of any key. -/
def Store.Takes (s : Store) : Write → Prop
  | .project p => ∀ q ∈ s.projects, q.id ≠ p.id
  | .membership m => ∀ n ∈ s.memberships, n.id ≠ m.id ∧ ¬ (n.user = m.user ∧ n.project = m.project)
  | .environment e =>
    ∀ f ∈ s.environments, f.id ≠ e.id ∧ ¬ (f.project = e.project ∧ f.name = e.name)
  | .deployment d => ∀ c ∈ s.deployments, c.id ≠ d.id
  | .state _ _ => True

namespace Store

variable {s : Store}

theorem map_environments_setState {κ : Type} (key : Environment → κ)
    (hkey : ∀ e state changed, key { e with state := state, changed := changed } = key e)
    (s : Store) (id : String) (state : EnvState) :
    (s.setState id state).environments.map key = s.environments.map key := by
  simp only [setState, List.map_map]
  refine List.map_congr_left fun e _ => ?_
  simp only [Function.comp_apply]
  split
  · exact hkey e _ _
  · rfl

theorem mem_setState_iff (s : Store) (id : String) (state : EnvState) (f : Environment) :
    f ∈ (s.setState id state).environments ↔ ∃ e ∈ s.environments,
      f = if e.id = id then { e with state := state, changed := e.changed || e.state != state }
        else e := by
  simp only [Store.setState, List.mem_map, eq_comm]

theorem Keyed.addMembership (hs : s.Keyed) {m : Membership} (hm : s.Takes (.membership m)) :
    (s.addMembership m).Keyed := by
  refine { hs with memberships := ?_, roles := ?_ }
  · exact nodup_map_concat hs.memberships fun n hn => (hm n hn).1
  · refine nodup_map_concat hs.roles fun n hn hk => (hm n hn).2 ?_
    exact Prod.mk.inj hk

theorem Keyed.addEnvironment (hs : s.Keyed) {e : Environment} (he : s.Takes (.environment e)) :
    (s.addEnvironment e).Keyed :=
  { hs with environments := nodup_map_concat hs.environments fun f hf => (he f hf).1 }

theorem Keyed.setState (hs : s.Keyed) (id : String) (state : EnvState) :
    (s.setState id state).Keyed := by
  refine { hs with environments := ?_ }
  rw [map_environments_setState _ (fun _ _ _ => rfl)]
  exact hs.environments

theorem Constrained.addEnvironment (hs : s.Constrained) {e : Environment}
    (he : s.Takes (.environment e)) : (s.addEnvironment e).Constrained := by
  refine { hs.toKeyed.addEnvironment he with names := ?_ }
  refine nodup_map_concat hs.names fun f hf hk => (he f hf).2 ?_
  exact Prod.mk.inj hk

theorem Constrained.setState (hs : s.Constrained) (id : String) (state : EnvState) :
    (s.setState id state).Constrained := by
  refine { hs.toKeyed.setState id state with names := ?_ }
  rw [map_environments_setState _ (fun _ _ _ => rfl)]
  exact hs.names

end Store

namespace Registry

/-- A new record stands at the end of its table, and takes an id. -/
def write (r : Registry) : Write → Registry
  | .project p => ⟨r.store.addProject p, r.issued + 1⟩
  | .membership m => ⟨r.store.addMembership m, r.issued + 1⟩
  | .environment e => ⟨r.store.addEnvironment e, r.issued + 1⟩
  | .deployment d => ⟨r.store.addDeployment d, r.issued + 1⟩
  | .state id state => { r with store := r.store.setState id state }

def writeAll (r : Registry) (ws : List Write) : Registry := ws.foldl write r

section

variable {r : Registry} {ws : List Write}

/-- All tables afterwards, as lists of rows: those before, and the new rows behind them. Each new
row took an id. The rows of environments stay as they are unless a state is written. -/
structure Grown (r r' : Registry) (ws : List Write) : Prop where
  users : r'.store.users = r.store.users
  projects : r'.store.projects = r.store.projects ++ ws.flatMap Write.projects
  memberships : r'.store.memberships = r.store.memberships ++ ws.flatMap Write.memberships
  environments : (∀ id state, Write.state id state ∉ ws) →
    r'.store.environments = r.store.environments ++ ws.flatMap Write.environments
  deployments : r'.store.deployments = r.store.deployments ++ ws.flatMap Write.deployments
  issued : r'.issued = r.issued + (ws.flatMap Write.projects).length +
    (ws.flatMap Write.memberships).length + (ws.flatMap Write.environments).length +
    (ws.flatMap Write.deployments).length

theorem grown_write (r : Registry) (w : Write) : r.Grown (r.write w) [w] := by
  constructor
  · cases w <;> rfl
  · cases w <;> simp [write, Write.projects, Store.addProject, Store.addMembership,
      Store.addEnvironment, Store.addDeployment, Store.setState]
  · cases w <;> simp [write, Write.memberships, Store.addProject, Store.addMembership,
      Store.addEnvironment, Store.addDeployment, Store.setState]
  · intro hstate
    cases w with
    | state id state => exact absurd List.mem_cons_self (hstate id state)
    | _ => simp [write, Write.environments, Store.addProject, Store.addMembership,
        Store.addEnvironment, Store.addDeployment]
  · cases w <;> simp [write, Write.deployments, Store.addProject, Store.addMembership,
      Store.addEnvironment, Store.addDeployment, Store.setState]
  · cases w <;> rfl

theorem Grown.append {r r' r'' : Registry} {ws ws' : List Write} (h : r.Grown r' ws)
    (h' : r'.Grown r'' ws') : r.Grown r'' (ws ++ ws') := by
  constructor
  · rw [h'.users, h.users]
  · rw [h'.projects, h.projects, List.flatMap_append, List.append_assoc]
  · rw [h'.memberships, h.memberships, List.flatMap_append, List.append_assoc]
  · intro hstate
    have hfirst := h.environments fun id state hin =>
      hstate id state (List.mem_append_left _ hin)
    have hsecond := h'.environments fun id state hin =>
      hstate id state (List.mem_append_right _ hin)
    rw [hsecond, hfirst, List.flatMap_append, List.append_assoc]
  · rw [h'.deployments, h.deployments, List.flatMap_append, List.append_assoc]
  · have hfirst := h.issued
    have hsecond := h'.issued
    simp only [List.flatMap_append, List.length_append]
    omega

theorem grown_writeAll (r : Registry) (ws : List Write) : r.Grown (r.writeAll ws) ws := by
  induction ws generalizing r with
  | nil => constructor <;> simp [writeAll]
  | cons w ws ih => exact (r.grown_write w).append (ih (r.write w))

theorem mem_projects_writeAll_iff {p : Project} :
    p ∈ (r.writeAll ws).store.projects ↔ p ∈ r.store.projects ∨ .project p ∈ ws := by
  rw [(r.grown_writeAll ws).projects, List.mem_append, List.mem_flatMap]
  simp only [Write.mem_projects_iff, exists_eq_right]

theorem mem_memberships_writeAll_iff {m : Membership} :
    m ∈ (r.writeAll ws).store.memberships ↔ m ∈ r.store.memberships ∨ .membership m ∈ ws := by
  rw [(r.grown_writeAll ws).memberships, List.mem_append, List.mem_flatMap]
  simp only [Write.mem_memberships_iff, exists_eq_right]

theorem mem_deployments_writeAll_iff {d : Deployment} :
    d ∈ (r.writeAll ws).store.deployments ↔ d ∈ r.store.deployments ∨ .deployment d ∈ ws := by
  rw [(r.grown_writeAll ws).deployments, List.mem_append, List.mem_flatMap]
  simp only [Write.mem_deployments_iff, exists_eq_right]

/-- An environment that was there still is, though perhaps in another state. -/
theorem exists_environment_write {e : Environment} (he : e ∈ r.store.environments) (w : Write) :
    ∃ f ∈ (r.write w).store.environments, f.Same e := by
  cases w with
  | project p => exact ⟨e, he, .refl e⟩
  | membership m => exact ⟨e, he, .refl e⟩
  | environment f => exact ⟨e, List.mem_append_left _ he, .refl e⟩
  | deployment d => exact ⟨e, he, .refl e⟩
  | state id state =>
    refine ⟨_, (Store.mem_setState_iff _ _ _ _).mpr ⟨e, he, rfl⟩, ?_⟩
    split <;> exact ⟨rfl, rfl, rfl⟩

theorem exists_environment_writeAll {e : Environment} (he : e ∈ r.store.environments)
    (ws : List Write) : ∃ f ∈ (r.writeAll ws).store.environments, f.Same e := by
  induction ws generalizing r e with
  | nil => exact ⟨e, he, .refl e⟩
  | cons w ws ih =>
    obtain ⟨f, hf, hfe⟩ := exists_environment_write he w
    obtain ⟨g, hg, hgf⟩ := ih hf
    exact ⟨g, hg, hgf.trans hfe⟩

theorem environment_of_write {w : Write} {f : Environment}
    (hf : f ∈ (r.write w).store.environments) :
    ∃ e, f.Same e ∧ (e ∈ r.store.environments ∨ w = .environment e) := by
  cases w with
  | project p => exact ⟨f, .refl f, Or.inl hf⟩
  | membership m => exact ⟨f, .refl f, Or.inl hf⟩
  | environment e =>
    rcases (Store.mem_environments_addEnvironment_iff _ _ _).mp hf with hf | rfl
    · exact ⟨f, .refl f, Or.inl hf⟩
    · exact ⟨f, .refl f, Or.inr rfl⟩
  | deployment d => exact ⟨f, .refl f, Or.inl hf⟩
  | state id state =>
    obtain ⟨e, he, rfl⟩ := (Store.mem_setState_iff _ _ _ _).mp hf
    refine ⟨e, ?_, Or.inl he⟩
    split <;> exact ⟨rfl, rfl, rfl⟩

theorem environment_of_writeAll {f : Environment} (hf : f ∈ (r.writeAll ws).store.environments) :
    ∃ e, f.Same e ∧ (e ∈ r.store.environments ∨ .environment e ∈ ws) := by
  induction ws generalizing r with
  | nil => exact ⟨f, .refl f, Or.inl hf⟩
  | cons w ws ih =>
    obtain ⟨e, hfe, he | he⟩ := ih hf
    · obtain ⟨g, heg, hg | rfl⟩ := environment_of_write he
      · exact ⟨g, hfe.trans heg, Or.inl hg⟩
      · exact ⟨g, hfe.trans heg, Or.inr List.mem_cons_self⟩
    · exact ⟨e, hfe, Or.inr (List.mem_cons_of_mem w he)⟩

/-- Whether the constraints on keys let each of some writes pass, one after the other. -/
def TakesAll : Registry → List Write → Prop
  | _, [] => True
  | r, w :: ws => r.store.Takes w ∧ (r.write w).TakesAll ws

theorem keyed_write (hs : r.store.Keyed) {w : Write} (hw : r.store.Takes w) :
    (r.write w).store.Keyed := by
  cases w with
  | project p => exact { hs with projects := nodup_map_concat hs.projects hw }
  | membership m => exact hs.addMembership hw
  | environment e => exact hs.addEnvironment hw
  | deployment d => exact { hs with deployments := nodup_map_concat hs.deployments hw }
  | state id state => exact hs.setState id state

theorem keyed_writeAll (hs : r.store.Keyed) (hws : r.TakesAll ws) :
    (r.writeAll ws).store.Keyed := by
  induction ws generalizing r with
  | nil => exact hs
  | cons w ws ih => exact ih (keyed_write hs hws.1) hws.2

theorem constrained_write (hs : r.store.Constrained) {w : Write} (hw : r.store.Takes w) :
    (r.write w).store.Constrained := by
  have hkeyed := keyed_write hs.toKeyed hw
  cases w with
  | project p => exact { hkeyed with names := hs.names }
  | membership m => exact { hkeyed with names := hs.names }
  | environment e => exact hs.addEnvironment hw
  | deployment d => exact { hkeyed with names := hs.names }
  | state id state => exact hs.setState id state

theorem constrained_writeAll (hs : r.store.Constrained) (hws : r.TakesAll ws) :
    (r.writeAll ws).store.Constrained := by
  induction ws generalizing r with
  | nil => exact hs
  | cons w ws ih => exact ih (constrained_write hs hws.1) hws.2

end

end Registry

end DeployRegistry
