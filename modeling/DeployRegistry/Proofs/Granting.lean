import DeployRegistry.Proofs.Steps
import DeployRegistry.Service.Deployments
import DeployRegistry.Service.Environments
import Mathlib.Logic.Relation

/-!
# What is granted

A wish to change records is granted or denied as a whole. When it is granted, the checks that were
made held, and the change is a few steps of the user who wished it.
-/

namespace DeployRegistry

set_option autoImplicit false

open Form

namespace Registry

/-! The checks that each wish goes through, one after the other. -/

section

variable (r : Registry) (ids : Ids) (user project : String)

theorem addMember_eq (f : NewMember) : r.addMember ids user project f =
    match r.store.readable (some user) project with
    | .error d => .error d
    | .ok p =>
      if r.store.role? user p.id ≠ some .owner then .error .ownersOnly
      else match r.store.user? f.user with
        | none => .error .noUser
        | some u =>
          if (r.store.membership? u.id p.id).isSome then .error .alreadyMember
          else
            let m : Membership := ⟨ids r.issued, u.id, p.id, f.role⟩
            .ok (m, ⟨r.store.addMembership m, r.issued + 1⟩) := by
  unfold addMember
  dsimp only
  cases r.store.readable (some user) project with
  | error d => rfl
  | ok p =>
    by_cases howner : r.store.role? user p.id ≠ some .owner
    · simp only [bind, Except.bind, if_pos howner]
      rfl
    · cases hu : r.store.user? f.user with
      | none =>
        simp only [bind, Except.bind, if_neg howner]
        rfl
      | some u =>
        by_cases hm : (r.store.membership? u.id p.id).isSome
        · simp only [bind, Except.bind, if_neg howner, if_pos hm]
          rfl
        · simp only [bind, Except.bind, if_neg howner, if_neg hm]
          rfl

theorem createEnvironment_eq (f : NewEnvironment) : r.createEnvironment ids user project f =
    match r.store.readable (some user) project with
    | .error d => .error d
    | .ok p =>
      if r.store.allowed (some user) .createEnvironment (.project p) then
        if (r.store.environmentNamed? p.id f.name).isSome then .error (.nameTaken f.name)
        else
          let e : Environment := ⟨ids r.issued, p.id, f.name, .available, false⟩
          .ok (e, ⟨r.store.addEnvironment e, r.issued + 1⟩)
      else .error .forbidden := by
  unfold createEnvironment Store.authorize
  dsimp only
  cases r.store.readable (some user) project with
  | error d => rfl
  | ok p =>
    by_cases ha : r.store.allowed (some user) .createEnvironment (.project p)
    · by_cases hn : (r.store.environmentNamed? p.id f.name).isSome
      · simp only [bind, Except.bind, if_pos ha, if_pos hn]
        rfl
      · simp only [bind, Except.bind, if_pos ha, if_neg hn]
        rfl
    · simp only [bind, Except.bind, if_neg ha]

theorem moveEnvironment_eq (id : String) (state : EnvState) :
    r.moveEnvironment user project id state =
    match r.store.readable (some user) project with
    | .error d => .error d
    | .ok p =>
      match r.store.environment? p.id id with
      | none => .error .noEnvironment
      | some e =>
        if r.store.allowed (some user) .stopEnvironment (.project p) then
          if e.state = state then .ok (e, r)
          else .ok ({ e with state := state, changed := true },
            { r with store := r.store.setState e.id state })
        else .error .forbidden := by
  unfold moveEnvironment Store.authorize
  dsimp only
  cases r.store.readable (some user) project with
  | error d => rfl
  | ok p =>
    cases he : r.store.environment? p.id id with
    | none =>
      simp only [bind, Except.bind, he]
      rfl
    | some e =>
      by_cases ha : r.store.allowed (some user) .stopEnvironment (.project p)
      · by_cases hstate : e.state = state
        · simp only [bind, Except.bind, he, if_pos ha, if_pos hstate]
          rfl
        · simp only [bind, Except.bind, he, if_pos ha, if_neg hstate]
          rfl
      · simp only [bind, Except.bind, he, if_neg ha]

theorem recordDeployment_eq (now : WallTime) (f : NewDeployment) :
    r.recordDeployment ids now user project f =
    match r.store.readable (some user) project with
    | .error d => .error d
    | .ok p =>
      if r.store.allowed (some user) .createDeployment (.project p) then
        let (e, r) := r.environmentFor ids p.id f.environment
        let d : Deployment := ⟨ids r.issued, p.id, e.id, f.ref, f.tag, f.sha, f.status,
          f.time.elim now (·.wall)⟩
        .ok (d, ⟨r.store.addDeployment d, r.issued + 1⟩)
      else .error .forbidden := by
  unfold recordDeployment Store.authorize
  dsimp only
  cases r.store.readable (some user) project with
  | error d => rfl
  | ok p =>
    by_cases ha : r.store.allowed (some user) .createDeployment (.project p)
    · simp only [bind, Except.bind, if_pos ha]
      rfl
    · simp only [bind, Except.bind, if_neg ha]

end

section

variable {r r' : Registry} {ids : Ids} {user project : String}

/-- The project is there, and the user has a writing role in it. -/
structure Open (r : Registry) (user project : String) : Prop where
  there : ∃ p ∈ r.store.projects, p.id = project
  role : r.MayWrite user project

theorem mayWrite_iff (r : Registry) (user project : String) :
    r.MayWrite user project ↔ (r.store.role? user project).any Role.mayWrite = true := by
  rw [Option.any_eq_true]
  rfl

theorem open_of_readable {p : Project} (hread : r.store.readable (some user) project = .ok p)
    (hrole : (r.store.role? user p.id).any Role.mayWrite = true) :
    p.id = project ∧ r.Open user project := by
  obtain ⟨hp, rfl⟩ := Store.readable_eq_ok hread
  exact ⟨rfl, ⟨p, hp, rfl⟩, (mayWrite_iff r user p.id).mpr hrole⟩

/-- A new member is a user who was no member, brought in by an owner. -/
theorem addMember_eq_ok {f : NewMember} {m : Membership}
    (h : r.addMember ids user project f = .ok (m, r')) :
    m = ⟨ids r.issued, f.user, project, f.role⟩ ∧ r' = ⟨r.store.addMembership m, r.issued + 1⟩ ∧
      (∃ p ∈ r.store.projects, p.id = project) ∧ (∃ u ∈ r.store.users, u.id = f.user) ∧
      r.store.role? user project = some .owner ∧ r.store.membership? f.user project = none := by
  rw [addMember_eq] at h
  split at h
  · cases h
  · next p hread =>
    obtain ⟨hp, rfl⟩ := Store.readable_eq_ok hread
    split at h
    · cases h
    · next howner =>
      split at h
      · cases h
      · next u hu =>
        have hid := Store.user?_id hu
        rw [hid] at h
        split at h
        · cases h
        · next hm =>
          cases h
          rw [Bool.not_eq_true, Option.isSome_eq_false_iff, Option.isNone_iff_eq_none] at hm
          exact ⟨rfl, rfl, ⟨p, hp, rfl⟩, ⟨u, List.mem_of_find?_eq_some hu, hid⟩,
            not_not.mp howner, hm⟩

/-- A new environment has a name that is new in its project, and is available. -/
theorem createEnvironment_eq_ok {f : NewEnvironment} {e : Environment}
    (h : r.createEnvironment ids user project f = .ok (e, r')) :
    e = ⟨ids r.issued, project, f.name, .available, false⟩ ∧
      r' = ⟨r.store.addEnvironment e, r.issued + 1⟩ ∧ r.Open user project ∧
      r.store.environmentNamed? project f.name = none := by
  rw [createEnvironment_eq] at h
  split at h
  · cases h
  · next p hread =>
    split at h
    · next hallowed =>
      obtain ⟨rfl, hopen⟩ := open_of_readable hread hallowed
      split at h
      · cases h
      · next hname =>
        cases h
        rw [Bool.not_eq_true, Option.isSome_eq_false_iff, Option.isNone_iff_eq_none] at hname
        exact ⟨rfl, rfl, hopen, hname⟩
    · cases h

/-- An environment is brought to a state, or is in it already. -/
theorem moveEnvironment_eq_ok {id : String} {state : EnvState} {f : Environment}
    (h : r.moveEnvironment user project id state = .ok (f, r')) :
    ∃ e ∈ r.store.environments, e.id = id ∧ e.project = project ∧ r.Open user project ∧
      (e.state = state ∧ f = e ∧ r' = r ∨
        e.state ≠ state ∧ f = { e with state := state, changed := true } ∧
          r' = { r with store := r.store.setState e.id state }) := by
  rw [moveEnvironment_eq] at h
  split at h
  · cases h
  · next p hread =>
    split at h
    · cases h
    · next e hfound =>
      obtain ⟨he, hid, hproject⟩ := Store.environment?_eq_some hfound
      split at h
      · next hallowed =>
        obtain ⟨rfl, hopen⟩ := open_of_readable hread hallowed
        refine ⟨e, he, hid, hproject, hopen, ?_⟩
        split at h
        · next hstate =>
          cases h
          exact Or.inl ⟨hstate, rfl, rfl⟩
        · next hstate =>
          cases h
          exact Or.inr ⟨hstate, rfl, rfl⟩
      · cases h

theorem recordDeployment_eq_ok {now : WallTime} {f : NewDeployment} {d : Deployment}
    (h : r.recordDeployment ids now user project f = .ok (d, r')) :
    ∃ e r₁, r.environmentFor ids project f.environment = (e, r₁) ∧ r.Open user project ∧
      d = ⟨ids r₁.issued, project, e.id, f.ref, f.tag, f.sha, f.status,
        f.time.elim now (·.wall)⟩ ∧
      r' = ⟨r₁.store.addDeployment d, r₁.issued + 1⟩ := by
  rw [recordDeployment_eq] at h
  split at h
  · cases h
  · next p hread =>
    split at h
    · next hallowed =>
      obtain ⟨rfl, hopen⟩ := open_of_readable hread hallowed
      cases h
      exact ⟨_, _, rfl, hopen, rfl, rfl⟩
    · cases h

/-! Each wish that is granted is made of steps. -/

/-- Some steps of a user, or none. -/
abbrev Steps (ids : Ids) (user : String) : Registry → Registry → Prop :=
  Relation.ReflTransGen (Step ids user)

theorem createProject_steps (r : Registry) (ids : Ids) (user : String) (f : NewProject) :
    Steps ids user r (r.createProject ids user f).2 :=
  .single (.project _ rfl)

theorem addMember_steps {f : NewMember} {m : Membership}
    (h : r.addMember ids user project f = .ok (m, r')) : Steps ids user r r' := by
  obtain ⟨rfl, rfl, hproject, huser, howner, hnew⟩ := addMember_eq_ok h
  exact .single (.membership _ rfl hproject huser howner hnew)

theorem createEnvironment_steps {f : NewEnvironment} {e : Environment}
    (h : r.createEnvironment ids user project f = .ok (e, r')) : Steps ids user r r' := by
  obtain ⟨rfl, rfl, hopen, hnew⟩ := createEnvironment_eq_ok h
  exact .single (.environment _ rfl hopen.there hopen.role rfl hnew)

theorem moveEnvironment_steps {id : String} {state : EnvState} {f : Environment}
    (h : r.moveEnvironment user project id state = .ok (f, r')) : Steps ids user r r' := by
  obtain ⟨e, he, _, rfl, hopen, ⟨_, _, rfl⟩ | ⟨hne, _, rfl⟩⟩ := moveEnvironment_eq_ok h
  · exact .refl
  · exact .single (.state e state hopen.role he hne)

/-- The environment for a deployment is the one that has the name, or a new one. -/
theorem environmentFor_cases (r : Registry) (ids : Ids) (project name : String) :
    (∃ e, r.store.environmentNamed? project name = some e ∧
      r.environmentFor ids project name = (e, r)) ∨
    (r.store.environmentNamed? project name = none ∧
      r.environmentFor ids project name =
        (⟨ids r.issued, project, name, .available, false⟩,
          ⟨r.store.addEnvironment ⟨ids r.issued, project, name, .available, false⟩,
            r.issued + 1⟩)) := by
  unfold environmentFor
  cases r.store.environmentNamed? project name with
  | none => exact Or.inr ⟨rfl, rfl⟩
  | some e => exact Or.inl ⟨e, rfl, rfl⟩

theorem recordDeployment_steps {now : WallTime} {f : NewDeployment} {d : Deployment}
    (h : r.recordDeployment ids now user project f = .ok (d, r')) : Steps ids user r r' := by
  obtain ⟨e, r₁, hfor, hopen, rfl, rfl⟩ := recordDeployment_eq_ok h
  rcases r.environmentFor_cases ids project f.environment with ⟨e', hfound, heq⟩ | ⟨hnew, heq⟩
  · obtain ⟨rfl, rfl⟩ := Prod.mk.inj (heq.symm.trans hfor)
    obtain ⟨he, rfl, _⟩ := Store.environmentNamed?_eq_some hfound
    exact .single (.deployment _ e' rfl hopen.there hopen.role he ⟨rfl, rfl⟩)
  · obtain ⟨rfl, rfl⟩ := Prod.mk.inj (heq.symm.trans hfor)
    let e : Environment := ⟨ids r.issued, project, f.environment, .available, false⟩
    refine .tail (.single (.environment e rfl hopen.there hopen.role rfl hnew)) ?_
    refine .deployment _ e rfl hopen.there hopen.role ?_ ⟨rfl, rfl⟩
    exact (r.store.mem_environments_addEnvironment_iff _ _).mpr (Or.inr rfl)

theorem Steps.fresh (h : Steps ids user r r') (hf : r.Fresh ids) : r'.Fresh ids := by
  induction h with
  | refl => exact hf
  | tail _ hstep ih => exact hstep.fresh ih

theorem Steps.keyed (h : Steps ids user r r') (hk : r.store.Keyed) (hf : r.Fresh ids) :
    r'.store.Keyed := by
  induction h with
  | refl => exact hk
  | tail hsteps hstep ih => exact hstep.keyed ih (Steps.fresh hsteps hf)

theorem Steps.sound (h : Steps ids user r r') (hs : r.Sound ids) : r'.Sound ids := by
  induction h with
  | refl => exact hs
  | tail _ hstep ih => exact hstep.sound ih

/-- What each step of a user keeps is kept by some steps that start with a sound registry. -/
theorem Steps.keeps {P : Registry → Prop}
    (hkeep : ∀ r r', r.Sound ids → P r → Step ids user r r' → P r') (h : Steps ids user r r')
    (hs : r.Sound ids) (hp : P r) : P r' := by
  induction h with
  | refl => exact hp
  | tail hsteps hstep ih => exact hkeep _ _ (Steps.sound hsteps hs) ih hstep

end

end Registry

end DeployRegistry
