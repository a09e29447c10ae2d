import DeployRegistry.Proofs.Writes
import DeployRegistry.Proofs.Recording

/-!
# Authority over a project

Who can change what belongs to a project. Only an owner adds members, only an owner or a developer
changes its environments and deployments, and nobody gains a role but by being added. Each of this
is shown for the writes of one request and carried over every run of requests.
-/

namespace DeployRegistry

set_option autoImplicit false

namespace Store

def membersOf (s : Store) (project : String) : List Membership :=
  s.memberships.filter (·.project == project)

def deploymentsOf (s : Store) (project : String) : List Deployment :=
  s.deployments.filter (·.project == project)

def HasMember (s : Store) (project user : String) : Prop :=
  ∃ m ∈ s.membersOf project, m.user = user

variable {s : Store} {project : String}

theorem mem_membersOf_iff (s : Store) (project : String) (m : Membership) :
    m ∈ s.membersOf project ↔ m ∈ s.memberships ∧ m.project = project := by
  simp [membersOf]

/-- A record of another project at the end of a table is not seen from the project. -/
theorem membersOf_addMembership {m : Membership} (h : m.project ≠ project) :
    (s.addMembership m).membersOf project = s.membersOf project := by
  simp [membersOf, addMembership, h]

theorem environmentsOf_addEnvironment {e : Environment} (h : e.project ≠ project) :
    (s.addEnvironment e).environmentsOf project = s.environmentsOf project := by
  simp [environmentsOf, addEnvironment, h]

theorem deploymentsOf_addDeployment {d : Deployment} (h : d.project ≠ project) :
    (s.addDeployment d).deploymentsOf project = s.deploymentsOf project := by
  simp [deploymentsOf, addDeployment, h]

end Store

namespace Registry

variable {r : Registry} {ids : Ids} {now : WallTime} {user project : String} {c : Http.Content}
variable {w : Http.Writing} {ws : List Write}

theorem Writes.membersOf (hf : r.Fresh ids) (hp : ∃ p ∈ r.store.projects, p.id = project)
    (h : r.Writes ids now user c w ws)
    (hne : (r.writeAll ws).store.membersOf project ≠ r.store.membersOf project) :
    r.store.role? user project = some .owner := by
  cases h with
  | project hc hsubmitted =>
    -- The new project is not the one in question, which is there already.
    obtain ⟨p, hp, rfl⟩ := hp
    have hother := hf.project_ne (Nat.le_refl _) hp
    exact absurd (Store.membersOf_addMembership hother.symm) hne
  | @member ms f q hc hsubmitted hproject hinvited howner hnew =>
    by_cases hq : q = project
    · exact hq ▸ howner
    · exact absurd (Store.membersOf_addMembership hq) hne
  | environment hc hsubmitted hopen hnew => exact absurd rfl hne
  | deployment hc hsubmitted hopen he hproject hname => exact absurd rfl hne
  | firstDeployment hc hsubmitted hopen hnew => exact absurd rfl hne
  | still hw hopen he hproject hstate => exact absurd rfl hne
  | moved hw hopen he hproject hne' => exact absurd rfl hne

theorem environmentsOf_write_state (hids : (r.store.environments.map (·.id)).Nodup)
    {e : Environment} (he : e ∈ r.store.environments) (state : EnvState)
    (h : e.project ≠ project) :
    (r.write (.state e.id state)).store.environmentsOf project = r.store.environmentsOf project := by
  obtain ⟨front, back, heq, hwrite⟩ := write_state_eq hids he state
  rw [hwrite]
  simp [Store.environmentsOf, heq, h]

theorem Writes.environmentsOf (hk : r.store.Keyed) (h : r.Writes ids now user c w ws)
    (hne : (r.writeAll ws).store.environmentsOf project ≠ r.store.environmentsOf project) :
    r.MayWrite user project := by
  cases h with
  | project hc hsubmitted => exact absurd rfl hne
  | member hc hsubmitted hproject hinvited howner hnew => exact absurd rfl hne
  | @environment ms f q hc hsubmitted hopen hnew =>
    by_cases hq : q = project
    · exact hq ▸ hopen.role
    · exact absurd (Store.environmentsOf_addEnvironment hq) hne
  | deployment hc hsubmitted hopen he hproject hname => exact absurd rfl hne
  | @firstDeployment ms f q hc hsubmitted hopen hnew =>
    by_cases hq : q = project
    · exact hq ▸ hopen.role
    · exact absurd (Store.environmentsOf_addEnvironment hq) hne
  | still hw hopen he hproject hstate => exact absurd rfl hne
  | @moved _ q state e hw hopen he hproject hstate =>
    by_cases hq : q = project
    · exact hq ▸ hopen.role
    · rw [← hproject] at hq
      exact absurd (environmentsOf_write_state hk.environments he state hq) hne

theorem Writes.deploymentsOf (h : r.Writes ids now user c w ws)
    (hne : (r.writeAll ws).store.deploymentsOf project ≠ r.store.deploymentsOf project) :
    r.MayWrite user project := by
  cases h with
  | project hc hsubmitted => exact absurd rfl hne
  | member hc hsubmitted hproject hinvited howner hnew => exact absurd rfl hne
  | environment hc hsubmitted hopen hnew => exact absurd rfl hne
  | @deployment ms f q e hc hsubmitted hopen he hproject hname =>
    by_cases hq : q = project
    · exact hq ▸ hopen.role
    · exact absurd (Store.deploymentsOf_addDeployment hq) hne
  | @firstDeployment ms f q hc hsubmitted hopen hnew =>
    by_cases hq : q = project
    · exact hq ▸ hopen.role
    · exact absurd (Store.deploymentsOf_addDeployment hq) hne
  | still hw hopen he hproject hstate => exact absurd rfl hne
  | moved hw hopen he hproject hstate => exact absurd rfl hne

theorem role_of_mayWrite (h : r.MayWrite user project) :
    r.store.role? user project = some .developer ∨ r.store.role? user project = some .owner := by
  obtain ⟨role, hrole, hmay⟩ := h
  rw [hrole]
  cases role with
  | owner => exact Or.inr rfl
  | developer => exact Or.inl rfl
  | reporter => cases hmay
  | guest => cases hmay

end Registry

namespace Http.Site

variable {σ : Type}

/-- Whether a request comes from a user who has the role in the project at that moment. -/
def ComesFrom (site : Site σ) (sv : Serving σ) (v : Visit) (project : String) (role : Role) :
    Prop :=
  ∃ u, site.caller? (sv.upon v) v.request = .ok (some u) ∧
    sv.registry.store.role? u.id project = some role

/-- Whether a request makes a member of a user who was none. -/
def Admits (site : Site σ) (sv : Serving σ) (v : Visit) (project user : String) : Prop :=
  ¬ sv.registry.store.HasMember project user ∧
    (site.serve sv v).2.registry.store.HasMember project user

variable {site : Site σ} {sv : Serving σ} {project : String}

theorem serve_cases (sv : Serving σ) (v : Visit) :
    (site.serve sv v).2.registry = sv.registry ∨ ∃ user c w ws,
      site.caller? (sv.upon v) v.request = .ok (some user) ∧
        sv.registry.Writes site.ids v.now user.id c w ws ∧
        (site.serve sv v).2.registry = sv.registry.writeAll ws := by
  rcases site.respond_wrote_cases (sv.upon v) v.request with hsame | ⟨w, user, c, ws, hwrote⟩
  · exact Or.inl hsame
  · exact Or.inr ⟨user, c, w, ws, hwrote.caller, hwrote.writes, hwrote.after⟩

/-! What one request can do to a project that is there. -/

theorem serve_membersOf (hf : sv.registry.Fresh site.ids)
    (hp : ∃ p ∈ sv.registry.store.projects, p.id = project) {v : Visit}
    (hne : (site.serve sv v).2.registry.store.membersOf project ≠
      sv.registry.store.membersOf project) : site.ComesFrom sv v project .owner := by
  rcases site.serve_cases sv v with hsame | ⟨user, c, w, ws, hcaller, hwrites, hafter⟩
  · rw [hsame] at hne
    exact absurd rfl hne
  · rw [hafter] at hne
    exact ⟨user, hcaller, hwrites.membersOf hf hp hne⟩

theorem serve_project {v : Visit} (hp : ∃ p ∈ sv.registry.store.projects, p.id = project) :
    ∃ p ∈ (site.serve sv v).2.registry.store.projects, p.id = project := by
  rcases site.serve_cases sv v with hsame | ⟨user, c, w, ws, hcaller, hwrites, hafter⟩
  · rw [hsame]
    exact hp
  · obtain ⟨p, hp, hpid⟩ := hp
    rw [hafter]
    exact ⟨p, Registry.mem_projects_writeAll_iff.mpr (Or.inl hp), hpid⟩

theorem comesFrom_of_mayWrite {v : Visit} {user : User}
    (hcaller : site.caller? (sv.upon v) v.request = .ok (some user))
    (h : sv.registry.MayWrite user.id project) :
    site.ComesFrom sv v project .developer ∨ site.ComesFrom sv v project .owner := by
  rcases Registry.role_of_mayWrite h with hrole | hrole
  · exact Or.inl ⟨user, hcaller, hrole⟩
  · exact Or.inr ⟨user, hcaller, hrole⟩

theorem serve_environmentsOf (hk : sv.registry.store.Keyed) {v : Visit}
    (hne : (site.serve sv v).2.registry.store.environmentsOf project ≠
      sv.registry.store.environmentsOf project) :
    site.ComesFrom sv v project .developer ∨ site.ComesFrom sv v project .owner := by
  rcases site.serve_cases sv v with hsame | ⟨user, c, w, ws, hcaller, hwrites, hafter⟩
  · rw [hsame] at hne
    exact absurd rfl hne
  · rw [hafter] at hne
    exact comesFrom_of_mayWrite hcaller (hwrites.environmentsOf hk hne)

theorem serve_deploymentsOf {v : Visit}
    (hne : (site.serve sv v).2.registry.store.deploymentsOf project ≠
      sv.registry.store.deploymentsOf project) :
    site.ComesFrom sv v project .developer ∨ site.ComesFrom sv v project .owner := by
  rcases site.serve_cases sv v with hsame | ⟨user, c, w, ws, hcaller, hwrites, hafter⟩
  · rw [hsame] at hne
    exact absurd rfl hne
  · rw [hafter] at hne
    exact comesFrom_of_mayWrite hcaller (hwrites.deploymentsOf hne)

theorem serve_mem_memberships {m : Membership} (hm : m ∈ sv.registry.store.memberships)
    (v : Visit) : m ∈ (site.serve sv v).2.registry.store.memberships := by
  rcases site.serve_cases sv v with hsame | ⟨user, c, w, ws, hcaller, hwrites, hafter⟩
  · rw [hsame]
    exact hm
  · rw [hafter]
    exact Registry.mem_memberships_writeAll_iff.mpr (Or.inl hm)

/-! The same over a run. -/

theorem run_project (hp : ∃ p ∈ sv.registry.store.projects, p.id = project) (vs : List Visit) :
    ∃ p ∈ (site.run sv vs).2.registry.store.projects, p.id = project := by
  induction vs generalizing sv with
  | nil => exact hp
  | cons v rest ih => exact ih (serve_project hp)

theorem run_mem_memberships {m : Membership} (hm : m ∈ sv.registry.store.memberships)
    (vs : List Visit) : m ∈ (site.run sv vs).2.registry.store.memberships := by
  induction vs generalizing sv with
  | nil => exact hm
  | cons v rest ih => exact ih (serve_mem_memberships hm v)

theorem role?_run (hk : sv.registry.store.Keyed) (hf : sv.registry.Fresh site.ids)
    {m : Membership} (hm : m ∈ sv.registry.store.memberships) (vs : List Visit) :
    (site.run sv vs).2.registry.store.role? m.user m.project = some m.role := by
  have hkeyed := run_keyed hk hf vs
  have hmem : m ∈ (site.run sv vs).2.registry.store.memberships := run_mem_memberships hm vs
  exact (hkeyed.role?_eq_some_iff m.user m.project m.role).mpr ⟨m, hmem, rfl, rfl, rfl⟩

/-- Who is no member becomes one only by a request of an owner. -/
theorem run_not_hasMember (hf : sv.registry.Fresh site.ids)
    (hp : ∃ p ∈ sv.registry.store.projects, p.id = project) {user : String}
    (hnone : ¬ sv.registry.store.HasMember project user) {vs : List Visit}
    (hvs : ∀ front v back, vs = front ++ v :: back →
      site.Admits (site.run sv front).2 v project user →
        ¬ site.ComesFrom (site.run sv front).2 v project .owner) :
    ¬ (site.run sv vs).2.registry.store.HasMember project user := by
  induction vs generalizing sv with
  | nil => exact hnone
  | cons v rest ih =>
    have hstill : ¬ (site.serve sv v).2.registry.store.HasMember project user := by
      intro hmember
      have hadmits : site.Admits sv v project user := ⟨hnone, hmember⟩
      have hchanged : (site.serve sv v).2.registry.store.membersOf project ≠
          sv.registry.store.membersOf project := by
        intro hsame
        unfold Store.HasMember at hnone hmember
        rw [hsame] at hmember
        exact hnone hmember
      exact hvs [] v rest rfl hadmits (serve_membersOf hf hp hchanged)
    apply ih (serve_fresh hf v) (serve_project hp) hstill
    intro front v' back h
    exact hvs (v :: front) v' back (by rw [h]; rfl)

/-- What holds of a project throughout a run of requests. -/
structure Guarded (site : Site σ) (sv : Serving σ) (project : String) (vs : List Visit) : Prop where
  /-- Who is no member at first is none in any state of the run, when no owner makes one of them. -/
  closed : ∀ user, ¬ sv.registry.store.HasMember project user →
    (∀ front v back, vs = front ++ v :: back →
      site.Admits (site.run sv front).2 v project user →
        ¬ site.ComesFrom (site.run sv front).2 v project .owner) →
    ∀ front back, vs = front ++ back →
      ¬ (site.run sv front).2.registry.store.HasMember project user
  /-- A membership stays as it is, and gives the same role from then on. -/
  lasting : ∀ front middle back, vs = front ++ middle ++ back →
    ∀ m ∈ (site.run sv front).2.registry.store.membersOf project,
      m ∈ (site.run sv (front ++ middle)).2.registry.store.membersOf project ∧
        (site.run sv (front ++ middle)).2.registry.store.role? m.user project = some m.role
  /-- A request that changes the memberships comes from an owner. -/
  members : ∀ front v back, vs = front ++ v :: back →
    (site.serve (site.run sv front).2 v).2.registry.store.membersOf project ≠
      (site.run sv front).2.registry.store.membersOf project →
    site.ComesFrom (site.run sv front).2 v project .owner
  /-- A request that changes the environments or the deployments comes from a developer or an
  owner. -/
  contents : ∀ front v back, vs = front ++ v :: back →
    (site.serve (site.run sv front).2 v).2.registry.store.environmentsOf project ≠
        (site.run sv front).2.registry.store.environmentsOf project ∨
      (site.serve (site.run sv front).2 v).2.registry.store.deploymentsOf project ≠
        (site.run sv front).2.registry.store.deploymentsOf project →
    site.ComesFrom (site.run sv front).2 v project .developer ∨
      site.ComesFrom (site.run sv front).2 v project .owner

/-- Nobody gains power over a project by any run of requests, whoever makes them. -/
theorem run_guarded (hk : sv.registry.store.Keyed) (hf : sv.registry.Fresh site.ids)
    (hp : ∃ p ∈ sv.registry.store.projects, p.id = project) (vs : List Visit) :
    site.Guarded sv project vs := by
  refine ⟨?_, ?_, ?_, ?_⟩
  · intro user hnone hvs front back hfront
    apply run_not_hasMember hf hp hnone
    intro front' v back' h
    apply hvs front' v (back' ++ back)
    rw [hfront, h, List.append_assoc, List.cons_append]
  · intro front middle back _ m hm
    rw [Store.mem_membersOf_iff] at hm
    obtain ⟨hm, rfl⟩ := hm
    rw [run_append, Store.mem_membersOf_iff]
    exact ⟨⟨run_mem_memberships hm middle, rfl⟩,
      role?_run (run_keyed hk hf front) (run_fresh hf front) hm middle⟩
  · intro front v back _
    exact serve_membersOf (run_fresh hf front) (run_project hp front)
  · intro front v back _
    rintro (hne | hne)
    · exact serve_environmentsOf (run_keyed hk hf front) hne
    · exact serve_deploymentsOf hne

theorem run_guarded_harbour :
    plainSite.Guarded (plainSite.run anaServing [projectVisit]).2 "x" [deploymentVisit] := by
  have hsound : (plainSite.run anaServing [projectVisit]).2.registry.Sound plainSite.ids :=
    run_sound (sound_of_users plainIds_injective (by decide) rfl) _
  have hproject : ∃ p ∈ (plainSite.run anaServing [projectVisit]).2.registry.store.projects,
      p.id = "x" := by
    rw [registry_projectVisit]
    exact ⟨_, List.mem_cons_self, rfl⟩
  exact run_guarded hsound.constrained.toKeyed hsound.fresh hproject [deploymentVisit]

end Http.Site

end DeployRegistry
