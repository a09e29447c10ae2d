import DeployRegistry.Proofs.Tables

/-!
# Steps of a registry

Everything that a user can do to the records of a registry, one record after the other, with what is
checked beforehand. Whatever holds of a registry and is kept by each step holds after every run of
requests. Kept are the constraints of the tables, the rule that a deployment belongs to the project
of its environment, and that the ids that are not issued yet occur nowhere.
-/

namespace DeployRegistry

set_option autoImplicit false

namespace Store

/-- Whether an id stands anywhere in the store: for a record, or where a record names another. -/
def Mentions (s : Store) (id : String) : Prop :=
  (∃ p ∈ s.projects, p.id = id) ∨
  (∃ m ∈ s.memberships, m.id = id ∨ m.project = id) ∨
  (∃ e ∈ s.environments, e.id = id ∨ e.project = id) ∨
  (∃ d ∈ s.deployments, d.id = id ∨ d.project = id ∨ d.environment = id)

/-- Every deployment belongs to the project of its environment. -/
def Homed (s : Store) : Prop :=
  ∀ d ∈ s.deployments, ∃ e ∈ s.environments, e.id = d.environment ∧ e.project = d.project

section

variable {s : Store}

theorem Homed.addEnvironment (hs : s.Homed) (e : Environment) : (s.addEnvironment e).Homed := by
  intro d hd
  obtain ⟨f, hf, h⟩ := hs d hd
  exact ⟨f, (s.mem_environments_addEnvironment_iff e f).mpr (Or.inl hf), h⟩

theorem Homed.addDeployment (hs : s.Homed) {d : Deployment} {e : Environment}
    (he : e ∈ s.environments) (hid : d.environment = e.id) (hp : d.project = e.project) :
    (s.addDeployment d).Homed := by
  intro c hc
  rcases (s.mem_deployments_addDeployment_iff d c).mp hc with hc | rfl
  · exact hs c hc
  · exact ⟨e, he, hid.symm, hp.symm⟩

theorem Homed.setState (hs : s.Homed) (id : String) (state : EnvState) :
    (s.setState id state).Homed := by
  intro d hd
  obtain ⟨e, he, hid, hp⟩ := hs d hd
  refine ⟨_, (s.mem_setState_iff id state _).mpr ⟨e, he, rfl⟩, ?_⟩
  split <;> exact ⟨hid, hp⟩

end

end Store

namespace Registry

/-- The ids that are still to be issued differ, and none of them occurs in the store. -/
structure Fresh (ids : Ids) (r : Registry) : Prop where
  injective : Function.Injective ids
  unused : ∀ n, r.issued ≤ n → ¬ r.store.Mentions (ids n)

/-- What every run of requests keeps. -/
structure Sound (ids : Ids) (r : Registry) : Prop where
  constrained : r.store.Constrained
  homed : r.store.Homed
  fresh : r.Fresh ids

/-- Whether a user may change environments and record deployments in a project. -/
def MayWrite (r : Registry) (user project : String) : Prop :=
  ∃ role, r.store.role? user project = some role ∧ role.mayWrite = true

/-- One step of a user, with what was checked before it. -/
inductive Step (ids : Ids) (user : String) (r : Registry) : Registry → Prop
  | project (p : Project) (hid : p.id = ids r.issued) :
      Step ids user r ⟨(r.store.addProject p).addMembership
        ⟨ids (r.issued + 1), user, p.id, .owner⟩, r.issued + 2⟩
  | membership (m : Membership) (hid : m.id = ids r.issued)
      (hproject : ∃ p ∈ r.store.projects, p.id = m.project)
      (huser : ∃ u ∈ r.store.users, u.id = m.user)
      (howner : r.store.role? user m.project = some .owner)
      (hnew : r.store.membership? m.user m.project = none) :
      Step ids user r ⟨r.store.addMembership m, r.issued + 1⟩
  | environment (e : Environment) (hid : e.id = ids r.issued)
      (hproject : ∃ p ∈ r.store.projects, p.id = e.project)
      (hrole : r.MayWrite user e.project) (hstate : e.state = .available)
      (hnew : r.store.environmentNamed? e.project e.name = none) :
      Step ids user r ⟨r.store.addEnvironment e, r.issued + 1⟩
  | deployment (d : Deployment) (e : Environment) (hid : d.id = ids r.issued)
      (hproject : ∃ p ∈ r.store.projects, p.id = e.project)
      (hrole : r.MayWrite user e.project) (he : e ∈ r.store.environments)
      (hhome : d.environment = e.id ∧ d.project = e.project) :
      Step ids user r ⟨r.store.addDeployment d, r.issued + 1⟩
  | state (e : Environment) (state : EnvState) (hrole : r.MayWrite user e.project)
      (he : e ∈ r.store.environments) (hne : e.state ≠ state) :
      Step ids user r { r with store := r.store.setState e.id state }

variable {ids : Ids} {user : String} {r r' : Registry}

namespace Fresh

variable {n : Nat}

theorem project_ne (h : r.Fresh ids) (hn : r.issued ≤ n) {p : Project} (hp : p ∈ r.store.projects) :
    p.id ≠ ids n :=
  fun he => h.unused n hn (Or.inl ⟨p, hp, he⟩)

theorem membership_ne (h : r.Fresh ids) (hn : r.issued ≤ n) {m : Membership}
    (hm : m ∈ r.store.memberships) : m.id ≠ ids n ∧ m.project ≠ ids n :=
  ⟨fun he => h.unused n hn (Or.inr (Or.inl ⟨m, hm, Or.inl he⟩)),
    fun he => h.unused n hn (Or.inr (Or.inl ⟨m, hm, Or.inr he⟩))⟩

theorem environment_ne (h : r.Fresh ids) (hn : r.issued ≤ n) {e : Environment}
    (he : e ∈ r.store.environments) : e.id ≠ ids n ∧ e.project ≠ ids n :=
  ⟨fun h' => h.unused n hn (Or.inr (Or.inr (Or.inl ⟨e, he, Or.inl h'⟩))),
    fun h' => h.unused n hn (Or.inr (Or.inr (Or.inl ⟨e, he, Or.inr h'⟩)))⟩

theorem deployment_ne (h : r.Fresh ids) (hn : r.issued ≤ n) {d : Deployment}
    (hd : d ∈ r.store.deployments) :
    d.id ≠ ids n ∧ d.project ≠ ids n ∧ d.environment ≠ ids n :=
  ⟨fun h' => h.unused n hn (Or.inr (Or.inr (Or.inr ⟨d, hd, Or.inl h'⟩))),
    fun h' => h.unused n hn (Or.inr (Or.inr (Or.inr ⟨d, hd, Or.inr (Or.inl h')⟩))),
    fun h' => h.unused n hn (Or.inr (Or.inr (Or.inr ⟨d, hd, Or.inr (Or.inr h')⟩)))⟩

theorem later_ne (h : r.Fresh ids) {k : Nat} (hlt : k < n) : ids k ≠ ids n :=
  fun he => absurd (h.injective he) (Nat.ne_of_lt hlt)

end Fresh

theorem membership?_eq_none_of_fresh (hf : r.Fresh ids) (user : String) :
    r.store.membership? user (ids r.issued) = none := by
  rw [Store.membership?_eq_none_iff]
  intro m hm hk
  exact (hf.membership_ne (Nat.le_refl _) hm).2 hk.2

/-- A record with a fresh id takes no key when the look-up by its other key finds nothing. -/
theorem takes_membership_of_fresh (hf : r.Fresh ids) {n : Nat} (hn : r.issued ≤ n)
    {m : Membership} (hid : m.id = ids n) (hnew : r.store.membership? m.user m.project = none) :
    r.store.Takes (.membership m) := by
  intro l hl
  refine ⟨?_, (Store.membership?_eq_none_iff _ _ _).mp hnew l hl⟩
  rw [hid]
  exact (hf.membership_ne hn hl).1

theorem takes_environment_of_fresh (hf : r.Fresh ids) {e : Environment}
    (hid : e.id = ids r.issued) (hnew : r.store.environmentNamed? e.project e.name = none) :
    r.store.Takes (.environment e) := by
  intro f hmem
  refine ⟨?_, (Store.environmentNamed?_eq_none_iff _ _ _).mp hnew f hmem⟩
  rw [hid]
  exact (hf.environment_ne (Nat.le_refl _) hmem).1

/-- A step writes some records, which take no key that is there when ids are fresh. -/
theorem Step.exists_writes (h : Step ids user r r') :
    ∃ ws, r' = r.writeAll ws ∧ (r.Fresh ids → r.TakesAll ws) := by
  cases h with
  | project p hid =>
    refine ⟨[.project p, .membership ⟨ids (r.issued + 1), user, p.id, .owner⟩], rfl, ?_⟩
    intro hf
    refine ⟨?_, takes_membership_of_fresh hf (Nat.le_succ _) rfl ?_, trivial⟩
    · intro q hq
      rw [hid]
      exact hf.project_ne (Nat.le_refl _) hq
    · rw [hid]
      exact membership?_eq_none_of_fresh hf user
  | membership m hid hproject huser howner hnew =>
    refine ⟨[.membership m], rfl, fun hf => ⟨?_, trivial⟩⟩
    exact takes_membership_of_fresh hf (Nat.le_refl _) hid hnew
  | environment e hid hproject hrole hstate hnew =>
    exact ⟨[.environment e], rfl, fun hf => ⟨takes_environment_of_fresh hf hid hnew, trivial⟩⟩
  | deployment d e hid hproject hrole he hhome =>
    refine ⟨[.deployment d], rfl, fun hf => ⟨?_, trivial⟩⟩
    intro c hc
    rw [hid]
    exact (hf.deployment_ne (Nat.le_refl _) hc).1
  | state e state hrole he hne => exact ⟨[.state e.id state], rfl, fun _ => ⟨trivial, trivial⟩⟩

theorem Step.users (h : Step ids user r r') : r'.store.users = r.store.users := by
  obtain ⟨ws, rfl, _⟩ := h.exists_writes
  exact (r.grown_writeAll ws).users

theorem Step.keyed (hk : r.store.Keyed) (hf : r.Fresh ids) (h : Step ids user r r') :
    r'.store.Keyed := by
  obtain ⟨ws, rfl, htakes⟩ := h.exists_writes
  exact keyed_writeAll hk (htakes hf)

theorem Step.constrained (hs : r.Sound ids) (h : Step ids user r r') : r'.store.Constrained := by
  obtain ⟨ws, rfl, htakes⟩ := h.exists_writes
  exact constrained_writeAll hs.constrained (htakes hs.fresh)

theorem Step.homed (hs : r.Sound ids) (h : Step ids user r r') : r'.store.Homed := by
  cases h with
  | project p hid => exact hs.homed
  | membership m hid hproject huser howner hnew => exact hs.homed
  | environment e hid hproject hrole hstate hnew => exact hs.homed.addEnvironment e
  | deployment d e hid hproject hrole he hhome =>
    exact hs.homed.addDeployment he hhome.1 hhome.2
  | state e state hrole he hne => exact hs.homed.setState e.id state

/-- A record that is added brings its own id, which is issued now, and ids that stand already in
the store; none of them is still to be issued. -/
theorem Step.fresh (hf : r.Fresh ids) (h : Step ids user r r') : r'.Fresh ids := by
  refine ⟨hf.injective, ?_⟩
  cases h with
  | project p hid =>
    intro n hn
    replace hn : r.issued + 2 ≤ n := hn
    rintro (⟨q, hq, he⟩ | ⟨m, hm, he⟩ | hrest)
    · rcases List.mem_append.mp hq with hq | hq
      · exact hf.project_ne (by omega) hq he
      · obtain rfl := List.mem_singleton.mp hq
        exact hf.later_ne (by omega) (hid.symm.trans he)
    · rcases List.mem_append.mp hm with hm | hm
      · exact hf.unused n (by omega) (Or.inr (Or.inl ⟨m, hm, he⟩))
      · obtain rfl := List.mem_singleton.mp hm
        rcases he with he | he
        · exact hf.later_ne (by omega) he
        · exact hf.later_ne (by omega) (hid.symm.trans he)
    · exact hf.unused n (by omega) (Or.inr (Or.inr hrest))
  | membership m hid hproject huser howner hnew =>
    intro n hn
    replace hn : r.issued + 1 ≤ n := hn
    rintro (hp | ⟨m', hm, he⟩ | hrest)
    · exact hf.unused n (by omega) (Or.inl hp)
    · rcases List.mem_append.mp hm with hm | hm
      · exact hf.unused n (by omega) (Or.inr (Or.inl ⟨m', hm, he⟩))
      · obtain rfl := List.mem_singleton.mp hm
        rcases he with he | he
        · exact hf.later_ne (by omega) (hid.symm.trans he)
        · obtain ⟨p, hp, hpid⟩ := hproject
          exact hf.project_ne (by omega) hp (hpid.trans he)
    · exact hf.unused n (by omega) (Or.inr (Or.inr hrest))
  | environment e hid hproject hrole hstate hnew =>
    intro n hn
    replace hn : r.issued + 1 ≤ n := hn
    rintro (hp | hm | ⟨f, hmem, he⟩ | hrest)
    · exact hf.unused n (by omega) (Or.inl hp)
    · exact hf.unused n (by omega) (Or.inr (Or.inl hm))
    · rcases List.mem_append.mp hmem with hmem | hmem
      · exact hf.unused n (by omega) (Or.inr (Or.inr (Or.inl ⟨f, hmem, he⟩)))
      · obtain rfl := List.mem_singleton.mp hmem
        rcases he with he | he
        · exact hf.later_ne (by omega) (hid.symm.trans he)
        · obtain ⟨p, hp, hpid⟩ := hproject
          exact hf.project_ne (by omega) hp (hpid.trans he)
    · exact hf.unused n (by omega) (Or.inr (Or.inr (Or.inr hrest)))
  | deployment d e hid hproject hrole hmem hhome =>
    intro n hn
    replace hn : r.issued + 1 ≤ n := hn
    rintro (hp | hm | henv | ⟨c, hc, he⟩)
    · exact hf.unused n (by omega) (Or.inl hp)
    · exact hf.unused n (by omega) (Or.inr (Or.inl hm))
    · exact hf.unused n (by omega) (Or.inr (Or.inr (Or.inl henv)))
    · rcases List.mem_append.mp hc with hc | hc
      · exact hf.unused n (by omega) (Or.inr (Or.inr (Or.inr ⟨c, hc, he⟩)))
      · obtain rfl := List.mem_singleton.mp hc
        have hne := hf.environment_ne (n := n) (by omega) hmem
        rcases he with he | he | he
        · exact hf.later_ne (by omega) (hid.symm.trans he)
        · exact hne.2 (hhome.2.symm.trans he)
        · exact hne.1 (hhome.1.symm.trans he)
  | state e state hrole he hne =>
    rintro n hn (hp | hm | ⟨f, hmem, hid⟩ | hd)
    · exact hf.unused n hn (Or.inl hp)
    · exact hf.unused n hn (Or.inr (Or.inl hm))
    · obtain ⟨g, hg, rfl⟩ := (Store.mem_setState_iff _ _ _ _).mp hmem
      refine hf.unused n hn (Or.inr (Or.inr (Or.inl ⟨g, hg, ?_⟩)))
      split at hid <;> exact hid
    · exact hf.unused n hn (Or.inr (Or.inr (Or.inr hd)))

/-! Nothing is ever taken away. -/

theorem Step.mem_deployments (h : Step ids user r r') {d : Deployment}
    (hd : d ∈ r.store.deployments) : d ∈ r'.store.deployments := by
  obtain ⟨ws, rfl, _⟩ := h.exists_writes
  exact mem_deployments_writeAll_iff.mpr (Or.inl hd)

theorem Step.exists_environment (h : Step ids user r r') {e : Environment}
    (he : e ∈ r.store.environments) : ∃ f ∈ r'.store.environments, f.Same e := by
  obtain ⟨ws, rfl, _⟩ := h.exists_writes
  exact exists_environment_writeAll he ws

theorem Step.sound (hs : r.Sound ids) (h : Step ids user r r') : r'.Sound ids :=
  ⟨h.constrained hs, h.homed hs, h.fresh hs.fresh⟩

end Registry

end DeployRegistry
