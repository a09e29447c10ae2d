import DeployRegistry.Proofs.Orders

/-!
# Constraints of the tables

What the tables of a store declare about themselves: ids are unique, a user is a member of a
project at most once, and a name stands for one environment of a project. Under these constraints a
look-up finds a record exactly when the record is there.
-/

namespace DeployRegistry

set_option autoImplicit false

theorem find?_eq_some_of_unique {α : Type} {as : List α} {p : α → Bool} {a : α} (ha : a ∈ as)
    (hp : p a = true) (hu : ∀ b ∈ as, p b = true → b = a) : as.find? p = some a := by
  cases hf : as.find? p with
  | none => exact absurd hp (List.find?_eq_none.mp hf a ha)
  | some b => rw [hu b (List.mem_of_find?_eq_some hf) (List.find?_some hf)]

theorem nodup_map_concat {α κ : Type} {key : α → κ} {as : List α} {a : α}
    (h : (as.map key).Nodup) (ha : ∀ b ∈ as, key b ≠ key a) :
    ((as ++ [a]).map key).Nodup := by
  rw [List.map_append, List.map_singleton]
  refine List.nodup_append.mpr ⟨h, List.nodup_singleton _, ?_⟩
  intro k hk l hl
  obtain ⟨b, hb, rfl⟩ := List.mem_map.mp hk
  obtain rfl := List.mem_singleton.mp hl
  exact ha b hb

namespace Store

/-- Ids are unique in each table, and nobody is a member of a project twice. -/
structure Keyed (s : Store) : Prop where
  users : (s.users.map (·.id)).Nodup
  projects : (s.projects.map (·.id)).Nodup
  memberships : (s.memberships.map (·.id)).Nodup
  environments : (s.environments.map (·.id)).Nodup
  deployments : (s.deployments.map (·.id)).Nodup
  roles : (s.memberships.map fun m => (m.user, m.project)).Nodup

/-- Besides, no two environments of a project have one name. -/
structure Constrained (s : Store) : Prop extends Keyed s where
  names : (s.environments.map fun e => (e.project, e.name)).Nodup

section

variable {s : Store}

theorem Keyed.project?_eq_some_iff (hs : s.Keyed) (id : String) (p : Project) :
    s.project? id = some p ↔ p ∈ s.projects ∧ p.id = id := by
  constructor
  · exact fun h => ⟨project?_mem h, project?_id h⟩
  · rintro ⟨hp, rfl⟩
    refine find?_eq_some_of_unique hp (by simp) fun q hq hid => ?_
    exact eq_of_key_eq hs.projects hq hp (by simpa using hid)

theorem membership?_eq_some {user project : String} {m : Membership}
    (h : s.membership? user project = some m) :
    m ∈ s.memberships ∧ m.user = user ∧ m.project = project := by
  have hp := List.find?_some h
  simp only [Bool.and_eq_true, beq_iff_eq] at hp
  exact ⟨List.mem_of_find?_eq_some h, hp.1, hp.2⟩

/-- Where nobody is a member of a project twice, the look-up finds the one membership. -/
theorem membership?_eq_some_iff_of_nodup
    (h : (s.memberships.map fun m => (m.user, m.project)).Nodup) (user project : String)
    (m : Membership) :
    s.membership? user project = some m ↔
      m ∈ s.memberships ∧ m.user = user ∧ m.project = project := by
  constructor
  · exact membership?_eq_some
  · rintro ⟨hm, rfl, rfl⟩
    refine find?_eq_some_of_unique hm (by simp) fun n hn hk => ?_
    simp only [Bool.and_eq_true, beq_iff_eq] at hk
    exact eq_of_key_eq h hn hm (by simp [hk])

theorem Keyed.membership?_eq_some_iff (hs : s.Keyed) (user project : String) (m : Membership) :
    s.membership? user project = some m ↔
      m ∈ s.memberships ∧ m.user = user ∧ m.project = project :=
  membership?_eq_some_iff_of_nodup hs.roles user project m

theorem membership?_eq_none_iff (s : Store) (user project : String) :
    s.membership? user project = none ↔
      ∀ m ∈ s.memberships, ¬ (m.user = user ∧ m.project = project) := by
  simp [membership?]

theorem role?_eq_some_iff_of_nodup
    (h : (s.memberships.map fun m => (m.user, m.project)).Nodup) (user project : String)
    (role : Role) :
    s.role? user project = some role ↔
      ∃ m ∈ s.memberships, m.user = user ∧ m.project = project ∧ m.role = role := by
  simp only [role?, Option.map_eq_some_iff, membership?_eq_some_iff_of_nodup h]
  constructor
  · rintro ⟨m, ⟨hm, hu, hp⟩, hr⟩
    exact ⟨m, hm, hu, hp, hr⟩
  · rintro ⟨m, hm, hu, hp, hr⟩
    exact ⟨m, ⟨hm, hu, hp⟩, hr⟩

theorem Keyed.role?_eq_some_iff (hs : s.Keyed) (user project : String) (role : Role) :
    s.role? user project = some role ↔
      ∃ m ∈ s.memberships, m.user = user ∧ m.project = project ∧ m.role = role :=
  role?_eq_some_iff_of_nodup hs.roles user project role

theorem isSome_role?_iff (s : Store) (user project : String) :
    (s.role? user project).isSome = true ↔
      ∃ m ∈ s.memberships, m.user = user ∧ m.project = project := by
  simp [role?, membership?, List.find?_isSome]

theorem Keyed.environment?_eq_some_iff (hs : s.Keyed) (project id : String) (e : Environment) :
    s.environment? project id = some e ↔
      e ∈ s.environments ∧ e.id = id ∧ e.project = project := by
  constructor
  · exact environment?_eq_some
  · rintro ⟨he, rfl, rfl⟩
    refine find?_eq_some_of_unique he (by simp) fun f hf hk => ?_
    simp only [Bool.and_eq_true, beq_iff_eq] at hk
    exact eq_of_key_eq hs.environments hf he hk.1

theorem Constrained.environmentNamed?_eq_some_iff (hs : s.Constrained) (project name : String)
    (e : Environment) :
    s.environmentNamed? project name = some e ↔
      e ∈ s.environments ∧ e.project = project ∧ e.name = name := by
  constructor
  · exact environmentNamed?_eq_some
  · rintro ⟨he, rfl, rfl⟩
    refine find?_eq_some_of_unique he (by simp) fun f hf hk => ?_
    simp only [Bool.and_eq_true, beq_iff_eq] at hk
    exact eq_of_key_eq hs.names hf he (by simp [hk])

theorem environmentNamed?_eq_none_iff (s : Store) (project name : String) :
    s.environmentNamed? project name = none ↔
      ∀ e ∈ s.environments, ¬ (e.project = project ∧ e.name = name) := by
  simp [environmentNamed?]

theorem Keyed.nodup_environmentsOf (hs : s.Keyed) (project : String) :
    ((s.environmentsOf project).map (·.id)).Nodup :=
  nodup_map_filter hs.environments _

theorem Keyed.nodup_deploymentsTo (hs : s.Keyed) (environment : String) :
    ((s.deploymentsTo environment).map (·.id)).Nodup :=
  nodup_map_filter hs.deployments _

theorem Constrained.nodup_names (hs : s.Constrained) (project : String) :
    ((s.environmentsOf project).map (·.name)).Nodup := by
  refine List.Nodup.map_on ?_ (hs.nodup_environmentsOf project).of_map
  intro e he f hf hname
  rw [mem_environmentsOf_iff] at he hf
  exact eq_of_key_eq hs.names he.1 hf.1 (Prod.ext (he.2.trans hf.2.symm) hname)

theorem Keyed.eq_of_id_eq (hs : s.Keyed) {e f : Environment} (he : e ∈ s.environments)
    (hf : f ∈ s.environments) (h : e.id = f.id) : e = f :=
  eq_of_key_eq hs.environments he hf h

/-! What was deployed last, and what was deployed last with success. -/

theorem lastDeployed?_eq_some_iff (s : Store) (environment : String) (t : WallTime) :
    s.lastDeployed? environment = some t ↔
      (∃ d ∈ s.deployments, d.environment = environment ∧ d.time = t) ∧
        ∀ d ∈ s.deployments, d.environment = environment → d.time ≤ t := by
  simp only [lastDeployed?, latest?_eq_some_iff, List.mem_map, mem_deploymentsTo_iff]
  constructor
  · rintro ⟨⟨d, ⟨hd, he⟩, ht⟩, hle⟩
    exact ⟨⟨d, hd, he, ht⟩, fun c hc hce => hle c.time ⟨c, ⟨hc, hce⟩, rfl⟩⟩
  · rintro ⟨⟨d, hd, he, ht⟩, hle⟩
    refine ⟨⟨d, ⟨hd, he⟩, ht⟩, ?_⟩
    rintro t ⟨c, ⟨hc, hce⟩, rfl⟩
    exact hle c hc hce

theorem lastDeployed?_eq_none_iff (s : Store) (environment : String) :
    s.lastDeployed? environment = none ↔ ∀ d ∈ s.deployments, d.environment ≠ environment := by
  rw [lastDeployed?, latest?_eq_none_iff, List.map_eq_nil_iff, List.eq_nil_iff_forall_not_mem]
  simp only [mem_deploymentsTo_iff, not_and, ne_eq]

/-- The successful deployment to an environment that has the latest time, and of several at that
time the greatest id. -/
structure IsLive (s : Store) (environment : String) (d : Deployment) : Prop where
  mem : d ∈ s.deployments
  home : d.environment = environment
  success : d.status = .success
  last : ∀ c ∈ s.deployments, c.environment = environment → c.status = .success →
    c.time < d.time ∨ (c.time = d.time ∧ c.id ≤ d.id)

/-- Where ids are unique, what is looked up as the live deployment is the live one. -/
theorem lastSuccess?_eq_some_iff_of_nodup (h : (s.deployments.map (·.id)).Nodup)
    (environment : String) (d : Deployment) :
    s.lastSuccess? environment = some d ↔ s.IsLive environment d := by
  have hk : (((s.deploymentsTo environment).filter (·.status == .success)).map (·.id)).Nodup :=
    nodup_map_filter (nodup_map_filter h _) _
  rw [lastSuccess?, Deployment.ordersBy_notBefore.head?_mergeSort_eq_some_iff hk]
  simp only [List.mem_filter, mem_deploymentsTo_iff, beq_iff_eq, Deployment.notBefore_iff]
  constructor
  · rintro ⟨⟨⟨hd, he⟩, hst⟩, hle⟩
    refine ⟨hd, he, hst, fun c hc hce hcs => ?_⟩
    rcases hle c ⟨⟨hc, hce⟩, hcs⟩ with h | ⟨ht, hid⟩
    · exact Or.inl h
    · exact Or.inr ⟨ht.symm, hid⟩
  · rintro ⟨hd, he, hst, hlast⟩
    refine ⟨⟨⟨hd, he⟩, hst⟩, ?_⟩
    rintro c ⟨⟨hc, hce⟩, hcs⟩
    rcases hlast c hc hce hcs with h | ⟨ht, hid⟩
    · exact Or.inl h
    · exact Or.inr ⟨ht.symm, hid⟩

theorem lastSuccess?_eq_none_iff (s : Store) (environment : String) :
    s.lastSuccess? environment = none ↔
      ∀ d ∈ s.deployments, d.environment = environment → d.status ≠ .success := by
  rw [lastSuccess?, List.head?_eq_none_iff, List.eq_nil_iff_forall_not_mem]
  simp only [List.mem_mergeSort, List.mem_filter, mem_deploymentsTo_iff, beq_iff_eq, not_and,
    and_imp, ne_eq]

theorem Keyed.lastSuccess?_eq_some_iff (hs : s.Keyed) (environment : String) (d : Deployment) :
    s.lastSuccess? environment = some d ↔ s.IsLive environment d :=
  lastSuccess?_eq_some_iff_of_nodup hs.deployments environment d

end

end Store

end DeployRegistry
