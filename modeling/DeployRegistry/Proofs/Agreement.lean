import DeployRegistry.Proofs.Granting

/-!
# Stores that agree for a caller

Two stores agree for a caller when they have the same users and the same records of every project
that the caller sees in one of them; of other projects each may have whatever it likes. Every query
about a project that the caller sees has the same answer in both.
-/

namespace DeployRegistry

set_option autoImplicit false

namespace Store

/-- Every deployment is to an environment of its project, besides the constraints of the tables. -/
structure Tidy (s : Store) : Prop where
  constrained : s.Constrained
  homed : s.Homed

/-- Two stores have the same records of a project. -/
structure SameIn (project : String) (s t : Store) : Prop where
  projects : ∀ p : Project, p.id = project → (p ∈ s.projects ↔ p ∈ t.projects)
  memberships : ∀ m : Membership, m.project = project → (m ∈ s.memberships ↔ m ∈ t.memberships)
  environments : ∀ e : Environment, e.project = project →
    (e ∈ s.environments ↔ e ∈ t.environments)
  deployments : ∀ d : Deployment, d.project = project → (d ∈ s.deployments ↔ d ∈ t.deployments)

/-- Two stores have the same users, and the same records of all projects that the caller sees. -/
structure Agree (caller : Option String) (s t : Store) : Prop where
  users : s.users = t.users
  shown : ∀ project, s.Shows caller project ∨ t.Shows caller project → SameIn project s t

variable {s t : Store} {project : String} {caller : Option String}

theorem SameIn.symm (h : SameIn project s t) : SameIn project t s where
  projects p hp := (h.projects p hp).symm
  memberships m hm := (h.memberships m hm).symm
  environments e he := (h.environments e he).symm
  deployments d hd := (h.deployments d hd).symm

theorem SameIn.shows (h : SameIn project s t) (hs : s.Shows caller project) :
    t.Shows caller project := by
  obtain ⟨p, hp, hid, hv⟩ := hs
  refine ⟨p, (h.projects p hid).mp hp, hid, hv.imp id ?_⟩
  rintro ⟨user, hu, m, hm, hmu, hmp⟩
  exact ⟨user, hu, m, (h.memberships m hmp).mp hm, hmu, hmp⟩

theorem Agree.shows_iff (h : Agree caller s t) (project : String) :
    s.Shows caller project ↔ t.Shows caller project :=
  ⟨fun hs => (h.shown project (Or.inl hs)).shows hs,
    fun ht => (h.shown project (Or.inr ht)).symm.shows ht⟩

theorem Agree.of_none (h : Agree caller s t) : Agree none s t where
  users := h.users
  shown project hp := h.shown project (hp.imp (·.of_none caller) (·.of_none caller))

/-! The queries about a project with the same records. -/

namespace SameIn

section

variable (h : SameIn project s t)
include h

theorem project?_eq (hs : s.Keyed) (ht : t.Keyed) : s.project? project = t.project? project := by
  apply Option.ext
  intro p
  rw [hs.project?_eq_some_iff, ht.project?_eq_some_iff]
  exact and_congr_left fun hid => h.projects p hid

theorem membership?_eq (hs : s.Keyed) (ht : t.Keyed) (user : String) :
    s.membership? user project = t.membership? user project := by
  apply Option.ext
  intro m
  rw [hs.membership?_eq_some_iff, ht.membership?_eq_some_iff]
  exact and_congr_left fun hm => h.memberships m hm.2

theorem role?_eq (hs : s.Keyed) (ht : t.Keyed) (user : String) :
    s.role? user project = t.role? user project := by
  rw [role?, role?, h.membership?_eq hs ht]

theorem callerRole?_eq (hs : s.Keyed) (ht : t.Keyed) (caller : Option String) :
    s.callerRole? caller project = t.callerRole? caller project := by
  cases caller with
  | none => rfl
  | some user => exact h.role?_eq hs ht user

theorem environment?_eq (hs : s.Keyed) (ht : t.Keyed) (id : String) :
    s.environment? project id = t.environment? project id := by
  apply Option.ext
  intro e
  rw [hs.environment?_eq_some_iff, ht.environment?_eq_some_iff]
  exact and_congr_left fun he => h.environments e he.2

theorem environmentNamed?_eq (hs : s.Constrained) (ht : t.Constrained) (name : String) :
    s.environmentNamed? project name = t.environmentNamed? project name := by
  apply Option.ext
  intro e
  rw [hs.environmentNamed?_eq_some_iff, ht.environmentNamed?_eq_some_iff]
  exact and_congr_left fun he => h.environments e he.1

theorem readable_eq (hs : s.Keyed) (ht : t.Keyed) (caller : Option String) :
    s.readable caller project = t.readable caller project := by
  rw [readable, readable, h.project?_eq hs ht]
  cases hp : t.project? project with
  | none => rfl
  | some p =>
    obtain rfl := project?_id hp
    simp only [h.callerRole?_eq hs ht]

theorem repository?_eq (hs : s.Keyed) (ht : t.Keyed) :
    s.repository? project = t.repository? project := by
  rw [repository?, repository?, h.project?_eq hs ht]

/-- Whoever may act on a project in one store may do so in the other. -/
theorem allowed_project_eq (hs : s.Keyed) (ht : t.Keyed) (caller : Option String) (action : Action)
    {p : Project} (hp : p.id = project) :
    s.allowed caller action (.project p) = t.allowed caller action (.project p) := by
  obtain rfl := hp
  simp only [allowed, projectOf?, h.callerRole?_eq hs ht]

theorem allowed_environment_eq (hs : s.Keyed) (ht : t.Keyed) (caller : Option String)
    (action : Action) {e : Environment} (he : e.project = project) :
    s.allowed caller action (.environment e) = t.allowed caller action (.environment e) := by
  obtain rfl := he
  simp only [allowed, projectOf?, h.project?_eq hs ht]
  cases hp : t.project? e.project with
  | none => rfl
  | some p =>
    have hid := project?_id hp
    simp only [hid, h.callerRole?_eq hs ht]

theorem mem_environmentsOf_iff (e : Environment) :
    e ∈ s.environmentsOf project ↔ e ∈ t.environmentsOf project := by
  rw [Store.mem_environmentsOf_iff, Store.mem_environmentsOf_iff]
  exact and_congr_left fun he => h.environments e he

end

end SameIn

/-! What was deployed to an environment belongs to the project of the environment. -/

theorem Tidy.project_eq (hs : s.Tidy) {e : Environment} (he : e ∈ s.environments) {d : Deployment}
    (hd : d ∈ s.deployments) (hid : d.environment = e.id) : d.project = e.project := by
  obtain ⟨f, hf, hfid, hfp⟩ := hs.homed d hd
  obtain rfl := hs.constrained.eq_of_id_eq hf he (hfid.trans hid)
  exact hfp.symm

namespace SameIn

section

variable (h : SameIn project s t) (hs : s.Tidy) (ht : t.Tidy)
include h hs ht

theorem mem_deploymentsTo_iff {e : Environment} (he : e ∈ s.environments)
    (hp : e.project = project) (d : Deployment) :
    d ∈ s.deploymentsTo e.id ↔ d ∈ t.deploymentsTo e.id := by
  have he' := (h.environments e hp).mp he
  rw [Store.mem_deploymentsTo_iff, Store.mem_deploymentsTo_iff]
  constructor
  · rintro ⟨hd, hid⟩
    exact ⟨(h.deployments d ((hs.project_eq he hd hid).trans hp)).mp hd, hid⟩
  · rintro ⟨hd, hid⟩
    exact ⟨(h.deployments d ((ht.project_eq he' hd hid).trans hp)).mpr hd, hid⟩

theorem lastDeployed?_eq {e : Environment} (he : e ∈ s.environments) (hp : e.project = project) :
    s.lastDeployed? e.id = t.lastDeployed? e.id := by
  rw [lastDeployed?, lastDeployed?]
  refine latest?_congr fun time => ?_
  simp only [List.mem_map, h.mem_deploymentsTo_iff hs ht he hp]

theorem lastSuccess?_eq {e : Environment} (he : e ∈ s.environments) (hp : e.project = project) :
    s.lastSuccess? e.id = t.lastSuccess? e.id := by
  rw [lastSuccess?, lastSuccess?]
  have hks := hs.constrained.nodup_deploymentsTo e.id
  have hkt := ht.constrained.nodup_deploymentsTo e.id
  have hperm : (s.deploymentsTo e.id).Perm (t.deploymentsTo e.id) :=
    perm_of_mem_iff hks hkt (h.mem_deploymentsTo_iff hs ht he hp)
  exact congrArg List.head? (Deployment.ordersBy_notBefore.mergeSort_eq_of_perm
    (nodup_map_filter hks _) (hperm.filter _))

theorem listed_eq (l : Listing) : s.listed project l = t.listed project l := by
  rw [listed, listed]
  refine Deployment.ordersBy_notBefore.mergeSort_eq_of_perm
    (nodup_map_filter hs.constrained.deployments _) ?_
  refine perm_of_mem_iff (nodup_map_filter hs.constrained.deployments _)
    (nodup_map_filter ht.constrained.deployments _) fun d => ?_
  simp only [List.mem_filter, Bool.and_eq_true, beq_iff_eq, and_assoc]
  constructor
  · rintro ⟨hd, hp, hrest⟩
    exact ⟨(h.deployments d hp).mp hd, hp, hrest⟩
  · rintro ⟨hd, hp, hrest⟩
    exact ⟨(h.deployments d hp).mpr hd, hp, hrest⟩

theorem environmentsOf_perm : (s.environmentsOf project).Perm (t.environmentsOf project) :=
  perm_of_mem_iff (hs.constrained.nodup_environmentsOf project)
    (ht.constrained.nodup_environmentsOf project) h.mem_environmentsOf_iff

theorem listing_eq (state : Option EnvState) :
    ((s.environmentsOf project).filter fun e => state.all (e.state == ·)).mergeSort byName =
      ((t.environmentsOf project).filter fun e => state.all (e.state == ·)).mergeSort byName := by
  have hnames := hs.constrained.nodup_names project
  exact ordersBy_byName.mergeSort_eq_of_perm (nodup_map_filter hnames _)
    ((h.environmentsOf_perm hs ht).filter _)

omit hs ht in
theorem isCandidate_eq (c : Criteria) (e : Environment) :
    s.isCandidate project c e = t.isCandidate project c e := by
  rw [Bool.eq_iff_iff]
  simp only [isCandidate, Bool.and_eq_true, beq_iff_eq, List.any_eq_true]
  refine and_congr_right fun _ => exists_congr fun d => ?_
  constructor
  · rintro ⟨hd, ⟨hp, hid⟩, hm⟩
    exact ⟨(h.deployments d hp).mp hd, ⟨hp, hid⟩, hm⟩
  · rintro ⟨hd, ⟨hp, hid⟩, hm⟩
    exact ⟨(h.deployments d hp).mpr hd, ⟨hp, hid⟩, hm⟩

theorem oldestFirst_eq {a b : Environment} (ha : a ∈ s.environmentsOf project)
    (hb : b ∈ s.environmentsOf project) : s.oldestFirst a b = t.oldestFirst a b := by
  rw [Store.mem_environmentsOf_iff] at ha hb
  rw [oldestFirst, oldestFirst, h.lastDeployed?_eq hs ht ha.1 ha.2,
    h.lastDeployed?_eq hs ht hb.1 hb.2]

theorem candidates_eq (c : Criteria) : s.candidates project c = t.candidates project c := by
  have hk : (((s.environmentsOf project).filter (s.isCandidate project c)).map (·.id)).Nodup :=
    nodup_map_filter (hs.constrained.nodup_environmentsOf project) _
  have hsame : s.isCandidate project c = t.isCandidate project c := funext (h.isCandidate_eq c)
  have hperm : ((s.environmentsOf project).filter (s.isCandidate project c)).Perm
      ((t.environmentsOf project).filter (t.isCandidate project c)) :=
    hsame ▸ (h.environmentsOf_perm hs ht).filter _
  have hin : ∀ e ∈ (s.environmentsOf project).filter (s.isCandidate project c),
      e ∈ s.environmentsOf project := fun e he => (List.mem_filter.mp he).1
  rw [candidates, candidates]
  cases c.latestOnly with
  | true =>
    exact s.ordersBy_oldestFirst.flip.mergeSort_congr t.ordersBy_oldestFirst.flip hk hperm
      fun a ha b hb => h.oldestFirst_eq hs ht (hin b hb) (hin a ha)
  | false =>
    exact s.ordersBy_oldestFirst.mergeSort_congr t.ordersBy_oldestFirst hk hperm
      fun a ha b hb => h.oldestFirst_eq hs ht (hin a ha) (hin b hb)

end

end SameIn

end Store

/-! Resolutions whose checks are the same on the candidates are the same. -/

section

variable {m : Type → Type} [Monad m] {α : Type}

theorem selectAll_congr {test test' : α → m Bool} {as : List α}
    (h : ∀ a ∈ as, test a = test' a) : selectAll test as = selectAll test' as := by
  induction as with
  | nil => rfl
  | cons a rest ih =>
    rw [List.forall_mem_cons] at h
    rw [selectAll, selectAll, h.1, ih h.2]

theorem selectFirst_congr {test test' : α → m Bool} {as : List α}
    (h : ∀ a ∈ as, test a = test' a) : selectFirst test as = selectFirst test' as := by
  induction as with
  | nil => rfl
  | cons a rest ih =>
    rw [List.forall_mem_cons] at h
    rw [selectFirst, selectFirst, h.1, ih h.2]

theorem passes_congr {k k' : Checks m} {checks : List Check}
    (h : ∀ check ∈ checks, k.run check = k'.run check) : k.passes checks = k'.passes checks := by
  induction checks with
  | nil => rfl
  | cons check rest ih =>
    rw [List.forall_mem_cons] at h
    rw [Checks.passes, Checks.passes, h.1, ih h.2]

end

namespace Store

variable {s t : Store} {project : String} {m : Type → Type} [Monad m]

namespace SameIn

section

variable (h : SameIn project s t) (hs : s.Tidy) (ht : t.Tidy)
include h hs ht

theorem roles_allowed_eq (known : Roles) (caller : Option String) (action : Action)
    {e : Environment} (he : e.project = project) :
    known.allowed s caller action (.environment e) =
      known.allowed t caller action (.environment e) := by
  obtain rfl := he
  simp only [Roles.allowed, projectOf?,
    h.project?_eq hs.constrained.toKeyed ht.constrained.toKeyed]
  cases hp : t.project? e.project with
  | none => rfl
  | some p =>
    have hid := project?_id hp
    cases caller with
    | none => rfl
    | some user =>
      simp only [Roles.roleFor, hid, h.role?_eq hs.constrained.toKeyed ht.constrained.toKeyed]

theorem run_check_eq (host : Option (Question → m Bool)) {c : Criteria} {caller : Option String}
    {e : Environment} (he : e ∈ s.environments) (hp : e.project = project) {check : Check}
    (hc : check ∈ c.checks caller e) :
    (Checks.stored s host).run check = (Checks.stored t host).run check := by
  have hlive : (Recollection.live s e.id : StateT Recollection m (Option Deployment)) =
      Recollection.live t e.id := by
    unfold Recollection.live Snapshots.live
    rw [h.lastSuccess?_eq hs ht he hp]
  cases (c.mem_checks_iff_due caller e check).mp hc with
  | allowed =>
    funext known
    simp only [Checks.run, Checks.stored, Recollection.allowed,
      h.roles_allowed_eq hs ht known.roles caller .readEnvironment hp]
  | recentlyUpdated =>
    simp only [Checks.run, Checks.stored, Recollection.recentlyUpdated, hlive]
  | includesCommit =>
    have hrepository : s.repository? e.project = t.repository? e.project := by
      rw [hp]
      exact h.repository?_eq hs.constrained.toKeyed ht.constrained.toKeyed
    simp only [Checks.run, Checks.stored, Recollection.includesCommit, hlive, inclusion,
      hrepository]

theorem resolve_eq (host : Option (Question → m Bool)) (caller : Option String) (c : Criteria) :
    (Checks.stored s host).resolve s project caller c =
      (Checks.stored t host).resolve t project caller c := by
  have htest : ∀ e ∈ t.candidates project c,
      (Checks.stored s host).passes (c.checks caller e) =
        (Checks.stored t host).passes (c.checks caller e) := by
    intro e he
    rw [← h.candidates_eq hs ht, mem_candidates_iff] at he
    exact passes_congr fun check hc => h.run_check_eq hs ht host he.1 he.2.1 hc
  simp only [Checks.resolve, h.candidates_eq hs ht]
  rw [selectAll_congr htest, selectFirst_congr htest]

end

end SameIn

/-! What is listed and shown is an environment of a project that was handed out. -/

theorem mem_of_listEnvironments {caller : Option String} {state : Option EnvState}
    {es : List Environment} (h : s.listEnvironments caller project state = .ok es) :
    (∃ p, s.readable caller project = .ok p) ∧
      ∀ e ∈ es, e ∈ s.environments ∧ e.project = project := by
  rw [listEnvironments] at h
  cases hp : s.readable caller project with
  | error d =>
    rw [hp] at h
    cases h
  | ok p =>
    obtain ⟨_, rfl⟩ := readable_eq_ok hp
    rw [hp] at h
    cases h
    refine ⟨⟨p, rfl⟩, fun e he => ?_⟩
    simp only [List.mem_filter, List.mem_mergeSort, s.mem_environmentsOf_iff] at he
    exact he.1.1

theorem mem_of_getEnvironment {caller : Option String} {id : String} {e : Environment}
    (h : s.getEnvironment caller project id = .ok e) :
    (∃ p, s.readable caller project = .ok p) ∧ e ∈ s.environments ∧ e.project = project := by
  rw [getEnvironment] at h
  cases hp : s.readable caller project with
  | error d =>
    rw [hp] at h
    cases h
  | ok p =>
    obtain ⟨_, rfl⟩ := readable_eq_ok hp
    rw [hp] at h
    refine ⟨⟨p, rfl⟩, ?_⟩
    simp only [bind, Except.bind] at h
    split at h
    · cases h
    · next f hf =>
      split at h
      · cases h
        exact ⟨(environment?_eq_some hf).1, (environment?_eq_some hf).2.2⟩
      · cases h

/-! What a caller is shown is the same in both stores. -/

namespace Agree

section

variable {caller : Option String} (h : Agree caller s t) (hs : s.Tidy) (ht : t.Tidy)
include h hs ht

theorem readable_eq (project : String) :
    s.readable caller project = t.readable caller project := by
  by_cases hshown : s.Shows caller project
  · exact (h.shown project (Or.inl hshown)).readable_eq hs.constrained.toKeyed
      ht.constrained.toKeyed caller
  · rw [hs.constrained.readable_of_not_shows hshown]
    rw [h.shows_iff] at hshown
    rw [ht.constrained.readable_of_not_shows hshown]

omit hs in
/-- A project that is handed out has the same records in both stores. -/
theorem sameIn_of_readable {p : Project} (hp : t.readable caller project = .ok p) :
    p.id = project ∧ SameIn project s t := by
  rw [ht.constrained.readable_eq_ok_iff_shows] at hp
  exact ⟨hp.2.1, h.shown project (Or.inr hp.2.2)⟩

theorem listEnvironments_eq (project : String) (state : Option EnvState) :
    s.listEnvironments caller project state = t.listEnvironments caller project state := by
  rw [listEnvironments, listEnvironments, h.readable_eq hs ht]
  cases hp : t.readable caller project with
  | error d => rfl
  | ok p =>
    obtain ⟨rfl, hsame⟩ := h.sameIn_of_readable ht hp
    refine congrArg Except.ok ?_
    rw [hsame.listing_eq hs ht]
    refine List.filter_congr fun e he => ?_
    rw [List.mem_mergeSort, List.mem_filter, t.mem_environmentsOf_iff] at he
    exact hsame.allowed_environment_eq hs.constrained.toKeyed ht.constrained.toKeyed caller _
      he.1.2

theorem lastDeployed?_eq {e : Environment} (he : e ∈ t.environments)
    (hshown : t.Shows caller e.project) : s.lastDeployed? e.id = t.lastDeployed? e.id :=
  ((h.shown e.project (Or.inr hshown)).symm.lastDeployed?_eq ht hs he rfl).symm

theorem getEnvironment_eq (project id : String) :
    s.getEnvironment caller project id = t.getEnvironment caller project id := by
  rw [getEnvironment, getEnvironment, h.readable_eq hs ht]
  cases hp : t.readable caller project with
  | error d => rfl
  | ok p =>
    obtain ⟨rfl, hsame⟩ := h.sameIn_of_readable ht hp
    simp only [bind, Except.bind,
      hsame.environment?_eq hs.constrained.toKeyed ht.constrained.toKeyed]
    cases he : t.environment? p.id id with
    | none => rfl
    | some e =>
      simp only [hsame.allowed_environment_eq hs.constrained.toKeyed ht.constrained.toKeyed caller
        _ (environment?_eq_some he).2.2]

theorem listDeployments_eq (project : String) (l : Listing) :
    s.listDeployments caller project l = t.listDeployments caller project l := by
  rw [listDeployments, listDeployments, h.readable_eq hs ht]
  cases hp : t.readable caller project with
  | error d => rfl
  | ok p =>
    obtain ⟨rfl, hsame⟩ := h.sameIn_of_readable ht hp
    simp only [bind, Except.bind, hsame.listed_eq hs ht]

theorem findEnvironments_eq (project : String) (c : Criteria) (host : Option (Question → m Bool)) :
    s.findEnvironments caller project c host = t.findEnvironments caller project c host := by
  rw [findEnvironments, findEnvironments, h.readable_eq hs ht]
  cases hp : t.readable caller project with
  | error d => rfl
  | ok p =>
    obtain ⟨rfl, hsame⟩ := h.sameIn_of_readable ht hp
    simp only [hsame.resolve_eq hs ht]

end

end Agree

end Store

end DeployRegistry
