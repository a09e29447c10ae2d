import DeployRegistry.Proofs.Agreement
import DeployRegistry.Proofs.Finding
import DeployRegistry.Proofs.Visits

/-!
# Nothing is disclosed

Two registries that agree for a caller give the same answers to every request of the caller, and
agree afterwards. So no run of requests tells the caller anything about the projects that the caller
does not see, not even whether there are any.
-/

namespace DeployRegistry

set_option autoImplicit false

open Form

namespace Store

variable {s t : Store} {project : String} {caller : Option String}

/-! The same change is made in both stores. -/

theorem SameIn.of_not_mentions (hs : ¬ s.Mentions project) (ht : ¬ t.Mentions project) :
    SameIn project s t where
  projects p hp := iff_of_false (fun h => hs (Or.inl ⟨p, h, hp⟩))
    (fun h => ht (Or.inl ⟨p, h, hp⟩))
  memberships m hm := iff_of_false (fun h => hs (Or.inr (Or.inl ⟨m, h, Or.inr hm⟩)))
    (fun h => ht (Or.inr (Or.inl ⟨m, h, Or.inr hm⟩)))
  environments e he := iff_of_false (fun h => hs (Or.inr (Or.inr (Or.inl ⟨e, h, Or.inr he⟩))))
    (fun h => ht (Or.inr (Or.inr (Or.inl ⟨e, h, Or.inr he⟩))))
  deployments d hd :=
    iff_of_false (fun h => hs (Or.inr (Or.inr (Or.inr ⟨d, h, Or.inr (Or.inl hd)⟩))))
      (fun h => ht (Or.inr (Or.inr (Or.inr ⟨d, h, Or.inr (Or.inl hd)⟩))))

theorem SameIn.addProject (h : SameIn project s t) (p : Project) :
    SameIn project (s.addProject p) (t.addProject p) :=
  { h with
    projects := fun q hq => by simp only [Store.addProject, List.mem_append, h.projects q hq] }

theorem SameIn.addMembership (h : SameIn project s t) (m : Membership) :
    SameIn project (s.addMembership m) (t.addMembership m) :=
  { h with
    memberships := fun n hn => by
      simp only [mem_memberships_addMembership_iff, h.memberships n hn] }

theorem SameIn.addEnvironment (h : SameIn project s t) (e : Environment) :
    SameIn project (s.addEnvironment e) (t.addEnvironment e) :=
  { h with
    environments := fun f hf => by
      simp only [mem_environments_addEnvironment_iff, h.environments f hf] }

theorem SameIn.addDeployment (h : SameIn project s t) (d : Deployment) :
    SameIn project (s.addDeployment d) (t.addDeployment d) :=
  { h with
    deployments := fun c hc => by
      simp only [mem_deployments_addDeployment_iff, h.deployments c hc] }

theorem SameIn.setState (h : SameIn project s t) (id : String) (state : EnvState) :
    SameIn project (s.setState id state) (t.setState id state) := by
  have hsub : ∀ {s t : Store}, SameIn project s t → ∀ f : Environment, f.project = project →
      f ∈ (s.setState id state).environments → f ∈ (t.setState id state).environments := by
    intro s t h f hf hmem
    obtain ⟨e, he, rfl⟩ := (mem_setState_iff s id state f).mp hmem
    refine (mem_setState_iff t id state _).mpr ⟨e, (h.environments e ?_).mp he, rfl⟩
    split at hf <;> exact hf
  exact { h with environments := fun f hf => ⟨hsub h f hf, hsub h.symm f hf⟩ }

theorem Shows.of_addMembership {m : Membership}
    (h : (s.addMembership m).Shows caller project) :
    s.Shows caller project ∨ m.project = project := by
  obtain ⟨p, hp, hid, hv | ⟨user, hu, n, hn, hnu, hnp⟩⟩ := h
  · exact Or.inl ⟨p, hp, hid, Or.inl hv⟩
  · rcases (mem_memberships_addMembership_iff s m n).mp hn with hn | rfl
    · exact Or.inl ⟨p, hp, hid, Or.inr ⟨user, hu, n, hn, hnu, hnp⟩⟩
    · exact Or.inr hnp

theorem Shows.of_addProject {p : Project} (h : (s.addProject p).Shows caller project) :
    s.Shows caller project ∨ p.id = project := by
  obtain ⟨q, hq, hid, hv⟩ := h
  rcases List.mem_append.mp hq with hq | hq
  · exact Or.inl ⟨q, hq, hid, hv⟩
  · obtain rfl := List.mem_singleton.mp hq
    exact Or.inr hid

namespace Agree

variable (h : Agree caller s t)
include h

theorem addProject {p : Project} (hp : SameIn p.id s t) :
    Agree caller (s.addProject p) (t.addProject p) where
  users := h.users
  shown project hshown := by
    have hbefore : (s.Shows caller project ∨ t.Shows caller project) ∨ p.id = project := by
      rcases hshown with hshown | hshown
      · exact hshown.of_addProject.imp_left Or.inl
      · exact hshown.of_addProject.imp_left Or.inr
    rcases hbefore with hbefore | rfl
    · exact (h.shown project hbefore).addProject p
    · exact hp.addProject p

theorem addMembership {m : Membership} (hm : SameIn m.project s t) :
    Agree caller (s.addMembership m) (t.addMembership m) where
  users := h.users
  shown project hshown := by
    have hbefore : (s.Shows caller project ∨ t.Shows caller project) ∨ m.project = project := by
      rcases hshown with hshown | hshown
      · exact hshown.of_addMembership.imp_left Or.inl
      · exact hshown.of_addMembership.imp_left Or.inr
    rcases hbefore with hbefore | rfl
    · exact (h.shown project hbefore).addMembership m
    · exact hm.addMembership m

theorem addEnvironment (e : Environment) :
    Agree caller (s.addEnvironment e) (t.addEnvironment e) where
  users := h.users
  shown project hshown := (h.shown project hshown).addEnvironment e

theorem addDeployment (d : Deployment) :
    Agree caller (s.addDeployment d) (t.addDeployment d) where
  users := h.users
  shown project hshown := (h.shown project hshown).addDeployment d

theorem setState (id : String) (state : EnvState) :
    Agree caller (s.setState id state) (t.setState id state) where
  users := h.users
  shown project hshown := (h.shown project hshown).setState id state

end Agree

end Store

namespace Registry

/-- Two sound registries that agree for a caller and have issued as many ids. -/
structure Twin (ids : Ids) (caller : Option String) (r r' : Registry) : Prop where
  left : r.Sound ids
  right : r'.Sound ids
  issued : r.issued = r'.issued
  agree : Store.Agree caller r.store r'.store

/-- The same wish comes to the same in both registries, which is shown in the same way, and leaves
them agreeing. -/
inductive Matched {α β : Type} (caller : Option String) (shown : Store → α → β) :
    Except Denial (α × Registry) → Except Denial (α × Registry) → Prop
  | denied (d : Denial) : Matched caller shown (.error d) (.error d)
  | granted (a : α) (r r' : Registry) (hissued : r.issued = r'.issued)
      (hagree : Store.Agree caller r.store r'.store) (hshown : shown r.store a = shown r'.store a) :
      Matched caller shown (.ok (a, r)) (.ok (a, r'))

theorem Sound.tidy {ids : Ids} {r : Registry} (h : r.Sound ids) : r.store.Tidy :=
  ⟨h.constrained, h.homed⟩

/-- Nothing was deployed to an environment whose id is not issued yet. -/
theorem Fresh.lastDeployed?_eq_none {ids : Ids} {r : Registry} (h : r.Fresh ids) {n : Nat}
    (hn : r.issued ≤ n) : r.store.lastDeployed? (ids n) = none := by
  rw [Store.lastDeployed?_eq_none_iff]
  intro d hd
  exact (h.deployment_ne hn hd).2.2

theorem shape_environment_congr {s t : Store} {clock : Http.Clock} {e : Environment}
    (h : s.lastDeployed? e.id = t.lastDeployed? e.id) :
    Http.Shape.environment clock s e = Http.Shape.environment clock t e := by
  simp only [Http.Shape.environment, h]

namespace Twin

variable {ids : Ids} {caller : Option String} {r r' : Registry} {user project : String}

theorem readable_eq (h : Twin ids caller r r') (project : String) :
    r.store.readable caller project = r'.store.readable caller project :=
  h.agree.readable_eq h.left.tidy h.right.tidy project

theorem sameIn (h : Twin ids caller r r') {p : Project}
    (hp : r'.store.readable caller project = .ok p) :
    p.id = project ∧ Store.SameIn project r.store r'.store :=
  h.agree.sameIn_of_readable h.right.tidy hp

/-- The id of a new project is new in both registries. -/
theorem sameIn_of_unused (h : Twin ids caller r r') {n : Nat} (hn : r.issued ≤ n) :
    Store.SameIn (ids n) r.store r'.store :=
  .of_not_mentions (h.left.fresh.unused n hn) (h.right.fresh.unused n (h.issued ▸ hn))

variable {β : Type}

theorem createProject (h : Twin ids caller r r') (shown : Project → β) (user : String)
    (f : NewProject) : Matched caller (fun _ => shown) (.ok (r.createProject ids user f))
      (.ok (r'.createProject ids user f)) := by
  -- Neither store has anything of the new project yet, so they agree on it as well.
  have hnew := h.sameIn_of_unused (Nat.le_refl _)
  rw [Registry.createProject, Registry.createProject, ← h.issued]
  refine .granted _ _ _ rfl ?_ rfl
  exact (h.agree.addProject hnew).addMembership (hnew.addProject _)

section

variable (h : Twin ids (some user) r r') (project : String)
include h

theorem addMember (shown : Membership → β) (f : NewMember) :
    Matched (some user) (fun _ => shown) (r.addMember ids user project f)
      (r'.addMember ids user project f) := by
  have hl := h.left.constrained.toKeyed
  have hr := h.right.constrained.toKeyed
  have huser : r.store.user? f.user = r'.store.user? f.user := by
    rw [Store.user?, Store.user?, h.agree.users]
  rw [addMember_eq, addMember_eq, h.readable_eq]
  cases hp : r'.store.readable (some user) project with
  | error d => exact .denied d
  | ok p =>
    obtain ⟨rfl, hsame⟩ := h.sameIn hp
    simp only [hsame.role?_eq hl hr, huser, hsame.membership?_eq hl hr, h.issued]
    split
    · exact .denied _
    · split
      · exact .denied _
      · split
        · exact .denied _
        · exact .granted _ _ _ rfl (h.agree.addMembership hsame) rfl

theorem createEnvironment (clock : Http.Clock) (f : NewEnvironment) :
    Matched (some user) (Http.Shape.environment clock) (r.createEnvironment ids user project f)
      (r'.createEnvironment ids user project f) := by
  have hl := h.left.constrained
  have hr := h.right.constrained
  rw [createEnvironment_eq, createEnvironment_eq, h.readable_eq]
  cases hp : r'.store.readable (some user) project with
  | error d => exact .denied d
  | ok p =>
    obtain ⟨rfl, hsame⟩ := h.sameIn hp
    simp only [hsame.allowed_project_eq hl.toKeyed hr.toKeyed (some user) _ rfl,
      hsame.environmentNamed?_eq hl hr, h.issued]
    split
    · split
      · exact .denied _
      · refine .granted _ _ _ rfl (h.agree.addEnvironment _) (shape_environment_congr ?_)
        exact (h.left.fresh.lastDeployed?_eq_none (Nat.le_of_eq h.issued)).trans
          (h.right.fresh.lastDeployed?_eq_none (Nat.le_refl _)).symm
    · exact .denied _

theorem moveEnvironment (clock : Http.Clock) (id : String) (state : EnvState) :
    Matched (some user) (Http.Shape.environment clock) (r.moveEnvironment user project id state)
      (r'.moveEnvironment user project id state) := by
  have hl := h.left.constrained.toKeyed
  have hr := h.right.constrained.toKeyed
  rw [moveEnvironment_eq, moveEnvironment_eq, h.readable_eq]
  cases hp : r'.store.readable (some user) project with
  | error d => exact .denied d
  | ok p =>
    obtain ⟨rfl, hsame⟩ := h.sameIn hp
    simp only [hsame.allowed_project_eq hl hr (some user) _ rfl, hsame.environment?_eq hl hr]
    split
    · exact .denied _
    · next e he =>
      obtain ⟨hmem, _, hproject⟩ := Store.environment?_eq_some he
      have hlast : r.store.lastDeployed? e.id = r'.store.lastDeployed? e.id :=
        (hsame.symm.lastDeployed?_eq h.right.tidy h.left.tidy hmem hproject).symm
      split
      · split
        · exact .granted _ _ _ h.issued h.agree (shape_environment_congr hlast)
        · exact .granted _ _ _ h.issued (h.agree.setState _ _) (shape_environment_congr hlast)
      · exact .denied _

theorem recordDeployment (shown : Deployment → β) (now : WallTime) (f : NewDeployment) :
    Matched (some user) (fun _ => shown) (r.recordDeployment ids now user project f)
      (r'.recordDeployment ids now user project f) := by
  have hl := h.left.constrained
  have hr := h.right.constrained
  rw [recordDeployment_eq, recordDeployment_eq, h.readable_eq]
  cases hp : r'.store.readable (some user) project with
  | error d => exact .denied d
  | ok p =>
    obtain ⟨rfl, hsame⟩ := h.sameIn hp
    simp only [hsame.allowed_project_eq hl.toKeyed hr.toKeyed (some user) _ rfl, environmentFor,
      hsame.environmentNamed?_eq hl hr, h.issued]
    split
    · cases r'.store.environmentNamed? p.id f.environment with
      | none => exact .granted _ _ _ rfl ((h.agree.addEnvironment _).addDeployment _) rfl
      | some e =>
        simp only [h.issued]
        exact .granted _ _ _ rfl (h.agree.addDeployment _) rfl
    · exact .denied _

end

end Twin

end Registry

namespace Http

variable {σ : Type}

/-- Two states of the service that agree for a caller: in what the caller sees, and in everything
that is not in the store. -/
structure Serving.Alike (caller : Option String) (a b : Serving σ) : Prop where
  agree : Store.Agree caller a.registry.store b.registry.store
  issued : a.registry.issued = b.registry.issued
  client : a.client = b.client
  now : a.now = b.now
  ticks : a.ticks = b.ticks
  host : a.host = b.host

/-- Two runs give the same and leave states that agree for a caller. -/
structure Paired {α : Type} (caller : Option String) (x y : α × Serving σ) : Prop where
  same : x.1 = y.1
  alike : x.2.Alike caller y.2

section

variable {caller : Option String} {a b : Serving σ} {α : Type}

theorem Serving.Alike.upon (h : a.Alike caller b) (v : Visit) :
    (a.upon v).Alike caller (b.upon v) :=
  { h with now := rfl, ticks := rfl }

theorem paired_view (h : a.Alike caller b) {wish wish' : Except Denial α} (hw : wish = wish')
    {shape shape' : α → Json} (hshape : ∀ x, wish' = .ok x → shape x = shape' x) :
    Paired caller (a.view shape wish) (b.view shape' wish') := by
  subst hw
  cases wish with
  | error d => exact ⟨rfl, h⟩
  | ok x =>
    refine ⟨?_, h⟩
    rw [Serving.view, Serving.view, hshape x rfl]

theorem paired_checked (h : a.Alike caller b) (x : Checked α)
    {next next' : α → Outcome × Serving σ}
    (hnext : ∀ v, Paired caller (next v) (next' v)) :
    Paired caller (a.checked x next) (b.checked x next') := by
  cases x with
  | valid v => exact hnext v
  | invalid issues => exact ⟨rfl, h⟩

theorem paired_change (h : a.Alike caller b) {shape : Store → α → Json}
    {wish wish' : Except Denial (α × Registry)} (hw : Registry.Matched caller shape wish wish')
    (status : Nat) : Paired caller (a.change status shape wish) (b.change status shape wish') := by
  cases hw with
  | denied d => exact ⟨rfl, h⟩
  | granted x r r' hissued hagree hshown =>
    refine ⟨?_, { h with agree := hagree, issued := hissued }⟩
    rw [Serving.change, Serving.change, hshown]

theorem shape_environments_congr {s t : Store} {clock : Clock} {es : List Environment}
    (h : ∀ e ∈ es, s.lastDeployed? e.id = t.lastDeployed? e.id) :
    Shape.environments clock s es = Shape.environments clock t es := by
  have hmap : es.map (Shape.environment clock s) = es.map (Shape.environment clock t) :=
    List.map_congr_left fun e he => Registry.shape_environment_congr (h e he)
  rw [Shape.environments, Shape.environments, hmap]

end

namespace Site

section

variable (site : Site σ) {caller asking : Option String} {a b : Serving σ}
variable (ha : a.registry.Sound site.ids) (hb : b.registry.Sound site.ids)
variable (h : a.Alike caller b)
include ha hb h

/-- A search that is made for the caller, or without a name, is the same in both states. -/
theorem find_paired (hq : Store.Agree asking a.registry.store b.registry.store) (project : String)
    (c : Criteria) :
    Paired caller (site.find a asking project c) (site.find b asking project c) := by
  rw [find_eq, find_eq, h.ticks, h.client, h.host, hq.findEnvironments_eq ha.tidy hb.tidy]
  rcases hrun : ((b.registry.store.findEnvironments asking project c
    (some (site.question b.ticks))).run).run (b.client, b.host) with ⟨found, client, host⟩
  have h' : Serving.Alike caller ⟨a.registry, client, a.now, b.ticks, host⟩
      ⟨b.registry, client, b.now, b.ticks, host⟩ :=
    ⟨h.agree, h.issued, rfl, h.now, rfl, rfl⟩
  cases found with
  | error u => exact ⟨rfl, h'⟩
  | ok wish =>
    -- An answer shows when each environment was last deployed to, which is the same in both states
    -- for the environments of a project that the caller sees.
    refine paired_view h' rfl fun es hes => shape_environments_congr fun e he => ?_
    subst hes
    obtain ⟨⟨p, hp⟩, hmem⟩ := mem_of_findEnvironments_run hrun
    have hcandidate := (b.registry.store.mem_candidates_iff project c e).mp (hmem e he)
    refine hq.lastDeployed?_eq ha.tidy hb.tidy hcandidate.1 ?_
    rw [hcandidate.2.1]
    exact ((hb.constrained.readable_eq_ok_iff_shows asking project p).mp hp).2.2

theorem read_paired (hq : Store.Agree asking a.registry.store b.registry.store) (ms : Json.Members)
    (e : Reading) : Paired caller (site.read a asking ms e) (site.read b asking ms e) := by
  cases e with
  | project p => exact paired_view h (hq.readable_eq ha.tidy hb.tidy p) fun _ _ => rfl
  | environments p =>
    refine paired_checked h _ fun state => ?_
    refine paired_view h (hq.listEnvironments_eq ha.tidy hb.tidy p state) fun es hes => ?_
    refine shape_environments_congr fun e he => ?_
    obtain ⟨⟨q, hp⟩, hmem⟩ := Store.mem_of_listEnvironments hes
    refine hq.lastDeployed?_eq ha.tidy hb.tidy (hmem e he).1 ?_
    rw [(hmem e he).2]
    exact ((hb.constrained.readable_eq_ok_iff_shows asking p q).mp hp).2.2
  | search p => exact paired_checked h _ (site.find_paired ha hb h hq p)
  | environment p id =>
    refine paired_view h (hq.getEnvironment_eq ha.tidy hb.tidy p id) fun e hes => ?_
    obtain ⟨⟨q, hp⟩, hmem, hproject⟩ := Store.mem_of_getEnvironment hes
    refine Registry.shape_environment_congr (hq.lastDeployed?_eq ha.tidy hb.tidy hmem ?_)
    rw [hproject]
    exact ((hb.constrained.readable_eq_ok_iff_shows asking p q).mp hp).2.2
  | deployments p =>
    refine paired_checked h _ fun l => ?_
    rw [list, list, hq.listDeployments_eq ha.tidy hb.tidy]
    split
    · exact ⟨rfl, h⟩
    · split
      · exact ⟨rfl, h⟩
      · exact ⟨rfl, h⟩

omit hb in
theorem write_paired {user : String} (hu : caller = some user)
    (hb : b.registry.Sound site.ids) (c : Content) (w : Writing) :
    Paired caller (site.write a user c w) (site.write b user c w) := by
  subst hu
  have ht : Registry.Twin site.ids (some user) a.registry b.registry :=
    ⟨ha, hb, h.issued, h.agree⟩
  cases w with
  | project =>
    exact paired_checked h _ fun f => paired_change h (ht.createProject _ user f) 201
  | member p => exact paired_checked h _ fun f => paired_change h (ht.addMember p _ f) 201
  | environment p =>
    exact paired_checked h _ fun f => paired_change h (ht.createEnvironment p site.clock f) 201
  | stop p id => exact paired_change h (ht.moveEnvironment p site.clock id .stopped) 200
  | start p id => exact paired_change h (ht.moveEnvironment p site.clock id .available) 200
  | deployment p =>
    rw [write, write, h.now]
    exact paired_checked h _ fun f => paired_change h (ht.recordDeployment p _ b.now f) 201

/-- A request that is made by the caller, or without a name, comes to the same in both states. -/
theorem perform_paired {r : Request}
    (hr : ∀ u, site.caller? a r = .ok (some u) → caller = some u.id) (e : Endpoint) :
    Paired caller (site.perform a r e) (site.perform b r e) := by
  have hcaller := site.caller?_congr h.agree.users h.now r
  cases e with
  | health => exact ⟨rfl, h⟩
  | reading e =>
    rw [perform, perform, ← hcaller]
    cases hc : site.caller? a r with
    | error problem => exact ⟨rfl, h⟩
    | ok asking =>
      refine site.read_paired ha hb h ?_ r.queryMembers e
      cases asking with
      | none => exact h.agree.of_none
      | some u =>
        obtain rfl := hr u hc
        exact h.agree
  | writing w =>
    rw [perform, perform, ← hcaller]
    cases hcontent : (if w.takesContent then content r else .ok .absent) with
    | error problem => exact ⟨rfl, h⟩
    | ok c =>
      cases hc : site.caller? a r with
      | error problem => exact ⟨rfl, h⟩
      | ok asking =>
        cases asking with
        | none => exact ⟨rfl, h⟩
        | some u => exact site.write_paired ha h (hr u hc) hb c w

theorem answer_paired {r : Request}
    (hr : ∀ u, site.caller? a r = .ok (some u) → caller = some u.id) :
    Paired caller (site.answer a r) (site.answer b r) := by
  unfold answer
  split
  · exact ⟨rfl, h⟩
  · exact ⟨rfl, h⟩
  · exact ⟨rfl, h⟩
  · next e _ =>
    have hpaired := site.perform_paired ha hb h hr e
    generalize site.perform a r e = x at hpaired
    generalize site.perform b r e = y at hpaired
    obtain ⟨outcome, a'⟩ := x
    obtain ⟨outcome', b'⟩ := y
    obtain ⟨rfl, halike⟩ := hpaired
    cases outcome with
    | error problem => exact ⟨rfl, halike⟩
    | ok result => exact ⟨rfl, halike⟩

theorem respond_paired {r : Request}
    (hr : ∀ u, site.caller? a r = .ok (some u) → caller = some u.id) :
    Paired caller (site.respond a r) (site.respond b r) := by
  unfold respond
  dsimp only
  split
  · exact ⟨rfl, h⟩
  · have hpaired := site.answer_paired ha hb h hr
    generalize site.answer a r = x at hpaired
    generalize site.answer b r = y at hpaired
    obtain ⟨answer, a'⟩ := x
    obtain ⟨answer', b'⟩ := y
    obtain ⟨rfl, halike⟩ := hpaired
    cases answer with
    | none => exact ⟨rfl, halike⟩
    | some answer => exact ⟨rfl, halike⟩

end

/-- A visit of the caller: whoever its credentials are taken for is the caller. One without
credentials that are accepted may be anybody's. -/
def MadeBy (site : Site σ) (sv : Serving σ) (caller : Option String) (v : Visit) : Prop :=
  ∀ u, site.caller? (sv.upon v) v.request = .ok (some u) → caller = some u.id

/-- The answers to the requests of a caller do not depend on the projects that the caller does not
see: in two states that agree for the caller, every run of requests of the caller has the same
answers, and the states agree after each of the requests. -/
theorem run_undisclosing (site : Site σ) {caller : Option String} {a b : Serving σ}
    (ha : a.registry.Sound site.ids) (hb : b.registry.Sound site.ids) (h : a.Alike caller b)
    {vs : List Visit} (hvs : ∀ v ∈ vs, site.MadeBy a caller v) :
    (site.run a vs).1 = (site.run b vs).1 ∧
      ∀ k, (site.run a (vs.take k)).2.Alike caller (site.run b (vs.take k)).2 := by
  induction vs generalizing a b with
  | nil => exact ⟨rfl, fun k => by rwa [List.take_nil]⟩
  | cons v rest ih =>
    rw [List.forall_mem_cons] at hvs
    have hpaired := site.respond_paired (a := a.upon v) (b := b.upon v) ha hb (h.upon v) hvs.1
    -- No request changes the users, so the requests that remain are still those of the caller.
    have hrest : ∀ v' ∈ rest, site.MadeBy (site.serve a v).2 caller v' := by
      intro v' hv' u hu
      have hcaller : site.caller? (a.upon v') v'.request =
          site.caller? ((site.serve a v).2.upon v') v'.request := by
        apply site.caller?_congr
        · exact (users_serve ha v).symm
        · rfl
      exact hvs.2 v' hv' u (hcaller.trans hu)
    obtain ⟨hanswers, hstates⟩ :=
      ih (serve_sound ha v) (serve_sound hb v) hpaired.alike hrest
    refine ⟨?_, fun k => ?_⟩
    · rw [run_cons, run_cons, hanswers]
      exact congrArg (· :: _) hpaired.same
    · cases k with
      | zero => exact h
      | succ k => exact hstates k

/-- One store has a project that only its member sees, and the other has no project at all. -/
def hiddenStore : Store where
  users := [⟨"ana", "Ana", "ana@example.com"⟩]
  projects := [⟨"p", "Harbour", none, .members, false⟩]
  memberships := [⟨"m", "ana", "p", .owner⟩]
  environments := [⟨"e", "p", "test", .available, false⟩]
  deployments := [⟨"d", "p", "e", "main", false, "abcdef0", .success, ⟨1⟩⟩]

def hidingStore : Store := { Store.empty with users := hiddenStore.users }

theorem agree_hiddenStore : Store.Agree none hiddenStore hidingStore where
  users := rfl
  shown project hshown := by
    rcases hshown with ⟨p, hp, _, hv⟩ | ⟨p, hp, _⟩
    · obtain rfl := List.mem_singleton.mp hp
      rcases hv with hv | ⟨user, hu, _⟩
      · cases hv
      · cases hu
    · cases hp

theorem sound_hiddenStore : (plainServing hiddenStore 0).registry.Sound plainSite.ids where
  constrained :=
    { users := by decide, projects := by decide, memberships := by decide
      environments := by decide, deployments := by decide, roles := by decide, names := by decide }
  homed := by
    intro d hd
    obtain rfl := List.mem_singleton.mp hd
    exact ⟨_, List.mem_singleton.mpr rfl, rfl, rfl⟩
  fresh := by
    refine ⟨plainIds_injective, fun n _ h => ?_⟩
    have hp : plainIds n ≠ "p" := plainIds_ne (c := 'p') (by decide) (by decide) n
    have hm : plainIds n ≠ "m" := plainIds_ne (c := 'm') (by decide) (by decide) n
    have he : plainIds n ≠ "e" := plainIds_ne (c := 'e') (by decide) (by decide) n
    have hd : plainIds n ≠ "d" := plainIds_ne (c := 'd') (by decide) (by decide) n
    simp [Store.Mentions, plainServing, hiddenStore, plainSite, hp.symm, hm.symm, he.symm,
      hd.symm] at h

/-- Visits without credentials: to the project, to its environments and to its deployments. -/
def strangerVisits : List Visit := [
  plainVisit "GET" "/api/v1/projects/p" [] [] "",
  plainVisit "GET" "/api/v1/projects/p/environments/by-deployments" [("ref", "main")] [] "",
  plainVisit "POST" "/api/v1/projects/p/deployments" [] [] ""]

theorem run_undisclosing_stranger :
    (plainSite.run (plainServing hiddenStore 0) strangerVisits).1 =
        (plainSite.run (plainServing hidingStore 0) strangerVisits).1 ∧
      ∀ k, (plainSite.run (plainServing hiddenStore 0) (strangerVisits.take k)).2.Alike none
        (plainSite.run (plainServing hidingStore 0) (strangerVisits.take k)).2 := by
  refine run_undisclosing plainSite sound_hiddenStore ?_ ?_ ?_
  · exact sound_of_users plainIds_injective (by decide) rfl
  · exact ⟨agree_hiddenStore, rfl, rfl, rfl, rfl, rfl⟩
  · intro v hv u hu
    have hnobody : bearer? v.request = none := by
      simp only [strangerVisits, List.mem_cons, List.not_mem_nil, or_false] at hv
      rcases hv with rfl | rfl | rfl <;> rfl
    simp [caller?, hnobody, Token.holder?] at hu

end Site

end Http

end DeployRegistry
