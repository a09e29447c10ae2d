import DeployRegistry.Proofs.Answers

/-!
# What is recorded is found

A deployment that was recorded is found from then on by its ref and by its commit, as long as its
environment is available, whatever else is requested. An environment that was stopped is found by
no search until it is started again.
-/

namespace DeployRegistry

set_option autoImplicit false

open Form Text

namespace Registry

/-- A deployment was recorded as it was submitted, for the one environment of the project that has
the name: one that was there and was not touched, or a new one that is available. -/
structure Recorded (r : Registry) (now : WallTime) (project : String) (f : NewDeployment)
    (e : Environment) (d : Deployment) (r' : Registry) : Prop where
  environments :
    e ∈ r.store.environments ∧ r'.store.environments = r.store.environments ∨
    (∀ g ∈ r.store.environments, ¬ (g.project = project ∧ g.name = f.environment)) ∧
      e.state = .available ∧ r'.store.environments = r.store.environments ++ [e]
  home : e.project = project
  named : e.name = f.environment
  only : ∀ g ∈ r'.store.environments, g.project = project → g.name = f.environment → g = e
  deployments : r'.store.deployments = r.store.deployments ++ [d]
  fields : d = ⟨d.id, project, e.id, f.ref, f.tag, f.sha, f.status, f.time.elim now (·.wall)⟩

variable {ids : Ids} {user project : String} {r r' : Registry}

theorem Open.shows (h : r.Open user project) : r.store.Shows (some user) project := by
  obtain ⟨⟨p, hp, hid⟩, role, hrole, _⟩ := h
  have hmember : ∃ m ∈ r.store.memberships, m.user = user ∧ m.project = project :=
    (Store.isSome_role?_iff _ _ _).mp (by rw [hrole]; rfl)
  exact ⟨p, hp, hid, Or.inr ⟨user, rfl, hmember⟩⟩

/-- Whoever may write in a project records a deployment in it. -/
theorem recordDeployment_of_open (hs : r.Sound ids) (ho : r.Open user project) (now : WallTime)
    (f : NewDeployment) :
    ∃ e d r', r.recordDeployment ids now user project f = .ok (d, r') ∧
      r.Recorded now project f e d r' := by
  obtain ⟨p, hp, hid⟩ := ho.there
  have hread : r.store.readable (some user) project = .ok p :=
    (hs.constrained.readable_eq_ok_iff_shows _ _ _).mpr ⟨hp, hid, ho.shows⟩
  have hallowed : r.store.allowed (some user) .createDeployment (.project p) = true := by
    subst hid
    exact (mayWrite_iff r user p.id).mp ho.role
  have hok : ∃ d r', r.recordDeployment ids now user project f = .ok (d, r') := by
    rw [recordDeployment_eq, hread]
    simp only [hallowed, if_true]
    exact ⟨_, _, rfl⟩
  obtain ⟨d, r', hrecord⟩ := hok
  obtain ⟨e, r₁, hfor, _, hd, rfl⟩ := recordDeployment_eq_ok hrecord
  refine ⟨e, d, _, hrecord, ?_⟩
  have hsound : (⟨r₁.store.addDeployment d, r₁.issued + 1⟩ : Registry).Sound ids :=
    (recordDeployment_steps hrecord).sound hs
  -- Afterwards no two environments of a project have one name either, since the names stay unique.
  have hone : ∀ g ∈ r₁.store.environments, ∀ g' ∈ r₁.store.environments, g.project = g'.project →
      g.name = g'.name → g = g' := fun g hg g' hg' hproject hname =>
    eq_of_key_eq hsound.constrained.names hg hg' (Prod.ext hproject hname)
  rcases r.environmentFor_cases ids project f.environment with ⟨e', hfound, heq⟩ | ⟨hnew, heq⟩
  · obtain ⟨rfl, rfl⟩ := Prod.mk.inj (heq.symm.trans hfor)
    obtain ⟨he, hproject, hname⟩ := Store.environmentNamed?_eq_some hfound
    exact
      { environments := Or.inl ⟨he, rfl⟩
        home := hproject
        named := hname
        only := fun g hg hgp hgn => hone g hg e' he (hgp.trans hproject.symm) (hgn.trans hname.symm)
        deployments := rfl
        fields := by rw [hd] }
  · obtain ⟨rfl, rfl⟩ := Prod.mk.inj (heq.symm.trans hfor)
    exact
      { environments := Or.inr ⟨(Store.environmentNamed?_eq_none_iff _ _ _).mp hnew, rfl, rfl⟩
        home := rfl
        named := rfl
        only := fun g hg hgp hgn => hone g hg _ (List.mem_append_right _ List.mem_cons_self) hgp hgn
        deployments := rfl
        fields := by rw [hd] }

theorem Recorded.mem {now : WallTime} {f : NewDeployment} {e : Environment} {d : Deployment}
    (h : r.Recorded now project f e d r') : e ∈ r'.store.environments := by
  rcases h.environments with ⟨he, heq⟩ | ⟨_, _, heq⟩
  · rw [heq]
    exact he
  · rw [heq]
    exact List.mem_append_right _ List.mem_cons_self

/-- A wish to bring an environment to a state changes the state of no other one. -/
theorem moveEnvironment_state (hs : r.Sound ids) {id : String} {state : EnvState} {f : Environment}
    (h : r.moveEnvironment user project id state = .ok (f, r')) {g g' : Environment}
    (hg : g ∈ r.store.environments) (hg' : g' ∈ r'.store.environments) (hid : g'.id = g.id)
    (hne : g'.state ≠ g.state) : g.project = project ∧ g.id = id ∧ g'.state = state := by
  obtain ⟨e, he, rfl, rfl, _, ⟨_, _, rfl⟩ | ⟨_, _, rfl⟩⟩ := moveEnvironment_eq_ok h
  · exact absurd (congrArg Environment.state (hs.constrained.eq_of_id_eq hg' hg hid)) hne
  · obtain ⟨x, hx, rfl⟩ := (Store.mem_setState_iff _ _ _ _).mp hg'
    have hxid : x.id = g.id := by
      rw [← hid]
      split <;> rfl
    obtain rfl := hs.constrained.eq_of_id_eq hx hg hxid
    by_cases hmoved : x.id = e.id
    · obtain rfl := hs.constrained.eq_of_id_eq hx he hmoved
      exact ⟨rfl, rfl, by rw [if_pos rfl]⟩
    · rw [if_neg hmoved] at hne
      exact absurd rfl hne

end Registry

namespace Http.Site

variable {σ : Type} {site : Site σ} {sv : Serving σ}

/-- Only what was granted to a stop or start of an environment changes its state. -/
theorem Granted.state_cases {user : String} {c : Content} {w : Writing} {after : Registry}
    (h : site.Granted sv user c w after) (hs : sv.registry.Sound site.ids) {g g' : Environment}
    (hg : g ∈ sv.registry.store.environments) (hg' : g' ∈ after.store.environments)
    (hid : g'.id = g.id) (hne : g'.state ≠ g.state) :
    w = .stop g.project g.id ∧ g'.state = .stopped ∨
      w = .start g.project g.id ∧ g'.state = .available := by
  have hafter : after.Sound site.ids := h.steps.sound hs
  have hkept : g ∈ after.store.environments → False := by
    intro hmem
    exact hne (congrArg Environment.state (hafter.constrained.eq_of_id_eq hg' hmem hid))
  cases h with
  | project f hf => exact absurd hg hkept
  | member p f m r hf h =>
    obtain ⟨_, rfl, _⟩ := Registry.addMember_eq_ok h
    exact absurd hg hkept
  | environment p f e r hf h =>
    obtain ⟨_, rfl, _⟩ := Registry.createEnvironment_eq_ok h
    exact absurd (List.mem_append_left _ hg) hkept
  | stop p id e r h =>
    obtain ⟨rfl, rfl, hstate⟩ := Registry.moveEnvironment_state hs h hg hg' hid hne
    exact Or.inl ⟨rfl, hstate⟩
  | start p id e r h =>
    obtain ⟨rfl, rfl, hstate⟩ := Registry.moveEnvironment_state hs h hg hg' hid hne
    exact Or.inr ⟨rfl, hstate⟩
  | deployment p f d r hf h =>
    obtain ⟨e, r₁, hfor, _, _, rfl⟩ := Registry.recordDeployment_eq_ok h
    refine absurd ?_ hkept
    rcases sv.registry.environmentFor_cases site.ids p f.environment with ⟨e', _, heq⟩ | ⟨_, heq⟩
    · obtain ⟨_, rfl⟩ := Prod.mk.inj (heq.symm.trans hfor)
      exact hg
    · obtain ⟨_, rfl⟩ := Prod.mk.inj (heq.symm.trans hfor)
      exact List.mem_append_left _ hg

/-- A visit that succeeded in stopping an environment, or in starting it. -/
def Moved (site : Site σ) (sv : Serving σ) (v : Visit) (project id : String) (state : EnvState) :
    Prop :=
  (site.serve sv v).1.status = 200 ∧
    (route site.settings.apiRoot v.request.method v.request.path =
        .endpoint (.writing (.stop project id)) ∧ state = .stopped ∨
      route site.settings.apiRoot v.request.method v.request.path =
        .endpoint (.writing (.start project id)) ∧ state = .available)

theorem moved_of_state_ne (hs : sv.registry.Sound site.ids) {v : Visit} {g g' : Environment}
    (hg : g ∈ sv.registry.store.environments)
    (hg' : g' ∈ (site.serve sv v).2.registry.store.environments) (hid : g'.id = g.id)
    (hne : g'.state ≠ g.state) : site.Moved sv v g.project g.id g'.state := by
  rcases site.respond_cases (sv.upon v) v.request with h | ⟨w, user, after, hgrants, h⟩
  · rw [serve, h] at hg'
    exact absurd (congrArg Environment.state (hs.constrained.eq_of_id_eq hg' hg hid)) hne
  · rw [serve, h] at hg'
    obtain ⟨c, _, hgranted⟩ := hgrants.granted
    rcases hgranted.state_cases hs hg hg' hid hne with ⟨rfl, hstate⟩ | ⟨rfl, hstate⟩
    · exact ⟨hgrants.status, Or.inl ⟨hgrants.route, hstate⟩⟩
    · exact ⟨hgrants.status, Or.inr ⟨hgrants.route, hstate⟩⟩

/-- An environment that is not available stays so without a start of it that succeeds. -/
theorem run_unavailable {project id : String} (hs : sv.registry.Sound site.ids)
    (hclosed : ∃ g ∈ sv.registry.store.environments,
      g.id = id ∧ g.project = project ∧ g.state ≠ .available) {vs : List Visit}
    (hvs : ∀ front v back, vs = front ++ v :: back →
      ¬ site.Moved (site.run sv front).2 v project id .available) :
    ∃ g ∈ (site.run sv vs).2.registry.store.environments,
      g.id = id ∧ g.project = project ∧ g.state ≠ .available := by
  induction vs generalizing sv with
  | nil => exact hclosed
  | cons v rest ih =>
    refine ih (serve_sound hs v) ?_ fun front v' back h => hvs (v :: front) v' back (by rw [h]; rfl)
    obtain ⟨g, hg, rfl, rfl, hstate⟩ := hclosed
    obtain ⟨g', hg', hsame⟩ := serve_environment hs hg v
    refine ⟨g', hg', hsame.id, hsame.project, fun havailable => ?_⟩
    -- The visit may have moved the environment, but to become available takes a start.
    have hmoved := moved_of_state_ne hs hg hg' hsame.id (by rw [havailable]; exact hstate.symm)
    exact hvs [] v rest rfl (havailable ▸ hmoved)

/-- A search in a project that names nothing but the ref of a deployment, or nothing but its commit
with letters of either case. -/
structure Seeks (site : Site σ) (project : String) (d : Deployment) (r : Request) : Prop where
  route : route site.settings.apiRoot r.method r.path = .endpoint (.reading (.search project))
  query : r.query = [("ref", d.ref)] ∨ ∃ s, lowerAscii s = d.sha ∧ r.query = [("sha", s)]

theorem Seeks.criteria {project : String} {d : Deployment} {r : Request}
    (h : site.Seeks project d r) {v w : Json} (href : nameBounds.rule v = .valid d.ref)
    (hsha : recordedSha w = .valid d.sha) :
    ∃ c, criteriaQuery r.queryMembers = .valid c ∧ c.Plain ∧ c.matches d = true := by
  rcases h.query with hq | ⟨s, hs, hq⟩
  · refine ⟨⟨some d.ref, none, false, false, false⟩, ?_, ⟨rfl, fun _ _ => rfl⟩, ?_⟩
    · rw [Request.queryMembers, hq]
      exact criteriaQuery_ref (length_of_name href)
    · simp [Criteria.matches]
  · refine ⟨⟨none, some d.sha, false, false, false⟩, ?_, ⟨rfl, fun _ _ => rfl⟩, ?_⟩
    · rw [Request.queryMembers, hq]
      exact criteriaQuery_sha (soughtSha_of_recordedSha hsha hs)
    · simp [Criteria.matches]

/-- What holds of a recorded deployment `d` and its environment `e` in every state from then on. -/
structure Resolves (site : Site σ) (project : String) (e : Environment) (d : Deployment)
    (sv : Serving σ) : Prop where
  /-- The environment is there, under its name. -/
  there : ∃ g ∈ sv.registry.store.environments, g.Same e
  /-- A search for the deployment, by anyone who sees the project, lists the environment once if it
  is available, and does not list it otherwise. -/
  found : ∀ g ∈ sv.registry.store.environments, g.id = e.id → ∀ (v : Visit) (asking : Option User),
    site.Seeks project d v.request → site.caller? (sv.upon v) v.request = .ok asking →
    sv.registry.store.Shows (asking.map (·.id)) project →
      (site.serve sv v).1.status = 200 ∧
        (site.serve sv v).1.listedIds.count e.id = if g.state = .available then 1 else 0
  /-- A request after which the environment is in another state stopped it or started it. -/
  moved : ∀ g ∈ sv.registry.store.environments, g.id = e.id → ∀ v,
    ∀ g' ∈ (site.serve sv v).2.registry.store.environments, g'.id = e.id → g'.state ≠ g.state →
      site.Moved sv v project e.id g'.state
  /-- While it is not available no search lists it, whatever is requested, until it is started. -/
  hidden : ∀ g ∈ sv.registry.store.environments, g.id = e.id → g.state ≠ .available → ∀ vs,
    (∀ front v back, vs = front ++ v :: back →
      ¬ site.Moved (site.run sv front).2 v project e.id .available) →
    ∀ (v : Visit) q, route site.settings.apiRoot v.request.method v.request.path =
        .endpoint (.reading (.search q)) →
      e.id ∉ (site.serve (site.run sv vs).2 v).1.listedIds

/-- A search for a deployment lists its environment once, if that is available. -/
theorem count_listedIds_of_seeks (hs : sv.registry.Sound site.ids) {g : Environment}
    (hg : g ∈ sv.registry.store.environments) {d : Deployment}
    (hd : d ∈ sv.registry.store.deployments) (hid : d.environment = g.id)
    (hproject : d.project = g.project) {r : Request} (hr : site.Seeks g.project d r)
    {v w : Json} (href : nameBounds.rule v = .valid d.ref) (hsha : recordedSha w = .valid d.sha)
    {asking : Option User} (hcaller : site.caller? sv r = .ok asking)
    (hshown : sv.registry.store.Shows (asking.map (·.id)) g.project) :
    (site.respond sv r).1.status = 200 ∧
      (site.respond sv r).1.listedIds.count g.id = if g.state = .available then 1 else 0 := by
  have hkeyed := hs.constrained.toKeyed
  obtain ⟨c, hc, hplain, hmatches⟩ := hr.criteria href hsha
  obtain ⟨hstatus, hids⟩ :=
    listedIds_of_plain site hkeyed hr.route hcaller hshown hplain hc
  refine ⟨hstatus, ?_⟩
  rw [hids, (hkeyed.nodup_candidates g.project c).count]
  have hmem : g.id ∈ (sv.registry.store.candidates g.project c).map (·.id) ↔
      g.state = .available := by
    rw [List.mem_map]
    constructor
    · rintro ⟨x, hx, hxg⟩
      rw [Store.mem_candidates_iff] at hx
      obtain rfl := hkeyed.eq_of_id_eq hx.1 hg hxg
      exact hx.2.2.1
    · intro hstate
      refine ⟨g, (Store.mem_candidates_iff _ _ _ _).mpr ⟨hg, rfl, hstate, d, hd, ?_⟩, rfl⟩
      exact ⟨hproject, hid, hmatches⟩
  simp only [hmem]

theorem resolves_of_mem (hs : sv.registry.Sound site.ids) {e : Environment} {d : Deployment}
    (he : ∃ g ∈ sv.registry.store.environments, g.Same e) (hd : d ∈ sv.registry.store.deployments)
    (hid : d.environment = e.id) (hproject : d.project = e.project) {v w : Json}
    (href : nameBounds.rule v = .valid d.ref) (hsha : recordedSha w = .valid d.sha) :
    site.Resolves e.project e d sv := by
  have hthe : ∀ g ∈ sv.registry.store.environments, g.id = e.id → g.Same e := by
    intro g hg hgid
    obtain ⟨x, hx, hsame⟩ := he
    obtain rfl := hs.constrained.eq_of_id_eq hg hx (hgid.trans hsame.id.symm)
    exact hsame
  refine ⟨he, ?_, ?_, ?_⟩
  · intro g hg hgid v asking hseeks hcaller hshown
    have hsame := hthe g hg hgid
    rw [← hsame.project] at hseeks hshown
    rw [← hgid]
    have hupon : (sv.upon v).registry.Sound site.ids := hs
    exact count_listedIds_of_seeks hupon hg hd (hid.trans hgid.symm)
      (hproject.trans hsame.project.symm) hseeks href hsha hcaller hshown
  · intro g hg hgid v g' hg' hgid' hne
    have hsame := hthe g hg hgid
    rw [← hsame.project, ← hgid]
    exact moved_of_state_ne hs hg hg' (hgid'.trans hgid.symm) hne
  · intro g hg hgid hstate vs hvs v q hroute hlisted
    have hsame := hthe g hg hgid
    obtain ⟨x, hx, hxid, _, hxstate⟩ :=
      run_unavailable hs ⟨g, hg, hgid, hsame.project, hstate⟩ hvs
    obtain ⟨y, hy, hyid, _, hystate⟩ := available_of_listed site hroute hlisted
    have hunique := (run_sound hs vs).constrained.eq_of_id_eq hx hy (hxid.trans hyid.symm)
    exact hxstate (hunique ▸ hystate)

/-- A developer or owner who submits a deployment that passes records it, for the environment of
that name; and in every state after any further requests it is found as long as that environment is
available, whose state nothing but a stop or a start changes. -/
theorem recorded_then_resolved (hids : Function.Injective site.ids) (hsv : site.Reachable sv)
    {v : Visit} {project : String} {user : User} {c : Content} {f : NewDeployment}
    (hroute : route site.settings.apiRoot v.request.method v.request.path =
      .endpoint (.writing (.deployment project)))
    (hcaller : site.caller? (sv.upon v) v.request = .ok (some user))
    (hrole : sv.registry.Open user.id project) (hcontent : content v.request = .ok c)
    (hvalid : c.submission newDeployment = .valid f) :
    ∃ e d, (site.serve sv v).1.status = 201 ∧
      (site.serve sv v).1.payload = .structured (Shape.deployment site.clock d) ∧
      sv.registry.Recorded v.now project f e d (site.serve sv v).2.registry ∧
      ∀ vs, site.Resolves project e d (site.run (site.serve sv v).2 vs).2 := by
  have hs := hsv.sound hids
  obtain ⟨e, d, after, hrecord, hrecorded⟩ :=
    Registry.recordDeployment_of_open hs hrole v.now f
  have hperform : site.perform (sv.upon v) v.request (.writing (.deployment project)) =
      (.ok (201, Shape.deployment site.clock d), { sv.upon v with registry := after }) := by
    have hwish : (sv.upon v).registry.recordDeployment site.ids (sv.upon v).now user.id project f =
        .ok (d, after) := hrecord
    simp only [perform, Writing.takesContent, if_true, hcontent, hcaller, write, hvalid,
      Serving.checked, hwish, Serving.change]
  have hserve : site.serve sv v =
      (site.sent v.request (Response.structured 201 (Shape.deployment site.clock d)),
        { sv.upon v with registry := after }) := respond_of_ok hroute hperform
  have hhead := (plain_of_route hroute).2
  refine ⟨e, d, ?_, ?_, ?_, fun vs => ?_⟩
  · rw [hserve]
    simp [sent, hhead, Response.structured]
  · rw [hserve]
    simp [sent, hhead, Response.structured]
  · rw [hserve]
    exact hrecorded
  · obtain ⟨ms, _, hfields⟩ := submission_eq_valid hvalid
    obtain ⟨⟨x, href⟩, y, hsha⟩ := newDeployment_fields hfields
    have hd : d ∈ after.store.deployments := by
      rw [hrecorded.deployments]
      exact List.mem_append_right _ List.mem_cons_self
    -- No step takes an environment away or drops a deployment, which carries both over every run.
    have hserved := serve_sound hs v
    obtain ⟨hthere, hmem⟩ :
        (∃ g ∈ (site.run (site.serve sv v).2 vs).2.registry.store.environments, g.Same e) ∧
          d ∈ (site.run (site.serve sv v).2 vs).2.registry.store.deployments := by
      refine run_keeps (P := fun r => (∃ g ∈ r.store.environments, g.Same e) ∧
        d ∈ r.store.deployments) ?_ hserved ?_ vs
      · rintro user r r' _ ⟨⟨g, hg, hge⟩, hmem⟩ hstep
        obtain ⟨g', hg', hgg⟩ := hstep.exists_environment hg
        exact ⟨⟨g', hg', hgg.trans hge⟩, hstep.mem_deployments hmem⟩
      · rw [hserve]
        exact ⟨⟨e, hrecorded.mem, .refl e⟩, hd⟩
    have hfor : d.environment = e.id ∧ d.project = e.project ∧ d.ref = f.ref ∧ d.sha = f.sha := by
      rw [hrecorded.fields, hrecorded.home]
      exact ⟨rfl, rfl, rfl, rfl⟩
    rw [← hrecorded.home]
    have hsound := run_sound hserved vs
    refine resolves_of_mem hsound hthere hmem hfor.1 hfor.2.1 ?_ ?_ (v := x) (w := y)
    · rw [hfor.2.2.1]
      exact href
    · rw [hfor.2.2.2]
      exact hsha

/-- Ana makes a project and then records a deployment in it. -/
def deploymentVisit : Visit :=
  anaVisit "/api/v1/projects/x/deployments"
    "\x7b\"environment\":\"test\",\"ref\":\"main\",\"sha\":\"ABCDEF0\"\x7d"

theorem recorded_then_resolved_harbour :
    ∃ e d, (plainSite.serve (plainSite.run anaServing [projectVisit]).2 deploymentVisit).1.status =
        201 ∧
      (plainSite.serve (plainSite.run anaServing [projectVisit]).2 deploymentVisit).1.payload =
        .structured (Shape.deployment plainSite.clock d) ∧
      (plainSite.run anaServing [projectVisit]).2.registry.Recorded deploymentVisit.now "x"
        ⟨"test", "main", false, "abcdef0", .success, none⟩ e d
        (plainSite.serve (plainSite.run anaServing [projectVisit]).2 deploymentVisit).2.registry ∧
      ∀ vs, plainSite.Resolves "x" e d (plainSite.run
        (plainSite.serve (plainSite.run anaServing [projectVisit]).2 deploymentVisit).2 vs).2 := by
  have hregistry := registry_projectVisit
  have hreach : plainSite.Reachable (plainSite.run anaServing [projectVisit]).2 :=
    ⟨anaServing, [ana], [projectVisit], by decide, rfl, rfl⟩
  have hroute : route plainSite.settings.apiRoot deploymentVisit.request.method
      deploymentVisit.request.path = .endpoint (.writing (.deployment "x")) := by
    decide +kernel
  have hcaller := caller?_anaVisit (plainSite.run anaServing [projectVisit]).2
    (by rw [hregistry]) "/api/v1/projects/x/deployments"
    "\x7b\"environment\":\"test\",\"ref\":\"main\",\"sha\":\"ABCDEF0\"\x7d"
  have hrole : (plainSite.run anaServing [projectVisit]).2.registry.Open ana.id "x" := by
    rw [hregistry]
    exact ⟨⟨_, List.mem_cons_self, rfl⟩, .owner, by decide, rfl⟩
  obtain ⟨c, hcontent, hvalid⟩ := exists_content_of_submitted? (r := deploymentVisit.request)
    (m := newDeployment) (a := ⟨"test", "main", false, "abcdef0", .success, none⟩)
    (by decide +kernel)
  exact recorded_then_resolved plainIds_injective hreach hroute hcaller hrole hcontent hvalid

end Http.Site

end DeployRegistry
