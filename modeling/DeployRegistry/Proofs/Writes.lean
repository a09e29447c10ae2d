import DeployRegistry.Proofs.Submissions
import DeployRegistry.Proofs.Visits

/-!
# What a request writes

A request that is granted writes a few records, one after the other; any other request writes
nothing. The main statement says for each request which records these are, and that the registry is
otherwise left as it was.
-/

namespace DeployRegistry

set_option autoImplicit false

open Form

namespace Http

/-- The environment that a stop or a start is about, with its project and the state that it is
brought to. -/
def Writing.target? : Writing → Option (String × String × EnvState)
  | .stop p id => some (p, id, .stopped)
  | .start p id => some (p, id, .available)
  | _ => none

end Http

namespace Registry

/-- What a user writes with a request that was granted, and what was found in the registry before.
A deployment keeps the wall-clock time that was submitted, or the present one. -/
inductive Writes (r : Registry) (ids : Ids) (now : WallTime) (user : String) (c : Http.Content) :
    Http.Writing → List Write → Prop
  | project {ms : Json.Members} {f : NewProject} (hc : c = .structured (.obj ms))
      (hf : f.Submitted ms) :
      Writes r ids now user c .project
        [.project ⟨ids r.issued, f.name, f.repository, f.visibility, false⟩,
          .membership ⟨ids (r.issued + 1), user, ids r.issued, .owner⟩]
  | member {ms : Json.Members} {f : NewMember} {project : String} (hc : c = .structured (.obj ms))
      (hf : f.Submitted ms) (hproject : ∃ p ∈ r.store.projects, p.id = project)
      (hinvited : ∃ u ∈ r.store.users, u.id = f.user)
      (howner : r.store.role? user project = some .owner)
      (hnew : r.store.membership? f.user project = none) :
      Writes r ids now user c (.member project)
        [.membership ⟨ids r.issued, f.user, project, f.role⟩]
  | environment {ms : Json.Members} {f : NewEnvironment} {project : String}
      (hc : c = .structured (.obj ms)) (hf : f.Submitted ms) (hopen : r.Open user project)
      (hnew : r.store.environmentNamed? project f.name = none) :
      Writes r ids now user c (.environment project)
        [.environment ⟨ids r.issued, project, f.name, .available, false⟩]
  | deployment {ms : Json.Members} {f : NewDeployment} {project : String} {e : Environment}
      (hc : c = .structured (.obj ms)) (hf : f.Submitted ms) (hopen : r.Open user project)
      (he : e ∈ r.store.environments) (hproject : e.project = project)
      (hname : e.name = f.environment) :
      Writes r ids now user c (.deployment project)
        [.deployment ⟨ids r.issued, project, e.id, f.ref, f.tag, f.sha, f.status,
          f.time.elim now (·.wall)⟩]
  | firstDeployment {ms : Json.Members} {f : NewDeployment} {project : String}
      (hc : c = .structured (.obj ms)) (hf : f.Submitted ms) (hopen : r.Open user project)
      (hnew : r.store.environmentNamed? project f.environment = none) :
      Writes r ids now user c (.deployment project)
        [.environment ⟨ids r.issued, project, f.environment, .available, false⟩,
          .deployment ⟨ids (r.issued + 1), project, ids r.issued, f.ref, f.tag, f.sha, f.status,
            f.time.elim now (·.wall)⟩]
  | still {w : Http.Writing} {project : String} {state : EnvState} {e : Environment}
      (hw : w.target? = some (project, e.id, state)) (hopen : r.Open user project)
      (he : e ∈ r.store.environments) (hproject : e.project = project) (hstate : e.state = state) :
      Writes r ids now user c w []
  | moved {w : Http.Writing} {project : String} {state : EnvState} {e : Environment}
      (hw : w.target? = some (project, e.id, state)) (hopen : r.Open user project)
      (he : e ∈ r.store.environments) (hproject : e.project = project) (hne : e.state ≠ state) :
      Writes r ids now user c w [.state e.id state]

variable {r r' : Registry} {ids : Ids} {now : WallTime} {user project : String} {c : Http.Content}

theorem writes_of_moveEnvironment {w : Http.Writing} {id : String} {state : EnvState}
    {f : Environment} (hw : w.target? = some (project, id, state))
    (h : r.moveEnvironment user project id state = .ok (f, r')) :
    ∃ ws, r.Writes ids now user c w ws ∧ r' = r.writeAll ws := by
  obtain ⟨e, he, rfl, hproject, hopen, ⟨hstate, _, rfl⟩ | ⟨hne, _, rfl⟩⟩ := moveEnvironment_eq_ok h
  · exact ⟨[], .still hw hopen he hproject hstate, rfl⟩
  · exact ⟨[.state e.id state], .moved hw hopen he hproject hne, rfl⟩

theorem writes_of_recordDeployment {f : NewDeployment} {ms : Json.Members} {d : Deployment}
    (hc : c = .structured (.obj ms)) (hf : f.Submitted ms)
    (h : r.recordDeployment ids now user project f = .ok (d, r')) :
    ∃ ws, r.Writes ids now user c (.deployment project) ws ∧ r' = r.writeAll ws := by
  obtain ⟨e, r₁, hfor, hopen, rfl, rfl⟩ := recordDeployment_eq_ok h
  rcases r.environmentFor_cases ids project f.environment with ⟨e', hfound, heq⟩ | ⟨hnew, heq⟩
  · obtain ⟨rfl, rfl⟩ := Prod.mk.inj (heq.symm.trans hfor)
    obtain ⟨he, hproject, hname⟩ := Store.environmentNamed?_eq_some hfound
    exact ⟨_, .deployment hc hf hopen he hproject hname, rfl⟩
  · obtain ⟨rfl, rfl⟩ := Prod.mk.inj (heq.symm.trans hfor)
    exact ⟨_, .firstDeployment hc hf hopen hnew, rfl⟩

/-- Where ids are unique, a state that is written is that of one environment. -/
theorem write_state_eq (hids : (r.store.environments.map (·.id)).Nodup) {e : Environment}
    (he : e ∈ r.store.environments) (state : EnvState) :
    ∃ front back, r.store.environments = front ++ e :: back ∧
      r.write (.state e.id state) = { r with store := { r.store with environments :=
        front ++ { e with state := state, changed := e.changed || e.state != state } :: back } } := by
  obtain ⟨front, back, heq⟩ := List.append_of_mem he
  refine ⟨front, back, heq, ?_⟩
  have hothers : ∀ f ∈ front ++ back, f.id ≠ e.id := by
    intro f hf hid
    rw [heq, List.map_append, List.map_cons, List.nodup_middle, List.nodup_cons] at hids
    apply hids.1
    rw [← hid, ← List.map_append]
    exact List.mem_map_of_mem hf
  have hkept : ∀ fs : List Environment, (∀ f ∈ fs, f.id ≠ e.id) → (fs.map fun f =>
      if f.id = e.id then { f with state := state, changed := f.changed || f.state != state }
      else f) = fs := by
    intro fs hfs
    conv_rhs => rw [← List.map_id fs]
    apply List.map_congr_left
    intro f hf
    rw [if_neg (hfs f hf), id]
  have hfront := hkept front fun f hf => hothers f (List.mem_append_left _ hf)
  have hback := hkept back fun f hf => hothers f (List.mem_append_right _ hf)
  simp only [write, Store.setState, heq, List.map_append, List.map_cons, hfront, hback, if_true]

/-- A stop or a start finds its environment, and brings it to the state that it is for. -/
theorem Writes.target {w : Http.Writing} {ws : List Write} (h : r.Writes ids now user c w ws)
    {id : String} {state : EnvState} (hw : w.target? = some (project, id, state))
    (hids : (r.store.environments.map (·.id)).Nodup) :
    ∃ front e back, r.store.environments = front ++ e :: back ∧ e.id = id ∧ e.project = project ∧
      r.writeAll ws = { r with store := { r.store with environments :=
        front ++ { e with state := state, changed := e.changed || e.state != state } :: back } } := by
  cases h with
  | project hc hf => cases hw
  | member hc hf hproject hinvited howner hnew => cases hw
  | environment hc hf hopen hnew => cases hw
  | deployment hc hf hopen he hproject hname => cases hw
  | firstDeployment hc hf hopen hnew => cases hw
  | @still _ _ _ e hw' hopen he hproject hstate =>
    cases hw'.symm.trans hw
    obtain ⟨front, back, heq⟩ := List.append_of_mem he
    refine ⟨front, e, back, heq, rfl, hproject, ?_⟩
    have hsame : { e with state := state, changed := e.changed || e.state != state } = e := by
      simp [← hstate]
    rw [hsame, ← heq]
    rfl
  | @moved _ _ _ e hw' hopen he hproject hne =>
    cases hw'.symm.trans hw
    obtain ⟨front, back, heq, hwrite⟩ := write_state_eq hids he state
    exact ⟨front, e, back, heq, rfl, hproject, hwrite⟩

end Registry

namespace Http

variable {σ : Type} {site : Site σ} {sv : Serving σ}

theorem Problem.le_status {problem : Problem} {answer : Response}
    (h : problem.response? = some answer) : 400 ≤ answer.status := by
  have hchallenged : ∀ status detail scheme,
      (challenged status detail scheme).status = status := by
    intro status detail scheme
    cases scheme <;> rfl
  cases problem with
  | denied d =>
    cases h
    change 400 ≤ d.status
    cases d <;> simp [Denial.status]
  | refused refusal =>
    obtain ⟨detail, _, rfl⟩ := Option.map_eq_some_iff.mp h
    rw [hchallenged]
    decide
  | anonymous =>
    cases h
    decide
  | invalid issues =>
    simp only [response?] at h
    split at h
    · cases h
      change 400 ≤ 422
      omega
    · cases h
  | unreadableBody =>
    cases h
    decide
  | hostDown =>
    cases h
    decide
  | breakdown => cases h

namespace Site

theorem Granted.writes {user : String} {c : Content} {w : Writing} {after : Registry}
    (h : site.Granted sv user c w after) :
    ∃ ws, sv.registry.Writes site.ids sv.now user c w ws ∧ after = sv.registry.writeAll ws := by
  cases h with
  | project f hf =>
    obtain ⟨ms, hc, hfields⟩ := submission_eq_valid hf
    exact ⟨_, .project hc (newProject_submitted hfields), rfl⟩
  | member p f m r hf h =>
    obtain ⟨ms, hc, hfields⟩ := submission_eq_valid hf
    obtain ⟨rfl, rfl, hproject, hinvited, howner, hnew⟩ := Registry.addMember_eq_ok h
    exact ⟨_, .member hc (newMember_submitted hfields) hproject hinvited howner hnew, rfl⟩
  | environment p f e r hf h =>
    obtain ⟨ms, hc, hfields⟩ := submission_eq_valid hf
    obtain ⟨rfl, rfl, hopen, hnew⟩ := Registry.createEnvironment_eq_ok h
    exact ⟨_, .environment hc (newEnvironment_submitted hfields) hopen hnew, rfl⟩
  | stop p id e r h => exact Registry.writes_of_moveEnvironment rfl h
  | start p id e r h => exact Registry.writes_of_moveEnvironment rfl h
  | deployment p f d r hf h =>
    obtain ⟨ms, hc, hfields⟩ := submission_eq_valid hf
    exact Registry.writes_of_recordDeployment hc (newDeployment_submitted hfields) h

/-- A request that writes: where it is routed to, whose credentials it has, what it submits, what it
writes, and what the tables hold afterwards. -/
structure Wrote (site : Site σ) (sv : Serving σ) (r : Request) (w : Writing) (user : User)
    (c : Content) (ws : List Write) : Prop where
  route : route site.settings.apiRoot r.method r.path = .endpoint (.writing w)
  caller : site.caller? sv r = .ok (some user)
  content : (if w.takesContent then Http.content r else .ok .absent) = .ok c
  writes : sv.registry.Writes site.ids sv.now user.id c w ws
  status : (site.respond sv r).1.status = grantedStatus w
  after : (site.respond sv r).2.registry = sv.registry.writeAll ws
  tables : sv.registry.Grown (site.respond sv r).2.registry ws

theorem le_status_of_error {r : Request} {e : Endpoint}
    (hroute : route site.settings.apiRoot r.method r.path = .endpoint e) {problem : Problem}
    {after : Serving σ} (h : site.perform sv r e = (.error problem, after)) :
    400 ≤ (site.respond sv r).1.status := by
  rw [respond_of_error hroute h]
  cases hp : problem.response? with
  | none =>
    change 400 ≤ Response.broken.status
    decide
  | some answer =>
    have hle := Problem.le_status hp
    rw [Option.map_some, Option.getD_some, sent, if_neg (plain_of_route hroute).2, status_mark]
    exact hle

theorem grantedStatus_lt (w : Writing) : grantedStatus w < 400 := by
  cases w <;> simp [grantedStatus]

theorem perform_writing {r : Request} {user : User} {w : Writing} {c : Content}
    (hc : (if w.takesContent then content r else .ok .absent) = .ok c)
    (hcaller : site.caller? sv r = .ok (some user)) :
    site.perform sv r (.writing w) = site.write sv user.id c w := by
  rw [perform, hc, hcaller]

/-- A wish that is granted is answered with what came of it. -/
theorem respond_of_granted {α : Type} {r : Request} {w : Writing} {n : Nat}
    {shape : Store → α → Json}
    (hroute : route site.settings.apiRoot r.method r.path = .endpoint (.writing w))
    {a : α} {after : Registry}
    (hp : site.perform sv r (.writing w) = sv.change n shape (.ok (a, after))) :
    (site.respond sv r).1.status = n ∧
      (site.respond sv r).1.payload = .structured (shape after.store a) ∧
      (site.respond sv r).2.registry = after := by
  rw [respond_of_ok hroute hp, sent, if_neg (plain_of_route hroute).2, status_mark, payload_mark]
  exact ⟨rfl, rfl, rfl⟩

/-- A request to an endpoint that writes is answered with a problem, or breaks down, and leaves the
registry as it is; or it is granted. -/
theorem respond_writing_cases (site : Site σ) (sv : Serving σ) {r : Request} {w : Writing}
    (hroute : route site.settings.apiRoot r.method r.path = .endpoint (.writing w)) :
    (400 ≤ (site.respond sv r).1.status ∧ (site.respond sv r).2.registry = sv.registry) ∨
      ∃ user c ws, site.Wrote sv r w user c ws := by
  rcases site.perform_writing_cases sv r w with ⟨problem, h⟩ | ⟨c, user, v, after, hc, hu, hg, h⟩
  · left
    refine ⟨le_status_of_error hroute h, ?_⟩
    rw [respond_of_error hroute h]
  · right
    obtain ⟨ws, hwrites, rfl⟩ := hg.writes
    have hafter : (site.respond sv r).2.registry = sv.registry.writeAll ws := by
      rw [respond_of_ok hroute h]
    refine ⟨user, c, ws, hroute, hu, hc, hwrites, ?_, hafter, ?_⟩
    · rw [respond_of_ok hroute h, sent, if_neg (plain_of_route hroute).2, status_mark]
      rfl
    · rw [hafter]
      exact sv.registry.grown_writeAll ws

theorem registry_of_not_writing {r : Request}
    (h : ∀ w, route site.settings.apiRoot r.method r.path ≠ .endpoint (.writing w)) :
    (site.respond sv r).2.registry = sv.registry := by
  rcases site.respond_cases sv r with hsame | ⟨w, user, after, hgrants, _⟩
  · exact hsame
  · exact absurd hgrants.route (h w)

/-- A request leaves the registry as it is, or writes its records. -/
theorem respond_wrote_cases (site : Site σ) (sv : Serving σ) (r : Request) :
    (site.respond sv r).2.registry = sv.registry ∨ ∃ w user c ws, site.Wrote sv r w user c ws := by
  by_cases hw : ∃ w, route site.settings.apiRoot r.method r.path = .endpoint (.writing w)
  · obtain ⟨w, hroute⟩ := hw
    rcases respond_writing_cases site sv hroute with ⟨_, hsame⟩ | hwrote
    · exact Or.inl hsame
    · exact Or.inr ⟨w, hwrote⟩
  · exact Or.inl (registry_of_not_writing fun w hroute => hw ⟨w, hroute⟩)

/-- What a request does to the registry. One that only reads, or that is answered with a problem or
breaks down, leaves it exactly as it was, and takes no id. So does one that is not for an endpoint
that writes. Any other request writes its few records, and nothing else changes: of a stop or a
start, that is the state of the one environment that it names. -/
theorem respond_effect (site : Site σ) (sv : Serving σ) (r : Request) :
    (r.method = "GET" ∨ 400 ≤ (site.respond sv r).1.status →
      (site.respond sv r).2.registry = sv.registry) ∧
    ((∀ w, route site.settings.apiRoot r.method r.path ≠ .endpoint (.writing w)) →
      (site.respond sv r).2.registry = sv.registry) ∧
    (∀ w, route site.settings.apiRoot r.method r.path = .endpoint (.writing w) →
      (site.respond sv r).1.status < 400 →
        (∃ user c ws, site.Wrote sv r w user c ws) ∧
        ∀ project id state, w.target? = some (project, id, state) →
          (sv.registry.store.environments.map (·.id)).Nodup →
            ∃ front e back, sv.registry.store.environments = front ++ e :: back ∧
              e.id = id ∧ e.project = project ∧
              (site.respond sv r).2.registry =
                { sv.registry with store := { sv.registry.store with environments :=
                  front ++ { e with state := state, changed := e.changed || e.state != state } ::
                    back } }) := by
  refine ⟨?_, registry_of_not_writing, ?_⟩
  · intro h
    rcases site.respond_wrote_cases sv r with hsame | ⟨w, user, c, ws, hwrote⟩
    · exact hsame
    · -- A request that was granted is a `POST`, and its answer has a number below 400.
      have hmethod : r.method = "POST" := method_of_route hwrote.route
      have hstatus := hwrote.status ▸ grantedStatus_lt w
      rcases h with hget | hle
      · rw [hmethod] at hget
        exact absurd hget (by decide)
      · omega
  · intro w hroute hlt
    rcases respond_writing_cases site sv hroute with ⟨hle, _⟩ | hwrote
    · omega
    · refine ⟨hwrote, ?_⟩
      intro project id state hw hids
      obtain ⟨user, c, ws, hwrote⟩ := hwrote
      rw [hwrote.after]
      exact hwrote.writes.target hw hids

/-- The project that Ana makes is the one row of its table, and she is its owner; no other table has
a new row. -/
theorem respond_effect_harbour :
    ∃ user c ws, plainSite.Wrote (anaServing.upon projectVisit) projectVisit.request .project user c
        ws ∧
      ws.flatMap Write.projects = [⟨"x", "Harbour", none, .members, false⟩] ∧
      ws.flatMap Write.memberships = [⟨"xx", "ana", "x", .owner⟩] ∧
      ws.flatMap Write.environments = [] ∧ ws.flatMap Write.deployments = [] := by
  have hroute : route plainSite.settings.apiRoot projectVisit.request.method
      projectVisit.request.path = .endpoint (.writing .project) := by
    decide +kernel
  have hafter := registry_projectVisit
  rw [after_run_one] at hafter
  obtain ⟨heffect, _, hwrites⟩ :=
    respond_effect plainSite (anaServing.upon projectVisit) projectVisit.request
  have hgranted : (plainSite.respond (anaServing.upon projectVisit)
      projectVisit.request).1.status < 400 := by
    by_contra hle
    have hsame := heffect (Or.inr (Nat.le_of_not_lt hle))
    rw [hafter] at hsame
    cases congrArg Registry.issued hsame
  obtain ⟨⟨user, c, ws, hwrote⟩, _⟩ := hwrites .project hroute hgranted
  have htables : Registry.Grown ⟨⟨[ana], [], [], [], []⟩, 0⟩ _ ws := hwrote.tables
  rw [hafter] at htables
  refine ⟨user, c, ws, hwrote, htables.projects.symm, htables.memberships.symm, ?_,
    htables.deployments.symm⟩
  cases hwrote.writes with
  | project hc hf => rfl
  | still hw hopen he hproject hstate => cases hw
  | moved hw hopen he hproject hne => cases hw

end Site

end Http

end DeployRegistry
