import DeployRegistry.Http.Server
import DeployRegistry.Proofs.Granting

/-!
# Visits

Requests come one after the other, each at its own time. A request leaves the records as they were,
or it is a writing request of a user that was granted (`respond_cases`). So everything that each
step of a user keeps holds after every run of requests.
-/

namespace DeployRegistry.Http

set_option autoImplicit false

open Form Number

/-- The method of the requests that an endpoint answers. -/
def Endpoint.method : Endpoint → String
  | .health => "GET"
  | .reading _ => "GET"
  | .writing _ => "POST"

theorem method_of_mem_matching {segments : List String} {c : String × Endpoint}
    (h : c ∈ matching segments) : c.1 = c.2.method := by
  unfold matching at h
  dsimp only at h
  split at h <;> simp only [List.mem_cons, List.not_mem_nil, or_false] at h
  case h_4 => rcases h with rfl | rfl <;> rfl
  case h_8 => rcases h with rfl | rfl <;> rfl
  case h_5 =>
    obtain rfl := h
    split <;> rfl
  all_goals
    obtain rfl := h
    rfl

theorem method_of_mem_candidates {root path : String} {c : String × Endpoint}
    (h : c ∈ candidates root path) : c.1 = c.2.method := by
  rw [candidates, List.mem_append] at h
  rcases h with h | h
  · cases hs : segments? root path with
    | none => simp [hs] at h
    | some segments =>
      rw [hs] at h
      exact method_of_mem_matching h
  · split at h
    · obtain rfl := List.mem_singleton.mp h
      rfl
    · cases h

theorem method_of_route {root method path : String} {e : Endpoint}
    (h : route root method path = .endpoint e) : method = e.method := by
  unfold route at h
  dsimp only at h
  split at h
  · next c hc =>
    cases h
    have hmethod : c.1 = method := by simpa using List.find?_some hc
    exact hmethod ▸ method_of_mem_candidates (List.mem_of_find?_eq_some hc)
  · cases h
  · split at h <;> cases h

/-- What is routed to an endpoint is neither a question beforehand nor one for the head alone. -/
theorem plain_of_route {root : String} {r : Request} {e : Endpoint}
    (h : route root r.method r.path = .endpoint e) :
    Origin.Question.ofRequest? r = none ∧ r.method ≠ "HEAD" := by
  have hmethod : r.method = "GET" ∨ r.method = "POST" := by
    rw [method_of_route h]
    cases e with
    | health => exact Or.inl rfl
    | reading e => exact Or.inl rfl
    | writing w => exact Or.inr rfl
  have hoptions : r.method ≠ "OPTIONS" := by
    rcases hmethod with h | h <;> rw [h] <;> decide
  constructor
  · unfold Origin.Question.ofRequest?
    simp [if_neg hoptions]
  · rcases hmethod with h | h <;> rw [h] <;> decide

/-- A request, with the time and the tick at which it comes. -/
structure Visit where
  request : Request
  now : WallTime
  ticks : Binary64

variable {σ : Type}

def Serving.upon (sv : Serving σ) (v : Visit) : Serving σ :=
  { sv with now := v.now, ticks := v.ticks }

namespace Site

variable (site : Site σ)

def serve (sv : Serving σ) (v : Visit) : Response × Serving σ := site.respond (sv.upon v) v.request

/-- The answers to requests that come one after the other, and the state afterwards. -/
def run : Serving σ → List Visit → List Response × Serving σ
  | sv, [] => ([], sv)
  | sv, v :: rest =>
    let (answer, sv) := site.serve sv v
    let (answers, sv) := run sv rest
    (answer :: answers, sv)

/-- The state after a run that starts with users and no other records. -/
def Reachable (sv : Serving σ) : Prop :=
  ∃ (start : Serving σ) (users : List User) (vs : List Visit),
    (users.map (·.id)).Nodup ∧ start.registry.store = { Store.empty with users := users } ∧
      sv = (site.run start vs).2

/-- What was granted to a user who wished to change something, and the registry that it left. -/
inductive Granted (sv : Serving σ) (user : String) (c : Content) : Writing → Registry → Prop
  | project (f : NewProject) (hf : c.submission newProject = .valid f) :
      Granted sv user c .project (sv.registry.createProject site.ids user f).2
  | member (p : String) (f : NewMember) (m : Membership) (r : Registry)
      (hf : c.submission newMember = .valid f)
      (h : sv.registry.addMember site.ids user p f = .ok (m, r)) : Granted sv user c (.member p) r
  | environment (p : String) (f : NewEnvironment) (e : Environment) (r : Registry)
      (hf : c.submission newEnvironment = .valid f)
      (h : sv.registry.createEnvironment site.ids user p f = .ok (e, r)) :
      Granted sv user c (.environment p) r
  | stop (p id : String) (e : Environment) (r : Registry)
      (h : sv.registry.moveEnvironment user p id .stopped = .ok (e, r)) :
      Granted sv user c (.stop p id) r
  | start (p id : String) (e : Environment) (r : Registry)
      (h : sv.registry.moveEnvironment user p id .available = .ok (e, r)) :
      Granted sv user c (.start p id) r
  | deployment (p : String) (f : NewDeployment) (d : Deployment) (r : Registry)
      (hf : c.submission newDeployment = .valid f)
      (h : sv.registry.recordDeployment site.ids sv.now user p f = .ok (d, r)) :
      Granted sv user c (.deployment p) r

/-- The number of the answer to a wish that was granted. -/
def grantedStatus : Writing → Nat
  | .stop _ _ => 200
  | .start _ _ => 200
  | _ => 201

/-- A request that was granted: the endpoint it is for, the user whose credentials it has, and what
it left. -/
structure Grants (sv : Serving σ) (r : Request) (w : Writing) (user : User) (after : Registry) :
    Prop where
  route : route site.settings.apiRoot r.method r.path = .endpoint (.writing w)
  caller : site.caller? sv r = .ok (some user)
  granted : ∃ c, (if w.takesContent then content r else .ok .absent) = .ok c ∧
    site.Granted sv user.id c w after
  status : (site.respond sv r).1.status = grantedStatus w

section

variable {site} {sv : Serving σ}

theorem Granted.steps {user : String} {c : Content} {w : Writing} {after : Registry}
    (h : site.Granted sv user c w after) : sv.registry.Steps site.ids user after := by
  cases h with
  | project f hf => exact Registry.createProject_steps _ _ _ f
  | member p f m r hf h => exact Registry.addMember_steps h
  | environment p f e r hf h => exact Registry.createEnvironment_steps h
  | stop p id e r h => exact Registry.moveEnvironment_steps h
  | start p id e r h => exact Registry.moveEnvironment_steps h
  | deployment p f d r hf h => exact Registry.recordDeployment_steps h

/-- Whose credentials a request has depends on the users and the time alone. -/
theorem caller?_congr (site : Site σ) {sv sv' : Serving σ}
    (husers : sv.registry.store.users = sv'.registry.store.users) (hnow : sv.now = sv'.now)
    (r : Request) : site.caller? sv r = site.caller? sv' r := by
  have hholder : ∀ token, Token.holder site.signer sv'.now sv.registry.store token =
      Token.holder site.signer sv'.now sv'.registry.store token := by
    intro token
    simp only [Token.holder, Store.user?, husers]
  unfold caller? Token.holder?
  rw [hnow]
  cases bearer? r with
  | none => rfl
  | some token =>
    dsimp only
    rw [hholder]

/-! What a request can do to the records. -/

theorem change_cases {α : Type} (sv : Serving σ) (status : Nat) (shape : Store → α → Json)
    (wish : Except Denial (α × Registry)) :
    (∃ problem, sv.change status shape wish = (.error problem, sv)) ∨
      ∃ a r, wish = .ok (a, r) ∧ sv.change status shape wish =
        (.ok (status, shape r.store a), { sv with registry := r }) := by
  cases wish with
  | error d => exact Or.inl ⟨.denied d, rfl⟩
  | ok result => exact Or.inr ⟨result.1, result.2, rfl, rfl⟩

theorem checked_cases {α : Type} (sv : Serving σ) (x : Checked α)
    (next : α → Outcome × Serving σ) :
    (∃ problem, sv.checked x next = (.error problem, sv)) ∨
      ∃ a, x = .valid a ∧ sv.checked x next = next a := by
  cases x with
  | valid a => exact Or.inr ⟨a, rfl, rfl⟩
  | invalid issues => exact Or.inl ⟨.invalid issues, rfl⟩

/-- A wish with a submission is granted when the submission is valid and then the wish is. -/
theorem checked_change_cases {α β : Type} (sv : Serving σ) (x : Checked α) (status : Nat)
    (shape : Store → β → Json) (wish : α → Except Denial (β × Registry)) :
    (∃ problem, (sv.checked x fun a => sv.change status shape (wish a)) = (.error problem, sv)) ∨
      ∃ a b r, x = .valid a ∧ wish a = .ok (b, r) ∧
        (sv.checked x fun a => sv.change status shape (wish a)) =
          (.ok (status, shape r.store b), { sv with registry := r }) := by
  rcases checked_cases sv x (fun a => sv.change status shape (wish a)) with h | ⟨a, rfl, h⟩
  · exact Or.inl h
  · rcases change_cases sv status shape (wish a) with h' | ⟨b, r, hwish, h'⟩
    · exact Or.inl (h ▸ h')
    · exact Or.inr ⟨a, b, r, rfl, hwish, h.trans h'⟩

variable (site) (sv)

theorem write_cases (user : String) (c : Content) (w : Writing) :
    (∃ problem, site.write sv user c w = (.error problem, sv)) ∨
      ∃ v after, site.Granted sv user c w after ∧
        site.write sv user c w = (.ok (grantedStatus w, v), { sv with registry := after }) := by
  cases w with
  | project =>
    rcases checked_change_cases sv (c.submission newProject) 201 (fun _ => Shape.project site.clock)
      (fun f => .ok (sv.registry.createProject site.ids user f)) with h | ⟨f, b, r, hf, hw, h⟩
    · exact Or.inl h
    · refine Or.inr ⟨_, r, ?_, h⟩
      have hr : (sv.registry.createProject site.ids user f).2 = r := by rw [Except.ok.inj hw]
      exact hr ▸ .project f hf
  | member p =>
    rcases checked_change_cases sv (c.submission newMember) 201
      (fun _ => Shape.membership site.clock)
      (sv.registry.addMember site.ids user p) with h | ⟨f, m, r, hf, hw, h⟩
    · exact Or.inl h
    · exact Or.inr ⟨_, r, .member p f m r hf hw, h⟩
  | environment p =>
    rcases checked_change_cases sv (c.submission newEnvironment) 201 (Shape.environment site.clock)
      (sv.registry.createEnvironment site.ids user p) with h | ⟨f, e, r, hf, hw, h⟩
    · exact Or.inl h
    · exact Or.inr ⟨_, r, .environment p f e r hf hw, h⟩
  | stop p id =>
    rcases change_cases sv 200 (Shape.environment site.clock)
      (sv.registry.moveEnvironment user p id .stopped) with h | ⟨e, r, hw, h⟩
    · exact Or.inl h
    · exact Or.inr ⟨_, r, .stop p id e r hw, h⟩
  | start p id =>
    rcases change_cases sv 200 (Shape.environment site.clock)
      (sv.registry.moveEnvironment user p id .available) with h | ⟨e, r, hw, h⟩
    · exact Or.inl h
    · exact Or.inr ⟨_, r, .start p id e r hw, h⟩
  | deployment p =>
    rcases checked_change_cases sv (c.submission newDeployment) 201
      (fun _ => Shape.deployment site.clock)
      (sv.registry.recordDeployment site.ids sv.now user p) with h | ⟨f, d, r, hf, hw, h⟩
    · exact Or.inl h
    · exact Or.inr ⟨_, r, .deployment p f d r hf hw, h⟩

theorem registry_view {α : Type} (shape : α → Json) (wish : Except Denial α) :
    (sv.view shape wish).2 = sv := by
  cases wish <;> rfl

theorem find_eq (caller : Option String) (project : String)
    (c : Criteria) : site.find sv caller project c =
      match ((sv.registry.store.findEnvironments caller project c
          (some (site.question sv.ticks))).run).run (sv.client, sv.host) with
      | (.ok wish, (client, host)) =>
        Serving.view { sv with client := client, host := host }
          (Shape.environments site.clock sv.registry.store) wish
      | (.error u, (client, host)) =>
        (.error (if u.isHostFailure then .hostDown else .breakdown),
          { sv with client := client, host := host }) := by
  unfold find
  dsimp only
  rcases ((sv.registry.store.findEnvironments caller project c
    (some (site.question sv.ticks))).run).run (sv.client, sv.host) with ⟨u | wish, client, host⟩
  · rfl
  · rfl

/-- A reading request touches nothing but the client and the host. -/
theorem registry_read (caller : Option String) (ms : Json.Members) (e : Reading) :
    (site.read sv caller ms e).2.registry = sv.registry := by
  cases e with
  | project p => rw [read, registry_view]
  | environments p =>
    rw [read]
    rcases checked_cases sv (stateQuery ms) _ with ⟨problem, h⟩ | ⟨state, _, h⟩
    · rw [h]
    · rw [h, registry_view]
  | search p =>
    rw [read]
    rcases checked_cases sv (criteriaQuery ms) (site.find sv caller p) with
      ⟨problem, h⟩ | ⟨c, _, h⟩
    · rw [h]
    · rw [h, find_eq]
      split
      · rw [registry_view]
      · rfl
  | environment p e => rw [read, registry_view]
  | deployments p =>
    rw [read]
    rcases checked_cases sv (listingQuery ms) (site.list sv caller p) with
      ⟨problem, h⟩ | ⟨l, _, h⟩
    · rw [h]
    · rw [h]
      unfold list
      split
      · rfl
      · split <;> rfl

theorem perform_writing_cases (r : Request) (w : Writing) :
    (∃ problem, site.perform sv r (.writing w) = (.error problem, sv)) ∨
      ∃ c user v after, (if w.takesContent then content r else .ok .absent) = .ok c ∧
        site.caller? sv r = .ok (some user) ∧ site.Granted sv user.id c w after ∧
        site.perform sv r (.writing w) =
          (.ok (grantedStatus w, v), { sv with registry := after }) := by
  rw [perform]
  cases hc : (if w.takesContent then content r else .ok .absent) with
  | error problem => exact Or.inl ⟨problem, rfl⟩
  | ok c =>
    cases hu : site.caller? sv r with
    | error problem => exact Or.inl ⟨problem, rfl⟩
    | ok caller =>
      cases caller with
      | none => exact Or.inl ⟨.anonymous, rfl⟩
      | some user =>
        dsimp only
        rcases site.write_cases sv user.id c w with ⟨problem, h⟩ | ⟨v, after, hgranted, h⟩
        · exact Or.inl ⟨problem, h⟩
        · exact Or.inr ⟨c, user, v, after, rfl, rfl, hgranted, h⟩

theorem perform_cases (r : Request) (e : Endpoint) :
    (site.perform sv r e).2.registry = sv.registry ∨
      ∃ w c user v after, e = .writing w ∧
        (if w.takesContent then content r else .ok .absent) = .ok c ∧
        site.caller? sv r = .ok (some user) ∧ site.Granted sv user.id c w after ∧
        site.perform sv r e = (.ok (grantedStatus w, v), { sv with registry := after }) := by
  cases e with
  | health => exact Or.inl rfl
  | reading e =>
    rw [perform]
    cases site.caller? sv r with
    | error problem => exact Or.inl rfl
    | ok caller =>
      dsimp only
      exact Or.inl (registry_read site sv _ _ e)
  | writing w =>
    rcases site.perform_writing_cases sv r w with ⟨problem, h⟩ | ⟨c, user, v, after, h⟩
    · rw [h]
      exact Or.inl rfl
    · exact Or.inr ⟨w, c, user, v, after, rfl, h⟩

@[simp] theorem status_mark (allowed : List String) (r : Request) (answer : Response) :
    (Origin.mark allowed r answer).status = answer.status := by
  unfold Origin.mark
  split <;> rfl

@[simp] theorem payload_mark (allowed : List String) (r : Request) (answer : Response) :
    (Origin.mark allowed r answer).payload = answer.payload := by
  unfold Origin.mark
  split <;> rfl

/-- The answer as it is sent to a request that was answered. -/
def sent (r : Request) (answer : Response) : Response :=
  let answer := if r.method = "HEAD" then answer.withoutPayload else answer
  Origin.mark site.settings.origins r { answer with
    requestId := some (RequestId.resolve (r.headerValues "x-request-id") site.freshRequestId) }

theorem respond_eq (r : Request) (hq : Origin.Question.ofRequest? r = none) :
    site.respond sv r =
      match site.answer sv r with
      | (none, sv) => (Response.broken, sv)
      | (some answer, sv) => (site.sent r answer, sv) := by
  rw [respond, hq]
  rfl

/-- What becomes of a request that is routed to an endpoint is what its endpoint comes to. -/
theorem respond_of_route {r : Request} {e : Endpoint}
    (h : route site.settings.apiRoot r.method r.path = .endpoint e) :
    site.respond sv r =
      match site.perform sv r e with
      | (.ok (status, v), sv) => (site.sent r (Response.structured status v), sv)
      | (.error problem, sv) =>
        ((problem.response?.map (site.sent r)).getD Response.broken, sv) := by
  rw [respond_eq _ _ r (plain_of_route h).1, answer, h]
  dsimp only
  rcases site.perform sv r e with ⟨problem | ⟨status, v⟩, sv'⟩
  · cases hp : problem.response? <;> simp [hp]
  · rfl

variable {site sv} in
theorem respond_of_ok {r : Request} {e : Endpoint}
    (h : route site.settings.apiRoot r.method r.path = .endpoint e) {status : Nat} {v : Json}
    {after : Serving σ} (hp : site.perform sv r e = (.ok (status, v), after)) :
    site.respond sv r = (site.sent r (Response.structured status v), after) := by
  rw [respond_of_route site sv h, hp]

variable {site sv} in
theorem respond_of_error {r : Request} {e : Endpoint}
    (h : route site.settings.apiRoot r.method r.path = .endpoint e) {problem : Problem}
    {after : Serving σ} (hp : site.perform sv r e = (.error problem, after)) :
    site.respond sv r = ((problem.response?.map (site.sent r)).getD Response.broken, after) := by
  rw [respond_of_route site sv h, hp]

theorem respond_of_not_routed {r : Request}
    (h : ∀ e, route site.settings.apiRoot r.method r.path ≠ .endpoint e) :
    (site.respond sv r).2 = sv := by
  have hanswer : ∃ answer, site.answer sv r = (answer, sv) := by
    unfold answer
    split
    · exact ⟨_, rfl⟩
    · exact ⟨_, rfl⟩
    · exact ⟨_, rfl⟩
    · next e he => exact absurd he (h e)
  obtain ⟨answer, hanswer⟩ := hanswer
  unfold respond
  dsimp only
  split
  · rfl
  · rw [hanswer]
    cases answer <;> rfl

/-- A request leaves the records as they were, or it is a writing request that was granted. -/
theorem respond_cases (r : Request) :
    (site.respond sv r).2.registry = sv.registry ∨
      ∃ w user after, site.Grants sv r w user after ∧
        (site.respond sv r).2 = { sv with registry := after } := by
  cases hroute : route site.settings.apiRoot r.method r.path with
  | endpoint e =>
    rcases site.perform_cases sv r e with h | ⟨w, c, user, v, after, rfl, hc, hu, hgranted, h⟩
    · left
      rw [respond_of_route site sv hroute, ← h]
      rcases site.perform sv r e with ⟨problem | ⟨status, v⟩, sv'⟩ <;> rfl
    · right
      have hrespond := respond_of_ok hroute h
      refine ⟨w, user, after, ⟨hroute, hu, ⟨c, hc, hgranted⟩, ?_⟩, ?_⟩
      · rw [hrespond]
        simp [sent, (plain_of_route hroute).2, Response.structured]
      · rw [hrespond]
  | otherMethod allowed => exact Or.inl (by rw [respond_of_not_routed]; simp [hroute])
  | elsewhere path => exact Or.inl (by rw [respond_of_not_routed]; simp [hroute])
  | nowhere => exact Or.inl (by rw [respond_of_not_routed]; simp [hroute])

theorem serve_steps (v : Visit) :
    ∃ user, sv.registry.Steps site.ids user (site.serve sv v).2.registry := by
  rcases site.respond_cases (sv.upon v) v.request with h | ⟨w, user, after, hgrants, h⟩
  · refine ⟨"", ?_⟩
    rw [serve, h]
    exact .refl
  · obtain ⟨c, _, hgranted⟩ := hgrants.granted
    refine ⟨user.id, ?_⟩
    rw [serve, h]
    exact hgranted.steps

theorem run_cons (v : Visit) (rest : List Visit) :
    site.run sv (v :: rest) =
      ((site.serve sv v).1 :: (site.run (site.serve sv v).2 rest).1,
        (site.run (site.serve sv v).2 rest).2) := rfl

theorem after_run_one (v : Visit) :
    (site.run sv [v]).2 = (site.respond (sv.upon v) v.request).2 := rfl

end

section

variable {site} {sv : Serving σ}

theorem run_append (sv : Serving σ) (front back : List Visit) :
    (site.run sv (front ++ back)).2 = (site.run (site.run sv front).2 back).2 := by
  induction front generalizing sv with
  | nil => rfl
  | cons v rest ih => exact ih (site.serve sv v).2

theorem serve_fresh (hf : sv.registry.Fresh site.ids) (v : Visit) :
    (site.serve sv v).2.registry.Fresh site.ids := by
  obtain ⟨user, hsteps⟩ := site.serve_steps sv v
  exact hsteps.fresh hf

theorem run_fresh (hf : sv.registry.Fresh site.ids) (vs : List Visit) :
    (site.run sv vs).2.registry.Fresh site.ids := by
  induction vs generalizing sv with
  | nil => exact hf
  | cons v rest ih => exact ih (serve_fresh hf v)

theorem run_keyed (hk : sv.registry.store.Keyed) (hf : sv.registry.Fresh site.ids)
    (vs : List Visit) : (site.run sv vs).2.registry.store.Keyed := by
  induction vs generalizing sv with
  | nil => exact hk
  | cons v rest ih =>
    obtain ⟨user, hsteps⟩ := site.serve_steps sv v
    exact ih (hsteps.keyed hk hf) (serve_fresh hf v)

theorem serve_sound (hs : sv.registry.Sound site.ids) (v : Visit) :
    (site.serve sv v).2.registry.Sound site.ids := by
  obtain ⟨user, hsteps⟩ := site.serve_steps sv v
  exact hsteps.sound hs

theorem run_sound (hs : sv.registry.Sound site.ids) (vs : List Visit) :
    (site.run sv vs).2.registry.Sound site.ids := by
  induction vs generalizing sv with
  | nil => exact hs
  | cons v rest ih => exact ih (serve_sound hs v)

theorem serve_keeps {P : Registry → Prop}
    (hkeep : ∀ user r r', r.Sound site.ids → P r → r.Step site.ids user r' → P r')
    (hs : sv.registry.Sound site.ids) (hp : P sv.registry) (v : Visit) :
    P (site.serve sv v).2.registry := by
  obtain ⟨user, hsteps⟩ := site.serve_steps sv v
  exact hsteps.keeps (hkeep user) hs hp

/-- What each step keeps is kept by every run that starts with a sound registry. -/
theorem run_keeps {P : Registry → Prop}
    (hkeep : ∀ user r r', r.Sound site.ids → P r → r.Step site.ids user r' → P r')
    (hs : sv.registry.Sound site.ids) (hp : P sv.registry) (vs : List Visit) :
    P (site.run sv vs).2.registry := by
  induction vs generalizing sv with
  | nil => exact hp
  | cons v rest ih => exact ih (serve_sound hs v) (serve_keeps hkeep hs hp v)

/-- No environment is ever taken away. -/
theorem serve_environment (hs : sv.registry.Sound site.ids) {e : Environment}
    (he : e ∈ sv.registry.store.environments) (v : Visit) :
    ∃ f ∈ (site.serve sv v).2.registry.store.environments, f.Same e := by
  refine serve_keeps (P := fun r => ∃ f ∈ r.store.environments, f.Same e) ?_ hs
    ⟨e, he, .refl e⟩ v
  rintro user r r' _ ⟨f, hf, hfe⟩ hstep
  obtain ⟨g, hg, hgf⟩ := hstep.exists_environment hf
  exact ⟨g, hg, hgf.trans hfe⟩

theorem users_serve (hs : sv.registry.Sound site.ids) (v : Visit) :
    (site.serve sv v).2.registry.store.users = sv.registry.store.users := by
  refine serve_keeps (P := fun r => r.store.users = sv.registry.store.users) ?_ hs rfl v
  intro user r r' _ hr hstep
  exact hstep.users.trans hr

/-- A registry with users alone is sound, when no id is issued twice. -/
theorem sound_of_users {r : Registry} (hids : Function.Injective site.ids) {users : List User}
    (hu : (users.map (·.id)).Nodup) (hr : r.store = { Store.empty with users := users }) :
    r.Sound site.ids := by
  have hempty : ∀ id, ¬ r.store.Mentions id := by
    simp [hr, Store.Mentions, Store.empty]
  refine ⟨?_, ?_, hids, fun n _ => hempty _⟩
  · rw [hr]
    exact { users := hu, projects := .nil, memberships := .nil, environments := .nil
            deployments := .nil, roles := .nil, names := .nil }
  · rw [hr]
    intro d hd
    cases hd

theorem Reachable.sound (hids : Function.Injective site.ids) (h : site.Reachable sv) :
    sv.registry.Sound site.ids := by
  obtain ⟨start, users, vs, hu, hstart, rfl⟩ := h
  exact run_sound (sound_of_users hids hu hstart) vs

end

/-! A small site, whose host never replies and whose ids are rows of one letter. -/

def plainIds (n : Nat) : String := String.ofList (List.replicate (n + 1) 'x')

theorem plainIds_injective : Function.Injective plainIds := by
  intro m n h
  have hlength := congrArg String.length h
  simpa [plainIds] using hlength

theorem plainIds_ne {s : String} {c : Char} (hc : c ∈ s.toList) (hx : c ≠ 'x') (n : Nat) :
    plainIds n ≠ s := by
  rintro rfl
  rw [plainIds, String.toList_ofList] at hc
  exact hx (List.mem_replicate.mp hc).2

def plainSettings : Settings where
  environment := none
  databaseUrl := none
  poolSize := ⟨1, Nat.one_pos⟩
  poolOverflow := 0
  secret := some "k"
  algorithm := "HS256"
  tokenMinutes := 60
  allowedOrigins := ""
  logLevel := "INFO"
  frameDepth := 6
  apiRoot := "/api/v1"
  serviceName := "EnvResolver-API"
  version := "1.0.0"
  hostBase := "https://api.github.com"
  hostVersion := "2022-11-28"
  hostToken := none
  requestTimeout := .finite 30
  retryAttempts := ⟨1, Nat.one_pos⟩
  retryLeast := .finite (1 / 2)
  retryMost := .finite 2
  retryFactor := .finite 1
  ancestryLifetime := .finite 3600
  ancestryRoom := ⟨1, Nat.one_pos⟩
  reportingAddress := none

def plainSite : Site Unit where
  settings := plainSettings
  ids := plainIds
  freshRequestId := "request"
  clock := "2025-01-01T00:00:00"
  send _ := pure (.fault .timeout "")

/-- The service of the site with some records, before any request. -/
def plainServing (s : Store) (issued : Nat) : Serving Unit where
  registry := ⟨s, issued⟩
  client := Client.create plainSettings none none none (.shared false)
  now := ⟨63902908800000000⟩
  ticks := .finite 0
  host := ()

/-- A visit at the time at which that service starts. -/
def plainVisit (method path : String) (query headers : List (String × String)) (body : String) :
    Visit where
  request := ⟨"http://localhost", method, path, query, headers, body⟩
  now := ⟨63902908800000000⟩
  ticks := .finite 0

/-- What a request submits, where it passes. -/
def submitted? {α : Type} (r : Request) (m : Model α) : Option α :=
  match content r with
  | .error _ => none
  | .ok c =>
    match c.submission m with
    | .valid a => some a
    | .invalid _ => none

theorem exists_content_of_submitted? {α : Type} {r : Request} {m : Model α} {a : α}
    (h : submitted? r m = some a) : ∃ c, content r = .ok c ∧ c.submission m = .valid a := by
  unfold submitted? at h
  split at h
  · cases h
  · next c hc =>
    split at h
    · next b hb =>
      cases h
      exact ⟨c, hc, hb⟩
    · cases h

def ana : User := ⟨"ana", "Ana", "ana@example.com"⟩

/-- A token for Ana, signed with the secret of the site. -/
def anaToken : String :=
  "eyJhbGciOiJIUzI1NiIsInR5cCI6IkpXVCJ9.eyJzdWIiOiJhbmEiLCJ0eXBlIjoiYWNjZXNzIn0." ++
    "CLw8zQaeFDh7YnwbUd0mTIW3iO6lmWRRp44GuZMmqQ4"

def anaVisit (path body : String) : Visit :=
  plainVisit "POST" path [] [("authorization", "Bearer " ++ anaToken)] body

def anaServing : Serving Unit := plainServing { Store.empty with users := [ana] } 0

theorem caller?_anaVisit (sv : Serving Unit) (husers : sv.registry.store.users = [ana])
    (path body : String) : plainSite.caller? (sv.upon (anaVisit path body))
      (anaVisit path body).request = .ok (some ana) := by
  have hfield : (anaVisit path body).request.header? "authorization" =
      some ("Bearer " ++ anaToken) := rfl
  have hbearer : bearer? (anaVisit path body).request = some anaToken := by
    rw [bearer?, hfield]
    decide +kernel
  have hholder : Token.holder plainSite.signer anaServing.now anaServing.registry.store anaToken =
      .ok ana := by
    decide +kernel
  -- The token is read in a state without other records, where it can be evaluated.
  have hsame : plainSite.caller? (sv.upon (anaVisit path body)) (anaVisit path body).request =
      plainSite.caller? anaServing (anaVisit path body).request := by
    apply plainSite.caller?_congr
    · exact husers
    · rfl
  rw [hsame, caller?, hbearer, Token.holder?, hholder]
  rfl

/-- Ana makes a project, whose id is the first one. -/
def projectVisit : Visit := anaVisit "/api/v1/projects" "\x7b\"name\":\"Harbour\"\x7d"

theorem registry_projectVisit : (plainSite.run anaServing [projectVisit]).2.registry =
    ⟨⟨[ana], [⟨"x", "Harbour", none, .members, false⟩], [⟨"xx", "ana", "x", .owner⟩], [], []⟩,
      2⟩ := by
  obtain ⟨c, hcontent, hvalid⟩ := exists_content_of_submitted? (r := projectVisit.request)
    (m := newProject) (a := ⟨"Harbour", none, .members⟩) (by decide +kernel)
  have hroute : route plainSite.settings.apiRoot projectVisit.request.method
      projectVisit.request.path = .endpoint (.writing .project) := by
    decide +kernel
  have hcaller : plainSite.caller? (anaServing.upon projectVisit) projectVisit.request =
      .ok (some ana) := caller?_anaVisit anaServing rfl _ _
  have hperform : plainSite.perform (anaServing.upon projectVisit) projectVisit.request
      (.writing .project) = (.ok (201, Shape.project plainSite.clock
        ⟨"x", "Harbour", none, .members, false⟩), { anaServing.upon projectVisit with
        registry := (anaServing.registry.createProject plainIds "ana"
          ⟨"Harbour", none, .members⟩).2 }) := by
    simp only [perform, Writing.takesContent, if_true, hcontent, hcaller, write, hvalid,
      Serving.checked, Serving.change]
    rfl
  rw [run_cons, serve, respond_of_ok hroute hperform]
  decide +kernel

end Site

end DeployRegistry.Http
