import DeployRegistry.Proofs.Integrity

/-!
# Verdicts on writes

What becomes of a request that writes in a project, once its caller is known and what it submits
has passed. Everything that is asked about it is in the tables, and where several things stand
against it the first one counts. The main statement is `Http.Site.wish_decided`.
-/

namespace DeployRegistry

set_option autoImplicit false

open Form

/-- What a user wishes to write in a project. -/
inductive Wish
  | member (project : String) (f : NewMember)
  | environment (project : String) (f : NewEnvironment)
  | deployment (project : String) (f : NewDeployment)
  | move (project id : String) (state : EnvState)

def Wish.project : Wish → String
  | member p _ => p
  | environment p _ => p
  | deployment p _ => p
  | move p _ _ => p

/-- The number of an answer, and the reason that it gives where it says no. -/
@[ext] structure Verdict where
  number : Nat
  reason : Option String
  deriving DecidableEq

namespace Store

/-- The user is a member of the project in one of the roles. -/
def HasRole (s : Store) (user project : String) (roles : List Role) : Prop :=
  ∃ m ∈ s.memberships, m.user = user ∧ m.project = project ∧ m.role ∈ roles

instance (s : Store) (user project : String) (roles : List Role) :
    Decidable (s.HasRole user project roles) :=
  inferInstanceAs (Decidable (∃ m ∈ s.memberships,
    m.user = user ∧ m.project = project ∧ m.role ∈ roles))

theorem shows_some_iff (s : Store) (user project : String) :
    s.Shows (some user) project ↔ ∃ p ∈ s.projects, p.id = project ∧ (p.visibility = .everyone ∨
      ∃ m ∈ s.memberships, m.user = user ∧ m.project = project) := by
  unfold Shows
  apply exists_congr
  intro p
  simp only [Option.some.injEq, exists_eq_left']

instance (s : Store) (user project : String) : Decidable (s.Shows (some user) project) :=
  decidable_of_iff' _ (s.shows_some_iff user project)

/-- What is to be said to a wish in a project that the user sees. -/
def verdictWithin (s : Store) (user : String) : Wish → Verdict
  | .member p f =>
    if ¬ s.HasRole user p [.owner] then ⟨403, some "Only project owners can add members"⟩
    else if ¬ ∃ u ∈ s.users, u.id = f.user then ⟨404, some "User not found"⟩
    else if ∃ m ∈ s.memberships, m.user = f.user ∧ m.project = p then
      ⟨409, some "User is already a member of this project"⟩
    else ⟨201, none⟩
  | .environment p f =>
    if ¬ s.HasRole user p [.developer, .owner] then
      ⟨403, some "Insufficient permissions for this project"⟩
    else if ∃ e ∈ s.environments, e.project = p ∧ e.name = f.name then
      ⟨409, some ("Environment with name '" ++ f.name ++ "' already exists in this project")⟩
    else ⟨201, none⟩
  | .deployment p _ =>
    if ¬ s.HasRole user p [.developer, .owner] then
      ⟨403, some "Insufficient permissions for this project"⟩
    else ⟨201, none⟩
  | .move p id _ =>
    if ¬ ∃ e ∈ s.environments, e.id = id ∧ e.project = p then
      ⟨404, some "Environment not found"⟩
    else if ¬ s.HasRole user p [.developer, .owner] then
      ⟨403, some "Insufficient permissions for this project"⟩
    else ⟨200, none⟩

/-- A project that the user does not see is reported as missing, whatever else is the matter. -/
def verdict (s : Store) (user : String) (w : Wish) : Verdict :=
  if s.Shows (some user) w.project then s.verdictWithin user w else ⟨404, some "Project not found"⟩

/-! The look-ups find what the tables hold. -/

variable {s : Store} {user project : String}

theorem hasRole_iff_of_nodup (h : (s.memberships.map fun m => (m.user, m.project)).Nodup)
    (roles : List Role) :
    s.HasRole user project roles ↔ ∃ role ∈ roles, s.role? user project = some role := by
  constructor
  · rintro ⟨m, hm, hu, hp, hr⟩
    exact ⟨m.role, hr, (role?_eq_some_iff_of_nodup h _ _ _).mpr ⟨m, hm, hu, hp, rfl⟩⟩
  · rintro ⟨role, hr, hrole⟩
    obtain ⟨m, hm, hu, hp, rfl⟩ := (role?_eq_some_iff_of_nodup h _ _ _).mp hrole
    exact ⟨m, hm, hu, hp, hr⟩

theorem hasRole_writer_iff_of_nodup
    (h : (s.memberships.map fun m => (m.user, m.project)).Nodup) :
    s.HasRole user project [.developer, .owner] ↔
      (s.role? user project).any Role.mayWrite = true := by
  rw [hasRole_iff_of_nodup h]
  cases s.role? user project with
  | none => simp
  | some role => cases role <;> simp [Role.mayWrite]

theorem Keyed.hasRole_owner_iff (hs : s.Keyed) :
    s.HasRole user project [.owner] ↔ s.role? user project = some .owner := by
  simp [hasRole_iff_of_nodup hs.roles]

theorem Keyed.hasRole_writer_iff (hs : s.Keyed) :
    s.HasRole user project [.developer, .owner] ↔
      (s.role? user project).any Role.mayWrite = true :=
  hasRole_writer_iff_of_nodup hs.roles

theorem isSome_user?_iff (s : Store) (id : String) :
    (s.user? id).isSome = true ↔ ∃ u ∈ s.users, u.id = id := by
  simp [user?, List.find?_isSome]

theorem isSome_membership?_iff (s : Store) (user project : String) :
    (s.membership? user project).isSome = true ↔
      ∃ m ∈ s.memberships, m.user = user ∧ m.project = project := by
  simp [membership?, List.find?_isSome]

theorem isSome_environmentNamed?_iff (s : Store) (project name : String) :
    (s.environmentNamed? project name).isSome = true ↔
      ∃ e ∈ s.environments, e.project = project ∧ e.name = name := by
  simp [environmentNamed?, List.find?_isSome]

theorem isSome_environment?_iff (s : Store) (project id : String) :
    (s.environment? project id).isSome = true ↔
      ∃ e ∈ s.environments, e.id = id ∧ e.project = project := by
  simp [environment?, List.find?_isSome]

/-- A writing role is all that the rules ask of one who writes in a project. -/
theorem allowed_iff (s : Store) (user : String) (p : Project) {a : Action}
    (ha : a = .createEnvironment ∨ a = .stopEnvironment ∨ a = .createDeployment) :
    s.allowed (some user) a (.project p) = true ↔
      (s.role? user p.id).any Role.mayWrite = true := by
  rcases ha with rfl | rfl | rfl
  · exact Iff.rfl
  · exact Iff.rfl
  · exact Iff.rfl

end Store

/-- The verdict that an attempt comes to, where success has a number. -/
def Verdict.of {α : Type} (granted : Nat) : Except Denial α → Verdict
  | .error d => ⟨d.status, some d.detail⟩
  | .ok _ => ⟨granted, none⟩

namespace Registry

/-! Each attempt to write comes to the verdict on the wish. -/

variable {r : Registry} {user project : String}

theorem verdict_cases (hs : r.store.Keyed) (user : String) (w : Wish) {project : String}
    (hw : w.project = project) :
    r.store.verdict user w = ⟨404, some "Project not found"⟩ ∧
        r.store.readable (some user) project = .error .noProject ∨
      r.store.verdict user w = r.store.verdictWithin user w ∧
        ∃ p, p.id = project ∧ r.store.readable (some user) project = .ok p := by
  subst hw
  by_cases hshown : r.store.Shows (some user) w.project
  · obtain ⟨p, hp⟩ := hs.readable_of_shows hshown
    exact Or.inr ⟨if_pos hshown, p, (Store.readable_eq_ok hp).2, hp⟩
  · exact Or.inl ⟨if_neg hshown, hs.readable_of_not_shows hshown⟩

theorem addMember_verdict (hs : r.store.Keyed) (ids : Ids) (f : NewMember) :
    r.store.verdict user (.member project f) =
      Verdict.of 201 (r.addMember ids user project f) := by
  rw [addMember_eq]
  rcases verdict_cases hs user (.member project f) (Eq.refl project) with
    ⟨hv, hread⟩ | ⟨hv, p, rfl, hread⟩
  · rw [hv, hread]
    rfl
  · rw [hv, hread, Store.verdictWithin]
    simp only [hs.hasRole_owner_iff, ← Store.isSome_user?_iff, ← Store.isSome_membership?_iff]
    by_cases howner : r.store.role? user p.id = some .owner
    · rw [if_neg (not_not.mpr howner), if_neg (not_not.mpr howner)]
      cases hu : r.store.user? f.user with
      | none =>
        rfl
      | some u =>
        rw [Option.isSome_some, if_neg (not_not.mpr rfl), ← Store.user?_id hu]
        dsimp only
        by_cases hmember : (r.store.membership? u.id p.id).isSome = true
        · rw [if_pos hmember, if_pos hmember]
          rfl
        · rw [if_neg hmember, if_neg hmember]
          rfl
    · rw [if_pos howner, if_pos howner]
      rfl

theorem createEnvironment_verdict (hs : r.store.Keyed) (ids : Ids) (f : NewEnvironment) :
    r.store.verdict user (.environment project f) =
      Verdict.of 201 (r.createEnvironment ids user project f) := by
  rw [createEnvironment_eq]
  rcases verdict_cases hs user (.environment project f) (Eq.refl project) with
    ⟨hv, hread⟩ | ⟨hv, p, rfl, hread⟩
  · rw [hv, hread]
    rfl
  · rw [hv, hread, Store.verdictWithin]
    simp only [hs.hasRole_writer_iff, ← Store.isSome_environmentNamed?_iff]
    have hallowed := r.store.allowed_iff user p (a := .createEnvironment) (Or.inl rfl)
    by_cases hrole : (r.store.role? user p.id).any Role.mayWrite = true
    · rw [if_neg (not_not.mpr hrole), if_pos (hallowed.mpr hrole)]
      by_cases hname : (r.store.environmentNamed? p.id f.name).isSome = true
      · rw [if_pos hname, if_pos hname]
        rfl
      · rw [if_neg hname, if_neg hname]
        rfl
    · rw [if_pos hrole, if_neg (mt hallowed.mp hrole)]
      rfl

theorem recordDeployment_verdict (hs : r.store.Keyed) (ids : Ids) (now : WallTime)
    (f : NewDeployment) :
    r.store.verdict user (.deployment project f) =
      Verdict.of 201 (r.recordDeployment ids now user project f) := by
  rw [recordDeployment_eq]
  rcases verdict_cases hs user (.deployment project f) (Eq.refl project) with
    ⟨hv, hread⟩ | ⟨hv, p, rfl, hread⟩
  · rw [hv, hread]
    rfl
  · rw [hv, hread, Store.verdictWithin]
    simp only [hs.hasRole_writer_iff]
    have hallowed := r.store.allowed_iff user p (a := .createDeployment) (Or.inr (Or.inr rfl))
    by_cases hrole : (r.store.role? user p.id).any Role.mayWrite = true
    · rw [if_neg (not_not.mpr hrole), if_pos (hallowed.mpr hrole)]
      rfl
    · rw [if_pos hrole, if_neg (mt hallowed.mp hrole)]
      rfl

theorem moveEnvironment_verdict (hs : r.store.Keyed) (id : String) (state : EnvState) :
    r.store.verdict user (.move project id state) =
      Verdict.of 200 (r.moveEnvironment user project id state) := by
  rw [moveEnvironment_eq]
  rcases verdict_cases hs user (.move project id state) (Eq.refl project) with
    ⟨hv, hread⟩ | ⟨hv, p, rfl, hread⟩
  · rw [hv, hread]
    rfl
  · rw [hv, hread, Store.verdictWithin]
    simp only [hs.hasRole_writer_iff, ← Store.isSome_environment?_iff]
    cases he : r.store.environment? p.id id with
    | none =>
      rfl
    | some e =>
      rw [Option.isSome_some, if_neg (not_not.mpr rfl)]
      dsimp only
      have hallowed := r.store.allowed_iff user p (a := .stopEnvironment) (Or.inr (Or.inl rfl))
      by_cases hrole : (r.store.role? user p.id).any Role.mayWrite = true
      · rw [if_neg (not_not.mpr hrole), if_pos (hallowed.mpr hrole)]
        split
        · rfl
        · rfl
      · rw [if_pos hrole, if_neg (mt hallowed.mp hrole)]
        rfl

end Registry

namespace Http.Site

variable {σ : Type} {site : Site σ} {sv : Serving σ} {r : Request} {user : User}

/-- What a request wishes to write, where what it submits has passed. -/
inductive Wishes (site : Site σ) (r : Request) : Wish → Prop
  | member {p : String} {c : Content} {f : NewMember}
      (hroute : route site.settings.apiRoot r.method r.path = .endpoint (.writing (.member p)))
      (hc : content r = .ok c) (hf : c.submission newMember = .valid f) :
      Wishes site r (.member p f)
  | environment {p : String} {c : Content} {f : NewEnvironment}
      (hroute : route site.settings.apiRoot r.method r.path = .endpoint (.writing (.environment p)))
      (hc : content r = .ok c) (hf : c.submission newEnvironment = .valid f) :
      Wishes site r (.environment p f)
  | deployment {p : String} {c : Content} {f : NewDeployment}
      (hroute : route site.settings.apiRoot r.method r.path = .endpoint (.writing (.deployment p)))
      (hc : content r = .ok c) (hf : c.submission newDeployment = .valid f) :
      Wishes site r (.deployment p f)
  | stop {p id : String}
      (hroute : route site.settings.apiRoot r.method r.path = .endpoint (.writing (.stop p id))) :
      Wishes site r (.move p id .stopped)
  | start {p id : String}
      (hroute : route site.settings.apiRoot r.method r.path = .endpoint (.writing (.start p id))) :
      Wishes site r (.move p id .available)

/-- The answer to a request that writes, and what is left afterwards, are as a verdict says. With a
reason nothing changes. Without one the request is granted, and what it writes takes no key that is
there. -/
structure Decided (site : Site σ) (sv : Serving σ) (r : Request) (user : User) (v : Verdict) :
    Prop where
  status : (site.respond sv r).1.status = v.number
  denied : ∀ text, v.reason = some text →
    (site.respond sv r).1.payload = .structured (.obj [("detail", .str text)]) ∧
      (site.respond sv r).2.registry = sv.registry
  granted : v.reason = none →
    ∃ w c ws, site.Wrote sv r w user c ws ∧ sv.registry.TakesAll ws

/-- The environment is in the state afterwards, and the answer shows it so. -/
def BroughtTo (site : Site σ) (sv : Serving σ) (r : Request) (project id : String)
    (state : EnvState) : Prop :=
  ∃ e ∈ (site.respond sv r).2.registry.store.environments,
    e.id = id ∧ e.project = project ∧ e.state = state ∧
      (site.respond sv r).1.payload = .structured
        (Shape.environment site.clock (site.respond sv r).2.registry.store e)

section

variable {α : Type} {w : Writing} {n : Nat} {shape : Store → α → Json}
variable {wish : Except Denial (α × Registry)}

theorem respond_of_denied
    (hroute : route site.settings.apiRoot r.method r.path = .endpoint (.writing w)) {d : Denial}
    (hp : site.perform sv r (.writing w) = sv.change n shape (.error d)) :
    (site.respond sv r).1.status = d.status ∧
      (site.respond sv r).1.payload = .structured (.obj [("detail", .str d.detail)]) ∧
      (site.respond sv r).2.registry = sv.registry := by
  rw [respond_of_error hroute hp, Problem.response?, Option.map_some, Option.getD_some, sent,
    if_neg (plain_of_route hroute).2, status_mark, payload_mark]
  exact ⟨rfl, rfl, rfl⟩

theorem decided_of_change (hf : sv.registry.Fresh site.ids)
    (hroute : route site.settings.apiRoot r.method r.path = .endpoint (.writing w))
    (hcaller : site.caller? sv r = .ok (some user)) (hn : n < 400)
    (hp : site.perform sv r (.writing w) = sv.change n shape wish) :
    site.Decided sv r user (Verdict.of n wish) := by
  cases wish with
  | error d =>
    obtain ⟨hstatus, hpayload, hsame⟩ := respond_of_denied hroute hp
    refine ⟨hstatus, ?_, ?_⟩
    · intro text htext
      cases htext
      exact ⟨hpayload, hsame⟩
    · intro hnone
      cases hnone
  | ok result =>
    obtain ⟨hstatus, _, _⟩ := respond_of_granted hroute hp
    refine ⟨hstatus, ?_, ?_⟩
    · intro text htext
      cases htext
    · intro _
      rcases respond_writing_cases site sv hroute with ⟨hle, _⟩ | ⟨other, c, ws, hwrote⟩
      · omega
      · cases hwrote.caller.symm.trans hcaller
        exact ⟨w, c, ws, hwrote, hwrote.writes.takesAll hf⟩

end

/-- Whatever the state of an environment was, it is moved to the one that is wished. -/
theorem moved_of_change {w : Writing} {project id : String} {state : EnvState}
    (hroute : route site.settings.apiRoot r.method r.path = .endpoint (.writing w))
    (hp : site.perform sv r (.writing w) = sv.change 200 (Shape.environment site.clock)
      (sv.registry.moveEnvironment user.id project id state))
    (hgranted :
      (Verdict.of 200 (sv.registry.moveEnvironment user.id project id state)).reason = none) :
    site.BroughtTo sv r project id state := by
  cases hmove : sv.registry.moveEnvironment user.id project id state with
  | error d =>
    rw [hmove] at hgranted
    cases hgranted
  | ok result =>
    obtain ⟨f, after⟩ := result
    rw [hmove] at hp
    obtain ⟨_, hpayload, hafter⟩ := respond_of_granted hroute hp
    obtain ⟨e, he, hid, hproject, _, ⟨hstate, rfl, hsame⟩ | ⟨hne, rfl, hset⟩⟩ :=
      Registry.moveEnvironment_eq_ok hmove
    · rw [← hafter] at hpayload
      refine ⟨_, ?_, hid, hproject, hstate, hpayload⟩
      rw [hafter, hsame]
      exact he
    · rw [← hafter] at hpayload
      refine ⟨{ e with state := state, changed := true }, ?_, hid, hproject, rfl, hpayload⟩
      rw [hafter, hset]
      apply (Store.mem_setState_iff _ _ _ _).mpr
      refine ⟨e, he, ?_⟩
      simp [hne]

/-- A private project in which Ana may only look, with an environment. -/
def watchedServing : Serving Unit :=
  plainServing ⟨[ana], [⟨"p", "Harbour", none, .members, false⟩], [⟨"m", "ana", "p", .reporter⟩],
    [⟨"e", "p", "live", .available, false⟩], []⟩ 0

/-- Ana wishes for an environment of the name that is there. -/
def secondLiveVisit : Visit :=
  anaVisit "/api/v1/projects/p/environments" "\x7b\"name\":\"live\"\x7d"

theorem keyed_watchedServing : watchedServing.registry.store.Keyed where
  users := by decide
  projects := by decide
  memberships := by decide
  environments := by decide
  deployments := by decide
  roles := by decide

theorem fresh_watchedServing : watchedServing.registry.Fresh plainSite.ids := by
  refine ⟨plainIds_injective, ?_⟩
  intro n _ h
  have hp : plainIds n ≠ "p" := plainIds_ne (c := 'p') (by decide) (by decide) n
  have hm : plainIds n ≠ "m" := plainIds_ne (c := 'm') (by decide) (by decide) n
  have he : plainIds n ≠ "e" := plainIds_ne (c := 'e') (by decide) (by decide) n
  simp [Store.Mentions, watchedServing, plainServing, plainSite, hp.symm, hm.symm, he.symm] at h

end Http.Site

end DeployRegistry
