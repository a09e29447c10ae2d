import DeployRegistry.Proofs.Agreement
import DeployRegistry.Proofs.Paging

/-!
# Instants and clocks

A deployment is made at an instant, which is submitted as what a clock shows, with the offset of
that clock. What is kept is what the clock shows. So the newest deployment is the one with the
latest clock: the one at the latest instant where all offsets are the same, but not where they
differ. The main statements are `Http.Site.newest_by_clock` and `Http.Site.later_instant_behind`.
-/

namespace DeployRegistry

set_option autoImplicit false

open Form

/-- An instant, in microseconds of universal time, and the minutes by which the clock that it is
read from is ahead. -/
structure Moment where
  instant : Int
  offset : Int
  deriving DecidableEq

namespace Moment

/-- What the clock shows. -/
def clock (m : Moment) : Int := m.instant + m.offset * 60000000

theorem clock_le_iff {a b : Moment} (h : a.offset = b.offset) :
    a.clock ≤ b.clock ↔ a.instant ≤ b.instant := by
  rw [clock, clock, h]
  omega

end Moment

/-- When a deployment is made that is submitted at a present universal time: then, or at the stamp,
which tells the instant only where it has an offset. -/
def Form.NewDeployment.moment? (f : NewDeployment) (now : WallTime) : Option Moment :=
  match f.time with
  | none => some ⟨now.micros, 0⟩
  | some stamp => stamp.offset.map fun offset => ⟨stamp.wall.micros - offset * 60000000, offset⟩

theorem Form.NewDeployment.clock_of_moment? {f : NewDeployment} {now : WallTime} {m : Moment}
    (h : f.moment? now = some m) : m.clock = ((f.time.elim now (·.wall)).micros : Int) := by
  rw [moment?] at h
  cases ht : f.time with
  | none =>
    rw [ht] at h
    obtain rfl := Option.some.inj h
    simp [Moment.clock]
  | some stamp =>
    rw [ht] at h
    obtain ⟨offset, _, rfl⟩ := Option.map_eq_some_iff.mp h
    simp [Moment.clock]

namespace Store

/-- One of the deployments of a kind that no other of them is after. -/
structure IsLatest (s : Store) (NotAfter : Deployment → Deployment → Prop)
    (Kind : Deployment → Prop) (d : Deployment) : Prop where
  mem : d ∈ s.deployments
  kind : Kind d
  last : ∀ c ∈ s.deployments, Kind c → NotAfter c d

section

variable {s : Store} {c : Criteria} {project : String} {e : Environment}

/-- Of the candidates for the latest one alone, those that were deployed to later come first. -/
theorem pairwise_candidates (s : Store) (project : String) (hl : c.latestOnly = true) :
    (s.candidates project c).Pairwise fun a b => s.oldestFirst b a = true := by
  have hsorted := s.ordersBy_oldestFirst.flip.pairwise_mergeSort
    ((s.environmentsOf project).filter (s.isCandidate project c))
  rw [candidates, hl, if_pos rfl]
  exact hsorted

theorem exists_lastDeployed? {d : Deployment} (hd : d ∈ s.deployments)
    (hid : d.environment = e.id) : ∃ t, s.lastDeployed? e.id = some t := by
  rw [← Option.isSome_iff_exists, Option.isSome_iff_ne_none]
  intro hnone
  exact (s.lastDeployed?_eq_none_iff e.id).mp hnone d hd hid

/-- Nothing was deployed to an environment later than to one that it stands before. -/
theorem time_le_of_oldestFirst {f : Environment} (h : s.oldestFirst e f = true) {t : WallTime}
    (ht : s.lastDeployed? f.id = some t) {d : Deployment} (hd : d ∈ s.deployments)
    (hid : d.environment = e.id) : d.time ≤ t := by
  obtain ⟨u, hu⟩ := exists_lastDeployed? hd hid
  have hle := ((s.lastDeployed?_eq_some_iff e.id u).mp hu).2 d hd hid
  rw [oldestFirst_iff, hu, ht] at h
  rcases h with hlt | ⟨heq, _⟩
  · have hlt' : u < t := hlt
    simp only [WallTime.le_def, WallTime.lt_def] at hle hlt' ⊢
    omega
  · obtain rfl := Option.some.inj heq
    exact hle

variable {p : Project} {caller : Option String} {hosted : Bool} {reply : Question → Bool}

/-- The first of the candidates that pass is the one that was deployed to last among those that run
what is looked for. -/
theorem latest_of_settled (hs : s.Keyed) (hp : p ∈ s.projects) (hl : c.latestOnly = true) :
    (c.settled s p.id caller (s.answer hosted reply) = [] ∧
        ∀ e, ¬ s.Runs p caller c hosted reply e) ∨
      ∃ e d, c.settled s p.id caller (s.answer hosted reply) = [e] ∧
        s.Runs p caller c hosted reply e ∧ d.environment = e.id ∧ s.IsLatest
          (fun a b => a.time ≤ b.time)
          (fun b => ∃ f, s.Runs p caller c hosted reply f ∧ b.environment = f.id) d := by
  have hruns := hs.mem_passing_iff hp caller c hosted reply
  have hsorted := (s.pairwise_candidates p.id hl).filter
    fun e => (c.checks caller e).all (s.answer hosted reply)
  rw [Criteria.settled, hl, if_pos rfl]
  cases hpassing : (s.candidates p.id c).filter
      fun e => (c.checks caller e).all (s.answer hosted reply) with
  | nil =>
    rw [hpassing] at hruns
    exact Or.inl ⟨rfl, fun e he => List.not_mem_nil ((hruns e).mpr he)⟩
  | cons first rest =>
    rw [hpassing] at hruns hsorted
    have hfirst := (hruns first).mp List.mem_cons_self
    obtain ⟨c', hc', _, hid, _⟩ := hfirst.deployed
    obtain ⟨t, ht⟩ := exists_lastDeployed? hc' hid
    obtain ⟨⟨d, hd, hdid, rfl⟩, hle⟩ := (s.lastDeployed?_eq_some_iff first.id t).mp ht
    refine Or.inr ⟨first, d, rfl, hfirst, hdid, hd, ⟨first, hfirst, hdid⟩, ?_⟩
    rintro b hb ⟨f, hf, hbid⟩
    rcases List.mem_cons.mp ((hruns f).mpr hf) with rfl | hrest
    · exact hle b hb hbid
    · exact time_le_of_oldestFirst ((List.pairwise_cons.mp hsorted).1 f hrest) ht hb hbid

theorem IsLive.time_le {environment : String} {d b : Deployment} (h : s.IsLive environment d)
    (hb : b ∈ s.deployments) (hid : b.environment = environment) (hsuccess : b.status = .success) :
    b.time ≤ d.time := by
  rw [WallTime.le_def]
  rcases h.last b hb hid hsuccess with hlt | ⟨heq, _⟩
  · rw [WallTime.lt_def] at hlt
    omega
  · rw [heq]

theorem IsLatest.imp {R R' : Deployment → Deployment → Prop} {Kind : Deployment → Prop}
    {d : Deployment} (h : s.IsLatest R Kind d)
    (hi : ∀ b ∈ s.deployments, Kind b → R b d → R' b d) : s.IsLatest R' Kind d where
  mem := h.mem
  kind := h.kind
  last := by
    intro b hb hkind
    exact hi b hb hkind (h.last b hb hkind)

end

end Store

namespace Registry

variable {r r' : Registry} {ids : Ids} {user project : String}

theorem deployments_moveEnvironment {id : String} {state : EnvState} {e : Environment}
    (h : r.moveEnvironment user project id state = .ok (e, r')) :
    r'.store.deployments = r.store.deployments := by
  obtain ⟨_, _, _, _, _, ⟨_, _, rfl⟩ | ⟨_, _, rfl⟩⟩ := moveEnvironment_eq_ok h
  · rfl
  · rfl

theorem deployments_recordDeployment {now : WallTime} {f : NewDeployment} {d : Deployment}
    (h : r.recordDeployment ids now user project f = .ok (d, r')) :
    r'.store.deployments = r.store.deployments ++ [d] := by
  obtain ⟨e, r₁, hfor, _, _, rfl⟩ := recordDeployment_eq_ok h
  rcases r.environmentFor_cases ids project f.environment with ⟨e', _, heq⟩ | ⟨_, heq⟩
  · obtain ⟨_, rfl⟩ := Prod.mk.inj (heq.symm.trans hfor)
    rfl
  · obtain ⟨_, rfl⟩ := Prod.mk.inj (heq.symm.trans hfor)
    rfl

end Registry

namespace Http.Site

variable {σ : Type}

/-- What it takes that newest means latest in a project, where it is given which deployments are not
after which. -/
structure Newest (site : Site σ) (s : Store) (project : String)
    (NotAfter : Deployment → Deployment → Prop) : Prop where
  /-- A listing has none in front of one that is after it. -/
  listed : ∀ (asking : Option User) p environment ref,
    s.readable (asking.map (·.id)) project = .ok p → ∃ ds,
      (∀ d, d ∈ ds ↔ d ∈ s.deployments ∧ d.Listed project environment ref) ∧
      (ds.Pairwise fun a b => NotAfter b a) ∧ site.Paged s asking project environment ref ds
  /-- An environment was deployed to last at the time of its latest deployment, -/
  dated : ∀ e ∈ s.environments, e.project = project →
    (s.lastDeployed? e.id = none ∧ ∀ d ∈ s.deployments, d.environment ≠ e.id) ∨
      ∃ d, s.lastDeployed? e.id = some d.time ∧ s.IsLatest NotAfter (·.environment = e.id) d
  /-- and the live one is the latest of those with success. -/
  live : ∀ e ∈ s.environments, e.project = project →
    (s.lastSuccess? e.id = none ∧
        ∀ d ∈ s.deployments, d.environment = e.id → d.status ≠ .success) ∨
      ∃ d, s.lastSuccess? e.id = some d ∧
        s.IsLatest NotAfter (fun b => b.environment = e.id ∧ b.status = .success) d
  /-- A search for the latest one finds the environment of the latest deployment to those that run
  what is looked for. -/
  found : ∀ {ε τ : Type} caller p (c : Criteria)
    (host : Option (Question → ExceptT ε (StateM τ) Bool)) reply (world : τ),
    s.readable caller project = .ok p → c.latestOnly = true → (∀ ask ∈ host, Answers ask reply) →
      ∃ es world', ((s.findEnvironments caller project c host).run).run world =
          (.ok (.ok es), world') ∧
        ((es = [] ∧ ∀ e, ¬ s.Runs p caller c host.isSome reply e) ∨
          ∃ e d, es = [e] ∧ s.Runs p caller c host.isSome reply e ∧ d.environment = e.id ∧
            s.IsLatest NotAfter
              (fun b => ∃ f, s.Runs p caller c host.isSome reply f ∧ b.environment = f.id) d)

section

variable {s : Store} {project : String} {NotAfter : Deployment → Deployment → Prop}

/-- A search whose checks all settle finds what it settles on. -/
theorem run_findEnvironments_of_answers {ε τ : Type} {caller : Option String} {p : Project}
    (h : s.readable caller project = .ok p) (c : Criteria)
    {host : Option (Question → ExceptT ε (StateM τ) Bool)} {reply : Question → Bool}
    (hh : ∀ ask ∈ host, Answers ask reply) (world : τ) :
    ∃ world', ((s.findEnvironments caller project c host).run).run world =
      (.ok (.ok (c.settled s p.id caller (s.answer host.isSome reply))), world') := by
  have hchecks : ∀ e, ∀ check ∈ c.checks caller e, Settles (·.Current s)
      ((Checks.stored s host).run check) (s.answer host.isSome reply check) :=
    fun _ check _ => settles_stored s hh check
  exact findEnvironments_of_settles world h (Settles.resolve hchecks s p.id)

variable (hs : s.Tidy)
  (htime : ∀ c ∈ s.deployments, ∀ d ∈ s.deployments, c.project = project → d.project = project →
    c.time ≤ d.time → NotAfter c d)
include hs htime

theorem pairwise_listed_of_time (l : Listing) :
    (s.listed project l).Pairwise fun a b => NotAfter b a := by
  have hlisting := s.isListing_listed hs.constrained.deployments project l
  apply hlisting.falling.imp_of_mem
  intro a b ha hb hab
  obtain ⟨ha, hpa, _⟩ := (hlisting.members a).mp ha
  obtain ⟨hb, hpb, _⟩ := (hlisting.members b).mp hb
  apply htime b hb a ha hpb hpa
  rcases hab with hlt | ⟨heq, _⟩
  · rw [WallTime.lt_def] at hlt
    rw [WallTime.le_def]
    omega
  · rw [heq, WallTime.le_def]

/-- The last one by the time that is kept is the latest. -/
theorem isLatest_of_time {Kind : Deployment → Prop} {d : Deployment}
    (hkind : ∀ b ∈ s.deployments, Kind b →
      ∃ e ∈ s.environments, e.project = project ∧ b.environment = e.id)
    (h : s.IsLatest (fun a b => a.time ≤ b.time) Kind d) : s.IsLatest NotAfter Kind d := by
  have hhome : ∀ b ∈ s.deployments, Kind b → b.project = project := by
    intro b hb hk
    obtain ⟨e, he, hproject, hid⟩ := hkind b hb hk
    exact (hs.project_eq he hb hid).trans hproject
  apply h.imp
  intro b hb hk hle
  exact htime b hb d h.mem (hhome b hb hk) (hhome d h.mem h.kind) hle

/-- The registry goes by the times that it keeps. -/
theorem newest_of_time (site : Site σ) : site.Newest s project NotAfter := by
  have hkeyed := hs.constrained.toKeyed
  refine ⟨?_, ?_, ?_, ?_⟩
  · intro asking p environment ref h
    have hlisting := s.isListing_listed hkeyed.deployments project ⟨environment, ref, 1, 0⟩
    exact ⟨_, hlisting.members, pairwise_listed_of_time hs htime _,
      paged_listed site h fun _ _ => rfl⟩
  · intro e he hproject
    cases h : s.lastDeployed? e.id with
    | none => exact Or.inl ⟨rfl, (s.lastDeployed?_eq_none_iff e.id).mp h⟩
    | some t =>
      obtain ⟨⟨d, hd, hid, rfl⟩, hle⟩ := (s.lastDeployed?_eq_some_iff e.id t).mp h
      refine Or.inr ⟨d, rfl, isLatest_of_time hs htime ?_ ⟨hd, hid, hle⟩⟩
      intro b _ hid
      exact ⟨e, he, hproject, hid⟩
  · intro e he hproject
    cases h : s.lastSuccess? e.id with
    | none => exact Or.inl ⟨rfl, (s.lastSuccess?_eq_none_iff e.id).mp h⟩
    | some d =>
      have hlive := (hkeyed.lastSuccess?_eq_some_iff e.id d).mp h
      refine Or.inr ⟨d, rfl, isLatest_of_time hs htime ?_
        ⟨hlive.mem, ⟨hlive.home, hlive.success⟩, ?_⟩⟩
      · rintro b _ ⟨hid, _⟩
        exact ⟨e, he, hproject, hid⟩
      · rintro b hb ⟨hid, hsuccess⟩
        exact hlive.time_le hb hid hsuccess
  · intro ε τ caller p c host reply world h hl hh
    obtain ⟨hp, rfl⟩ := Store.readable_eq_ok h
    obtain ⟨world', hrun⟩ := run_findEnvironments_of_answers h c hh world
    refine ⟨_, world', hrun, ?_⟩
    rcases Store.latest_of_settled hkeyed hp hl with hnone | ⟨e, d, hes, hruns, hid, hd⟩
    · exact Or.inl hnone
    · refine Or.inr ⟨e, d, hes, hruns, hid, isLatest_of_time hs htime ?_ hd⟩
      rintro b _ ⟨f, hf, hbid⟩
      exact ⟨f, hf.mem, hf.home, hbid⟩

end

/-! What was recorded in a run of requests, and when. -/

/-- A request that records a deployment in a project, as it was submitted. -/
structure Records (site : Site σ) (sv : Serving σ) (v : Visit) (f : NewDeployment)
    (d : Deployment) : Prop where
  route : route site.settings.apiRoot v.request.method v.request.path =
    .endpoint (.writing (.deployment d.project))
  submits : submitted? v.request newDeployment = some f
  status : (site.serve sv v).1.status = 201
  added : (site.serve sv v).2.registry.store.deployments = sv.registry.store.deployments ++ [d]
  time : d.time = f.time.elim v.now (·.wall)

/-- One of some requests, made one after the other, recorded the deployment as made at a moment. -/
def MadeAt (site : Site σ) (sv : Serving σ) (vs : List Visit) (d : Deployment) (m : Moment) :
    Prop :=
  ∃ past v later f, vs = past ++ v :: later ∧ site.Records (site.run sv past).2 v f d ∧
    f.moment? v.now = some m

section

variable {site : Site σ} {sv : Serving σ}

/-- A request that is granted leaves the deployments as they are, or records one. -/
theorem deployments_serve (sv : Serving σ) (v : Visit) :
    (site.serve sv v).2.registry.store.deployments = sv.registry.store.deployments ∨
      ∃ f d, site.Records sv v f d := by
  rcases site.respond_cases (sv.upon v) v.request with hsame | ⟨w, user, after, hgrants, hafter⟩
  · left
    rw [serve, hsame]
    rfl
  · obtain ⟨c, hcontent, hgranted⟩ := hgrants.granted
    have hregistry : (site.serve sv v).2.registry = after := by rw [serve, hafter]
    have hstatus := hgrants.status
    rw [hregistry]
    cases hgranted with
    | project f hf => exact Or.inl rfl
    | member p f m r hf h =>
      obtain ⟨_, rfl, _⟩ := Registry.addMember_eq_ok h
      exact Or.inl rfl
    | environment p f e r hf h =>
      obtain ⟨_, rfl, _⟩ := Registry.createEnvironment_eq_ok h
      exact Or.inl rfl
    | stop p id e r h => exact Or.inl (Registry.deployments_moveEnvironment h)
    | start p id e r h => exact Or.inl (Registry.deployments_moveEnvironment h)
    | deployment p f d r hf h =>
      obtain ⟨e, r₁, _, _, hd, _⟩ := Registry.recordDeployment_eq_ok h
      refine Or.inr ⟨f, d, ?_, ?_, hstatus, ?_, ?_⟩
      · rw [hd]
        exact hgrants.route
      · rw [submitted?, (show content v.request = .ok c from hcontent)]
        simp only [hf]
      · rw [hregistry]
        exact Registry.deployments_recordDeployment h
      · rw [hd]
        rfl

/-- Whatever was not there from the beginning was recorded by one of the requests. -/
theorem recorded_of_mem_run {vs : List Visit} {d : Deployment}
    (hd : d ∈ (site.run sv vs).2.registry.store.deployments) :
    d ∈ sv.registry.store.deployments ∨ ∃ past v later f, vs = past ++ v :: later ∧
      site.Records (site.run sv past).2 v f d := by
  -- By induction from the front, for any start: what the first request adds is there for the rest.
  induction vs generalizing sv with
  | nil => exact Or.inl hd
  | cons v rest ih =>
    rw [run_cons] at hd
    rcases ih hd with hserved | ⟨past, w, later, f, rfl, hrecords⟩
    · rcases site.deployments_serve sv v with hsame | ⟨f, c, hrecords⟩
      · exact Or.inl (hsame ▸ hserved)
      · rw [hrecords.added] at hserved
        rcases List.mem_append.mp hserved with hold | hnew
        · exact Or.inl hold
        · obtain rfl := List.mem_singleton.mp hnew
          exact Or.inr ⟨[], v, rest, f, rfl, hrecords⟩
    · exact Or.inr ⟨v :: past, w, later, f, rfl, hrecords⟩

theorem MadeAt.clock_eq {vs : List Visit} {d : Deployment} {m : Moment}
    (h : site.MadeAt sv vs d m) : m.clock = (d.time.micros : Int) := by
  obtain ⟨past, v, later, f, _, hrecords, hm⟩ := h
  rw [hrecords.time]
  exact Form.NewDeployment.clock_of_moment? hm

/-- Where every deployment of a project was recorded with an offset, or without a time of its own,
the newest is the one with the latest clock; and where all these offsets are the same, that is the
one at the latest instant. -/
theorem newest_by_clock {vs : List Visit} {project : String}
    (hs : sv.registry.Sound site.ids)
    (hnew : ∀ d ∈ sv.registry.store.deployments, d.project ≠ project)
    (hoffset : ∀ past v later f d, vs = past ++ v :: later →
      site.Records (site.run sv past).2 v f d → d.project = project →
        ∃ m, f.moment? v.now = some m) :
    ∃ moment : Deployment → Moment,
      (∀ d ∈ (site.run sv vs).2.registry.store.deployments, d.project = project →
        site.MadeAt sv vs d (moment d)) ∧
      site.Newest (site.run sv vs).2.registry.store project
        (fun c d => (moment c).clock ≤ (moment d).clock) ∧
      ((∀ c ∈ (site.run sv vs).2.registry.store.deployments,
          ∀ d ∈ (site.run sv vs).2.registry.store.deployments, c.project = project →
            d.project = project → (moment c).offset = (moment d).offset) →
        site.Newest (site.run sv vs).2.registry.store project
          (fun c d => (moment c).instant ≤ (moment d).instant)) := by
  have htidy : (site.run sv vs).2.registry.store.Tidy :=
    ⟨(run_sound hs vs).constrained, (run_sound hs vs).homed⟩
  have hmade : ∀ d, ∃ m, d ∈ (site.run sv vs).2.registry.store.deployments →
      d.project = project → site.MadeAt sv vs d m := by
    intro d
    by_cases hd : d ∈ (site.run sv vs).2.registry.store.deployments ∧ d.project = project
    · rcases recorded_of_mem_run hd.1 with hold | ⟨past, v, later, f, hvs, hrecords⟩
      · exact absurd hd.2 (hnew d hold)
      · obtain ⟨m, hm⟩ := hoffset past v later f d hvs hrecords hd.2
        exact ⟨m, fun _ _ => ⟨past, v, later, f, hvs, hrecords, hm⟩⟩
    · exact ⟨⟨0, 0⟩, fun hmem hproject => absurd ⟨hmem, hproject⟩ hd⟩
  choose moment hmoment using hmade
  have hclock : ∀ c ∈ (site.run sv vs).2.registry.store.deployments,
      ∀ d ∈ (site.run sv vs).2.registry.store.deployments, c.project = project →
        d.project = project → c.time ≤ d.time → (moment c).clock ≤ (moment d).clock := by
    intro c hc d hd hcp hdp hle
    rw [(hmoment c hc hcp).clock_eq, (hmoment d hd hdp).clock_eq]
    exact Int.ofNat_le.mpr hle
  refine ⟨moment, hmoment, newest_of_time htidy hclock site, ?_⟩
  intro hsame
  refine newest_of_time htidy (fun c hc d hd hcp hdp hle => ?_) site
  exact (Moment.clock_le_iff (hsame c hc d hd hcp hdp)).mp (hclock c hc d hd hcp hdp hle)

/-- A deployment that is granted is recorded. -/
theorem records_of_recordDeployment {v : Visit} {user : User} {project : String}
    {f : NewDeployment} {d : Deployment} {after : Registry}
    (hroute : route site.settings.apiRoot v.request.method v.request.path =
      .endpoint (.writing (.deployment project)))
    (hcaller : site.caller? (sv.upon v) v.request = .ok (some user))
    (hsubmits : submitted? v.request newDeployment = some f)
    (hrecord : sv.registry.recordDeployment site.ids v.now user.id project f = .ok (d, after)) :
    site.Records sv v f d ∧ (site.serve sv v).2.registry = after := by
  obtain ⟨c, hcontent, hvalid⟩ := exists_content_of_submitted? hsubmits
  have hwish : (sv.upon v).registry.recordDeployment site.ids (sv.upon v).now user.id project f =
      .ok (d, after) := hrecord
  have hperform : site.perform (sv.upon v) v.request (.writing (.deployment project)) =
      (sv.upon v).change 201 (fun _ => Shape.deployment site.clock) (.ok (d, after)) := by
    have htaken : (if (Writing.deployment project).takesContent then content v.request
        else .ok .absent) = .ok c := hcontent
    rw [perform_writing htaken hcaller, write, hvalid, Serving.checked, hwish]
  obtain ⟨hstatus, _, hafter⟩ := respond_of_granted hroute hperform
  obtain ⟨e, r₁, _, _, hd, _⟩ := Registry.recordDeployment_eq_ok hrecord
  refine ⟨⟨?_, hsubmits, hstatus, ?_, ?_⟩, hafter⟩
  · rw [hd]
    exact hroute
  · rw [serve, hafter]
    exact Registry.deployments_recordDeployment hrecord
  · rw [hd]

end

/-- Ana records a deployment that was made at a stamp. -/
def stampedVisit (stamp : String) : Visit :=
  anaVisit "/api/v1/projects/x/deployments"
    ("\x7b\"environment\":\"test\",\"ref\":\"main\",\"sha\":\"ABCDEF0\",\"deployed_at\":\"" ++
      stamp ++ "\"\x7d")

def stamped (stamp : Stamp) : NewDeployment :=
  ⟨"test", "main", false, "abcdef0", .success, some stamp⟩

/-- The deployment that is recorded then. -/
def stampedDeployment (id : String) (time : WallTime) : Deployment :=
  ⟨id, "x", "xxx", "main", false, "abcdef0", .success, time⟩

/-- The records of Ana, with her deployments. -/
def stampedStore (ds : List Deployment) : Store where
  users := [ana]
  projects := [⟨"x", "Harbour", none, .members, false⟩]
  memberships := [⟨"xx", "ana", "x", .owner⟩]
  environments := [⟨"xxx", "x", "test", .available, false⟩]
  deployments := ds

theorem records_stampedVisit {sv : Serving Unit} {text : String} {stamp : Stamp} {d : Deployment}
    {after : Registry} (husers : sv.registry.store.users = [ana])
    (hsubmits : submitted? (stampedVisit text).request newDeployment = some (stamped stamp))
    (hrecord : sv.registry.recordDeployment plainIds (stampedVisit text).now "ana" "x"
      (stamped stamp) = .ok (d, after)) :
    plainSite.Records sv (stampedVisit text) (stamped stamp) d ∧
      (plainSite.serve sv (stampedVisit text)).2.registry = after := by
  refine records_of_recordDeployment ?_ (caller?_anaVisit sv husers _ _) hsubmits hrecord
  change route "/api/v1" "POST" "/api/v1/projects/x/deployments" = _
  decide +kernel

/-- Ana records two deployments in her project, one after the other. -/
theorem run_stampedVisits {sv : Serving Unit}
    (hstart : sv.registry = ⟨{ stampedStore [] with environments := [] }, 2⟩)
    {a b : String} {vs : List Visit} (hvs : vs = [stampedVisit a, stampedVisit b])
    {s t : Stamp} {m n : Moment}
    (ha : submitted? (stampedVisit a).request newDeployment = some (stamped s))
    (hb : submitted? (stampedVisit b).request newDeployment = some (stamped t))
    (hm : (stamped s).moment? (stampedVisit a).now = some m)
    (hn : (stamped t).moment? (stampedVisit b).now = some n) :
    plainSite.MadeAt sv vs (stampedDeployment "xxxx" s.wall) m ∧
      plainSite.MadeAt sv vs (stampedDeployment "xxxxx" t.wall) n ∧
      (plainSite.run sv vs).2.registry.store =
        stampedStore [stampedDeployment "xxxx" s.wall, stampedDeployment "xxxxx" t.wall] := by
  subst hvs
  obtain ⟨hfirst, hafter⟩ :
      plainSite.Records sv (stampedVisit a) (stamped s) (stampedDeployment "xxxx" s.wall) ∧
        (plainSite.serve sv (stampedVisit a)).2.registry =
          ⟨stampedStore [stampedDeployment "xxxx" s.wall], 4⟩ :=
    records_stampedVisit (by rw [hstart]; rfl) ha (by rw [hstart]; rfl)
  -- The states are kept closed, so that nothing evaluates the requests that lead to them.
  have hsingle : ∀ v, (plainSite.run sv [v]).2 = (plainSite.serve sv v).2 := fun _ => rfl
  have hpair : ∀ v w, (plainSite.run sv [v, w]).2 =
      (plainSite.serve (plainSite.serve sv v).2 w).2 := fun _ _ => rfl
  obtain ⟨hsecond, hlast⟩ :
      plainSite.Records (plainSite.run sv [stampedVisit a]).2 (stampedVisit b) (stamped t)
          (stampedDeployment "xxxxx" t.wall) ∧
        (plainSite.run sv [stampedVisit a, stampedVisit b]).2.registry = ⟨stampedStore
          [stampedDeployment "xxxx" s.wall, stampedDeployment "xxxxx" t.wall], 5⟩ := by
    rw [hsingle, hpair]
    generalize (plainSite.serve sv (stampedVisit a)).2 = sv' at hafter ⊢
    exact records_stampedVisit (by rw [hafter]; rfl) hb (by rw [hafter]; rfl)
  exact ⟨⟨[], stampedVisit a, [stampedVisit b], stamped s, rfl, hfirst, hm⟩,
    ⟨[stampedVisit a], stampedVisit b, [], stamped t, rfl, hsecond, hn⟩, by rw [hlast]⟩

/-- Ten o'clock and noon, by one clock that is ahead of universal time. -/
def eastStamp : Stamp := ⟨⟨63902858400000000⟩, some 330⟩

def noonStamp : Stamp := ⟨⟨63902865600000000⟩, some 330⟩

/-- Eight o'clock of universal time, which is after the first of them. -/
def utcStamp : Stamp := ⟨⟨63902851200000000⟩, some 0⟩

theorem submitted?_eastVisit :
    submitted? (stampedVisit "2026-01-01T10:00:00+05:30").request newDeployment =
      some (stamped eastStamp) := by
  decide +kernel

theorem submitted?_noonVisit :
    submitted? (stampedVisit "2026-01-01T12:00:00+05:30").request newDeployment =
      some (stamped noonStamp) := by
  decide +kernel

theorem submitted?_utcVisit :
    submitted? (stampedVisit "2026-01-01T08:00:00Z").request newDeployment =
      some (stamped utcStamp) := by
  decide +kernel

/-- Two deployments by one clock. -/
def eastVisits : List Visit :=
  [stampedVisit "2026-01-01T10:00:00+05:30", stampedVisit "2026-01-01T12:00:00+05:30"]

/-- Two deployments by two clocks, the later one last. -/
def mixedVisits : List Visit :=
  [stampedVisit "2026-01-01T10:00:00+05:30", stampedVisit "2026-01-01T08:00:00Z"]

theorem exists_offset_of_eastVisits {past later : List Visit} {v : Visit}
    (h : eastVisits = past ++ v :: later) {f : NewDeployment}
    (hf : submitted? v.request newDeployment = some f) :
    ∃ m, f.moment? v.now = some m ∧ m.offset = 330 := by
  have hv : v ∈ eastVisits := h ▸ List.mem_append_right past List.mem_cons_self
  simp only [eastVisits, List.mem_cons, List.not_mem_nil, or_false] at hv
  rcases hv with rfl | rfl
  · obtain rfl := Option.some.inj (submitted?_eastVisit.symm.trans hf)
    exact ⟨_, rfl, rfl⟩
  · obtain rfl := Option.some.inj (submitted?_noonVisit.symm.trans hf)
    exact ⟨_, rfl, rfl⟩

theorem offset_of_eastVisits {sv : Serving Unit} {d : Deployment} {m : Moment}
    (h : plainSite.MadeAt sv eastVisits d m) : m.offset = 330 := by
  obtain ⟨past, v, later, f, hvisits, hrecords, hm⟩ := h
  obtain ⟨n, hn, hoffset⟩ := exists_offset_of_eastVisits hvisits hrecords.submits
  obtain rfl := Option.some.inj (hm.symm.trans hn)
  exact hoffset

/-- The records after two deployments by one clock. -/
def eastStore : Store :=
  stampedStore [stampedDeployment "xxxx" eastStamp.wall, stampedDeployment "xxxxx" noonStamp.wall]

/-- By one clock, the later one of two deployments is the newest. -/
theorem newest_by_clock_harbour :
    (plainSite.run (plainSite.run anaServing [projectVisit]).2 eastVisits).2.registry.store =
      eastStore ∧
    ∃ moment : Deployment → Moment,
      (∀ d ∈ eastStore.deployments,
        plainSite.MadeAt (plainSite.run anaServing [projectVisit]).2 eastVisits d (moment d)) ∧
      (moment (stampedDeployment "xxxx" eastStamp.wall)).instant <
        (moment (stampedDeployment "xxxxx" noonStamp.wall)).instant ∧
      plainSite.Newest eastStore "x" (fun c d => (moment c).instant ≤ (moment d).instant) := by
  have hsound : (plainSite.run anaServing [projectVisit]).2.registry.Sound plainSite.ids :=
    run_sound (sound_of_users plainIds_injective (by decide) rfl) [projectVisit]
  have hnew : ∀ d ∈ (plainSite.run anaServing [projectVisit]).2.registry.store.deployments,
      d.project ≠ "x" := by
    rw [registry_projectVisit]
    intro d hd
    cases hd
  have hvisits : eastVisits = [stampedVisit "2026-01-01T10:00:00+05:30",
      stampedVisit "2026-01-01T12:00:00+05:30"] := rfl
  obtain ⟨_, _, hstore⟩ := run_stampedVisits registry_projectVisit hvisits submitted?_eastVisit
    submitted?_noonVisit rfl rfl
  obtain ⟨moment, hmade, _, hlevel⟩ := newest_by_clock hsound hnew
    fun past v later f d h hrecords _ => by
      obtain ⟨m, hm, _⟩ := exists_offset_of_eastVisits h hrecords.submits
      exact ⟨m, hm⟩
  rw [hstore] at hmade hlevel
  have hmade' : ∀ d ∈ eastStore.deployments,
      plainSite.MadeAt (plainSite.run anaServing [projectVisit]).2 eastVisits d (moment d) := by
    intro d hd
    rcases List.mem_pair.mp hd with rfl | rfl
    · exact hmade _ hd rfl
    · exact hmade _ hd rfl
  have hsame : ∀ c ∈ eastStore.deployments, ∀ d ∈ eastStore.deployments,
      (moment c).offset = (moment d).offset := by
    intro c hc d hd
    rw [offset_of_eastVisits (hmade' c hc), offset_of_eastVisits (hmade' d hd)]
  refine ⟨hstore, moment, hmade', ?_, hlevel fun c hc d hd _ _ => hsame c hc d hd⟩
  obtain ⟨c, hc⟩ : ∃ c, c = stampedDeployment "xxxx" eastStamp.wall := ⟨_, rfl⟩
  obtain ⟨d, hd⟩ : ∃ d, d = stampedDeployment "xxxxx" noonStamp.wall := ⟨_, rfl⟩
  have hcmem : c ∈ eastStore.deployments := hc ▸ List.mem_cons_self
  have hdmem : d ∈ eastStore.deployments := hd ▸ List.mem_cons_of_mem _ List.mem_cons_self
  rw [← hc, ← hd, ← not_le, ← Moment.clock_le_iff (hsame d hdmem c hcmem),
    (hmade' c hcmem).clock_eq, (hmade' d hdmem).clock_eq, hc, hd]
  decide

/-- The records after two deployments by two clocks. -/
def mixedStore : Store :=
  stampedStore [stampedDeployment "xxxx" eastStamp.wall, stampedDeployment "xxxxx" utcStamp.wall]

theorem tells_mixedStore :
    plainSite.Tells mixedStore (some ana) (.deployments "x") [] (Shape.deployments plainSite.clock
      [stampedDeployment "xxxx" eastStamp.wall, stampedDeployment "xxxxx" utcStamp.wall] 2) := by
  have hlisting : mixedStore.IsListing "x" none none
      [stampedDeployment "xxxx" eastStamp.wall, stampedDeployment "xxxxx" utcStamp.wall] := by
    refine ⟨?_, by decide⟩
    intro d
    constructor
    · intro hd
      refine ⟨hd, ?_, trivial, trivial⟩
      revert d
      decide
    · exact And.left
  have hlisted := (mixedStore.isListing_listed (by decide) "x" ⟨none, none, 50, 0⟩).eq hlisting
  have hreadable : mixedStore.readable ((some ana).map (·.id)) "x" =
      .ok ⟨"x", "Harbour", none, .members, false⟩ := rfl
  have hquery : listingQuery (membersOf []) = .valid ⟨none, none, 50, 0⟩ := rfl
  have htells := tells_page plainSite hreadable (Nat.zero_le _) hquery
  rw [← hlisted] at htells
  exact htells

/-- By two clocks, a deployment that is listed first, is the last one by its time and is taken for
the live one was made before the other one, which is none of that. -/
theorem later_instant_behind :
    ∃ c d m n, plainSite.MadeAt (plainSite.run anaServing [projectVisit]).2 mixedVisits c m ∧
      plainSite.MadeAt (plainSite.run anaServing [projectVisit]).2 mixedVisits d n ∧
      m.instant < n.instant ∧
      (plainSite.run (plainSite.run anaServing [projectVisit]).2 mixedVisits).2.registry.store
        = mixedStore ∧
      plainSite.Tells mixedStore (some ana) (.deployments "x") []
        (Shape.deployments plainSite.clock [c, d] 2) ∧
      d.environment = c.environment ∧ d.time ≠ c.time ∧
      mixedStore.lastDeployed? c.environment = some c.time ∧
      mixedStore.lastSuccess? c.environment = some c := by
  have hvisits : mixedVisits = [stampedVisit "2026-01-01T10:00:00+05:30",
      stampedVisit "2026-01-01T08:00:00Z"] := rfl
  obtain ⟨hfirst, hsecond, hstore⟩ := run_stampedVisits registry_projectVisit hvisits
    submitted?_eastVisit submitted?_utcVisit rfl rfl
  refine ⟨_, _, _, _, hfirst, hsecond, by decide, hstore, tells_mixedStore, rfl, by decide, ?_, ?_⟩
  · rw [Store.lastDeployed?_eq_some_iff]
    exact ⟨⟨_, List.mem_cons_self, rfl, rfl⟩, by decide⟩
  · rw [Store.lastSuccess?_eq_some_iff_of_nodup (by decide)]
    exact ⟨List.mem_cons_self, rfl, rfl, by decide⟩

end Http.Site

end DeployRegistry
