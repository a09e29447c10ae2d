import DeployRegistry.Proofs.Settling

/-!
# What a search finds

The full answer to a search has exactly the environments that run what is looked for, each once,
in the order of their last deployments. The search for the latest one alone, which goes through the
candidates the other way and stops early, finds the last of the full answer.
-/

namespace DeployRegistry

set_option autoImplicit false

/-- The deployments that are looked for: those of the ref, and with it those of any tag where tags
are asked for; without a ref those of the commit. -/
inductive Criteria.Wanted (c : Criteria) (d : Deployment) : Prop
  | ref (hr : c.ref = some d.ref)
  | tag (ref : String) (hr : c.ref = some ref) (ht : c.withTags = true) (hd : d.tag = true)
  | commit (hr : c.ref = none) (hc : c.commit = some d.sha)

theorem Criteria.matches_iff_wanted (c : Criteria) (d : Deployment) :
    c.matches d = true ↔ c.Wanted d := by
  constructor
  · intro h
    rw [Criteria.matches] at h
    split at h
    · next ref hr =>
      rw [Bool.or_eq_true, beq_iff_eq, Bool.and_eq_true] at h
      rcases h with h | ⟨ht, hd⟩
      · exact .ref (h ▸ hr)
      · exact .tag ref hr ht hd
    · next sha hr hc =>
      exact .commit hr (beq_iff_eq.mp h ▸ hc)
    · cases h
  · intro h
    cases h with
    | ref hr => simp [Criteria.matches, hr]
    | tag ref hr ht hd => simp [Criteria.matches, hr, ht, hd]
    | commit hr hc => simp [Criteria.matches, hr, hc]

theorem Criteria.all_checks_iff (c : Criteria) (caller : Option String) (e : Environment)
    (answer : Check → Bool) :
    (c.checks caller e).all answer = true ↔
      answer (.allowed caller .readEnvironment e) = true ∧
      (∀ ref, c.ref = some ref → c.recentlyUpdated = true →
        answer (.recentlyUpdated e ref) = true) ∧
      (∀ ref sha, c.ref = some ref → c.commit = some sha →
        answer (.includesCommit e sha) = true) := by
  cases hr : c.ref <;> cases hc : c.commit <;> cases hu : c.recentlyUpdated <;>
    simp [Criteria.checks, hr, hc, hu]

namespace Store

variable {s : Store}

/-- What it takes to be found in a project: to be one of its available environments with a
deployment that is looked for, and to be readable by the caller; where the last deployment has to
come from the ref, that the live one does; and where a commit is given beside the ref, that the live
deployment is of that commit or of a later one, as the host of the repository says. -/
structure Runs (s : Store) (p : Project) (caller : Option String) (c : Criteria) (hosted : Bool)
    (reply : Question → Bool) (e : Environment) : Prop where
  mem : e ∈ s.environments
  home : e.project = p.id
  available : e.state = .available
  deployed : ∃ d ∈ s.deployments, d.project = p.id ∧ d.environment = e.id ∧ c.Wanted d
  shown : s.Shows caller p.id
  recent : ∀ ref, c.ref = some ref → c.recentlyUpdated = true →
    ∃ d, s.IsLive e.id d ∧ d.ref = ref
  included : ∀ ref sha, c.ref = some ref → c.commit = some sha →
    ∃ d, s.IsLive e.id d ∧ (d.sha = sha ∨ hosted = true ∧ ∃ repository,
      p.repository = some repository ∧ repository ≠ "" ∧ reply ⟨repository, sha, d.sha⟩ = true)

theorem Keyed.answer_recentlyUpdated_iff (hs : s.Keyed) (hosted : Bool) (reply : Question → Bool)
    (e : Environment) (ref : String) :
    s.answer hosted reply (.recentlyUpdated e ref) = true ↔ ∃ d, s.IsLive e.id d ∧ d.ref = ref := by
  simp only [answer, ← hs.lastSuccess?_eq_some_iff]
  cases s.lastSuccess? e.id <;> simp

theorem Keyed.repository?_eq_some_iff (hs : s.Keyed) {p : Project} (hp : p ∈ s.projects)
    (repository : String) :
    s.repository? p.id = some repository ↔ p.repository = some repository ∧ repository ≠ "" := by
  have hfound : s.project? p.id = some p := (hs.project?_eq_some_iff _ _).mpr ⟨hp, rfl⟩
  simp [repository?, hfound, Option.filter_eq_some_iff]

theorem Keyed.answer_includesCommit_iff (hs : s.Keyed) {p : Project} (hp : p ∈ s.projects)
    (hosted : Bool) (reply : Question → Bool) {e : Environment} (he : e.project = p.id)
    (sha : String) :
    s.answer hosted reply (.includesCommit e sha) = true ↔
      ∃ d, s.IsLive e.id d ∧ (d.sha = sha ∨ hosted = true ∧ ∃ repository,
        p.repository = some repository ∧ repository ≠ "" ∧
          reply ⟨repository, sha, d.sha⟩ = true) := by
  simp only [answer, ← hs.lastSuccess?_eq_some_iff, ← and_assoc, ← hs.repository?_eq_some_iff hp]
  cases s.lastSuccess? e.id with
  | none => simp
  | some d =>
    by_cases hd : d.sha = sha
    · simp [inclusion, hd]
    · cases hr : s.repository? p.id with
      | none => simp [inclusion, he, hr, hd]
      | some repository => cases hosted <;> simp [inclusion, he, hr, hd]

/-- The candidates that pass all checks are those that run what is looked for. -/
theorem Keyed.mem_passing_iff (hs : s.Keyed) {p : Project} (hp : p ∈ s.projects)
    (caller : Option String) (c : Criteria) (hosted : Bool) (reply : Question → Bool)
    (e : Environment) :
    e ∈ (s.candidates p.id c).filter (fun e => (c.checks caller e).all (s.answer hosted reply)) ↔
      s.Runs p caller c hosted reply e := by
  rw [List.mem_filter, mem_candidates_iff, c.all_checks_iff]
  simp only [c.matches_iff_wanted, hs.answer_recentlyUpdated_iff]
  constructor
  · rintro ⟨⟨he, hhome, hstate, hdeployed⟩, hallowed, hrecent, hincluded⟩
    refine ⟨he, hhome, hstate, hdeployed, ?_, hrecent, fun ref sha hr hc => ?_⟩
    · exact (hs.allowed_read_environment_iff hp hhome caller).mp hallowed
    · exact (hs.answer_includesCommit_iff hp hosted reply hhome sha).mp (hincluded ref sha hr hc)
  · rintro ⟨he, hhome, hstate, hdeployed, hshown, hrecent, hincluded⟩
    refine ⟨⟨he, hhome, hstate, hdeployed⟩, ?_, hrecent, fun ref sha hr hc => ?_⟩
    · exact (hs.allowed_read_environment_iff hp hhome caller).mpr hshown
    · exact (hs.answer_includesCommit_iff hp hosted reply hhome sha).mpr (hincluded ref sha hr hc)

theorem Keyed.nodup_candidates (hs : s.Keyed) (project : String) (c : Criteria) :
    ((s.candidates project c).map (·.id)).Nodup :=
  OrdersBy.nodup_mergeSort (nodup_map_filter (hs.nodup_environmentsOf project) _)

theorem Keyed.pairwise_earlier (hs : s.Keyed) (project : String) {c : Criteria}
    (hc : c.latestOnly = false) : (s.candidates project c).Pairwise s.Earlier := by
  have hids := List.pairwise_map.mp (hs.nodup_candidates project c)
  have hsorted : (s.candidates project c).Pairwise fun a b => s.oldestFirst a b = true := by
    rw [candidates, hc]
    exact s.ordersBy_oldestFirst.pairwise_mergeSort _
  exact (hsorted.and hids).imp fun h => earlier_of_oldestFirst h.1 h.2

/-- The candidates for the latest one alone are the same, the other way round. -/
theorem Keyed.candidates_latest (hs : s.Keyed) (project : String) (c : Criteria) :
    s.candidates project { c with latestOnly := true } =
      (s.candidates project { c with latestOnly := false }).reverse :=
  s.ordersBy_oldestFirst.mergeSort_flip (nodup_map_filter (hs.nodup_environmentsOf project) _)

end Store

/-! A search in a project, by a caller who may or may not see it. -/

section

variable {ε σ : Type} (s : Store) (caller : Option String) (project : String) (c : Criteria)
  (host : Option (Question → ExceptT ε (StateM σ) Bool)) (world : σ)

/-- A search in a project that the caller does not see ends at once; in any other one it is the
resolution among the candidates, with nothing remembered from before. -/
theorem findEnvironments_run : ((s.findEnvironments caller project c host).run).run world =
    match s.readable caller project with
    | .error d => (.ok (.error d), world)
    | .ok p =>
      match outcome ((Checks.stored s host).resolve s p.id caller c) Recollection.empty world with
      | (.ok (es, _), world) => (.ok (.ok es), world)
      | (.error e, world) => (.error e, world) := by
  unfold Store.findEnvironments
  cases s.readable caller project with
  | error d => rfl
  | ok p =>
    have hrun :
        (((Checks.stored s host).resolve s p.id caller c Recollection.empty).run).run world =
          outcome ((Checks.stored s host).resolve s p.id caller c) Recollection.empty world := rfl
    simp only [StateT.run', ExceptT.run_bind, StateT.run_bind, ExceptT.run_map, StateT.run_map,
      hrun]
    rcases outcome ((Checks.stored s host).resolve s p.id caller c) Recollection.empty world with
      ⟨e | ⟨es, known⟩, world'⟩
    · rfl
    · rfl

variable {s caller project c host}

/-- A search whose resolution settles finds what it settles on. -/
theorem findEnvironments_of_settles {p : Project} (h : s.readable caller project = .ok p)
    {es : List Environment}
    (hsettles : Settles (·.Current s) ((Checks.stored s host).resolve s p.id caller c) es) :
    ∃ world', ((s.findEnvironments caller project c host).run).run world =
      (.ok (.ok es), world') := by
  obtain ⟨known, world', hrun, _⟩ := hsettles _ world (Recollection.current_empty s)
  refine ⟨world', ?_⟩
  rw [findEnvironments_run, h]
  dsimp only
  rw [hrun]

variable {world}

/-- Whatever a search finds is among the candidates of a project that the caller sees. -/
theorem mem_of_findEnvironments_run {es : List Environment} {world' : σ}
    (h : ((s.findEnvironments caller project c host).run).run world = (.ok (.ok es), world')) :
    (∃ p, s.readable caller project = .ok p) ∧ ∀ e ∈ es, e ∈ s.candidates project c := by
  rw [findEnvironments_run] at h
  cases hp : s.readable caller project with
  | error d =>
    rw [hp] at h
    cases h
  | ok p =>
    refine ⟨⟨p, rfl⟩, ?_⟩
    obtain ⟨_, rfl⟩ := Store.readable_eq_ok hp
    rw [hp] at h
    dsimp only at h
    split at h
    · next es' known world₁ hrun =>
      cases h
      exact yields_resolve _ s p.id caller c _ _ _ _ _ hrun
    · cases h

end

/-- The full search, with the roles and deployments of the store and a host that always answers: it
succeeds, with exactly the environments that run what is looked for, each once, those with earlier
last deployments first and at equal times those with smaller ids. -/
theorem full_search_exact {ε σ : Type} {s : Store} (hs : s.Keyed) {p : Project}
    (hp : p ∈ s.projects) (caller : Option String) {c : Criteria} (hc : c.latestOnly = false)
    {host : Option (Question → ExceptT ε (StateM σ) Bool)} {reply : Question → Bool}
    (hh : ∀ ask ∈ host, Answers ask reply) (world : σ) :
    ∃ es known world',
      outcome ((Checks.stored s host).resolve s p.id caller c) Recollection.empty world =
        (.ok (es, known), world') ∧
      (∀ e, e ∈ es ↔ s.Runs p caller c host.isSome reply e) ∧
      es.Nodup ∧ es.Pairwise s.Earlier := by
  have hchecks : ∀ e, ∀ check ∈ c.checks caller e, Settles (·.Current s)
      ((Checks.stored s host).run check) (s.answer host.isSome reply check) :=
    fun _ check _ => settles_stored s hh check
  have hsettles := Settles.resolve hchecks s p.id
  obtain ⟨known, world', hrun, _⟩ := hsettles _ world (Recollection.current_empty s)
  refine ⟨_, known, world', hrun, fun e => ?_, ?_, ?_⟩
  · rw [Criteria.settled, hc]
    exact hs.mem_passing_iff hp caller c host.isSome reply e
  · rw [Criteria.settled, hc]
    exact (hs.nodup_candidates p.id c).of_map.filter _
  · rw [Criteria.settled, hc]
    exact (hs.pairwise_earlier p.id hc).filter _

/-- A project with three environments. The last deployment to the first one failed, the second one
runs an older commit since the same moment, and the third one is stopped. -/
def harbourStore : Store where
  users := [⟨"ana", "Ana", "ana@example.com"⟩]
  projects := [⟨"p", "Harbour", some "acme/harbour", .members, false⟩]
  memberships := [⟨"m", "ana", "p", .owner⟩]
  environments := [⟨"e1", "p", "test", .available, false⟩, ⟨"e2", "p", "beta", .available, false⟩,
    ⟨"e3", "p", "live", .stopped, true⟩]
  deployments := [
    ⟨"d1", "p", "e1", "main", false, "abcdef0", .success, ⟨1⟩⟩,
    ⟨"d2", "p", "e1", "next", false, "abcdef2", .failed, ⟨2⟩⟩,
    ⟨"d3", "p", "e2", "main", false, "abcdef1", .success, ⟨2⟩⟩,
    ⟨"d4", "p", "e3", "main", false, "abcdef0", .success, ⟨3⟩⟩]

/-- The host says that the first commit is an ancestor of the second one, and nothing else. -/
def harbourReply (q : Question) : Bool := q == ⟨"acme/harbour", "abcdef0", "abcdef1"⟩

def harbourHost (q : Question) : ExceptT Unit (StateM Unit) Bool := pure (harbourReply q)

theorem answers_harbourHost : ∀ ask ∈ some harbourHost, Answers ask harbourReply := by
  intro ask hask q world
  obtain rfl := Option.some.inj hask
  exact ⟨world, rfl⟩

theorem keyed_harbourStore : harbourStore.Keyed where
  users := by decide
  projects := by decide
  memberships := by decide
  environments := by decide
  deployments := by decide
  roles := by decide

/-- The environments in which the last success came from the main branch with the commit. -/
def harbourCriteria : Criteria := ⟨some "main", some "abcdef0", false, false, true⟩

theorem full_search_exact_harbour :
    ∃ es known world',
      outcome ((Checks.stored harbourStore (some harbourHost)).resolve harbourStore "p"
        (some "ana") harbourCriteria) Recollection.empty () = (.ok (es, known), world') ∧
      (∀ e, e ∈ es ↔ harbourStore.Runs ⟨"p", "Harbour", some "acme/harbour", .members, false⟩
        (some "ana") harbourCriteria true harbourReply e) ∧
      es.Nodup ∧ es.Pairwise harbourStore.Earlier :=
  full_search_exact keyed_harbourStore List.mem_cons_self (some "ana") rfl answers_harbourHost ()

/-- Where every check settles, the search for the latest one alone finds the last of the full
answer, and nothing where that is empty. It is the one deployed last, and of several at that time
the one that the full answer has last. -/
theorem latest_search_eq_last {κ ε σ : Type} {s : Store} (hs : s.Keyed)
    {k : Checks (Asking κ ε σ)} {answer : Check → Bool} {Good : κ → Prop}
    (hk : ∀ check, Settles Good (k.run check) (answer check)) (project : String)
    (caller : Option String) (c : Criteria) {known known' : κ} (hgood : Good known)
    (hgood' : Good known') (world world' : σ) :
    ∃ es known₁ world₁ known₂ world₂,
      outcome (k.resolve s project caller { c with latestOnly := false }) known world =
        (.ok (es, known₁), world₁) ∧
      outcome (k.resolve s project caller { c with latestOnly := true }) known' world' =
        (.ok (es.getLast?.toList, known₂), world₂) ∧
      ∀ last, es.getLast? = some last → ∀ e ∈ es, e = last ∨ s.Earlier e last := by
  have hresolve : ∀ c : Criteria,
      Settles Good (k.resolve s project caller c) (c.settled s project caller answer) :=
    fun c => Settles.resolve (fun _ check _ => hk check) s project
  obtain ⟨known₁, world₁, hfull, _⟩ :=
    hresolve { c with latestOnly := false } known world hgood
  obtain ⟨known₂, world₂, hlatest, _⟩ :=
    hresolve { c with latestOnly := true } known' world' hgood'
  refine ⟨_, known₁, world₁, known₂, world₂, hfull, ?_, ?_⟩
  · rw [hlatest]
    simp only [Criteria.settled, if_true, Bool.false_eq_true, if_false, hs.candidates_latest,
      List.filter_reverse, List.head?_reverse]
    rfl
  · intro last hlast e he
    have hsorted :
        (Criteria.settled { c with latestOnly := false } s project caller answer).Pairwise
          s.Earlier :=
      (hs.pairwise_earlier project rfl).filter _
    obtain ⟨front, hfront⟩ := List.getLast?_eq_some_iff.mp hlast
    have hes : (Criteria.settled { c with latestOnly := false } s project caller answer) =
        front ++ [last] := hfront
    have hpairs := hes ▸ hsorted
    rcases List.mem_append.mp (hes ▸ he) with hin | hin
    · exact Or.inr ((List.pairwise_append.mp hpairs).2.2 e hin last (List.mem_singleton.mpr rfl))
    · exact Or.inl (List.mem_singleton.mp hin)

theorem latest_search_eq_last_harbour :
    ∃ es known₁ world₁ known₂ world₂,
      outcome ((Checks.stored harbourStore (some harbourHost)).resolve harbourStore "p"
        (some "ana") { harbourCriteria with latestOnly := false }) Recollection.empty () =
          (.ok (es, known₁), world₁) ∧
      outcome ((Checks.stored harbourStore (some harbourHost)).resolve harbourStore "p"
        (some "ana") { harbourCriteria with latestOnly := true }) Recollection.empty () =
          (.ok (es.getLast?.toList, known₂), world₂) ∧
      ∀ last, es.getLast? = some last → ∀ e ∈ es, e = last ∨ harbourStore.Earlier e last :=
  latest_search_eq_last keyed_harbourStore (settles_stored harbourStore answers_harbourHost) "p"
    (some "ana") harbourCriteria (Recollection.current_empty harbourStore)
    (Recollection.current_empty harbourStore) () ()

end DeployRegistry
