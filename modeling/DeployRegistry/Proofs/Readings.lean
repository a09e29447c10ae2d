import DeployRegistry.Proofs.Answers
import DeployRegistry.Proofs.Routing
import DeployRegistry.Proofs.Surfacing

/-!
# How the readings agree

The environments of a project are shown by three endpoints, and their deployments are counted and
listed by a fourth one. The search for a ref lists the available environments for which deployments
of the ref are counted, and the time that is shown with an environment is that of the deployment
that is listed first. All of this is read out of the documents of the answers: lists by their items,
and items by their members. An endpoint counts as offered if a request at its path gets to it; the
one environment that cannot be read by itself is the one whose id is the word for a search. The main
statement is `Http.Site.readings_agree`.
-/

namespace DeployRegistry

set_option autoImplicit false

open Form Text

/-- A search for a ref alone. -/
def Criteria.ofRef (ref : String) : Criteria := ⟨some ref, none, false, false, false⟩

theorem Criteria.plain_ofRef (ref : String) : (Criteria.ofRef ref).Plain :=
  ⟨rfl, fun _ _ => rfl⟩

namespace Store

variable {s : Store} {caller : Option String} {project : String} {p : Project}

/-! What is read in a project by a caller who reads the project. -/

theorem listEnvironments_of_readable (h : s.readable caller project = .ok p)
    (state : Option EnvState) :
    ∃ es, s.listEnvironments caller project state = .ok es ∧ ∀ e, e ∈ es ↔
      e ∈ s.environments ∧ e.project = project ∧ ∀ x ∈ state, e.state = x := by
  obtain ⟨_, rfl⟩ := readable_eq_ok h
  refine ⟨_, by rw [listEnvironments, h]; rfl, ?_⟩
  intro e
  simp only [List.mem_filter, List.mem_mergeSort, s.mem_environmentsOf_iff]
  constructor
  · rintro ⟨⟨⟨he, hproject⟩, hstate⟩, _⟩
    refine ⟨he, hproject, ?_⟩
    intro x hx
    obtain rfl := hx
    simpa using hstate
  · rintro ⟨he, hproject, hstate⟩
    refine ⟨⟨⟨he, hproject⟩, ?_⟩, allowed_of_readable h hproject⟩
    cases state with
    | none => rfl
    | some x => simpa using hstate x rfl

theorem listDeployments_of_readable (h : s.readable caller project = .ok p) (l : Listing) :
    s.listDeployments caller project l =
      .ok (page l (s.listed project l), (s.listed project l).length) := by
  obtain ⟨_, rfl⟩ := readable_eq_ok h
  rw [listDeployments, h]
  rfl

theorem meets_some {wanted : String} (h : wanted ≠ "") (found : String) :
    meets (some wanted) found = true ↔ found = wanted := by
  simp [meets, Option.filter, h]

theorem meets_none (found : String) : meets none found = true := rfl

theorem mem_listed_iff (l : Listing) (d : Deployment) :
    d ∈ s.listed project l ↔ d ∈ s.deployments ∧ d.project = project ∧
      meets l.environment d.environment = true ∧ meets l.ref d.ref = true := by
  simp only [listed, List.mem_mergeSort, List.mem_filter, Bool.and_eq_true, beq_iff_eq, and_assoc]

theorem one_le_length_listed_iff (l : Listing) :
    1 ≤ (s.listed project l).length ↔ ∃ d, d ∈ s.listed project l := by
  rw [Nat.succ_le_iff, List.length_pos_iff_exists_mem]

theorem head?_page {l : Listing} (hfirst : l.offset = 0) (hroom : 1 ≤ l.limit)
    (ds : List Deployment) : (page l ds).head? = ds.head? := by
  rw [page, hfirst, List.drop_zero]
  cases ds with
  | nil => rw [List.take_nil]
  | cons d rest =>
    obtain ⟨n, hn⟩ := Nat.exists_eq_add_of_le' hroom
    rw [hn]
    rfl

/-- Ids tell environments and deployments apart, those of environments are not empty, and a
deployment belongs to the project of its environment. -/
structure Coherent (s : Store) : Prop where
  environments : (s.environments.map (·.id)).Nodup
  deployments : (s.deployments.map (·.id)).Nodup
  named : ∀ e ∈ s.environments, e.id ≠ ""
  owned : ∀ d ∈ s.deployments, ∀ e ∈ s.environments, e.id = d.environment → e.project = d.project

namespace Coherent

variable (hs : s.Coherent)
include hs

theorem getEnvironment_of_readable (h : s.readable caller project = .ok p) {e : Environment}
    (he : e ∈ s.environments) (hproject : e.project = project) :
    s.getEnvironment caller project e.id = .ok e := by
  obtain ⟨_, rfl⟩ := readable_eq_ok h
  have hfound : s.environment? p.id e.id = some e := by
    apply find?_eq_some_of_unique he
    · simp [hproject]
    · intro f hf hk
      simp only [Bool.and_eq_true, beq_iff_eq] at hk
      exact eq_of_key_eq hs.environments hf he hk.1
  rw [getEnvironment, h]
  simp only [bind, Except.bind, hfound, allowed_of_readable h hproject, if_true]
  rfl

theorem nodup_candidates (project : String) (c : Criteria) : (s.candidates project c).Nodup := by
  have hcandidates : ((s.candidates project c).map (·.id)).Nodup :=
    OrdersBy.nodup_mergeSort (nodup_map_filter (nodup_map_filter hs.environments _) _)
  exact hcandidates.of_map

variable {e : Environment} (he : e ∈ s.environments) (hproject : e.project = project)
include he hproject

theorem mem_listed_environment_iff {l : Listing} (hl : l.environment = some e.id)
    (d : Deployment) : d ∈ s.listed project l ↔
      d ∈ s.deployments ∧ d.environment = e.id ∧ meets l.ref d.ref = true := by
  rw [mem_listed_iff, hl, meets_some (hs.named e he)]
  constructor
  · rintro ⟨hd, _, henvironment, href⟩
    exact ⟨hd, henvironment, href⟩
  · rintro ⟨hd, henvironment, href⟩
    have howner := hs.owned d hd e he henvironment.symm
    exact ⟨hd, howner.symm.trans hproject, henvironment, href⟩

/-- A search for a ref counts an environment in where a listing counts a deployment. -/
theorem mem_candidates_iff_listed {c : Criteria} {ref : String} (hc : c.ref = some ref)
    (htags : c.withTags = false) {l : Listing} (hl : l.environment = some e.id)
    (href : l.ref = some ref) (hne : ref ≠ "") :
    e ∈ s.candidates project c ↔ e.state = .available ∧ 1 ≤ (s.listed project l).length := by
  have hmatches : ∀ d, c.matches d = true ↔ d.ref = ref := by
    intro d
    simp [Criteria.matches, hc, htags]
  rw [mem_candidates_iff, one_le_length_listed_iff]
  simp only [hmatches, hs.mem_listed_environment_iff he hproject hl, href, meets_some hne]
  constructor
  · rintro ⟨_, _, hstate, d, hd, _, henvironment, href⟩
    exact ⟨hstate, d, hd, henvironment, href⟩
  · rintro ⟨hstate, d, hd, henvironment, href⟩
    have howner := hs.owned d hd e he henvironment.symm
    exact ⟨he, hproject, hstate, d, hd, howner.symm.trans hproject, henvironment, href⟩

/-- The time of the last deployment is that of the first deployment in the listing. -/
theorem lastDeployed?_eq_head {l : Listing} (hl : l.environment = some e.id)
    (href : l.ref = none) :
    s.lastDeployed? e.id = (s.listed project l).head?.map (·.time) := by
  have hmem := hs.mem_listed_environment_iff he hproject hl
  simp only [href, meets_none, and_true] at hmem
  cases hlisted : s.listed project l with
  | nil =>
    rw [hlisted] at hmem
    rw [List.head?_nil, Option.map_none, lastDeployed?_eq_none_iff]
    intro d hd hid
    exact List.not_mem_nil ((hmem d).mpr ⟨hd, hid⟩)
  | cons first rest =>
    have hfirst : (s.listed project l).head? = some first := by rw [hlisted]; rfl
    rw [listed, Deployment.ordersBy_notBefore.head?_mergeSort_eq_some_iff
      (nodup_map_filter hs.deployments _)] at hfirst
    have hin : first ∈ s.listed project l := hlisted ▸ List.mem_cons_self
    obtain ⟨hd, henvironment⟩ := (hmem first).mp hin
    rw [List.head?_cons, Option.map_some, lastDeployed?_eq_some_iff]
    refine ⟨⟨first, hd, henvironment, rfl⟩, ?_⟩
    intro d hd hdenvironment
    have hbefore := hfirst.2 d ((List.mem_mergeSort).mp ((hmem d).mpr ⟨hd, hdenvironment⟩))
    rw [Deployment.notBefore_iff, WallTime.lt_def] at hbefore
    rw [WallTime.le_def]
    rcases hbefore with hlt | ⟨heq, _⟩
    · omega
    · rw [heq]

end Coherent

end Store

namespace Http

/-! The queries of the listings. -/

def membersOf (query : List (String × String)) : Json.Members :=
  query.foldl (fun ms q => Json.Members.put ms q.1 (.str q.2)) []

theorem listingQuery_of_members {ms : Json.Members} {id : String} {ref : Option String}
    (hid : ms.member? "environment_id" = some (.str id)) (href : ms.member? "ref" = ref.map .str)
    (hlimit : ms.member? "limit" = none) (hoffset : ms.member? "offset" = none) :
    listingQuery ms = .valid ⟨some id, ref, 50, 0⟩ := by
  have henvironment : optional ms "environment_id" text = .valid (some id) := by
    rw [optional_str hid]
    rfl
  have href' : optional ms "ref" text = .valid ref := by
    cases ref with
    | none => exact optional_missing href
    | some ref =>
      rw [optional_str href]
      rfl
  simp only [listingQuery, Checked.map_eq, Checked.seq_eq, henvironment, href', withDefault, hlimit,
    hoffset]
  rfl

/-- What a document shows of an environment. -/
structure ShowsEnvironment (e : Environment) (item : Json) : Prop where
  id : item.member? "id" = some (.str e.id)
  project : item.member? "project_id" = some (.str e.project)
  name : item.member? "name" = some (.str e.name)
  state : item.member? "state" = some (.str (Named.name e.state))

theorem showsEnvironment_shape (clock : Clock) (s : Store) (e : Environment) :
    ShowsEnvironment e (Shape.environment clock s e) := by
  constructor <;>
    simp [Json.member?, Shape.environment, Shape.nameOf, Json.Members.member?_cons]

/-- The moment of the first deployment on a page; none on an empty one. -/
def firstMoment (page : Json) : Json :=
  match itemsIn "deployments" page with
  | first :: _ => (first.member? "deployed_at").getD .null
  | [] => .null

theorem member?_lastDeployed (clock : Clock) (s : Store) (e : Environment) :
    (Shape.environment clock s e).member? "last_deployed_at" =
      some (Json.ofOption (fun t => .str t.text) (s.lastDeployed? e.id)) := by
  simp [Json.member?, Shape.environment, Json.Members.member?_cons]

theorem member?_total (clock : Clock) (ds : List Deployment) (total : Nat) :
    (Shape.deployments clock ds total).member? "total" = some (Json.int total) := by
  simp [Json.member?, Shape.deployments, Json.Members.member?_cons]

/-- The first page of a listing begins with the first deployment of the listing. -/
theorem firstMoment_listed (clock : Clock) (s : Store) (project : String) (l : Listing)
    (hfirst : l.offset = 0) (hroom : 1 ≤ l.limit) :
    firstMoment (Shape.deployments clock (Store.page l (s.listed project l))
      (s.listed project l).length) =
        Json.ofOption (fun t => .str t.text) ((s.listed project l).head?.map (·.time)) := by
  rw [← Store.head?_page hfirst hroom]
  rw [firstMoment, itemsIn_deployments]
  cases Store.page l (s.listed project l) with
  | nil => rfl
  | cons d rest => simp [Json.member?, Shape.deployment, Json.Members.member?_cons, Json.ofOption]

namespace Site

variable {σ : Type}

/-- A request of a caller for a reading, made while the records are as they are in the store. -/
structure Asks (site : Site σ) (s : Store) (asking : Option User) (reading : Reading)
    (query : List (String × String)) (sv : Serving σ) (r : Request) : Prop where
  records : sv.registry.store = s
  route : route site.settings.apiRoot r.method r.path = .endpoint (.reading reading)
  caller : site.caller? sv r = .ok asking
  query : r.query = query

/-- Every such request succeeds, and is answered with the document. -/
def Tells (site : Site σ) (s : Store) (asking : Option User) (reading : Reading)
    (query : List (String × String)) (document : Json) : Prop :=
  ∀ sv r, site.Asks s asking reading query sv r →
    (site.respond sv r).1.status = 200 ∧ (site.respond sv r).1.payload = .structured document

/-- A reading that is told, and that a request at its path is for. -/
structure Offers (site : Site σ) (s : Store) (asking : Option User) (reading : Reading)
    (query : List (String × String)) (document : Json) : Prop where
  told : site.Tells s asking reading query document
  reached : Http.route site.settings.apiRoot "GET" (site.settings.apiRoot ++ reading.path) =
    .endpoint (.reading reading)

/-- What is told of one environment, which is shown in the listings as an item: the same where it is
read by itself, unless its id is no segment of a path or is the word for a search; how many
deployments of the ref it has, which decides whether it is found; and when it was deployed to last,
which is when the deployment was made that is listed first. -/
structure Agrees (site : Site σ) (s : Store) (asking : Option User) (project ref : String)
    (available found : List Environment) (e : Environment) (item : Json) : Prop where
  fields : ShowsEnvironment e item
  shown : '/' ∉ e.id.toList → withoutFeed e.id ≠ "by-deployments" →
    site.Offers s asking (.environment project e.id) [] item
  counted : ∃ (page : Json) (total : Nat),
    site.Offers s asking (.deployments project) [("environment_id", e.id), ("ref", ref)] page ∧
      page.member? "total" = some (Json.int total) ∧ (e ∈ found ↔ e ∈ available ∧ 1 ≤ total)
  dated : ∃ (page : Json) (total : Nat),
    site.Offers s asking (.deployments project) [("environment_id", e.id)] page ∧
      page.member? "total" = some (Json.int total) ∧
      item.member? "last_deployed_at" = some (firstMoment page) ∧
      (firstMoment page = .null ↔ total = 0)

variable {site : Site σ} {s : Store} {asking : Option User} {project : String} {p : Project}

theorem tells_of_read {reading : Reading} {query : List (String × String)} {document : Json}
    (h : ∀ sv : Serving σ, sv.registry.store = s → ∃ after,
      site.read sv (asking.map (·.id)) (membersOf query) reading = (.ok (200, document), after)) :
    site.Tells s asking reading query document := by
  intro sv r hr
  obtain ⟨after, hread⟩ := h sv hr.records
  have hmembers : r.queryMembers = membersOf query := by
    rw [Request.queryMembers, hr.query]
    rfl
  have hperform : site.perform sv r (.reading reading) = (.ok (200, document), after) := by
    simp only [perform, hr.caller, hmembers, hread]
  rw [respond_of_ok hr.route hperform]
  simp [sent, (plain_of_route hr.route).2, Response.structured]

theorem tells_environments {query : List (String × String)} {state : Option EnvState}
    {es : List Environment} (hquery : stateQuery (membersOf query) = .valid state)
    (hes : s.listEnvironments (asking.map (·.id)) project state = .ok es) :
    site.Tells s asking (.environments project) query (Shape.environments site.clock s es) := by
  apply tells_of_read
  intro sv hsv
  refine ⟨sv, ?_⟩
  simp only [read, hquery, Serving.checked, hsv, hes, Serving.view]

theorem tells_deployments (h : s.readable (asking.map (·.id)) project = .ok p)
    {query : List (String × String)} {l : Listing} (hl : l.offset = 0)
    (hquery : listingQuery (membersOf query) = .valid l) :
    site.Tells s asking (.deployments project) query (Shape.deployments site.clock
      (Store.page l (s.listed project l)) (s.listed project l).length) := by
  apply tells_of_read
  intro sv hsv
  have hoffset : ¬ greatestOffset < l.offset := by
    rw [hl]
    exact Nat.not_lt_zero _
  refine ⟨sv, ?_⟩
  simp only [read, hquery, Serving.checked, list, hsv, Store.listDeployments_of_readable h,
    if_neg hoffset]

theorem tells_search (h : s.readable (asking.map (·.id)) project = .ok p)
    {query : List (String × String)} {c : Criteria} (hc : c.Plain)
    (hquery : criteriaQuery (membersOf query) = .valid c) :
    site.Tells s asking (.search project) query
      (Shape.environments site.clock s (s.candidates project c)) := by
  apply tells_of_read
  intro sv hsv
  obtain ⟨⟨client, host⟩, hrun⟩ :=
    hc.findEnvironments_run h (some (site.question sv.ticks)) (sv.client, sv.host)
  refine ⟨{ sv with client := client, host := host }, ?_⟩
  simp only [read, hquery, Serving.checked, find_eq, hsv, hrun, Serving.view]

theorem tells_environment (hs : s.Coherent) (h : s.readable (asking.map (·.id)) project = .ok p)
    {e : Environment} (he : e ∈ s.environments) (hproject : e.project = project) :
    site.Tells s asking (.environment project e.id) [] (Shape.environment site.clock s e) := by
  apply tells_of_read
  intro sv hsv
  refine ⟨sv, ?_⟩
  simp only [read, hsv, hs.getEnvironment_of_readable h he hproject, Serving.view]

theorem agrees_of_mem (hs : s.Coherent) (h : s.readable (asking.map (·.id)) project = .ok p)
    (hpath : IsSegment project) {ref : String} (hne : ref ≠ "") {e : Environment}
    (he : e ∈ s.environments) (hproject : e.project = project) {available : List Environment}
    (havailable : e ∈ available ↔ e.state = .available) :
    site.Agrees s asking project ref available (s.candidates project (.ofRef ref)) e
      (Shape.environment site.clock s e) := by
  have hreached := Reading.route_path (.deployments hpath) site.settings.apiRoot
  constructor
  · exact showsEnvironment_shape site.clock s e
  · intro hslash hword
    exact ⟨tells_environment hs h he hproject,
      Reading.route_path (.environment hpath ⟨hs.named e he, hslash⟩ hword) _⟩
  · have hcounted := hs.mem_candidates_iff_listed he hproject (c := .ofRef ref)
      (l := ⟨some e.id, some ref, 50, 0⟩) rfl rfl rfl rfl hne
    refine ⟨_, _, ⟨tells_deployments h (l := ⟨some e.id, some ref, 50, 0⟩) rfl ?_, hreached⟩,
      member?_total _ _ _, ?_⟩
    · apply listingQuery_of_members <;> rfl
    · rw [hcounted, havailable]
  · have hlast := hs.lastDeployed?_eq_head he hproject (l := ⟨some e.id, none, 50, 0⟩) rfl rfl
    have hmoment := firstMoment_listed site.clock s project ⟨some e.id, none, 50, 0⟩ rfl
      (Nat.succ_pos 49)
    refine ⟨_, _, ⟨tells_deployments h (l := ⟨some e.id, none, 50, 0⟩) rfl ?_, hreached⟩,
      member?_total _ _ _, ?_, ?_⟩
    · apply listingQuery_of_members <;> rfl
    · rw [member?_lastDeployed, hlast, hmoment]
    · rw [hmoment]
      cases s.listed project ⟨some e.id, none, 50, 0⟩ with
      | nil => simp [Json.ofOption]
      | cons d rest => simp [Json.ofOption]

/-- Those who read a project are told the same of its environments everywhere: each environment is
shown by one item, in every listing that it is in and where it is read by itself. A search for a ref
finds each of the available environments once for which deployments of the ref are counted. -/
theorem readings_agree (site : Site σ) (asking : Option User) (hs : s.Coherent)
    (h : s.readable (asking.map (·.id)) project = .ok p) (hpath : IsSegment project)
    {ref : String} (hne : ref ≠ "") (hshort : ref.length ≤ 255) :
    ∃ (item : Environment → Json) (everything available found : List Environment)
      (listing narrowed hits : Json),
      site.Offers s asking (.environments project) [] listing ∧
      itemsIn "environments" listing = everything.map item ∧
      site.Offers s asking (.environments project) [("state", "available")] narrowed ∧
      itemsIn "environments" narrowed = available.map item ∧
      site.Offers s asking (.search project) [("ref", ref)] hits ∧
      itemsIn "environments" hits = found.map item ∧
      (∀ e, e ∈ everything ↔ e ∈ s.environments ∧ e.project = project) ∧
      (∀ e, e ∈ available ↔ e ∈ everything ∧ e.state = .available) ∧
      (∀ e ∈ found, e ∈ available) ∧ found.Nodup ∧
      ∀ e ∈ everything, site.Agrees s asking project ref available found e (item e) := by
  obtain ⟨everything, heverything, hmem⟩ := Store.listEnvironments_of_readable h none
  obtain ⟨available, havailable, hmemAvailable⟩ :=
    Store.listEnvironments_of_readable h (some .available)
  have hall : ∀ e, e ∈ everything ↔ e ∈ s.environments ∧ e.project = project := by
    intro e
    simp [hmem e]
  have hopen : ∀ e, e ∈ available ↔ e ∈ everything ∧ e.state = .available := by
    intro e
    simp [hmemAvailable e, hall e, and_assoc]
  have hreached := Reading.route_path (.environments hpath) site.settings.apiRoot
  refine ⟨Shape.environment site.clock s, everything, available, s.candidates project (.ofRef ref),
    _, _, _, ⟨tells_environments (by rfl) heverything, hreached⟩, itemsIn_environments _ _ _,
    ⟨tells_environments (by rfl) havailable, hreached⟩, itemsIn_environments _ _ _,
    ⟨tells_search h (Criteria.plain_ofRef ref) (criteriaQuery_ref hshort),
      Reading.route_path (.search hpath) _⟩, itemsIn_environments _ _ _, hall, hopen, ?_,
    hs.nodup_candidates project (.ofRef ref), ?_⟩
  · intro e he
    obtain ⟨hin, hproject, hstate, _⟩ := (s.mem_candidates_iff project (.ofRef ref) e).mp he
    exact (hopen e).mpr ⟨(hall e).mpr ⟨hin, hproject⟩, hstate⟩
  · intro e he
    obtain ⟨hin, hproject⟩ := (hall e).mp he
    apply agrees_of_mem hs h hpath hne hin hproject
    rw [hopen]
    simp only [he, true_and]

/-- A search for the main branch alone. -/
def refSearch : Request :=
  (plainVisit "GET" "/api/v1/projects/p/environments/by-deployments" [("ref", "main")] []
    "").request

/-- The deployments of the main branch to the one environment. -/
def refCount : Request :=
  (plainVisit "GET" "/api/v1/projects/p/deployments" [("environment_id", "e"), ("ref", "main")] []
    "").request

/-- The environment is found, and shown as it is shown by itself. -/
theorem readings_agree_harbour :
    ∃ hits item, (plainSite.respond openServing refSearch).1.payload = .structured hits ∧
      itemsIn "environments" hits = [item] ∧ item.member? "id" = some (.str "e") ∧
      plainSite.Offers openStore none (.environment "p" "e") [] item := by
  have hcoherent : openStore.Coherent :=
    ⟨by decide, by decide, by decide, by decide⟩
  have hreadable : openStore.readable none "p" =
      .ok ⟨"p", "Harbour", some "acme/harbour", .everyone, false⟩ := rfl
  have hasks : plainSite.Asks openStore none (.search "p") [("ref", "main")] openServing
      refSearch := ⟨rfl, by decide +kernel, rfl, rfl⟩
  have hcounts : plainSite.Asks openStore none (.deployments "p")
      [("environment_id", "e"), ("ref", "main")] openServing refCount :=
    ⟨rfl, by decide +kernel, rfl, rfl⟩
  obtain ⟨item, everything, available, found, _, _, hits, _, _, _, _, hfound, hitems, hall, hopen,
    hin, hnodup, hagrees⟩ := readings_agree plainSite none hcoherent hreadable
      ⟨by decide, by decide⟩ (by decide : "main" ≠ "") (by decide)
  obtain ⟨e, he⟩ : ∃ e : Environment, e = ⟨"e", "p", "live", .available, false⟩ := ⟨_, rfl⟩
  have hmem : e ∈ everything := (hall e).mpr (by rw [he]; exact ⟨by decide, rfl⟩)
  have hagree := hagrees e hmem
  have hone : found = [e] := by
    obtain ⟨page, total, hpage, htotal, hcounted⟩ := hagree.counted
    rw [he] at hpage
    have htold := total?_of_member? (hpage.told _ _ hcounts).2 htotal
    have hsome : (plainSite.respond openServing refCount).1.total? = some 1 := by decide +kernel
    have hmany : 1 ≤ total := Int.ofNat_le.mp (Option.some.inj (hsome.symm.trans htold)).le
    have he' : e ∈ found :=
      hcounted.mpr ⟨(hopen e).mpr ⟨hmem, by rw [he]⟩, hmany⟩
    -- There is no other environment, and none is found twice.
    have hsame : ∀ f ∈ found, f = e := by
      intro f hf
      have hf' := ((hall f).mp ((hopen f).mp (hin f hf)).1).1
      rw [he]
      exact List.mem_singleton.mp hf'
    exact List.perm_singleton.mp
      ((List.perm_ext_iff_of_nodup hnodup (List.nodup_singleton e)).mpr fun f =>
        ⟨fun hf => List.mem_singleton.mpr (hsame f hf),
          fun hf => (List.mem_singleton.mp hf) ▸ he'⟩)
  have hfields := hagree.fields.id
  have hshown := hagree.shown
  rw [he] at hfields hshown
  refine ⟨hits, item e, (hfound.told _ _ hasks).2, by rw [hitems, hone]; rfl, ?_, ?_⟩
  · rw [he]
    exact hfields
  · rw [he]
    exact hshown (by decide) (by decide)

/-- The id of this environment is the word by which searches are known. -/
def maskedStore : Store :=
  { openStore with
    environments := [⟨"by-deployments", "p", "live", .available, false⟩]
    deployments := [⟨"d", "p", "by-deployments", "main", false, "abcdef1", .success, ⟨1⟩⟩] }

def maskedRequest : Request :=
  (plainVisit "GET" "/api/v1/projects/p/environments/by-deployments" [] [] "").request

/-- Reading that environment by itself is a search, which shows no environment. -/
theorem masked_environment_unread : maskedStore.Coherent ∧ maskedStore.Constrained ∧
    maskedStore.readable none "p" =
      .ok ⟨"p", "Harbour", some "acme/harbour", .everyone, false⟩ ∧
    ∃ document,
      (plainSite.respond (plainServing maskedStore 0) maskedRequest).1.payload =
        .structured document ∧
      ¬ ∃ e ∈ maskedStore.environments, ShowsEnvironment e document := by
  have hreadable : maskedStore.readable none "p" =
      .ok ⟨"p", "Harbour", some "acme/harbour", .everyone, false⟩ := rfl
  refine ⟨⟨by decide, by decide, by decide, by decide⟩,
    ⟨⟨by decide, by decide, by decide, by decide, by decide, by decide⟩, by decide⟩, hreadable, ?_⟩
  have hasks : plainSite.Asks maskedStore none (.search "p") [] (plainServing maskedStore 0)
      maskedRequest := ⟨rfl, by decide +kernel, rfl, rfl⟩
  have hquery : criteriaQuery (membersOf []) = .valid ⟨none, none, false, false, false⟩ := rfl
  refine ⟨_, (tells_search hreadable ⟨rfl, fun _ _ => rfl⟩ hquery _ _ hasks).2, ?_⟩
  rintro ⟨e, _, hshows⟩
  have hid := hshows.id
  simp [Json.member?, Shape.environments, Json.Members.member?_cons] at hid

end Site

end Http

end DeployRegistry
