import DeployRegistry.Proofs.Finding
import DeployRegistry.Proofs.Submissions
import DeployRegistry.Proofs.Visits

/-!
# Answers to searches

What the answer to a search lists. Whatever is looked for, only available environments of the
project are listed. Where nothing but a ref or a commit is named, all of them are listed that have
such a deployment, each once.
-/

namespace DeployRegistry

set_option autoImplicit false

/-- What comes down to the check of access, for all candidates. -/
structure Criteria.Plain (c : Criteria) : Prop where
  all : c.latestOnly = false
  checks : ∀ caller e, c.checks caller e = [.allowed caller .readEnvironment e]

namespace Criteria.Plain

section

variable {ε σ : Type} {s : Store} {caller : Option String} {c : Criteria} (hc : c.Plain)
include hc

theorem settles_resolve {project : String} {p : Project}
    (hreadable : s.readable caller project = .ok p)
    (host : Option (Question → ExceptT ε (StateM σ) Bool)) :
    Settles (·.Current s) ((Checks.stored s host).resolve s project caller c)
      (s.candidates project c) := by
  have hrun : ∀ e, ∀ check ∈ c.checks caller e, Settles (·.Current s)
      ((Checks.stored s host).run check) (s.answer false (fun _ => false) check) := by
    intro e check hcheck
    rw [hc.checks, List.mem_singleton] at hcheck
    obtain rfl := hcheck
    exact settles_allowed s caller .readEnvironment (.environment e)
  have hsettled : c.settled s project caller (s.answer false fun _ => false) =
      s.candidates project c := by
    simp only [Criteria.settled, hc.all, Bool.false_eq_true, if_false]
    refine List.filter_eq_self.mpr fun e he => ?_
    have hproject := ((s.mem_candidates_iff project c e).mp he).2.1
    rw [hc.checks, List.all_cons, List.all_nil, Bool.and_true]
    exact Store.allowed_of_readable hreadable hproject
  rw [← hsettled]
  exact Settles.resolve hrun s project

/-- Whoever reads the project finds all candidates, whatever the host does. -/
theorem findEnvironments_run {project : String} {p : Project}
    (hreadable : s.readable caller project = .ok p)
    (host : Option (Question → ExceptT ε (StateM σ) Bool)) (world : σ) :
    ∃ world', ((s.findEnvironments caller project c host).run).run world =
      (.ok (.ok (s.candidates project c)), world') := by
  obtain ⟨_, rfl⟩ := Store.readable_eq_ok hreadable
  exact findEnvironments_of_settles world hreadable (hc.settles_resolve hreadable host)

end

end Criteria.Plain

namespace Http

open Form Text

def idOf? : Json → Option String
  | .obj ms =>
    match Json.Members.member? ms "id" with
    | some (.str s) => some s
    | _ => none
  | _ => none

/-- What a document lists under a name. -/
def itemsIn (name : String) (document : Json) : List Json :=
  match document.member? name with
  | some (.arr items) => items
  | _ => []

theorem itemsIn_environments (clock : Clock) (s : Store) (es : List Environment) :
    itemsIn "environments" (Shape.environments clock s es) =
      es.map (Shape.environment clock s) := by
  simp [itemsIn, Json.member?, Shape.environments, Json.Members.member?_cons]

theorem itemsIn_deployments (clock : Clock) (ds : List Deployment) (total : Nat) :
    itemsIn "deployments" (Shape.deployments clock ds total) =
      ds.map (Shape.deployment clock) := by
  simp [itemsIn, Json.member?, Shape.deployments, Json.Members.member?_cons]

/-- The ids of the deployments that an answer lists, in its order. -/
def Response.pageIds (r : Response) : List String :=
  match r.payload with
  | .structured document => (itemsIn "deployments" document).filterMap idOf?
  | .plain _ => []

/-- The number that an answer gives of everything that it lists a page of. -/
def Response.total? (r : Response) : Option Int :=
  match r.payload with
  | .structured document =>
    match document.member? "total" with
    | some (.num (.whole n)) => some n
    | _ => none
  | .plain _ => none

theorem pageIds_of_payload {r : Response} {clock : Clock} {ds : List Deployment} {total : Nat}
    (h : r.payload = .structured (Shape.deployments clock ds total)) :
    r.pageIds = ds.map (·.id) := by
  have hid : ∀ d, idOf? (Shape.deployment clock d) = some d.id := by
    intro d
    simp [idOf?, Shape.deployment, Json.Members.member?_cons]
  rw [Response.pageIds, h]
  dsimp only
  rw [itemsIn_deployments, List.filterMap_map, Function.comp_def]
  simp only [hid, List.filterMap_eq_map']

theorem total?_of_member? {r : Response} {document : Json} {total : Nat}
    (h : r.payload = .structured document)
    (htotal : document.member? "total" = some (Json.int total)) :
    r.total? = some (total : Int) := by
  rw [Response.total?, h]
  dsimp only
  rw [htotal]
  rfl

/-- The ids of the environments that an answer lists, in its order. -/
def Response.listedIds (r : Response) : List String :=
  match r.payload with
  | .structured (.obj ms) =>
    match Json.Members.member? ms "environments" with
    | some (.arr items) => items.filterMap idOf?
    | _ => []
  | _ => []

theorem listedIds_environments (clock : Clock) (s : Store) (es : List Environment) (status : Nat) :
    (Response.structured status (Shape.environments clock s es)).listedIds = es.map (·.id) := by
  have hid : ∀ e, idOf? (Shape.environment clock s e) = some e.id := by
    intro e
    simp [idOf?, Shape.environment, Json.Members.member?_cons]
  simp only [Response.listedIds, Response.structured, Shape.environments,
    Json.Members.member?_cons, if_true, List.filterMap_map]
  induction es with
  | nil => rfl
  | cons e rest ih =>
    rw [List.filterMap_cons, Function.comp_apply, hid, ih]
    rfl

theorem listedIds_mark (allowed : List String) (r : Request) (answer : Response) :
    (Origin.mark allowed r answer).listedIds = answer.listedIds := by
  unfold Origin.mark
  split <;> rfl

theorem listedIds_of_problem {problem : Problem} {answer : Response}
    (h : problem.response? = some answer) : answer.listedIds = [] := by
  have hdetail : ∀ status text, (Response.detail status text).listedIds = [] := by
    intro status text
    simp [Response.listedIds, Response.detail, Response.structured, Json.Members.member?_cons]
  have hchallenged : ∀ status text scheme,
      (Problem.challenged status text scheme).listedIds = [] := by
    intro status text scheme
    cases scheme with
    | none => exact hdetail status text
    | some s => exact hdetail status text
  cases problem with
  | denied d =>
    cases h
    exact hdetail _ _
  | refused refusal =>
    obtain ⟨text, _, rfl⟩ := Option.map_eq_some_iff.mp h
    exact hchallenged _ _ _
  | anonymous =>
    cases h
    exact hchallenged _ _ _
  | invalid issues =>
    simp only [Problem.response?] at h
    split at h
    · cases h
      simp [Response.listedIds, Response.structured, Json.Members.member?_cons]
    · cases h
  | unreadableBody =>
    cases h
    exact hdetail _ _
  | hostDown =>
    cases h
    exact hdetail _ _
  | breakdown => cases h

namespace Site

variable {σ : Type} (site : Site σ) (sv : Serving σ) {r : Request} {project : String}

theorem listedIds_sent (hr : r.method ≠ "HEAD") (answer : Response) :
    (site.sent r answer).listedIds = answer.listedIds := by
  rw [sent, if_neg hr, listedIds_mark]
  rfl

variable {site sv} (project) in
/-- With a caller and criteria, a search is carried out. -/
theorem perform_search {asking : Option User} (hcaller : site.caller? sv r = .ok asking)
    {c : Criteria} (hc : criteriaQuery r.queryMembers = .valid c) :
    site.perform sv r (.reading (.search project)) =
      site.find sv (asking.map (·.id)) project c := by
  simp only [perform, hcaller, read, hc, Serving.checked]

/-- The answer to a search is that of the search itself, or says what the problem is. -/
theorem search_cases (hroute : route site.settings.apiRoot r.method r.path =
      .endpoint (.reading (.search project))) :
    (site.respond sv r).1.listedIds = [] ∨
      ∃ asking c es world, site.caller? sv r = .ok asking ∧
        criteriaQuery r.queryMembers = .valid c ∧
        ((sv.registry.store.findEnvironments (asking.map (·.id)) project c
          (some (site.question sv.ticks))).run).run (sv.client, sv.host) = (.ok (.ok es), world) ∧
        (site.respond sv r).1.status = 200 ∧ (site.respond sv r).1.listedIds = es.map (·.id) := by
  have hhead := (plain_of_route hroute).2
  have hproblem : ∀ problem sv', site.perform sv r (.reading (.search project)) =
      (.error problem, sv') → (site.respond sv r).1.listedIds = [] := by
    intro problem sv' h
    rw [respond_of_error hroute h]
    cases hp : problem.response? with
    | none => rfl
    | some answer =>
      rw [Option.map_some, Option.getD_some, site.listedIds_sent hhead]
      exact listedIds_of_problem hp
  cases hcaller : site.caller? sv r with
  | error problem =>
    refine Or.inl (hproblem problem sv ?_)
    rw [perform, hcaller]
  | ok asking =>
    cases hc : criteriaQuery r.queryMembers with
    | invalid issues =>
      refine Or.inl (hproblem (.invalid issues) sv ?_)
      simp only [perform, hcaller, read, hc, Serving.checked]
    | valid c =>
      have hperform := perform_search project hcaller hc
      rw [find_eq] at hperform
      rcases hrun : ((sv.registry.store.findEnvironments (asking.map (·.id)) project c
        (some (site.question sv.ticks))).run).run (sv.client, sv.host) with
        ⟨u | d | es, client, host⟩
      · rw [hrun] at hperform
        exact Or.inl (hproblem _ _ hperform)
      · rw [hrun] at hperform
        exact Or.inl (hproblem _ _ hperform)
      · rw [hrun] at hperform
        refine Or.inr ⟨asking, c, es, (client, host), rfl, rfl, hrun, ?_, ?_⟩
        · rw [respond_of_ok hroute hperform]
          simp [sent, hhead, Response.structured]
        · rw [respond_of_ok hroute hperform, site.listedIds_sent hhead, listedIds_environments]

variable {sv}

/-- Whatever is looked for, only available environments of the project are listed. -/
theorem available_of_listed
    (hroute : route site.settings.apiRoot r.method r.path = .endpoint (.reading (.search project)))
    {id : String} (h : id ∈ (site.respond sv r).1.listedIds) :
    ∃ e ∈ sv.registry.store.environments, e.id = id ∧ e.project = project ∧
      e.state = .available := by
  rcases site.search_cases sv hroute with hnone | ⟨asking, c, es, world, _, _, hrun, _, hids⟩
  · rw [hnone] at h
    cases h
  · rw [hids] at h
    obtain ⟨e, he, rfl⟩ := List.mem_map.mp h
    have hcandidate := (mem_of_findEnvironments_run hrun).2 e he
    rw [Store.mem_candidates_iff] at hcandidate
    exact ⟨e, hcandidate.1, rfl, hcandidate.2.1, hcandidate.2.2.1⟩

/-- A plain search shows all candidates to those who see the project. -/
theorem listedIds_of_plain (hs : sv.registry.store.Keyed)
    (hroute : route site.settings.apiRoot r.method r.path = .endpoint (.reading (.search project)))
    {asking : Option User} (hcaller : site.caller? sv r = .ok asking)
    (hshown : sv.registry.store.Shows (asking.map (·.id)) project) {c : Criteria} (hplain : c.Plain)
    (hc : criteriaQuery r.queryMembers = .valid c) :
    (site.respond sv r).1.status = 200 ∧ (site.respond sv r).1.listedIds =
      (sv.registry.store.candidates project c).map (·.id) := by
  have hhead := (plain_of_route hroute).2
  obtain ⟨p, hreadable⟩ := hs.readable_of_shows hshown
  obtain ⟨⟨client, host⟩, hrun⟩ := hplain.findEnvironments_run hreadable
    (some (site.question sv.ticks)) (sv.client, sv.host)
  have hperform := perform_search project hcaller hc
  rw [find_eq, hrun] at hperform
  rw [respond_of_ok hroute hperform, site.listedIds_sent hhead, listedIds_environments]
  exact ⟨by simp [sent, hhead, Response.structured], rfl⟩

end Site

end Http

end DeployRegistry
