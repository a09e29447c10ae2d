import DeployRegistry.Ancestry.Client
import DeployRegistry.Http.Content
import DeployRegistry.Http.Origin
import DeployRegistry.Http.Problem
import DeployRegistry.Http.Route
import DeployRegistry.Http.Shape
import DeployRegistry.RequestId
import DeployRegistry.Service.Deployments
import DeployRegistry.Service.Environments

/-!
# The registry over HTTP

How a request is answered and what it changes. A request is routed, its body is read, its caller is
identified, its query and body are checked, and only then is it carried out. A request with a
problem leaves the records as they were.
-/

namespace DeployRegistry.Http

set_option autoImplicit false

open Form Number

/-- What does not change while requests are served. `send` asks the host of the repositories, whose
own state is of type `σ`. -/
structure Site (σ : Type) where
  settings : Settings
  ids : Ids
  freshRequestId : String
  clock : Clock
  send : HostRequest → StateM σ Delivery

/-- What requests and time change. -/
structure Serving (σ : Type) where
  registry : Registry
  client : Client
  now : WallTime
  ticks : Binary64
  host : σ

variable {σ : Type}

/-- What became of a request: the number and document of its answer, or a problem. -/
abbrev Outcome := Except Problem (Nat × Json)

namespace Site

def signer (site : Site σ) : Token.Signer :=
  ⟨site.settings.algorithm, site.settings.secret⟩

/-- The caller who holds the credentials of a request; none without credentials. -/
def caller? (site : Site σ) (sv : Serving σ) (r : Request) : Except Problem (Option User) :=
  match Token.holder? site.signer sv.now sv.registry.store (bearer? r) with
  | .error refusal => .error (.refused refusal)
  | .ok caller => .ok caller

/-- A question to the host, through the client and at the present tick. -/
def question (site : Site σ) (ticks : Binary64) (q : Question) :
    ExceptT Unanswered (StateM (Client × σ)) Bool := do
  let s ← get
  let (asked, host) := (s.1.ask ticks q site.send).run s.2
  set (asked.client, host)
  match asked.answer with
  | .ok answer => pure answer
  | .error u => throw u

end Site

namespace Serving

/-- The answer to a wish that changes records, and the records afterwards. -/
def change {α : Type} (sv : Serving σ) (status : Nat) (shape : Store → α → Json)
    (wish : Except Denial (α × Registry)) : Outcome × Serving σ :=
  match wish with
  | .error d => (.error (.denied d), sv)
  | .ok (a, registry) => (.ok (status, shape registry.store a), { sv with registry := registry })

def view {α : Type} (sv : Serving σ) (shape : α → Json) (wish : Except Denial α) :
    Outcome × Serving σ :=
  match wish with
  | .error d => (.error (.denied d), sv)
  | .ok a => (.ok (200, shape a), sv)

/-- Goes on with a checked value. -/
def checked {α : Type} (sv : Serving σ) (x : Checked α) (next : α → Outcome × Serving σ) :
    Outcome × Serving σ :=
  match x with
  | .valid a => next a
  | .invalid issues => (.error (.invalid issues), sv)

end Serving

/-- The state of a listing of environments. -/
def stateQuery (ms : Json.Members) : Checked (Option EnvState) :=
  (optional ms "state" (word EnvState)).under "query"

def text : Rule String
  | .str s => .valid s
  | _ => .issue .notText

def wholeText (check : Int → Checked Int) : Rule Nat
  | .str s => ((whole s).andThen check).map Int.toNat
  | _ => .issue .unreadableWhole

/-- The query of a listing of deployments: up to a hundred on a page, fifty unless said. -/
def listingQuery (ms : Json.Members) : Checked Listing :=
  (Listing.mk
    <$> optional ms "environment_id" text
    <*> optional ms "ref" text
    <*> withDefault ms "limit" (wholeText fun n => (atLeast 1 n).andThen (atMost 100)) 50
    <*> withDefault ms "offset" (wholeText (atLeast 0)) 0).under "query"

/-- The query of a search. The name of the commit is checked after everything else. -/
def criteriaQuery (ms : Json.Members) : Checked Criteria :=
  let asked := (Criteria.mk
    <$> optional ms "ref" soughtRefBounds.decodedRule
    <*> optional ms "sha" text
    <*> withDefault ms "find_latest" switch false
    <*> withDefault ms "with_tags" switch false
    <*> withDefault ms "recently_updated" switch false).under "query"
  asked.andThen fun c =>
    match c.commit with
    | none => .valid c
    | some s =>
      ((commit.rule (.obj [("sha", .str s)])).under "commit").map fun sha =>
        { c with commit := some sha }

/-- The greatest number that the store can skip in a listing. -/
def greatestOffset : Nat := 9223372036854775807

namespace Site

variable (site : Site σ) (sv : Serving σ)

def find (caller : Option String) (project : String) (c : Criteria) : Outcome × Serving σ :=
  let s := sv.registry.store
  let (found, client, host) :=
    ((s.findEnvironments caller project c (some (site.question sv.ticks))).run).run
      (sv.client, sv.host)
  let sv := { sv with client := client, host := host }
  match found with
  | .ok wish => sv.view (Shape.environments site.clock s) wish
  | .error u => (.error (if u.isHostFailure then .hostDown else .breakdown), sv)

def list (caller : Option String) (project : String) (l : Listing) : Outcome × Serving σ :=
  match sv.registry.store.listDeployments caller project l with
  | .error d => (.error (.denied d), sv)
  | .ok (ds, total) =>
    if greatestOffset < l.offset then (.error .breakdown, sv)
    else (.ok (200, Shape.deployments site.clock ds total), sv)

/-- What shows that the registry is up. -/
def healthShape : Json := .obj [
  ("status", .str "healthy"),
  ("service", .str site.settings.serviceName),
  ("version", .str site.settings.version)]

/-- Shows what is asked for, to a caller with or without a name. -/
def read (caller : Option String) (ms : Json.Members) : Reading → Outcome × Serving σ
  | .project p => sv.view (Shape.project site.clock) (sv.registry.store.readable caller p)
  | .environments p =>
    sv.checked (stateQuery ms) fun state =>
      sv.view (Shape.environments site.clock sv.registry.store)
        (sv.registry.store.listEnvironments caller p state)
  | .search p => sv.checked (criteriaQuery ms) (site.find sv caller p)
  | .environment p e =>
    sv.view (Shape.environment site.clock sv.registry.store)
      (sv.registry.store.getEnvironment caller p e)
  | .deployments p => sv.checked (listingQuery ms) (site.list sv caller p)

/-- Changes what is asked for, on behalf of a user. -/
def write (user : String) (c : Content) : Writing → Outcome × Serving σ
  | .project =>
    sv.checked (c.submission newProject) fun f =>
      sv.change 201 (fun _ => Shape.project site.clock)
        (.ok (sv.registry.createProject site.ids user f))
  | .member p =>
    sv.checked (c.submission newMember) fun f =>
      sv.change 201 (fun _ => Shape.membership site.clock)
        (sv.registry.addMember site.ids user p f)
  | .environment p =>
    sv.checked (c.submission newEnvironment) fun f =>
      sv.change 201 (Shape.environment site.clock)
        (sv.registry.createEnvironment site.ids user p f)
  | .stop p e =>
    sv.change 200 (Shape.environment site.clock) (sv.registry.moveEnvironment user p e .stopped)
  | .start p e =>
    sv.change 200 (Shape.environment site.clock) (sv.registry.moveEnvironment user p e .available)
  | .deployment p =>
    sv.checked (c.submission newDeployment) fun f =>
      sv.change 201 (fun _ => Shape.deployment site.clock)
        (sv.registry.recordDeployment site.ids sv.now user p f)

/-- Carries out a request to an endpoint. What cannot be read as a document is refused before the
caller is asked for credentials. -/
def perform (r : Request) : Endpoint → Outcome × Serving σ
  | .health => (.ok (200, site.healthShape), sv)
  | .reading e =>
    match site.caller? sv r with
    | .error problem => (.error problem, sv)
    | .ok caller => site.read sv (caller.map (·.id)) r.queryMembers e
  | .writing e =>
    match (if e.takesContent then content r else .ok .absent), site.caller? sv r with
    | .error problem, _ => (.error problem, sv)
    | _, .error problem => (.error problem, sv)
    | _, .ok none => (.error .anonymous, sv)
    | .ok c, .ok (some u) => site.write sv u.id c e

/-- The answer of the registry proper; none when something broke down. -/
def answer (r : Request) : Option Response × Serving σ :=
  match route site.settings.apiRoot r.method r.path with
  | .nowhere => (some (Response.detail 404 "Not Found"), sv)
  | .otherMethod allowed =>
    (some ((Response.detail 405 "Method Not Allowed").withHeader "allow" allowed), sv)
  | .elsewhere path =>
    let location := Text.quote isLocationChar (r.server ++ closedPath path ++ queryText r.query)
    (some ⟨307, [("location", location)], .plain "", none⟩, sv)
  | .endpoint e =>
    match site.perform sv r e with
    | (.ok (status, v), sv) => (some (Response.structured status v), sv)
    | (.error problem, sv) => (problem.response?, sv)

/-- The answer to a request, and the state afterwards. -/
def respond (r : Request) : Response × Serving σ :=
  let allowed := site.settings.origins
  match Origin.Question.ofRequest? r with
  | some question => (Origin.preflight allowed question, sv)
  | none =>
    match site.answer sv r with
    | (none, sv) => (Response.broken, sv)
    | (some answer, sv) =>
      let answer := if r.method = "HEAD" then answer.withoutPayload else answer
      let id := RequestId.resolve (r.headerValues "x-request-id") site.freshRequestId
      (Origin.mark allowed r { answer with requestId := some id }, sv)

end Site

end DeployRegistry.Http
