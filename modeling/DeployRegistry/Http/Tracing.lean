import DeployRegistry.Http.Server
import DeployRegistry.Log.Session

/-!
# Requests in the log

A request that is not answered beforehand has an id while it is served. The id is kept with the
request, bound to the log until the request is answered, and stands in the answer. The serving ends
with a record of its own: of the answer, or of what broke down.
-/

namespace DeployRegistry.Http

set_option autoImplicit false

open Number

/-- A record that is made while a request is served. -/
structure Remark where
  logger : String
  level : Int
  message : String
  failure : Option (String × String)
  deriving DecidableEq, Inhabited

/-- What the serving of a request leaves to the log, beside its answer: the records of those who
take part in it, how the path of the request is shown, the milliseconds that it took, and the words
for what broke down, if anything did. -/
structure Passage where
  remarks : List Remark
  path : String
  elapsed : String
  trouble : String
  deriving DecidableEq, Inhabited

/-- A request that was served: the id that was kept with it, the log while it was served, the lines
that were written, the log afterwards, and the answer, unless something broke down. -/
structure Traced (σ : Type) where
  id : String
  bound : Log.Session
  lines : List Log.Line
  after : Log.Session
  answer : Option Response
  serving : Serving σ

/-- The logger of the records with which the serving of a request ends. -/
def tracingLogger : String := "registry.requests"

/-- The record with which the serving of a request ends. -/
def closing (r : Request) (p : Passage) : Option Response → Remark
  | some answer =>
    ⟨tracingLogger, Log.Level.info.number,
      r.method ++ " " ++ p.path ++ " -> " ++ natText answer.status ++ " in " ++ p.elapsed ++ "ms",
      none⟩
  | none =>
    ⟨tracingLogger, Log.Level.error.number,
      r.method ++ " " ++ p.path ++ " failed: " ++ p.trouble, none⟩

namespace Site

variable {σ : Type} (site : Site σ) (sv : Serving σ)

/-- Serves a request under its id. -/
def trace (log : Log.Session) (p : Passage) (r : Request) : Traced σ :=
  let id := RequestId.resolve (r.headerValues "x-request-id") site.freshRequestId
  let bound := log.enter id
  let (answer, sv) := site.answer sv r
  { id := id
    bound := bound
    lines := (p.remarks ++ [closing r p answer]).flatMap fun m =>
      bound.write m.logger m.level m.message m.failure
    after := bound.leave
    answer := answer.map fun a =>
      { (if r.method = "HEAD" then a.withoutPayload else a) with requestId := some id }
    serving := sv }

/-- A request that is not answered beforehand is answered as it is served; where something broke
down, the answer comes from outside. -/
theorem respond_eq_trace {r : Request} (hq : Origin.Question.ofRequest? r = none)
    (log : Log.Session) (p : Passage) :
    site.respond sv r =
      (((site.trace sv log p r).answer.map (Origin.mark site.settings.origins r)).getD
        Response.broken, (site.trace sv log p r).serving) := by
  rw [respond, hq, trace]
  dsimp only
  rcases site.answer sv r with ⟨_ | answer, sv'⟩ <;> rfl

end Site

end DeployRegistry.Http
