import DeployRegistry.Form.Issue
import DeployRegistry.Http.Message
import DeployRegistry.Service.Denial
import DeployRegistry.Token.Holder

/-!
# Problems

Why a request has no other answer, and the answer that says so. A breakdown is answered outside the
registry proper, without anything that the registry adds to its answers.
-/

namespace DeployRegistry.Http

set_option autoImplicit false

inductive Problem
  | denied (d : Denial)
  | refused (r : Token.Refusal)
  | anonymous
  | invalid (issues : List Form.Issue)
  | unreadableBody
  | hostDown
  | breakdown
  deriving DecidableEq, Inhabited

namespace Problem

def challenged (status : Nat) (detail : String) (scheme : Option String) : Response :=
  let answer := Response.detail status detail
  match scheme with
  | some s => answer.withHeader "www-authenticate" s
  | none => answer

/-- The answer to a request with a problem; there is none to a breakdown, nor where a refused value
would have to be repeated that cannot be. -/
def response? : Problem → Option Response
  | denied d => some (Response.detail d.status d.detail)
  | refused r => r.detail?.map fun detail => challenged 401 detail r.challenge?
  | anonymous => some (challenged 401 "Not authenticated" (some "Bearer"))
  | invalid issues =>
    if issues.all (·.repeatable) then
      some (Response.structured 422 (.obj [("detail", .arr (issues.map (·.json)))]))
    else none
  | unreadableBody => some (Response.detail 400 "There was an error parsing the body")
  | hostDown => some (Response.detail 502 "Repository history is temporarily unavailable")
  | breakdown => none

end Problem

def Response.broken : Response := ⟨500, [], .plain "Internal Server Error", none⟩

end DeployRegistry.Http
