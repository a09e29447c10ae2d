import DeployRegistry.Form.Rules
import DeployRegistry.Http.Problem
import DeployRegistry.Json.Document

/-!
# Contents of a request

What a caller sends along: the credentials, and a body. A body is read when it is declared as a
structured document; otherwise it is there but has no fields.
-/

namespace DeployRegistry.Http

set_option autoImplicit false

open Form Text

/-- The token of bearer credentials: the scheme ends at the first blank, in any case of letters,
and the token is what stands behind it. -/
def bearer? (r : Request) : Option String := do
  let cs := (← r.header? "authorization").toList
  let scheme := lowerAscii (String.ofList (cs.takeWhile (· != ' ')))
  let token := String.ofList (trimList isSpacing (cs.dropWhile (· != ' ')))
  if scheme = "bearer" ∧ token ≠ "" then some token else none

/-- Whether a content type is that of structured documents, whatever its parameters. -/
def isStructuredType (declared : String) : Bool :=
  let name := lowerAscii (trim isSpacing (String.ofList (declared.toList.takeWhile (· != ';'))))
  match splitAt '/' name with
  | ["application", kind] => kind == "json" || "nosj+".toList.isPrefixOf kind.toList.reverse
  | _ => false

inductive Content
  | absent
  | structured (v : Json)
  | opaqueText

/-- What is said about a body that is no structured document. One that is no text, or too large a
document, is a problem of its own. -/
def bodyProblem : Json.Flaw → Problem
  | .unreadable .malformed => .invalid [{ path := ["body"], cause := .badDocument }]
  | _ => .unreadableBody

/-- The content of a request; a body without a declared type is taken for structured. -/
def content (r : Request) : Except Problem Content :=
  let declared := (r.header? "content-type").filter (· ≠ "")
  if r.body = "" then .ok .absent
  else if declared.all isStructuredType then
    match Json.readBytes (bytes r.body) with
    | .ok v => .ok (.structured v)
    | .error flaw => .error (bodyProblem flaw)
  else .ok .opaqueText

/-- What is submitted in the body. -/
def Content.submission {α : Type} (c : Content) (m : Model α) : Checked α :=
  Checked.under "body" <| match c with
  | .absent => .issue .missing
  | .structured v => (m.body v).about v
  | .opaqueText => .issue .noFields

end DeployRegistry.Http
