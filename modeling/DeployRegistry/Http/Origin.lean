import DeployRegistry.Http.Message

/-!
# Requests from other origins

Pages of the allowed origins may read the answers. An answer to a request with an origin says so,
and a browser may ask beforehand what it may send.
-/

namespace DeployRegistry.Http.Origin

set_option autoImplicit false

def methods : List String := ["GET", "POST", "OPTIONS"]

def credentials : String × String := ("access-control-allow-credentials", "true")

/-- The origin in the answer, when it is allowed. -/
def echo (allowed : List String) (origin : String) : List (String × String) :=
  if allowed.contains origin then [("access-control-allow-origin", origin)] else []

/-- What a browser asks beforehand: for which origin and method, with which header fields, and
whether from outside a private network. -/
structure Question where
  origin : String
  method : String
  fields : Option String
  isPrivate : Bool
  deriving DecidableEq, Inhabited

/-- A request is a question beforehand when it names the method that is to follow. -/
def Question.ofRequest? (r : Request) : Option Question := do
  let origin ← r.header? "origin"
  let method ← r.header? "access-control-request-method"
  if r.method = "OPTIONS" then
    some ⟨origin, method, r.header? "access-control-request-headers",
      (r.header? "access-control-request-private-network").isSome⟩
  else none

/-- What of a question beforehand is not allowed. -/
def objections (allowed : List String) (q : Question) : List String :=
  (if allowed.contains q.origin then [] else ["origin"]) ++
    (if methods.contains q.method then [] else ["method"]) ++
    (if q.isPrivate then ["private-network"] else [])

/-- The answer to a question beforehand. All header fields are allowed. -/
def preflight (allowed : List String) (q : Question) : Response :=
  let headers := [
    credentials,
    ("access-control-allow-methods", String.intercalate ", " methods),
    ("access-control-max-age", "600")] ++ echo allowed q.origin ++
    (q.fields.map fun f => ("access-control-allow-headers", f)).toList
  match objections allowed q with
  | [] => ⟨200, headers, .plain "OK", none⟩
  | os => ⟨400, headers, .plain ("Disallowed CORS " ++ String.intercalate ", " os), none⟩

/-- The answer with what the origin of the request has to know. -/
def mark (allowed : List String) (r : Request) (answer : Response) : Response :=
  match r.header? "origin" with
  | none => answer
  | some origin => { answer with headers := answer.headers ++ credentials :: echo allowed origin }

end DeployRegistry.Http.Origin
