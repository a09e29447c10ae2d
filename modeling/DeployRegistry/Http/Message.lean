import DeployRegistry.Json.Value
import DeployRegistry.Text.Blank

/-!
# Requests and answers

A request as the registry sees it: its path and query are decoded and its body is a text. The
server is the scheme and name under which the registry was called. Names of header fields are
compared without regard to case, and of several fields with one name the first counts.
-/

namespace DeployRegistry.Http

set_option autoImplicit false

open Text

structure Request where
  server : String
  method : String
  path : String
  query : List (String × String)
  headers : List (String × String)
  body : String
  deriving DecidableEq, Inhabited

namespace Request

/-- All values of a header field, whose name is given in lower case. -/
def headerValues (r : Request) (name : String) : List String :=
  (r.headers.filter fun h => lowerAscii h.1 == name).map (·.2)

def header? (r : Request) (name : String) : Option String := (r.headerValues name).head?

/-- The query as the members of an object; of several values of one name the last counts. -/
def queryMembers (r : Request) : Json.Members :=
  r.query.foldl (fun ms q => Json.Members.put ms q.1 (.str q.2)) []

end Request

inductive Payload
  | structured (v : Json)
  | plain (s : String)
  deriving Inhabited

structure Response where
  status : Nat
  headers : List (String × String)
  payload : Payload
  requestId : Option String
  deriving Inhabited

namespace Response

def structured (status : Nat) (v : Json) : Response := ⟨status, [], .structured v, none⟩

/-- An answer that says in one text why there is no other. -/
def detail (status : Nat) (s : String) : Response := structured status (.obj [("detail", .str s)])

def withHeader (r : Response) (name value : String) : Response :=
  { r with headers := r.headers ++ [(name, value)] }

/-- The answer to a request for the head alone has no payload. -/
def withoutPayload (r : Response) : Response := { r with payload := .plain "" }

end Response

end DeployRegistry.Http
