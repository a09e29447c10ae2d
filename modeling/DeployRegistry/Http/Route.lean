import DeployRegistry.Ancestry.Address
import DeployRegistry.Http.Message

/-!
# Routes

Which endpoint a request is for. A path that is known under other methods is told the method of
its first route, and a path with slashes too many at its end is sent to the path without them.
-/

namespace DeployRegistry.Http

set_option autoImplicit false

open Text

/-- What shows records, of a project and perhaps of one environment in it. -/
inductive Reading
  | project (project : String)
  | environments (project : String)
  | search (project : String)
  | environment (project id : String)
  | deployments (project : String)
  deriving DecidableEq, Inhabited

/-- What changes records. -/
inductive Writing
  | project
  | member (project : String)
  | environment (project : String)
  | stop (project id : String)
  | start (project id : String)
  | deployment (project : String)
  deriving DecidableEq, Inhabited

inductive Endpoint
  | health
  | reading (r : Reading)
  | writing (w : Writing)
  deriving DecidableEq, Inhabited

/-- Whether something is submitted in the body; a stop or start takes none. -/
def Writing.takesContent : Writing → Bool
  | stop _ _ => false
  | start _ _ => false
  | _ => true

/-- A text without the line feed at its end. -/
def withoutFeed (s : String) : String :=
  match s.toList.reverse with
  | '\n' :: rest => String.ofList rest.reverse
  | _ => s

/-- The endpoints of the routes that the segments of a path match, each with its method, in the
order in which the routes are tried. The word at the end of a route may be followed by a line feed;
an id at the end is taken as it is. -/
def matching (segments : List String) : List (String × Endpoint) :=
  let last := segments.getLast?.getD ""
  match segments.dropLast, withoutFeed last with
  | [], "projects" => [("POST", .writing .project)]
  | ["projects"], _ => [("GET", .reading (.project last))]
  | ["projects", p], "members" => [("POST", .writing (.member p))]
  | ["projects", p], "environments" =>
    [("GET", .reading (.environments p)), ("POST", .writing (.environment p))]
  | ["projects", p, "environments"], word =>
    [("GET", .reading (if word = "by-deployments" then .search p else .environment p last))]
  | ["projects", p, "environments", e], "stop" => [("POST", .writing (.stop p e))]
  | ["projects", p, "environments", e], "start" => [("POST", .writing (.start p e))]
  | ["projects", p], "deployments" =>
    [("POST", .writing (.deployment p)), ("GET", .reading (.deployments p))]
  | _, _ => []

/-- The segments of a path below the root of the interface; no segment is empty. -/
def segments? (root path : String) : Option (List String) :=
  let below := path.toList.drop root.length
  if root.toList.isPrefixOf path.toList && below.head? == some '/' then
    let parts := (pieces (· == '/') (below.drop 1)).map String.ofList
    if parts.contains "" then none else some parts
  else none

def candidates (root path : String) : List (String × Endpoint) :=
  (((segments? root path).map matching).getD []) ++
    (if withoutFeed path = "/health" then [("GET", .health)] else [])

inductive Destination
  | endpoint (e : Endpoint)
  | otherMethod (allowed : String)
  | elsewhere (path : String)
  | nowhere
  deriving DecidableEq, Inhabited

/-- The path that a request is for: without dots that climb, and without escapes. What is written
may be a whole address. -/
def readPath (written : String) : String :=
  match Address.ofText written with
  | .error _ => written
  | .ok a =>
    let path := if a.path = "" then ['/'] else a.target.path.toList
    unquote (String.ofList (Address.normalPath path))

def withoutSlashes (path : String) : String :=
  String.ofList (path.toList.reverse.dropWhile (· == '/')).reverse

def route (root method path : String) : Destination :=
  let found := candidates root path
  match found.find? fun c => c.1 == method, found with
  | some c, _ => .endpoint c.2
  | none, first :: _ => .otherMethod first.1
  | none, [] =>
    let shorter := withoutSlashes path
    if shorter ≠ path ∧ candidates root shorter ≠ [] then .elsewhere shorter else .nowhere

/-- Letters, digits and the marks that stand for themselves everywhere. -/
def isUnreserved (c : Char) : Bool :=
  c.isAlphanum || c == '-' || c == '.' || c == '_' || c == '~'

/-- A character of a query in its written form: a blank is a plus sign. -/
def queryChar (c : Char) : List Char :=
  if isUnreserved c then [c] else if c = ' ' then ['+'] else percent c

def queryPart (s : String) : String := String.ofList (s.toList.flatMap queryChar)

/-- What an address in an answer holds as it is. -/
def isLocationChar (c : Char) : Bool :=
  isUnreserved c || ":/%#?=@[]!$&'()*+,;".toList.contains c

/-- A path without the marks that would end it. -/
def closedPath (path : String) : String :=
  quote (fun c => c != '?' && c != '#') path

/-- The written form of a query, with its mark, or nothing. -/
def queryText (q : List (String × String)) : String :=
  if q = [] then ""
  else "?" ++ String.intercalate "&" (q.map fun p => queryPart p.1 ++ "=" ++ queryPart p.2)

end DeployRegistry.Http
