import DeployRegistry.Text.WholeNumber

/-!
# Addresses of databases

The address of a database starts with the kind of the database, and perhaps the name of a driver
behind a plus sign. Then come a user, a server and a port, of which only the port has to be
readable.
-/

namespace DeployRegistry.DatabaseUrl

set_option autoImplicit false

open Text

/-- Why a text is no address: it has no kind, or a port that is no whole number. -/
inductive Fault
  | noKind
  | badPort (port : String) (why : NotWhole)
  deriving DecidableEq, Inhabited

def Fault.message : Fault → String
  | noKind => "Could not parse SQLAlchemy URL from given URL string"
  | badPort port why => why.message port

def isKindChar (c : Char) : Bool := isAlphanumeric c || c == '_' || c == '+'

/-- The kind with its driver, and what stands behind the colon and the two slashes. -/
def splitKind? (cs : List Char) : Option (List Char × List Char) :=
  match cs.takeWhile isKindChar, cs.dropWhile isKindChar with
  | c :: name, ':' :: '/' :: '/' :: rest => some (c :: name, rest)
  | _, _ => none

/-- The characters behind the last one of a kind, if there is one. -/
def behindLast? (mark : Char) (cs : List Char) : Option (List Char) :=
  if cs.contains mark then some (cs.reverse.takeWhile (· != mark)).reverse else none

/-- The characters behind a user. A password follows the user behind a colon and ends at the next
`@`; without a password the last `@` before a colon or slash ends the user. -/
def afterUser (cs : List Char) : List Char :=
  let inUser := fun c : Char => c != ':' && c != '/'
  let name := cs.takeWhile inUser
  let rest := cs.dropWhile inUser
  match rest.head?, rest.dropWhile (· != '@') with
  | some ':', _ :: behind => behind
  | _, _ => ((behindLast? '@' name).map (· ++ rest)).getD cs

/-- The characters behind a server, which may stand in square brackets. -/
def afterServer (cs : List Char) : List Char :=
  let plain := cs.dropWhile fun c => c != '/' && c != ':' && c != '?'
  match cs with
  | '[' :: c :: more =>
    let outside := fun d : Char => d != '/' && d != '?'
    match behindLast? ']' (more.takeWhile outside) with
    | some behind => if outside c then behind ++ more.dropWhile outside else plain
    | none => plain
  | _ => plain

/-- The text of the port, if there is one. -/
def port? (cs : List Char) : Option (List Char) :=
  match afterServer (afterUser cs) with
  | ':' :: rest => some (rest.takeWhile fun c => c != '/' && c != '?')
  | _ => none

/-- The kind of database that an address names. -/
def kind (url : String) : Except Fault String :=
  match splitKind? url.toList with
  | none => .error .noKind
  | some (name, rest) =>
    let kind := String.ofList (name.takeWhile (· != '+'))
    match (port? rest).map String.ofList with
    | none => .ok kind
    | some port =>
      match wholeNumber port with
      | .ok _ => .ok kind
      | .error why => .error (.badPort port why)

end DeployRegistry.DatabaseUrl
