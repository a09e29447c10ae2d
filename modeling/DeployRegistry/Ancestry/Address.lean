import DeployRegistry.Ancestry.ServerName
import DeployRegistry.Text.Base64Url
import DeployRegistry.Text.Unencodable
import DeployRegistry.Text.WholeNumber

/-!
# Addresses

The addresses under which a host is asked, in their normal form: scheme and server in lower case,
no port where it is the usual one, no `.` and `..` segments in the path, and percent escapes for
every character that a part does not hold as it is.
-/

namespace DeployRegistry

set_option autoImplicit false

open Number Text

structure Address where
  scheme : String
  user : String
  server : String
  port : Option Int
  path : String
  query : Option String
  fragment : Option String
  deriving DecidableEq, Inhabited

namespace Address

/-- Why a text is no address. -/
inductive Flaw
  | tooLong
  | control (c : Char) (place : Nat)
  | server (flaw : ServerName.Flaw) (written : String)
  | port (written : String)
  | pathStart (written : String)
  | loneUnit (message : String)
  deriving DecidableEq, Inhabited

def Flaw.message : Flaw → String
  | tooLong => "URL too long"
  | control c place =>
    "Invalid non-printable ASCII character in URL, " ++ shownText (String.singleton c) ++
      " at position " ++ natText place ++ "."
  | server .octets written => "Invalid IPv4 address: " ++ shownText written
  | server .groups written => "Invalid IPv6 address: " ++ shownText written
  | server .domain written => "Invalid IDNA hostname: " ++ shownText written
  | port written => "Invalid port: " ++ shownText written
  | pathStart written => "Relative URLs cannot have a path starting with '" ++ written ++ "'"
  | loneUnit message => message

/-- Printable ASCII other than the characters listed. -/
def visibleExcept (excluded : List Char) (c : Char) : Bool :=
  decide (0x20 < c.toNat) && decide (c.toNat < 0x7F) && !excluded.contains c

/-- A percent sign is kept in a path, so that escapes are not escaped again. -/
def isPathChar : Char → Bool := visibleExcept ['"', '#', '<', '>', '?', '`', '\x7b', '\x7d']

def isQueryChar : Char → Bool := visibleExcept ['"', '#', '<', '>']

def isFragmentChar : Char → Bool := visibleExcept ['"', '<', '>', '`']

def isUserChar (c : Char) : Bool :=
  isPathChar c && !"/;=@[\\]^|".toList.contains c

/-- The segments of a path without `.`, and without `..` and the segment that it leaves. -/
def climb : List (List Char) → List (List Char) → List (List Char)
  | done, [] => done
  | done, segment :: rest =>
    if segment = ['.'] then climb done rest
    else if segment = ['.', '.'] then
      climb (if done = [] ∨ done = [[]] then done else done.dropLast) rest
    else climb (done ++ [segment]) rest

def normalPath (cs : List Char) : List Char :=
  let segments := pieces (· == '/') cs
  if segments.contains ['.'] || segments.contains ['.', '.'] then
    ServerName.joinWith '/' (climb [] segments)
  else cs

/-- The characters before the first one of a class, and those from it on. -/
def splitWhere (p : Char → Bool) (cs : List Char) : List Char × List Char :=
  (cs.takeWhile fun c => !p c, cs.dropWhile fun c => !p c)

def isSchemeChar (c : Char) : Bool := c.isAlphanum || c == '+' || c == '.' || c == '-'

/-- The scheme in front of the first colon, which may be empty, and the rest. -/
def splitScheme (cs : List Char) : List Char × List Char :=
  match splitWhere (fun c => !isSchemeChar c) cs with
  | ([], ':' :: rest) => ([], rest)
  | (c :: name, ':' :: rest) => if c.isAlpha then (c :: name, rest) else ([], cs)
  | _ => ([], cs)

def splitServer : List Char → List Char × List Char
  | '/' :: '/' :: rest => splitWhere (fun c => c == '/' || c == '?' || c == '#') rest
  | cs => ([], cs)

/-- The user in front of the last `@`. -/
def splitUser (cs : List Char) : List Char × List Char :=
  match splitWhere (· == '@') cs.reverse with
  | (server, '@' :: user) => (user.reverse, server.reverse)
  | _ => ([], cs)

/-- The server, which brackets may enclose, and the port behind a colon. -/
def splitPort (cs : List Char) : List Char × List Char :=
  let closing := (splitWhere (· == ']') cs.reverse).2.reverse
  let (server, rest) :=
    if cs.head? = some '[' ∧ closing ≠ [] then (closing, cs.drop closing.length)
    else splitWhere (· == ':') cs
  (server, if rest.head? = some ':' then rest.drop 1 else rest)

/-- The usual port of a scheme, which is written in lower case here. -/
def usualPort (scheme : List Char) : Option Int :=
  if scheme = "http".toList ∨ scheme = "ws".toList then some 80
  else if scheme = "https".toList ∨ scheme = "wss".toList then some 443
  else if scheme = "ftp".toList then some 21
  else none

def isControl (c : Char) : Bool := decide (c.toNat < 0x20) || c.toNat == 0x7F

/-- The port behind the server: none where it is empty or the usual one of the scheme. -/
def readPort (scheme written : List Char) : Except Flaw (Option Int) :=
  if written = [] then .ok none
  else match wholeNumber (String.ofList written) with
    | .ok n => .ok (if usualPort scheme = some n then none else some n)
    | .error _ => .error (.port (String.ofList written))

/-- A part with escapes for all characters but some. -/
def readPart (safe : Char → Bool) (cs : List Char) : Except Flaw String :=
  match cs.find? fun c => (loneUnit? c).isSome with
  | some c => .error (.loneUnit ((beyondUtf8? (String.singleton c)).getD ""))
  | none => .ok (quote safe (String.ofList cs))

def readPart? (safe : Char → Bool) : Option (List Char) → Except Flaw (Option String)
  | none => .ok none
  | some cs => (readPart safe cs).map some

def readServer (cs : List Char) : Except Flaw String :=
  match ServerName.read cs with
  | .ok name => .ok (String.ofList name)
  | .error flaw => .error (.server flaw (String.ofList cs))

/-- A path that follows neither a scheme nor a server does not begin like what would follow
them. -/
def checkStart (path : List Char) : Except Flaw Unit :=
  if path.take 2 = ['/', '/'] then .error (.pathStart "//")
  else if path.head? = some ':' then .error (.pathStart ":")
  else .ok ()

/-- The part behind a mark. -/
def behind? (mark : Char) : List Char → Option (List Char)
  | c :: rest => if c = mark then some rest else none
  | [] => none

/-- The address of a text without control characters. -/
def readParts (cs : List Char) : Except Flaw Address := do
  let (scheme, rest) := splitScheme cs
  let (authority, rest) := splitServer rest
  let (path, rest) := splitWhere (fun c => c == '?' || c == '#') rest
  let query := (behind? '?' rest).map fun more => (splitWhere (· == '#') more).1
  let fragment := behind? '#' (splitWhere (· == '#') rest).2
  let (user, place) := splitUser authority
  let (server, port) := splitPort place
  let user ← readPart (fun c => isUserChar c || c == ':') user
  let server ← readServer server
  let port ← readPort scheme port
  let isBare := scheme = [] ∧ user = "" ∧ server = "" ∧ port = none
  if isBare then checkStart path
  let path ← readPart isPathChar (if isBare then path else normalPath path)
  let query ← readPart? isQueryChar query
  let fragment ← readPart? isFragmentChar fragment
  .ok ⟨String.ofList (scheme.map lowerChar), user, server, port, path, query, fragment⟩

/-- The address that a text writes, or why it writes none. -/
def ofText (s : String) : Except Flaw Address :=
  let cs := s.toList
  let before := cs.takeWhile fun c => !isControl c
  if 65536 < cs.length then .error .tooLong
  else match cs.drop before.length with
    | c :: _ => .error (.control c before.length)
    | [] => readParts cs

/-- An address without a scheme or a server leads nowhere. -/
def isPlaced (a : Address) : Bool := a.scheme != "" && a.server != ""

/-- What a request names: an address that leads nowhere is a path below the root. -/
def target (a : Address) : Address :=
  if a.isPlaced then a
  else
    { scheme := "", user := "", server := "", port := none
      path := String.ofList ('/' :: a.path.toList.dropWhile (· == '/'))
      query := a.query
      fragment := none }

def serverText (a : Address) : String :=
  (if a.server.toList.contains ':' then "[" ++ a.server ++ "]" else a.server) ++
    (match a.port with
    | some n => ":" ++ intText n
    | none => "")

def authorityText (a : Address) : String :=
  (if a.user = "" then "" else a.user ++ "@") ++ a.serverText

def text (a : Address) : String :=
  (if a.scheme = "" then "" else a.scheme ++ ":") ++
    (if a.authorityText = "" then "" else "//" ++ a.authorityText) ++ a.path ++
    (match a.query with
    | some q => "?" ++ q
    | none => "") ++
    (match a.fragment with
    | some f => "#" ++ f
    | none => "")

/-- The name and the password in front of the server, when there is any. -/
def credentials? (a : Address) : Option (String × String) :=
  let (name, password) := splitWhere (· == ':') a.user.toList
  let given := (unquote (String.ofList name), unquote (String.ofList (password.drop 1)))
  if given = ("", "") then none else some given

/-- The header value that carries a name and a password. -/
def basic (given : String × String) : String :=
  "Basic " ++ String.ofList (Base64Url.encodeOrdinary (bytes (given.1 ++ ":" ++ given.2)))

theorem target_of_isPlaced {a : Address} (h : a.isPlaced = true) : a.target = a := by
  simp [target, h]

end Address

end DeployRegistry
