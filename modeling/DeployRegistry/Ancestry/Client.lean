import DeployRegistry.Ancestry.Address
import DeployRegistry.Ancestry.Retry
import DeployRegistry.Ancestry.Transport
import DeployRegistry.Cache
import DeployRegistry.History.Snapshots
import DeployRegistry.Json.Document
import DeployRegistry.Settings.Basic

/-!
# Asking the host of a repository

A client asks the host whether one commit is reachable from another one, and keeps the answers in a
cache. A question about a commit and itself needs no host. Transient mishaps are answered by
further attempts; a commit that the host does not know is reachable from nothing, and that answer
is not kept.
-/

namespace DeployRegistry

set_option autoImplicit false

open Number

/-- How requests travel: a connection of their own each, or a shared one that can be closed. -/
inductive Connection
  | separate
  | shared (closed : Bool)
  deriving DecidableEq, Inhabited

structure Client where
  token : Option String
  base : String
  version : String
  retry : RetryPolicy
  cache : Cache Question Bool
  connection : Connection

structure HostRequest where
  url : String
  authorization : Option String
  accept : String
  version : String
  deriving DecidableEq, Inhabited

/-- Why a question has no answer. -/
inductive Unanswered
  | refused (status : Nat)
  | unreachable (message : String)
  | unreadable (flaw : Json.Flaw)
  | notAnObject
  | oddStatus
  | badAddress (message : String)
  | unencodable (message : String)
  | nowhere (target : String)
  | closed
  deriving DecidableEq, Inhabited

namespace Unanswered

/-- What is said about a question without an answer; a reply that cannot be read may have no
words. -/
def message? : Unanswered → Option String
  | refused status => some ("GitHub API error: " ++ natText status)
  | unreachable message => some ("GitHub API unreachable: " ++ message)
  | unreadable .notText => none
  | unreadable (.unreadable fault) => fault.message?
  | notAnObject => none
  | oddStatus => none
  | badAddress message => some message
  | unencodable message => some message
  | nowhere target => some ("unknown url type: " ++ Text.shownText target)
  | closed => some "Cannot send a request, as the client has been closed."

/-- Whether the host or the way to it is at fault. -/
def isHostFailure : Unanswered → Bool
  | refused _ => true
  | unreachable _ => true
  | _ => false

end Unanswered

/-- A question with its answer, the waits between the attempts, and the client afterwards. -/
structure Asked where
  answer : Except Unanswered Bool
  waits : List Binary64
  client : Client

namespace Client

def withoutSlashes (s : String) : String :=
  String.ofList (s.toList.reverse.dropWhile (· == '/')).reverse

/-- A client with the given token, base address and cache where there are any. An empty base is
none, and so is a cache without entries. -/
def create (s : Settings) (token base : Option String) (cache : Option (Cache Question Bool))
    (connection : Connection) : Client where
  token := token.orElse fun _ => s.hostToken
  base := withoutSlashes ((base.filter (· ≠ "")).getD s.hostBase)
  version := s.hostVersion
  retry := ⟨s.retryAttempts.1, s.retryAttempts.2, s.retryLeast, s.retryMost, s.retryFactor⟩
  cache := (cache.filter fun c => decide (c.size ≠ 0)).getD
    (.empty s.ancestryLifetime s.ancestryRoom.1 s.ancestryRoom.2)
  connection := connection

/-- The text of the address of a question, before it is brought to its normal form. -/
def addressText (c : Client) (q : Question) : String :=
  c.base ++ "/repos/" ++ q.repository ++ "/compare/" ++ q.ancestor ++ "..." ++ q.descendant

def acceptedForm : String := "application/vnd.github+json"

/-- The token as a request carries it; an empty one is none. -/
def bearer? (c : Client) : Option String := (c.token.filter (· ≠ "")).map ("Bearer " ++ ·)

/-- The request for an address. A name in front of the server takes the place of the token. -/
def request (c : Client) (a : Address) : HostRequest where
  url := a.target.text
  authorization := (a.target.credentials?.map Address.basic).orElse fun _ => c.bearer?
  accept := acceptedForm
  version := c.version

/-- What is said about a header that is not of ASCII. -/
def headerFault? (c : Client) (a : Address) : Option String :=
  [c.version, c.bearer?.getD "", a.target.serverText].findSome? Text.beyondAscii?

/-- The words by which the host says that a commit is reachable. -/
def isReachable (status : String) : Bool := status == "identical" || status == "ahead"

/-- What the body of a successful reply says. -/
def readReply (body : Body) : Except Unanswered Bool :=
  match Json.readBytes body.bytes with
  | .error flaw => .error (.unreadable flaw)
  | .ok (.obj ms) =>
    match Json.Members.member? ms "status" with
    | some (.str status) => .ok (isReachable status)
    | some (.arr _) => .error .oddStatus
    | some (.obj _) => .error .oddStatus
    | _ => .ok false
  | .ok _ => .error .notAnObject

/-- The answer is kept; where there is no room, the expired answers go first. The clock may have
moved on when the answer is stored. -/
def keep (c : Client) (now stored : Binary64) (q : Question) (answer : Bool) : Client :=
  let cache := if c.cache.capacity ≤ c.cache.size then (c.cache.purge now).2 else c.cache
  { c with cache := cache.store stored q answer }

/-- The status and body of a reply that is worth reading: a success, or a commit that the host does
not know. -/
def sift (a : Address) : Delivery → Except Mishap (Nat × Body)
  | .reply status body =>
    if a.isPlaced = false then .error (.nowhere a.target.text)
    else if status = 404 ∨ isSuccess status = true then .ok (status, body)
    else .error (.status status)
  | .fault f message => .error (.fault f message)

def unanswered : Mishap → Unanswered
  | .status code => .refused code
  | .nowhere target => .nowhere target
  | .fault f message => if f.isExchange then .unreachable message else .badAddress message

/-- The answer to a question from what came of the attempts, and the client with what is kept. -/
def conclude (c : Client) (now stored : Binary64) (q : Question) :
    Except Mishap (Nat × Body) → Except Unanswered Bool × Client
  | .error mishap => (.error (unanswered mishap), c)
  | .ok (status, body) =>
    if status = 404 then (.ok false, c)
    else match readReply body with
      | .ok answer => (.ok answer, c.keep now stored q answer)
      | .error e => (.error e, c)

section

variable {m : Type → Type} [Monad m]

/-- Asks the host, whatever is in the cache. -/
def askHost (c : Client) (now stored : Binary64) (q : Question)
    (send : HostRequest → m Delivery) : m Asked :=
  match Address.ofText (c.addressText q) with
  | .error (.loneUnit message) => pure ⟨.error (.unencodable message), [], c⟩
  | .error flaw => pure ⟨.error (.badAddress flaw.message), [], c⟩
  | .ok address =>
    match c.headerFault? address with
    | some message => pure ⟨.error (.unencodable message), [], c⟩
    | none =>
      if c.connection = .shared true then pure ⟨.error .closed, [], c⟩
      else do
        let attempts ← c.retry.run Mishap.isTransient (do
          let delivery ← send (c.request address)
          pure (sift address delivery))
        let (answer, c) := c.conclude now stored q attempts.result
        pure ⟨answer, attempts.waits, c⟩

/-- Asks the cache, and the host where there is no live answer. The clock may have moved on by the
time the host has replied, and again when the answer is stored. -/
def ask (c : Client) (now : Binary64) (q : Question) (send : HostRequest → m Delivery)
    (later : Binary64 := now) (stored : Binary64 := later) : m Asked :=
  if q.ancestor = q.descendant then pure ⟨.ok true, [], c⟩
  else
    match c.cache.lookup now q with
    | (some answer, cache) => pure ⟨.ok answer, [], { c with cache := cache }⟩
    | (none, cache) => askHost { c with cache := cache } later stored q send

end

/-- Closes a shared connection. -/
def close (c : Client) : Client :=
  { c with connection := match c.connection with
      | .separate => .separate
      | .shared _ => .shared true }

/-- Whether the connection is closed; separate connections are never closed from here. -/
def isClosed? (c : Client) : Option Bool :=
  match c.connection with
  | .separate => none
  | .shared closed => some closed

end Client

end DeployRegistry
