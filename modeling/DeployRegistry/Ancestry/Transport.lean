import DeployRegistry.Store.Records
import DeployRegistry.Text.Utf8

/-!
# Mishaps of an exchange

What can go wrong between the registry and the host of the repositories: a reply whose status is
no success, or no reply at all. Some mishaps are transient, and the exchange is worth another
attempt. The main statement is `isTransient_status_iff`.
-/

namespace DeployRegistry

set_option autoImplicit false

/-- Why there was no reply. -/
inductive Fault
  | timeout
  | connectTimeout
  | readTimeout
  | writeTimeout
  | poolTimeout
  | network
  | connect
  | read
  | write
  | close
  | protocol
  | localProtocol
  | remoteProtocol
  | proxy
  | unsupportedProtocol
  | decoding
  | redirects
  | transport
  | request
  | status
  | general
  | address
  deriving DecidableEq, Inhabited

namespace Fault

instance : Named Fault where
  all := [.timeout, .connectTimeout, .readTimeout, .writeTimeout, .poolTimeout, .network, .connect,
    .read, .write, .close, .protocol, .localProtocol, .remoteProtocol, .proxy,
    .unsupportedProtocol, .decoding, .redirects, .transport, .request, .status, .general,
    .address]
  name
    | .timeout => "TimeoutException"
    | .connectTimeout => "ConnectTimeout"
    | .readTimeout => "ReadTimeout"
    | .writeTimeout => "WriteTimeout"
    | .poolTimeout => "PoolTimeout"
    | .network => "NetworkError"
    | .connect => "ConnectError"
    | .read => "ReadError"
    | .write => "WriteError"
    | .close => "CloseError"
    | .protocol => "ProtocolError"
    | .localProtocol => "LocalProtocolError"
    | .remoteProtocol => "RemoteProtocolError"
    | .proxy => "ProxyError"
    | .unsupportedProtocol => "UnsupportedProtocol"
    | .decoding => "DecodingError"
    | .redirects => "TooManyRedirects"
    | .transport => "TransportError"
    | .request => "RequestError"
    | .status => "HTTPStatusError"
    | .general => "HTTPError"
    | .address => "InvalidURL"

/-- Timeouts and network errors pass by themselves. -/
def isTransient : Fault → Bool
  | timeout => true
  | connectTimeout => true
  | readTimeout => true
  | writeTimeout => true
  | poolTimeout => true
  | network => true
  | connect => true
  | read => true
  | write => true
  | close => true
  | _ => false

/-- Whether the fault arose between the registry and the host; a malformed address never got so
far. -/
def isExchange : Fault → Bool
  | address => false
  | _ => true

end Fault

/-- Why an attempt did not bring a reply that is worth reading; a reply to a request that named no
server belongs to nothing. -/
inductive Mishap
  | status (code : Nat)
  | fault (f : Fault) (message : String)
  | nowhere (target : String)
  deriving DecidableEq, Inhabited

/-- Server errors, request timeouts and excess of requests are worth another attempt. -/
def isTransientStatus (code : Nat) : Bool :=
  decide (500 ≤ code) && decide (code < 600) || code == 408 || code == 429

def Mishap.isTransient : Mishap → Bool
  | status code => isTransientStatus code
  | fault f _ => f.isTransient
  | nowhere _ => false

theorem isTransient_status_iff (code : Nat) :
    (Mishap.status code).isTransient = true ↔
      (500 ≤ code ∧ code < 600) ∨ code = 408 ∨ code = 429 := by
  simp [Mishap.isTransient, isTransientStatus, or_assoc]

/-- The bytes of a reply, when whatever they were packed in for the way is taken off. -/
structure Body where
  bytes : List UInt8
  deriving DecidableEq, Inhabited

/-- A text that is sent is the body of its bytes. -/
instance : Coe String Body := ⟨fun s => ⟨Text.bytes s⟩⟩

/-- What a request comes to: a reply, or why there is none. The headers of the reply are used up by
then. Those that say how the body is packed leave a body or a fault of decoding, and one that says
where the resource has moved to leaves a reply, or a fault of the address where it names none. -/
inductive Delivery
  | reply (status : Nat) (body : Body)
  | fault (f : Fault) (message : String)
  deriving DecidableEq, Inhabited

def isSuccess (status : Nat) : Bool := decide (200 ≤ status) && decide (status < 300)

end DeployRegistry
