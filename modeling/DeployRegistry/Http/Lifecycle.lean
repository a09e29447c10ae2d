import DeployRegistry.Ancestry.Client
import DeployRegistry.Service.Projects

/-!
# The life of the service

The service starts with its tables, makes one client of the host when it is first needed, and
closes that client when it stops.
-/

namespace DeployRegistry.Http

set_option autoImplicit false

/-- A running service: its registry, the client that all requests share, and how many connections
to the host were opened. -/
structure Service where
  registry : Registry
  client : Option Client
  opened : Nat

namespace Service

/-- What is said when the tables cannot be made. -/
def startFailure (reason : String) : String := "Failed to initialize database: " ++ reason

/-- Starts with the tables, or says why there are none. -/
def start (tables : Except String Store) : Except String Service :=
  match tables with
  | .error reason => .error (startFailure reason)
  | .ok store => .ok ⟨⟨store, 0⟩, none, 0⟩

/-- The shared client, made when it is asked for first. -/
def sharedClient (s : Service) (settings : Settings) : Client × Service :=
  match s.client with
  | some c => (c, s)
  | none =>
    let c := Client.create settings none none none (.shared false)
    (c, { s with client := some c, opened := s.opened + 1 })

/-- The client as it was closed, and the service without it. -/
def stop (s : Service) : Option Client × Service :=
  (s.client.map Client.close, { s with client := none })

end Service

end DeployRegistry.Http
