import DeployRegistry.Number.Digits
import DeployRegistry.Store.Records

/-!
# Logging while requests are served

Which records are written, and with which request id. Records below the threshold are dropped, and
so are those below a warning from the noisy loggers. The current request id is bound for the span
of a request and restored behind it: the main statement is `leave_enter`.
-/

namespace DeployRegistry.Log

set_option autoImplicit false

open Number

inductive Level
  | trace
  | debug
  | info
  | success
  | warning
  | error
  | critical
  deriving DecidableEq, Inhabited

instance : Named Level where
  all := [.trace, .debug, .info, .success, .warning, .error, .critical]
  name
    | .trace => "TRACE"
    | .debug => "DEBUG"
    | .info => "INFO"
    | .success => "SUCCESS"
    | .warning => "WARNING"
    | .error => "ERROR"
    | .critical => "CRITICAL"

namespace Level

def number : Level → Nat
  | trace => 5
  | debug => 10
  | info => 20
  | success => 25
  | warning => 30
  | error => 40
  | critical => 50

/-- The levels that records are made at by name. -/
def common : List Level := [debug, info, warning, error, critical]

/-- What is written for the level of a record: a common level by its name. -/
def textOf (n : Int) : String :=
  match common.find? fun l => decide ((l.number : Int) = n) with
  | some l => Named.name l
  | none => "Level " ++ intText n

/-- What is said to a name that is no level. -/
def unknown (name : String) : String := "Level '" ++ name ++ "' does not exist"

def ofName (name : String) : Except String Level :=
  match Named.ofName? name with
  | some l => .ok l
  | none => .error (unknown name)

end Level

/-- The loggers that are heard from a warning on only. -/
def noisy : List String := ["sqlalchemy", "uvicorn.access", "httpx"]

/-- The logger of the error reports, which is not heard at all. -/
def silent : String := "sentry_sdk.errors"

/-- A logger belongs to another one when its name continues the other's behind a dot. -/
def belongs (logger other : String) : Bool :=
  logger == other || (other ++ ".").toList.isPrefixOf logger.toList

/-- The level from which on a logger is heard, if it is. -/
def leastOf? (logger : String) : Option Int :=
  if logger = silent then none
  else if noisy.any (belongs logger) then some Level.warning.number
  else if belongs logger silent then some Level.debug.number
  else some 0

/-- The request id while no request is served. -/
def noRequest : String := "-"

/-- The threshold, the current request id, and the ids to restore. -/
structure Session where
  threshold : Level
  current : String
  outer : List String
  deriving DecidableEq, Inhabited

structure Line where
  level : String
  message : String
  request : Option String
  failure : Option (String × String)
  deriving DecidableEq, Inhabited

namespace Session

def start (threshold : Level) : Session := ⟨threshold, noRequest, []⟩

def bind (s : Session) (id : String) : Session := { s with current := id }

def enter (s : Session) (id : String) : Session :=
  { s with current := id, outer := s.current :: s.outer }

def leave (s : Session) : Session :=
  match s.outer with
  | [] => s
  | id :: rest => { s with current := id, outer := rest }

theorem leave_enter (s : Session) (id : String) : (s.enter id).leave = s := rfl

def request? (s : Session) : Option String :=
  if s.current = noRequest then none else some s.current

/-- Whether a record of a logger at a level is written. -/
def isWritten (s : Session) (logger : String) (level : Int) : Bool :=
  decide ((s.threshold.number : Int) ≤ level) &&
    (leastOf? logger).any fun least => decide (least ≤ level)

/-- The lines that a record leaves. -/
def write (s : Session) (logger : String) (level : Int) (message : String)
    (failure : Option (String × String)) : List Line :=
  if s.isWritten logger level then [⟨Level.textOf level, message, s.request?, failure⟩] else []

end Session

end DeployRegistry.Log
