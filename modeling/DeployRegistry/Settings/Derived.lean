import DeployRegistry.Number.Fixed
import DeployRegistry.Settings.Basic
import DeployRegistry.Settings.DatabaseUrl

/-!
# What follows from the settings

The address of the database and the options of its connections, and the arguments with which
errors are reported.
-/

namespace DeployRegistry.Settings

set_option autoImplicit false

open Number Text

def noDatabase : String := "DATABASE_URL is required. Please set it in your .env file."

/-- The address of the database; an empty one is as good as none. -/
def databaseAddress (s : Settings) : Except String String :=
  match s.databaseUrl with
  | some url => if url = "" then .error noDatabase else .ok url
  | none => .error noDatabase

/-- The bounds of a pool of connections. -/
structure Pool where
  size : Nat
  overflow : Nat
  recycleSeconds : Int
  deriving DecidableEq, Inhabited

/-- A developer's machine has small pools, whose connections are never renewed. -/
def pool (s : Settings) : Pool :=
  if s.isLocal then ⟨min s.poolSize.1 5, min s.poolOverflow 10, -1⟩
  else ⟨s.poolSize.1, s.poolOverflow, 3600⟩

def Pool.options (p : Pool) : Json :=
  .obj [
    ("echo", .bool false),
    ("pool_pre_ping", .bool true),
    ("pool_recycle", Json.int p.recycleSeconds),
    ("pool_size", Json.int p.size),
    ("max_overflow", Json.int p.overflow),
    ("pool_timeout", Json.int 30),
    ("connect_args", .obj [
      ("command_timeout", Json.int 30),
      ("timeout", Json.int 10),
      ("server_settings", .obj [("application_name", .str "envresolver-api")])])]

/-- Only one kind of database takes the options of a pool. -/
def connectionOptions (s : Settings) (url : String) : Except DatabaseUrl.Fault Json :=
  (DatabaseUrl.kind url).map fun kind =>
    if kind = "postgresql" then s.pool.options else .obj [("echo", .bool false)]

/-- The arguments with which the reporting of errors starts, when there is an address for it. -/
def reporting? (s : Settings) : Option Json :=
  match s.reportingAddress with
  | none => none
  | some address =>
    if address = "" then none
    else some (.obj [
      ("dsn", .str address),
      ("traces_sample_rate", .str (sixPlaces (if s.isLocal then 1 else 1 / 10))),
      ("environment", Json.ofText? s.environment),
      ("release", .str (s.serviceName ++ "@" ++ s.version)),
      ("send_default_pii", .bool false)])

end DeployRegistry.Settings
