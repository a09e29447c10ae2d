import DeployRegistry.Form.Rules
import DeployRegistry.Settings.Dotenv

/-!
# Settings

The settings of the registry, as named texts provide them. Every setting but the log level has a
default; numbers are read and must keep to their bounds. A name in the environment counts before
the same name in a file.
-/

namespace DeployRegistry

set_option autoImplicit false

open Form Number Text

abbrev Positive := { n : Nat // 0 < n }

structure Settings where
  environment : Option String
  databaseUrl : Option String
  poolSize : Positive
  poolOverflow : Nat
  secret : Option String
  algorithm : String
  tokenMinutes : Int
  allowedOrigins : String
  logLevel : String
  frameDepth : Int
  apiRoot : String
  serviceName : String
  version : String
  hostBase : String
  hostVersion : String
  hostToken : Option String
  requestTimeout : Binary64
  retryAttempts : Positive
  retryLeast : Binary64
  retryMost : Binary64
  retryFactor : Binary64
  ancestryLifetime : Binary64
  ancestryRoom : Positive
  reportingAddress : Option String

namespace Settings

/-- Named texts; of two with one name the first counts. -/
abbrev Source := List (String × String)

def find? (source : Source) (name : String) : Option String :=
  (source.find? (·.1 == name)).map (·.2)

section

variable (source : Source) (name : String)

def textOr (default : String) : Checked String := .valid ((find? source name).getD default)

def text? : Checked (Option String) := .valid (find? source name)

def neededText : Checked String :=
  match find? source name with
  | some s => .valid s
  | none => .invalid [{ path := [name], cause := .missing }]

def read {α : Type} (rule : String → Checked α) (default : α) : Checked α :=
  match find? source name with
  | some s => (rule s).under name
  | none => .valid default

end

def positive (s : String) : Checked Positive :=
  (whole s).andThen fun n =>
    if h : 0 < n.toNat then .valid ⟨n.toNat, h⟩ else .issue (.below 1)

def natural (s : String) : Checked Nat :=
  (whole s).andThen fun n => if n < 0 then .issue (.below 0) else .valid n.toNat

/-- A number above zero, which a value that is no number is not. -/
def numberAbove (s : String) : Checked Binary64 :=
  (number s).andThen fun b =>
    if (Binary64.finite 0).less b then .valid b else .issue (.notAbove 0)

def numberFrom (s : String) : Checked Binary64 :=
  (number s).andThen fun b =>
    if b = .notANumber ∨ b.less (.finite 0) = true then .issue (.below 0) else .valid b

/-- The general addresses of one kind of database are directed to the driver in use. -/
def drivenUrl (url : String) : String :=
  let cs := url.toList
  if "postgresql://".toList.isPrefixOf cs then
    String.ofList ("postgresql+asyncpg://".toList ++ cs.drop 13)
  else if "postgres://".toList.isPrefixOf cs then
    String.ofList ("postgresql+asyncpg://".toList ++ cs.drop 11)
  else url

def ofSource (source : Source) : Checked Settings :=
  Settings.mk
    <$> text? source "ENVIRONMENT"
    <*> (text? source "DATABASE_URL").map (·.map drivenUrl)
    <*> read source "DATABASE_POOL_SIZE" positive ⟨10, by decide⟩
    <*> read source "DATABASE_MAX_OVERFLOW" natural 20
    <*> text? source "JWT_SECRET_KEY"
    <*> textOr source "JWT_ALGORITHM" "HS256"
    <*> read source "ACCESS_TOKEN_EXPIRE_MINUTES" whole 60
    <*> textOr source "ALLOWED_ORIGINS" ""
    <*> neededText source "LOG_LEVEL"
    <*> read source "LOGGING_FRAME_DEPTH" whole 6
    <*> textOr source "API_V1_PREFIX" "/api/v1"
    <*> textOr source "PROJECT_NAME" "EnvResolver-API"
    <*> textOr source "VERSION" "1.0.0"
    <*> textOr source "GITHUB_API_BASE_URL" "https://api.github.com"
    <*> textOr source "GITHUB_API_VERSION" "2022-11-28"
    <*> text? source "GITHUB_TOKEN"
    <*> read source "HTTP_REQUEST_TIMEOUT_SECONDS" numberAbove (.finite 30)
    <*> read source "EXTERNAL_API_RETRY_ATTEMPTS" positive ⟨4, by decide⟩
    <*> read source "EXTERNAL_API_RETRY_MIN_WAIT" numberFrom (.finite (1 / 2))
    <*> read source "EXTERNAL_API_RETRY_MAX_WAIT" numberFrom (.finite 2)
    <*> read source "EXTERNAL_API_RETRY_MULTIPLIER" number (.finite 1)
    <*> read source "ANCESTRY_CACHE_TTL_SECONDS" numberAbove (.finite 3600)
    <*> read source "ANCESTRY_CACHE_MAXSIZE" positive ⟨1024, by decide⟩
    <*> text? source "SENTRY_DSN"

/-- The environment, and behind it the values that a file assigns. -/
def load (environment : Source) (file : Option String) : Checked Settings :=
  ofSource (environment ++ (file.map (Dotenv.values environment)).getD [])

/-- The allowed origins: the texts between commas, without blanks around them. -/
def origins (s : Settings) : List String :=
  ((splitAt ',' s.allowedOrigins).map (trim isSpacing)).filter (· ≠ "")

/-- Whether the registry runs on the machine of a developer. -/
def isLocal (s : Settings) : Bool :=
  let name := lowerAscii (s.environment.getD "")
  name == "local" || name == "local_dev"

end Settings

end DeployRegistry
