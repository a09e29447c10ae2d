import DeployRegistry.Json.Shown
import DeployRegistry.Text.Blank
import DeployRegistry.Time.WallTime

/-!
# Log records

A log record as it is shipped: when and where it was written, its level and message, the id of the
request that was served, and what went wrong, if anything did.
-/

namespace DeployRegistry.Log

set_option autoImplicit false

open Text

/-- A failure that a record tells of. The arguments with which it was made are its value. -/
structure Mishap where
  kind : Option String
  arguments : Option (List Json)
  traced : Bool

/-- Failures of the system, which are made with a number and what it means. -/
def systemKinds : List String :=
  ["OSError", "BlockingIOError", "ChildProcessError", "ConnectionError", "BrokenPipeError",
    "ConnectionAbortedError", "ConnectionRefusedError", "ConnectionResetError", "FileExistsError",
    "FileNotFoundError", "InterruptedError", "IsADirectoryError", "NotADirectoryError",
    "PermissionError", "ProcessLookupError", "TimeoutError"]

/-- The text of a failure of a kind: that of its only argument, or all of them in parentheses. A key
that was not found is shown with its quotes, and a failure of the system with its number. -/
def argumentsText (kind : String) : List Json → String
  | [] => ""
  | [v] => if kind = "KeyError" then v.shown else v.plain
  | vs =>
    match systemKinds.contains kind, vs with
    | true, [number, meaning] => "[Errno " ++ number.plain ++ "] " ++ meaning.plain
    | true, [number, meaning, place] =>
      "[Errno " ++ number.plain ++ "] " ++ meaning.plain ++ ": " ++ place.shown
    | _, _ => "(" ++ String.intercalate ", " (vs.map Json.shown) ++ ")"

/-- The characters behind which a line ends. -/
def endsLine (c : Char) : Bool :=
  (0xA ≤ c.toNat && c.toNat ≤ 0xD) || (0x1C ≤ c.toNat && c.toNat ≤ 0x1E) || c == '\u0085' ||
    c == '\u2028' || c == '\u2029'

/-- The last line of a text, which blanks at its end do not belong to. -/
def lastLine (s : String) : String :=
  String.ofList ((trimList isSpacing s.toList).reverse.takeWhile fun c => !endsLine c).reverse

namespace Mishap

def value? (m : Mishap) : Option String := m.arguments.map (argumentsText (m.kind.getD ""))

/-- The first and the last line of the trace; the last one names the failure. -/
def trace? (m : Mishap) : Option (String × String) :=
  if m.traced then
    let kind := m.kind.getD ""
    let last := match m.value? with
      | none => kind
      | some value => if value = "" then kind else kind ++ ": " ++ value
    some ("Traceback (most recent call last):", lastLine last)
  else none

/-- A failure without a value has no kind and no trace either. -/
def json (m : Mishap) : Json :=
  match m.value? with
  | none => .obj [("type", .null), ("value", .null), ("traceback", .null)]
  | some value => .obj [
      ("type", Json.ofText? m.kind),
      ("value", .str value),
      ("traceback", Json.ofOption (fun t => .arr [.str t.1, .str t.2]) m.trace?)]

end Mishap

/-- Where a record comes from: an id and a name. -/
structure Place where
  id : Json
  name : Json

def Place.json (p : Place) : Json := .obj [("id", p.id), ("name", p.name)]

structure Record where
  time : WallTime
  level : Json
  logger : Json
  message : Json
  extra : Json.Members
  mishap : Option Mishap
  process : Place
  thread : Place

/-- The shipped form; the id of the request is only named when the record has one. -/
def Record.json (r : Record) : Json :=
  .obj ([
    ("timestamp", .str r.time.plainText),
    ("level", r.level),
    ("logger", r.logger),
    ("message", r.message)] ++
    ((Json.Members.member? r.extra "request_id").map fun v => ("request_id", v)).toList ++ [
    ("exception", Json.ofOption Mishap.json r.mishap),
    ("process", r.process.json),
    ("thread", r.thread.json)])

end DeployRegistry.Log
