import DeployRegistry.Number.Binary64
import DeployRegistry.Time.WallTime
import DeployRegistry.Token.Signed

/-!
# Claims of an access token

An access token is a signed document of claims. It is issued for a span of time and says so in its
claims. A token is good when its signature, its times and its registered claims are. The times are
whole seconds, and a token is still good in the second of its expiry.
-/

namespace DeployRegistry.Token

set_option autoImplicit false

open Number Text

/-- A fraction without what stands behind its point. -/
def truncated (q : Rat) : Int := if q < 0 then -((-q).floor) else q.floor

/-- The second that a number of double precision names. -/
def secondOfNumber : Binary64 → Except Refusal Int
  | .notANumber => .error .unusable
  | .infinite _ => .error .endless
  | b => .ok (truncated (b.value?.getD 0))

/-- The second that a claim names. -/
def second : Json → Except Refusal Int
  | .num (.whole n) => .ok n
  | .num (.decimal d) => secondOfNumber (.ofDecimal d)
  | .bool b => .ok (if b then 1 else 0)
  | .str s =>
    match wholeNumber s with
    | .ok n => .ok n
    | .error _ => .error .unusable
  | .unbounded .notANumber => .error .unusable
  | .unbounded _ => .error .endless
  | .null => .error .timeless
  | .arr _ => .error .timeless
  | .obj _ => .error .timeless

def claim? (claims : Json.Members) (name : String) : Option Json :=
  Json.Members.member? claims name

/-- A time that is not claimed is no hindrance. -/
def checkTime (claims : Json.Members) (name : String) (good : Int → Bool) :
    Except Refusal Unit :=
  match claim? claims name with
  | none => .ok ()
  | some v => do
    let n ← second v
    if good n then .ok () else .error .unusable

def checkAbsent (claims : Json.Members) (name : String) : Except Refusal Unit :=
  if Json.Members.has claims name then .error .unusable else .ok ()

def checkText (claims : Json.Members) (name : String) : Except Refusal Unit :=
  match claim? claims name with
  | none => .ok ()
  | some (.str _) => .ok ()
  | some _ => .error .unusable

/-- The registered claims at a second: issued at any time, begun, not expired, for no particular
audience, with a text for a subject and a name, and without the digest of another token. -/
def checkClaims (now : Int) (claims : Json.Members) : Except Refusal Unit := do
  checkTime claims "iat" fun _ => true
  checkTime claims "nbf" fun n => decide (n ≤ now)
  checkTime claims "exp" fun n => decide (now ≤ n)
  checkAbsent claims "aud"
  checkText claims "sub"
  checkText claims "jti"
  checkAbsent claims "at_hash"

/-- The claims of a token of the expected kind that is good at a time. -/
def verify (signer : Signer) (now : WallTime) (kind token : String) :
    Except Refusal Json.Members := do
  let claims ← read signer token
  checkClaims now.unixSeconds claims
  match claim? claims "type" with
  | some (.str found) => if found = kind then .ok claims else .error (.otherKind kind)
  | _ => .error (.otherKind kind)

/-- Why a token is not issued: it would be good for too many days, or beyond the end of the
calendar, or it cannot be signed. -/
inductive Unissued
  | tooLong
  | tooManyDays (days : Int)
  | outOfCalendar
  | endless
  | unsigned (reason : Unsigned)
  deriving DecidableEq, Inhabited

def Unissued.message : Unissued → String
  | tooLong => "Python int too large to convert to C int"
  | tooManyDays days =>
    "days=" ++ intText days ++ "; must have magnitude <= 999999999"
  | outOfCalendar => "date value out of range"
  | endless => "cannot convert float infinity to integer"
  | unsigned reason => reason.message

/-- The span of a number of seconds in microseconds, the nearest even one. The fraction of a second
is taken in double precision. -/
def spanOfSeconds : Numeral → Except Unissued Int
  | .whole n => .ok (n * 1000000)
  | .decimal d =>
    match (Binary64.ofDecimal d).value? with
    | none => .error .endless
    | some q =>
      let seconds := truncated q
      .ok (seconds * 1000000 + halfEvenRat (Binary64.rounded ((q - seconds) * 1000000)))

def microsPerDay : Int := 86400000000

/-- A span as long as spans can be. -/
def checkSpan (micros : Int) : Except Unissued Unit :=
  let days := Int.fdiv micros microsPerDay
  if days < -2147483648 ∨ 2147483647 < days then .error .tooLong
  else if days < -999999999 ∨ 999999999 < days then .error (.tooManyDays days)
  else .ok ()

/-- The last second of a token that is issued now; no span, or an empty one, stands for the usual
number of minutes. -/
def expiry (now : WallTime) (span : Option Int) (minutes : Int) : Except Unissued Int := do
  if let some micros := span then checkSpan micros
  let micros := (span.filter (· ≠ 0)).getD (minutes * 60000000)
  checkSpan micros
  let last := (now.micros : Int) + micros
  if 0 ≤ last ∧ last < WallTime.endMicros then .ok (WallTime.unixSeconds ⟨last.toNat⟩)
  else .error .outOfCalendar

/-- A token for claims, which are completed by the time of expiry and the kind. -/
def issue (signer : Signer) (now : WallTime) (span : Option Int) (minutes : Int)
    (claims : Json.Members) : Except Unissued String := do
  let last ← expiry now span minutes
  let claims := Json.Members.put claims "exp" (Json.int last)
  match sign signer (.obj (Json.Members.put claims "type" (.str "access"))) with
  | .ok token => .ok token
  | .error reason => .error (.unsigned reason)

end DeployRegistry.Token
