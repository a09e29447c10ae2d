import DeployRegistry.Token.Keys

/-!
# Refused tokens

Why a token is not accepted, and what a caller is told. Some tokens cannot be judged at all, and
nobody is told anything.
-/

namespace DeployRegistry.Token

set_option autoImplicit false

/-- Why a token is not accepted. A time that is no number at all, or an unbounded one, cannot be
compared; a document may be nested too deeply; a key may be of no use; and a text with units without
their pair cannot be looked up. None of these is a judgement of the token. -/
inductive Refusal
  | unusable
  | otherKind (expected : String)
  | noSubject
  | unknownUser
  | timeless
  | endless
  | tooDeep (fault : Json.Fault)
  | badKey (flaw : KeyFlaw)
  | unencodable (message : String)
  deriving DecidableEq, Inhabited

namespace Refusal

/-- What a refused caller is told; nothing is told where there is no judgement. -/
def detail? : Refusal → Option String
  | unusable => some "Could not validate credentials"
  | otherKind expected => some ("Invalid token type. Expected " ++ expected)
  | noSubject => some "Could not validate credentials"
  | unknownUser => some "User not found"
  | _ => none

/-- The scheme that is asked for in the answer. -/
def challenge? : Refusal → Option String
  | unusable => some "Bearer"
  | _ => none

/-- What is said about a token that cannot be judged. -/
def message? : Refusal → Option String
  | endless => some "cannot convert float infinity to integer"
  | tooDeep fault => fault.message?
  | badKey flaw => flaw.message?
  | unencodable message => some message
  | _ => none

end Refusal

end DeployRegistry.Token
