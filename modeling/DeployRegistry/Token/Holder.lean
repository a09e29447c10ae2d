import DeployRegistry.Store.Basic
import DeployRegistry.Token.Claims

/-!
# The holder of a token

A token stands for the user whose id is its subject. A caller without a token is nobody; a caller
with a token that is not accepted is refused, never taken for nobody.
-/

namespace DeployRegistry.Token

set_option autoImplicit false

open Text

/-- The user for whom a token stands. -/
def holder (signer : Signer) (now : WallTime) (s : Store) (token : String) :
    Except Refusal User := do
  let claims ← verify signer now "access" token
  match claim? claims "sub" with
  | some (.str id) =>
    match beyondUtf8? id, s.user? id with
    | some message, _ => .error (.unencodable message)
    | none, some u => .ok u
    | none, none => .error .unknownUser
  | _ => .error .noSubject

def holder? (signer : Signer) (now : WallTime) (s : Store) :
    Option String → Except Refusal (Option User)
  | none => .ok none
  | some token => (holder signer now s token).map some

end DeployRegistry.Token
