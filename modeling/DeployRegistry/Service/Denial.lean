/-!
# Denials

Why a wish of a caller is denied, with the number and the words of the answer.
-/

namespace DeployRegistry

set_option autoImplicit false

inductive Denial
  | noProject
  | noEnvironment
  | noUser
  | forbidden
  | ownersOnly
  | nameTaken (name : String)
  | alreadyMember
  deriving DecidableEq, Inhabited

namespace Denial

def status : Denial → Nat
  | noProject => 404
  | noEnvironment => 404
  | noUser => 404
  | forbidden => 403
  | ownersOnly => 403
  | nameTaken _ => 409
  | alreadyMember => 409

def detail : Denial → String
  | noProject => "Project not found"
  | noEnvironment => "Environment not found"
  | noUser => "User not found"
  | forbidden => "Insufficient permissions for this project"
  | ownersOnly => "Only project owners can add members"
  | nameTaken name => "Environment with name '" ++ name ++ "' already exists in this project"
  | alreadyMember => "User is already a member of this project"

end Denial

end DeployRegistry
