/-!
# Request ids

Every request has an id. A caller's own id is taken when it consists of one to 128 letters, digits,
dots, underscores and dashes; one line break behind them is let pass. Otherwise the request gets a
fresh id.
-/

namespace DeployRegistry.RequestId

set_option autoImplicit false

def isIdChar (c : Char) : Bool := c.isAlphanum || c == '.' || c == '_' || c == '-'

def isPlain (cs : List Char) : Bool :=
  decide (cs ≠ []) && decide (cs.length ≤ 128) && cs.all isIdChar

/-- The characters without one line break at their end. -/
def withoutBreak (cs : List Char) : List Char :=
  if cs.getLast? = some '\n' then cs.dropLast else cs

def isAccepted (s : String) : Bool := isPlain (withoutBreak s.toList)

/-- The id of a request: the caller's, if there is one and it is accepted, or the fresh one. Of
several ids only the first is considered. -/
def resolve (given : List String) (fresh : String) : String :=
  match given with
  | id :: _ => if isAccepted id then id else fresh
  | [] => fresh

end DeployRegistry.RequestId
