import DeployRegistry.Json.Value
import DeployRegistry.Text.Shown

/-!
# Values in messages

A structured value as a message shows it. Texts stand between quotes, unless a text is all there is
to show.
-/

namespace DeployRegistry.Json

set_option autoImplicit false

open Text

def shownUnbounded : Unbounded → String
  | .notANumber => "nan"
  | .infinity => "inf"
  | .negativeInfinity => "-inf"

mutual

def shown : Json → String
  | null => "None"
  | bool true => "True"
  | bool false => "False"
  | num n => n.text
  | unbounded u => shownUnbounded u
  | str s => shownText s
  | arr items => "[" ++ String.intercalate ", " (shownItems items) ++ "]"
  | obj members => "\x7b" ++ String.intercalate ", " (shownMembers members) ++ "\x7d"

def shownItems : List Json → List String
  | [] => []
  | v :: rest => shown v :: shownItems rest

def shownMembers : List (String × Json) → List String
  | [] => []
  | (k, v) :: rest => (shownText k ++ ": " ++ shown v) :: shownMembers rest

end

/-- A value that stands alone: a text is shown as it is. -/
def plain : Json → String
  | str s => s
  | v => v.shown

end DeployRegistry.Json
