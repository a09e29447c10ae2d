import DeployRegistry.Form.Rules
import DeployRegistry.Text.Hex

/-!
# Commit names

A commit is named by hexadecimal digits, which are kept in lower case. A recorded name has at
least seven of them; one that is looked up has at least one.
-/

namespace DeployRegistry.Form

set_option autoImplicit false

open Text

def hexPattern : Pattern := ⟨"^[0-9a-fA-F]+$", fun cs => decide (cs ≠ []) && cs.all Hex.isDigit⟩

def shaBounds (least : Nat) : TextBounds := ⟨least, some 64, some hexPattern⟩

/-- The name of a commit, with at least so many digits, in lower case. -/
def sha (least : Nat) : Rule String := fun v => ((shaBounds least).rule v).map lowerAscii

/-- The least lengths of a recorded name and of one that is looked up. -/
def recordedSha : Rule String := sha 7

def soughtSha : Rule String := sha 1

end DeployRegistry.Form
