import DeployRegistry.Text.Blank
import DeployRegistry.Text.Shown

/-!
# Whole numbers in texts

A whole number as people write it: blanks around it, a sign, decimal digits of any script, and
single underscores between digits. A number with thousands of digits is not read.
-/

namespace DeployRegistry.Text

set_option autoImplicit false

open Number

/-- Why a text is no whole number: it is written otherwise, or it has so many digits. -/
inductive NotWhole
  | malformed
  | tooLong (digits : Nat)
  deriving DecidableEq, Inhabited

/-- What is said about a number with too many digits. -/
def tooManyDigits (n : Nat) : String :=
  "Exceeds the limit (4300 digits) for integer string conversion: value has " ++ natText n ++
    " digits; use sys.set_int_max_str_digits() to increase the limit"

/-- What is said about a text that should be a whole number; a long text is cut off. -/
def NotWhole.message (s : String) : NotWhole → String
  | malformed =>
    "invalid literal for int() with base 10: " ++ String.ofList ((shownText s).toList.take 200)
  | tooLong n => tooManyDigits n

def mostDigits : Nat := 4300

/-- The values of digits that may be grouped by single underscores. -/
def groupedDigits? (cs : List Char) : Option (List Nat) :=
  let groups := pieces (· == '_') cs
  if groups.contains [] then none else groups.flatten.mapM decimalValue?

/-- The sign in front of a number. -/
def splitSign : List Char → Bool × List Char
  | '-' :: rest => (true, rest)
  | '+' :: rest => (false, rest)
  | cs => (false, cs)

def wholeNumber (s : String) : Except NotWhole Int :=
  let (negative, cs) := splitSign (trimList isBlank s.toList)
  match groupedDigits? cs with
  | none => .error .malformed
  | some ds =>
    if mostDigits < ds.length then .error (.tooLong ds.length)
    else
      let n : Nat := ds.foldl (fun n d => 10 * n + d) 0
      .ok (if negative then -(n : Int) else n)

end DeployRegistry.Text
