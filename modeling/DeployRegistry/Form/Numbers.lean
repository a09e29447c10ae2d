import DeployRegistry.Form.Checked
import DeployRegistry.Number.Binary64
import DeployRegistry.Text.Blank

/-!
# Submitted numbers

Numbers that are submitted as texts. A whole number may have blanks around it, zeros in front, a
fraction of zeros, and underscores between its digits; a number may be any that double precision
has. Numbers must keep to bounds.
-/

namespace DeployRegistry.Form

set_option autoImplicit false

open Number Text

/-- A text without its underscores, when these are single and stand between other characters. -/
def withoutUnderscores? (cs : List Char) : Option (List Char) :=
  let groups := pieces (· == '_') cs
  if groups.contains [] then none else some groups.flatten

/-- The characters behind the zeros in front, among which underscores may stand. A zero before a
point or before nothing stays. A text that starts with neither a digit nor a minus sign writes no
number. -/
def withoutLeadingZeros? : List Char → Option (List Char)
  | '0' :: rest =>
    let last := (('0' :: rest).takeWhile fun c => c == '0' || c == '_').getLastD '0'
    match rest.dropWhile fun c => c == '0' || c == '_' with
    | [] => some [last]
    | '.' :: more => some (last :: '.' :: more)
    | more => some more
  | c :: rest => if c.isDigit || c == '-' then some (c :: rest) else none
  | [] => none

/-- The characters before a point, when one or more zeros and nothing else stand behind it. -/
def withoutZeroFraction (cs : List Char) : List Char :=
  match cs.dropWhile (· != '.') with
  | _ :: c :: fraction =>
    if (c :: fraction).all (· == '0') then cs.takeWhile (· != '.') else cs
  | _ => cs

/-- The bare form of a whole number: a minus sign perhaps, and digits. -/
def bareWhole? (cs : List Char) : Option (List Char) := do
  let cs ← match cs with
    | '+' :: '-' :: _ => none
    | '+' :: rest => some rest
    | rest => some rest
  let cs := withoutZeroFraction (← withoutLeadingZeros? cs)
  some ((withoutUnderscores? cs).getD cs)

/-- The greatest length of a whole number in its bare form. -/
def longestWhole : Nat := 4300

/-- The number of a bare form, in which a zero stands only alone. -/
def wholeOfBare (cs : List Char) : Checked Int :=
  let (negative, ds) := match cs with
    | '-' :: rest => (true, rest)
    | rest => (false, rest)
  let (front, rest) := spanDigits ds
  match front with
  | [] => .issue .unreadableWhole
  | '0' :: more => if more = [] ∧ rest = [] then .valid 0 else .issue .unreadableWhole
  | front =>
    if longestWhole < cs.length - rest.length then .issue .wholeTooLong
    else if rest ≠ [] then .issue .unreadableWhole
    else .valid (if negative then -(ofDigits front : Int) else ofDigits front)

/-- A whole number in a text. -/
def whole (s : String) : Checked Int :=
  match bareWhole? (trimList isBlank s.toList) with
  | some cs => wholeOfBare cs
  | none => .issue .unreadableWhole

def atLeast (bound n : Int) : Checked Int := if n < bound then .issue (.below bound) else .valid n

def atMost (bound n : Int) : Checked Int := if bound < n then .issue (.above bound) else .valid n

/-- The number that characters write: a sign, and digits or one of the words for what lies beyond
all fractions. -/
def numberOfText? (cs : List Char) : Option Binary64 :=
  let (negative, cs) := match cs with
    | '-' :: rest => (true, rest)
    | '+' :: rest => (false, rest)
    | rest => (false, rest)
  let word := String.ofList (cs.map lowerChar)
  if word = "nan" then some .notANumber
  else if word = "inf" ∨ word = "infinity" then some (.infinite negative)
  else (Decimal.ofText? negative cs).map Binary64.ofDecimal

/-- A number in a text, with blanks around it or underscores in it. -/
def number (s : String) : Checked Binary64 :=
  let found := (numberOfText? (trimList isBlank s.toList)).orElse fun _ =>
    (withoutUnderscores? s.toList).bind numberOfText?
  match found with
  | some b => .valid b
  | none => .issue .unreadableNumber

end DeployRegistry.Form
