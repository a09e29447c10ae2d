import DeployRegistry.Text.CharClass
import DeployRegistry.Text.Hex
import DeployRegistry.Text.LoneUnit

/-!
# Texts in messages

A text as a message shows it: between quotes, and with an escape for every character that shows
nothing of itself. Other characters than the quote and the backslash are shown as they are.
-/

namespace DeployRegistry.Text

set_option autoImplicit false

/-- The hexadecimal digits of a number, as many as are asked for. -/
def hexDigits : Nat → Nat → List Char
  | 0, _ => []
  | width + 1, n => hexDigits width (n / 16) ++ [Hex.lowerDigit n]

/-- The escape of a character that shows nothing of itself, as short as its scalar value allows. A
unit without its pair is escaped as that unit. -/
def escaped (c : Char) : List Char :=
  let n := (loneUnit? c).getD c.toNat
  if n < 0x100 then '\\' :: 'x' :: hexDigits 2 n
  else if n < 0x10000 then '\\' :: 'u' :: hexDigits 4 n
  else '\\' :: 'U' :: hexDigits 8 n

def shownChar (quote c : Char) : List Char :=
  if c = quote ∨ c = '\\' then ['\\', c]
  else if c = '\n' then ['\\', 'n']
  else if c = '\r' then ['\\', 'r']
  else if c = '\t' then ['\\', 't']
  else if isShown c then [c]
  else escaped c

/-- A text between quotes. Single quotes are used unless the text has some and no double ones. -/
def shownText (s : String) : String :=
  let cs := s.toList
  let quote := if cs.contains '\'' && !cs.contains '"' then '"' else '\''
  String.ofList (quote :: (cs.flatMap (shownChar quote) ++ [quote]))

end DeployRegistry.Text
