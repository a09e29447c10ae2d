import DeployRegistry.Json.Value
import DeployRegistry.Text.Hex
import DeployRegistry.Text.LoneUnit

/-!
# Writing structured values

The compact written form: no blanks between the parts, and every character outside printable ASCII
as an escape with four hexadecimal digits. A character beyond the first plane is written as two
escapes, one for each of its UTF-16 units, and a unit without its pair as its own escape.
-/

namespace DeployRegistry.Json

set_option autoImplicit false

open Text Number

def escape (n : Nat) : List Char := '\\' :: 'u' :: Hex.fourDigits n

/-- The escape of a character inside a quoted text; printable ASCII other than the quote and the
backslash is written as it is. -/
def writeChar (c : Char) : List Char :=
  if c = '"' then ['\\', '"']
  else if c = '\\' then ['\\', '\\']
  else if c = '\n' then ['\\', 'n']
  else if c = '\r' then ['\\', 'r']
  else if c = '\t' then ['\\', 't']
  else if c = Char.ofNat 8 then ['\\', 'b']
  else if c = Char.ofNat 12 then ['\\', 'f']
  else if 0x20 ≤ c.toNat ∧ c.toNat ≤ 0x7E then [c]
  else if c.toNat < 0x10000 then escape c.toNat
  else match loneUnit? c with
    | some n => escape n
    | none =>
      escape (0xD800 + (c.toNat - 0x10000) / 0x400) ++
        escape (0xDC00 + (c.toNat - 0x10000) % 0x400)

def writeChars : List Char → List Char
  | [] => []
  | c :: rest => writeChar c ++ writeChars rest

def writeText (s : String) : List Char := '"' :: (writeChars s.toList ++ ['"'])

def writeUnbounded : Unbounded → List Char
  | .notANumber => "NaN".toList
  | .infinity => "Infinity".toList
  | .negativeInfinity => "-Infinity".toList

mutual

def write : Json → List Char
  | null => "null".toList
  | bool true => "true".toList
  | bool false => "false".toList
  | num n => n.text.toList
  | unbounded u => writeUnbounded u
  | str s => writeText s
  | arr [] => ['[', ']']
  | arr (v :: rest) => '[' :: (write v ++ writeItems rest)
  | obj [] => ['\x7b', '\x7d']
  | obj ((k, v) :: rest) => '\x7b' :: (writeText k ++ ':' :: (write v ++ writeMembers rest))

/-- The items after the first one and the closing bracket. -/
def writeItems : List Json → List Char
  | [] => [']']
  | v :: rest => ',' :: (write v ++ writeItems rest)

/-- The members after the first one and the closing brace. -/
def writeMembers : List (String × Json) → List Char
  | [] => ['\x7d']
  | (k, v) :: rest => ',' :: (writeText k ++ ':' :: (write v ++ writeMembers rest))

end

def text (v : Json) : String := String.ofList (write v)

end DeployRegistry.Json
