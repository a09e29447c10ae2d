import DeployRegistry.Json.Value
import DeployRegistry.Text.Hex
import DeployRegistry.Text.LoneUnit
import DeployRegistry.Text.WholeNumber

/-!
# Reading structured values

A reader for JSON texts. Each part of the reader takes the characters that are left and returns
what it read with the rest. A name that occurs twice in an object has its last value. The words
`NaN`, `Infinity` and `-Infinity` are read as values, as many writers produce them. Values that are
nested too deeply and whole numbers with too many digits are refused.
-/

namespace DeployRegistry.Json

set_option autoImplicit false

open Text Number

/-- Why a text is no value: it is not of the format, it goes too deep with the bracket of an array
or object, or it has a whole number of so many digits. -/
inductive Fault
  | malformed
  | tooDeep (isObject : Bool)
  | tooLong (digits : Nat)
  deriving DecidableEq, Inhabited

namespace Fault

/-- What is said about a value that is too large; nothing is said about one that is malformed. -/
def message? : Fault → Option String
  | malformed => none
  | tooDeep isObject =>
    some ("maximum recursion depth exceeded while decoding a JSON " ++
      (if isObject then "object" else "array") ++ " from a unicode string")
  | tooLong n => some (tooManyDigits n)

end Fault

/-- The greatest number of brackets around a value. -/
def mostBrackets : Nat := 950

def isGap (c : Char) : Bool := c == ' ' || c == '\t' || c == '\n' || c == '\r'

def skipGap (cs : List Char) : List Char := cs.dropWhile isGap

/-- The value of four hexadecimal digits at the front. -/
def readUnit : List Char → Except Fault (Nat × List Char)
  | a :: b :: c :: d :: rest =>
    match Hex.number? [a, b, c, d] with
    | some n => .ok (n, rest)
    | none => .error .malformed
  | _ => .error .malformed

/-- The character that a backslash and the given letter stand for. -/
def shortEscape? : Char → Option Char
  | '"' => some '"'
  | '\\' => some '\\'
  | '/' => some '/'
  | 'b' => some (Char.ofNat 8)
  | 'f' => some (Char.ofNat 12)
  | 'n' => some '\n'
  | 'r' => some '\r'
  | 't' => some '\t'
  | _ => none

/-- What an escape stands for; the list starts behind the backslash. Two escapes make one character
when they are the units of a pair. -/
def readEscape : List Char → Except Fault (Char × List Char)
  | 'u' :: rest => do
    let (n, rest) ← readUnit rest
    match rest with
    | '\\' :: 'u' :: more =>
      match readUnit more with
      | .ok (low, more) =>
        if isHighUnit n && isLowUnit low then .ok (joinUnits n low, more) else .ok (ofUnit n, rest)
      | .error _ => .ok (ofUnit n, rest)
    | _ => .ok (ofUnit n, rest)
  | c :: rest =>
    match shortEscape? c with
    | some d => .ok (d, rest)
    | none => .error .malformed
  | [] => .error .malformed

/-- The characters of a quoted text up to its closing quote; control characters must be escaped. -/
def readQuoted : Nat → List Char → Except Fault (List Char × List Char)
  | 0, _ => .error .malformed
  | _ + 1, [] => .error .malformed
  | fuel + 1, c :: rest =>
    if c = '"' then .ok ([], rest)
    else if c = '\\' then do
      let (d, rest) ← readEscape rest
      let (ds, rest) ← readQuoted fuel rest
      .ok (d :: ds, rest)
    else if c.toNat < 0x20 then .error .malformed
    else do
      let (ds, rest) ← readQuoted fuel rest
      .ok (c :: ds, rest)

def readText (cs : List Char) : Except Fault (String × List Char) :=
  (readQuoted (cs.length + 1) cs).map fun p => (String.ofList p.1, p.2)

/-- The digits before the point: a zero alone, or a run that does not start with zero. -/
def readWhole : List Char → Except Fault (List Char × List Char)
  | '0' :: rest => .ok (['0'], rest)
  | c :: rest => if c.isDigit then .ok (spanDigits (c :: rest)) else .error .malformed
  | [] => .error .malformed

/-- The digits behind a point; nothing is taken when no digit follows. -/
def readFraction : List Char → List Char × List Char
  | '.' :: rest =>
    match spanDigits rest with
    | ([], _) => ([], '.' :: rest)
    | (ds, rest) => (ds, rest)
  | cs => ([], cs)

/-- The exponent behind the letter `e`; nothing is taken when no digit follows. -/
def readExponent : List Char → Option Int × List Char
  | c :: rest =>
    if c = 'e' ∨ c = 'E' then
      let (negative, ds) := match rest with
        | '-' :: ds => (true, ds)
        | '+' :: ds => (false, ds)
        | ds => (false, ds)
      match spanDigits ds with
      | ([], _) => (none, c :: rest)
      | (ds, after) => (some (if negative then -(ofDigits ds : Int) else ofDigits ds), after)
    else (none, c :: rest)
  | [] => (none, [])

def signed (negative : Bool) (n : Nat) : Int := if negative then -(n : Int) else n

def readNumeral (negative : Bool) (cs : List Char) : Except Fault (Numeral × List Char) := do
  let (whole, rest) ← readWhole cs
  let (fraction, rest) := readFraction rest
  let (power, rest) := readExponent rest
  match fraction, power with
  | [], none =>
    if mostDigits < whole.length then .error (.tooLong whole.length)
    else .ok (.whole (signed negative (ofDigits whole)), rest)
  | ds, e => .ok (.decimal ⟨negative, ofDigits (whole ++ ds), e.getD 0 - ds.length⟩, rest)

/-- A value that is neither quoted nor bracketed. -/
def readScalar : List Char → Except Fault (Json × List Char)
  | 'n' :: 'u' :: 'l' :: 'l' :: rest => .ok (null, rest)
  | 't' :: 'r' :: 'u' :: 'e' :: rest => .ok (bool true, rest)
  | 'f' :: 'a' :: 'l' :: 's' :: 'e' :: rest => .ok (bool false, rest)
  | 'N' :: 'a' :: 'N' :: rest => .ok (unbounded .notANumber, rest)
  | 'I' :: 'n' :: 'f' :: 'i' :: 'n' :: 'i' :: 't' :: 'y' :: rest => .ok (unbounded .infinity, rest)
  | '-' :: 'I' :: 'n' :: 'f' :: 'i' :: 'n' :: 'i' :: 't' :: 'y' :: rest =>
    .ok (unbounded .negativeInfinity, rest)
  | '-' :: rest => (readNumeral true rest).map fun p => (num p.1, p.2)
  | cs => (readNumeral false cs).map fun p => (num p.1, p.2)

mutual

/-- A value inside at most `room` more brackets. -/
def readValue : Nat → Nat → List Char → Except Fault (Json × List Char)
  | 0, _, _ => .error .malformed
  | _ + 1, _, '"' :: rest => (readText rest).map fun p => (str p.1, p.2)
  | fuel + 1, room, '[' :: rest =>
    if room = 0 then .error (.tooDeep false)
    else match skipGap rest with
      | ']' :: rest => .ok (arr [], rest)
      | rest => (readItems fuel (room - 1) rest).map fun p => (arr p.1, p.2)
  | fuel + 1, room, '\x7b' :: rest =>
    if room = 0 then .error (.tooDeep true)
    else match skipGap rest with
      | '\x7d' :: rest => .ok (obj [], rest)
      | rest => (readMembers fuel (room - 1) [] rest).map fun p => (obj p.1, p.2)
  | _ + 1, _, cs => readScalar cs

/-- One or more items up to the closing bracket. -/
def readItems : Nat → Nat → List Char → Except Fault (List Json × List Char)
  | 0, _, _ => .error .malformed
  | fuel + 1, room, cs =>
    match readValue fuel room cs with
    | .error e => .error e
    | .ok (v, rest) =>
      match skipGap rest with
      | ']' :: rest => .ok ([v], rest)
      | ',' :: rest => (readItems fuel room (skipGap rest)).map fun p => (v :: p.1, p.2)
      | _ => .error .malformed

/-- One or more members up to the closing brace, put after those that are already read. -/
def readMembers : Nat → Nat → Members → List Char → Except Fault (Members × List Char)
  | 0, _, _, _ => .error .malformed
  | fuel + 1, room, done, '"' :: cs =>
    match readText cs with
    | .error e => .error e
    | .ok (k, rest) =>
      match skipGap rest with
      | ':' :: rest =>
        match readValue fuel room (skipGap rest) with
        | .error e => .error e
        | .ok (v, rest) =>
          match skipGap rest with
          | '\x7d' :: rest => .ok (Members.put done k v, rest)
          | ',' :: rest => readMembers fuel room (Members.put done k v) (skipGap rest)
          | _ => .error .malformed
      | _ => .error .malformed
  | _ + 1, _, _, _ => .error .malformed

end

/-- The value that the whole text writes. -/
def read (s : String) : Except Fault Json := do
  let cs := s.toList
  let (v, rest) ← readValue (2 * cs.length + 2) mostBrackets (skipGap cs)
  if (skipGap rest).isEmpty then .ok v else .error .malformed

def read? (s : String) : Option Json := (read s).toOption

end DeployRegistry.Json
