import DeployRegistry.Time.WallTime
import DeployRegistry.Number.Binary64

/-!
# Time stamps

A time stamp is a wall-clock time with or without the offset of its zone. It is read from a text
(a date alone, or a date and a time of day), or from a number of seconds since 1970; a number
beyond twenty thousand million counts milliseconds. Texts and numbers can also name moments of the
year before year 1, in which no stamp lies.
-/

namespace DeployRegistry

set_option autoImplicit false

open Number

/-- A wall-clock time and the minutes by which its zone is ahead of universal time. -/
structure Stamp where
  wall : WallTime
  offset : Option Int
  deriving DecidableEq, Inhabited

namespace Stamp

/-- The microseconds of universal time at a stamp that has an offset. -/
def instant? (s : Stamp) : Option Int := s.offset.map fun m => (s.wall.micros : Int) - m * 60000000

def offsetChars (minutes : Int) : List Char :=
  (if minutes < 0 then '-' else '+') ::
    (padded 2 (minutes.natAbs / 60) ++ ':' :: padded 2 (minutes.natAbs % 60))

def text (s : Stamp) : String :=
  String.ofList (s.wall.chars ++ (s.offset.map offsetChars).getD [])

/-- Exactly `n` digits. -/
def readDigits (n : Nat) (cs : List Char) : Option (Nat × List Char) :=
  if (cs.take n).length = n ∧ (cs.take n).all Char.isDigit then
    some (ofDigits (cs.take n), cs.drop n)
  else none

def expect (c : Char) : List Char → Option (List Char)
  | d :: rest => if c = d then some rest else none
  | [] => none

def readDate (cs : List Char) : Option (Time.Date × List Char) := do
  let (year, cs) ← readDigits 4 cs
  let (month, cs) ← readDigits 2 (← expect '-' cs)
  let (day, cs) ← readDigits 2 (← expect '-' cs)
  let d : Time.Date := ⟨year, month, day⟩
  if d.isValid then some (d, cs) else none

/-- The digits behind the point of the seconds; those after the sixth are dropped. -/
def readMicros : List Char → Option (Nat × List Char)
  | c :: rest =>
    if c = '.' ∨ c = ',' then
      match spanDigits rest with
      | ([], _) => none
      | (ds, rest) =>
        let six := ds.take 6
        some (ofDigits six * Nat.pow 10 (6 - six.length), rest)
    else some (0, c :: rest)
  | [] => some (0, [])

/-- Hour and minute, then perhaps a second, then perhaps a fraction of it, in microseconds. -/
def readClock (cs : List Char) : Option (Nat × List Char) := do
  let (hour, cs) ← readDigits 2 cs
  let (minute, cs) ← readDigits 2 (← expect ':' cs)
  if 24 ≤ hour ∨ 60 ≤ minute then none
  else match cs with
    | ':' :: cs => do
      let (second, cs) ← readDigits 2 cs
      if 60 ≤ second then none
      else
        let (micro, cs) ← readMicros cs
        some ((hour * 3600 + minute * 60 + second) * 1000000 + micro, cs)
    | cs => some ((hour * 3600 + minute * 60) * 1000000, cs)

/-- Hours and minutes of an offset, with or without a colon between them; less than a day. -/
def readOffset (sign : Int) (cs : List Char) : Option Int := do
  let (hours, cs) ← readDigits 2 cs
  let (minutes, cs) ← readDigits 2 (match cs with
    | ':' :: rest => rest
    | rest => rest)
  if cs.isEmpty ∧ minutes < 60 ∧ hours < 24 then some (sign * (hours * 60 + minutes)) else none

def readZone : List Char → Option (Option Int)
  | [] => some none
  | ['Z'] => some (some 0)
  | ['z'] => some (some 0)
  | '+' :: cs => (readOffset 1 cs).map some
  | '-' :: cs => (readOffset (-1) cs).map some
  | c :: cs => if c = Char.ofNat 0x2212 then (readOffset (-1) cs).map some else none

def isSeparator (c : Char) : Bool := c == 'T' || c == 't' || c == ' ' || c == '_'

/-- A date, alone or followed by a separator, a time of day and perhaps a zone: the date, the
microseconds since its midnight, and the offset. -/
def readCalendar (cs : List Char) : Option (Time.Date × Nat × Option Int) := do
  let (d, cs) ← readDate cs
  match cs with
  | [] => some (d, 0, none)
  | c :: cs =>
    if isSeparator c then do
      let (micros, cs) ← readClock cs
      let zone ← readZone cs
      some (d, micros, zone)
    else none

/-- Why a moment has no stamp: what writes it is no moment, or it lies in the year before year 1. -/
inductive Fault
  | unreadable
  | outOfCalendar
  deriving DecidableEq, Inhabited

/-- Seconds and microseconds since 1970. -/
def ofUnix (seconds : Int) (micros : Nat) : Except Fault Stamp :=
  let seconds := seconds + WallTime.epochSeconds + (micros / 1000000 : Nat)
  if WallTime.endMicros ≤ seconds * 1000000 ∨ seconds < -31622400 then .error .unreadable
  else if seconds < 0 then .error .outOfCalendar
  else .ok ⟨⟨seconds.toNat * 1000000 + micros % 1000000⟩, some 0⟩

/-- The largest magnitude that counts seconds and not milliseconds. -/
def watershed : Int := 20000000000

/-- A whole number of seconds, or of milliseconds when it is beyond the watershed. -/
def ofCount (n : Int) : Except Fault Stamp :=
  if n.natAbs ≤ watershed.natAbs then ofUnix n 0
  else ofUnix (n / 1000) ((n % 1000).toNat * 1000)

/-- A number of seconds or milliseconds in double precision. The second is the one at or before the
moment, and the part of it behind that second is rounded to microseconds. -/
def ofDouble (b : Binary64) : Except Fault Stamp :=
  match b.value? with
  | none => .error .unreadable
  | some q =>
    let beyond := (watershed : Rat) < q ∨ q < -(watershed : Rat)
    let q := if beyond then Binary64.rounded (q / 1000) else q
    let part := Binary64.rounded (q - q.floor)
    ofUnix q.floor (halfAway (Binary64.rounded (part * 1000000))).toNat

/-- A text that is a number: a sign, and digits; with a point among them, a power of ten may
follow. -/
def ofNumberText (s : String) : Except Fault Stamp :=
  let (negative, cs) := match s.toList with
    | '-' :: rest => (true, rest)
    | '+' :: rest => (false, rest)
    | rest => (false, rest)
  match spanDigits cs with
  | (d :: ds, []) => ofCount (if negative then -(ofDigits (d :: ds) : Int) else ofDigits (d :: ds))
  | (_, '.' :: _) =>
    match Decimal.ofText? negative cs with
    | some d => ofDouble (.ofDecimal d)
    | none => .error .unreadable
  | _ => .error .unreadable

/-- A text in either form; the calendar form is tried first. -/
def read (s : String) : Except Fault Stamp :=
  match readCalendar s.toList with
  | some (d, micros, zone) =>
    if d.year = 0 then .error .outOfCalendar
    else .ok ⟨⟨(WallTime.ofDate d).micros + micros⟩, zone⟩
  | none => ofNumberText s

def ofText? (s : String) : Option Stamp := (read s).toOption

end Stamp

end DeployRegistry
