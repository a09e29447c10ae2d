import DeployRegistry.Form.Checked
import DeployRegistry.Form.Numbers
import DeployRegistry.Store.Records
import DeployRegistry.Text.Blank
import DeployRegistry.Time.Stamp

/-!
# Rules for single values

A rule checks one submitted value. Texts have bounds on their length, which are checked before
their pattern; words come from a closed vocabulary; switches and moments are also read from texts.
-/

namespace DeployRegistry.Form

set_option autoImplicit false

open Number Text

abbrev Rule (α : Type) := Json → Checked α

/-- Goes on with a text in which every unit is part of a character. -/
def ofWhole {α : Type} (s : String) (next : String → Checked α) : Checked α :=
  if hasLoneUnit s then .issue .brokenText else next s

/-- A class of texts, with the pattern by which it is known to callers. -/
structure Pattern where
  written : String
  accepts : List Char → Bool

structure TextBounds where
  least : Nat
  most : Option Nat
  pattern : Option Pattern

namespace TextBounds

/-- The first of the bounds that a text breaks. -/
def broken? (b : TextBounds) (s : String) : Option Cause :=
  if s.length < b.least then some (.tooShort b.least)
  else if b.most.any fun most => decide (most < s.length) then b.most.map .tooLong
  else if b.pattern.all fun p => p.accepts s.toList then none
  else b.pattern.map fun p => .mismatch p.written

theorem broken?_eq_none_iff (b : TextBounds) (s : String) :
    b.broken? s = none ↔
      b.least ≤ s.length ∧ (∀ most ∈ b.most, s.length ≤ most) ∧
        ∀ p ∈ b.pattern, p.accepts s.toList = true := by
  by_cases hl : s.length < b.least
  · have hn : ¬ b.least ≤ s.length := Nat.not_le.mpr hl
    simp [broken?, hl, hn]
  · have hle : b.least ≤ s.length := Nat.not_lt.mp hl
    cases hm : b.most with
    | none =>
      cases hp : b.pattern with
      | none => simp [broken?, hl, hle, hm, hp]
      | some p => simp [broken?, hl, hle, hm, hp]
    | some most =>
      by_cases hlong : most < s.length
      · have hn : ¬ s.length ≤ most := Nat.not_le.mpr hlong
        simp [broken?, hl, hm, hlong, hn]
      · have hshort : s.length ≤ most := Nat.not_lt.mp hlong
        cases hp : b.pattern with
        | none => simp [broken?, hl, hle, hm, hp, hlong, hshort]
        | some p => simp [broken?, hl, hle, hm, hp, hlong, hshort]

def check (b : TextBounds) (s : String) : Checked String :=
  match b.broken? s with
  | none => .valid s
  | some cause => .issue cause

def rule (b : TextBounds) : Rule String
  | .str s => ofWhole s b.check
  | _ => .issue .notText

/-- The same of a text that was decoded from bytes, so that it has no unit without its pair. -/
def decodedRule (b : TextBounds) : Rule String
  | .str s => b.check s
  | _ => .issue .notText

end TextBounds

/-- A word of a vocabulary, by its exact name. -/
def word (α : Type) [Named α] : Rule α
  | .str s =>
    match Named.ofName? (α := α) s with
    | some a => .valid a
    | none => .issue (.notChosen (Named.names α))
  | _ => .issue (.notChosen (Named.names α))

/-- The words that stand for a switch, in lower case. -/
def onWords : List String := ["1", "true", "t", "yes", "y", "on"]

def offWords : List String := ["0", "false", "f", "no", "n", "off"]

def switchOfText (s : String) : Checked Bool :=
  if onWords.contains (lowerAscii s) then .valid true
  else if offWords.contains (lowerAscii s) then .valid false
  else .issue .unreadableSwitch

/-- One and zero stand for on and off. -/
def switchOfWhole (n : Int) : Checked Bool :=
  if n = 1 then .valid true else if n = 0 then .valid false else .issue .unreadableSwitch

/-- The magnitude from which on a number is no machine word. -/
def wordEnd : Int := 9223372036854775808

/-- A number with a fraction, or one too large for a machine word, is no switch at all. -/
def switchOfNumber (b : Binary64) : Checked Bool :=
  match b.value? with
  | some q =>
    if q.den = 1 ∧ -wordEnd < q.num ∧ q.num < wordEnd then switchOfWhole q.num
    else .issue .notSwitch
  | none => .issue .notSwitch

def switch : Rule Bool
  | .bool b => .valid b
  | .str s => ofWhole s switchOfText
  | .num (.whole n) =>
    if -wordEnd ≤ n ∧ n < wordEnd then switchOfWhole n else .issue .notSwitch
  | .num (.decimal d) => switchOfNumber (.ofDecimal d)
  | _ => .issue .notSwitch

def momentOf : Except Stamp.Fault Stamp → Checked Stamp
  | .ok t => .valid t
  | .error _ => .issue .momentOutOfRange

def momentOfText (s : String) : Checked Stamp :=
  match Stamp.read s with
  | .error .unreadable => .issue .unreadableMoment
  | found => momentOf found

/-- A moment, from a text or from a count of seconds or milliseconds. -/
def moment : Rule Stamp
  | .str s => ofWhole s momentOfText
  | v =>
    match v, v.double? with
    | _, none => .issue .notMoment
    | .num (.whole n), some _ => momentOf (Stamp.ofCount n)
    | _, some b => momentOf (Stamp.ofDouble b)

/-- Nothing may stand in the place of a value. -/
def orNull {α : Type} (rule : Rule α) : Rule (Option α)
  | .null => .valid none
  | v => (rule v).map some

section

variable {α : Type} (ms : Json.Members) (field : String) (rule : Rule α)

/-- What a rule says of the value of a field. -/
def checkField (v : Json) : Checked α := ((rule v).about v).under field

/-- A field that is missing is an issue of the object that lacks it. -/
def required : Checked α :=
  match ms.member? field with
  | some v => checkField field rule v
  | none => .invalid [⟨[field], .missing, (Json.obj ms).isPlain⟩]

def withDefault (default : α) : Checked α :=
  match ms.member? field with
  | some v => checkField field rule v
  | none => .valid default

def optional : Checked (Option α) := withDefault ms field (orNull rule) none

end

/-- A named group of fields. -/
structure Model (α : Type) where
  name : String
  fields : Json.Members → Checked α

namespace Model

variable {α : Type}

def rule (m : Model α) : Rule α
  | .obj ms => m.fields ms
  | _ => .issue (.notModel m.name)

/-- The same fields, where what is submitted need not be of this model. -/
def body (m : Model α) : Rule α
  | .obj ms => m.fields ms
  | _ => .issue .noFields

end Model

end DeployRegistry.Form
