import DeployRegistry.Number.Binary64
import DeployRegistry.Text.LoneUnit

/-!
# Structured values

The values of the JSON data format. The members of an object keep the order in which they were
first named, and a name has one value: `put` replaces it in place. The main statements are
`member?_put_self` and `member?_put_of_ne`.
-/

namespace DeployRegistry

set_option autoImplicit false

open Number

/-- What some writers put where the format has no number. -/
inductive Unbounded
  | notANumber
  | infinity
  | negativeInfinity
  deriving DecidableEq, Inhabited

inductive Json
  | null
  | bool (b : Bool)
  | num (n : Numeral)
  | unbounded (u : Unbounded)
  | str (s : String)
  | arr (items : List Json)
  | obj (members : List (String × Json))
  deriving Inhabited

namespace Json

abbrev Members := List (String × Json)

namespace Members

def member? (ms : Members) (name : String) : Option Json :=
  (ms.find? (·.1 == name)).map (·.2)

def has (ms : Members) (name : String) : Bool := (member? ms name).isSome

/-- A name that is already there gets the new value and keeps its place. -/
def put : Members → String → Json → Members
  | [], name, v => [(name, v)]
  | (k, w) :: rest, name, v => if k == name then (k, v) :: rest else (k, w) :: put rest name v

@[simp] theorem member?_nil (name : String) : member? [] name = none := rfl

theorem member?_cons (k : String) (v : Json) (rest : Members) (name : String) :
    member? ((k, v) :: rest) name = if k = name then some v else member? rest name := by
  by_cases h : k = name <;> simp [member?, h]

@[simp] theorem member?_put_self (ms : Members) (name : String) (v : Json) :
    member? (put ms name v) name = some v := by
  induction ms with
  | nil => simp [put, member?_cons]
  | cons m rest ih =>
    obtain ⟨k, w⟩ := m
    by_cases h : k = name
    · simp [put, h, member?_cons]
    · simp [put, h, member?_cons, ih]

theorem member?_put_of_ne (ms : Members) {name other : String} (v : Json) (h : name ≠ other) :
    member? (put ms name v) other = member? ms other := by
  induction ms with
  | nil => simp [put, member?_cons, h]
  | cons m rest ih =>
    obtain ⟨k, w⟩ := m
    by_cases hk : k = name
    · subst hk; simp [put, member?_cons, h]
    · simp [put, hk, member?_cons, ih]

end Members

def int (n : Int) : Json := num (.whole n)

def ofOption {α : Type} (f : α → Json) : Option α → Json
  | none => null
  | some a => f a

def ofText? (s : Option String) : Json := ofOption str s

/-- The number of double precision that a value writes; a whole number may be too large for one. -/
def double? : Json → Option Binary64
  | num (.whole n) => Binary64.ofInt? n
  | num (.decimal d) => some (Binary64.ofDecimal d)
  | unbounded .notANumber => some .notANumber
  | unbounded .infinity => some (.infinite false)
  | unbounded .negativeInfinity => some (.infinite true)
  | _ => none

mutual

/-- Whether all numbers are finite, and all texts and names consist of whole characters. -/
def isPlain : Json → Bool
  | null => true
  | bool _ => true
  | num (.whole _) => true
  | num (.decimal d) => (Binary64.ofDecimal d).value?.isSome
  | unbounded _ => false
  | str s => !Text.hasLoneUnit s
  | arr items => arePlain items
  | obj members => arePlainMembers members

def arePlain : List Json → Bool
  | [] => true
  | v :: rest => v.isPlain && arePlain rest

def arePlainMembers : List (String × Json) → Bool
  | [] => true
  | (k, v) :: rest => !Text.hasLoneUnit k && v.isPlain && arePlainMembers rest

end

/-- The value of a member; a value that is no object has none. -/
def member? : Json → String → Option Json
  | obj ms, name => Members.member? ms name
  | _, _ => none

end Json

end DeployRegistry
