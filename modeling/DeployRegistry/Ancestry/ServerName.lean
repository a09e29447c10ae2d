import DeployRegistry.Text.Blank
import DeployRegistry.Text.DomainLabel
import DeployRegistry.Text.Hex
import DeployRegistry.Text.LowerCase
import DeployRegistry.Text.Percent

/-!
# Names of servers

How an address names its server: by four octets, by groups of hexadecimal digits in brackets, or by
a domain name, which is kept in lower case and in ASCII.
-/

namespace DeployRegistry.ServerName

set_option autoImplicit false

open Text

/-- What is wrong with the name of a server. -/
inductive Flaw
  | octets
  | groups
  | domain
  deriving DecidableEq, Inhabited

/-- A text is meant as octets if it is four runs of digits with one character between them. States
are the even numbers before the first digit of a run, and the odd ones behind it. -/
def octetStates (states : List Nat) (c : Char) : List Nat :=
  (states.flatMap fun s =>
    (if c.isDigit then [if s % 2 = 0 then s + 1 else s] else []) ++
      (if s % 2 = 1 ∧ s < 7 then [s + 1] else [])).eraseDups

def looksLikeOctets (cs : List Char) : Bool := (cs.foldl octetStates [0]).contains 7

/-- An octet in decimal digits without leading zeros. -/
def isOctet (cs : List Char) : Bool :=
  match Number.number? cs with
  | some n => decide (cs.length ≤ 3) && decide (n ≤ 255) && (cs == ['0'] || cs.head? != some '0')
  | none => false

def isOctets (cs : List Char) : Bool :=
  let parts := pieces (· == '.') cs
  parts.length == 4 && parts.all isOctet

def isGroup (cs : List Char) : Bool :=
  cs != [] && decide (cs.length ≤ 4) && cs.all Hex.isDigit

/-- Four octets in the place of the last group stand for two groups. -/
def withGroups? (parts : List (List Char)) : Option (List (List Char)) :=
  match parts.getLast? with
  | some last =>
    if last.contains '.' then
      if isOctets last then some (parts.dropLast ++ [['0'], ['0']]) else none
    else some parts
  | none => none

/-- Whether eight groups are written, or fewer around a gap between two colons. -/
def isGroups (cs : List Char) : Bool :=
  let parts := pieces (· == ':') cs
  if parts.length < 3 then false
  else match withGroups? parts with
    | none => false
    | some parts =>
      let between := parts.dropLast.drop 1
      if parts.length > 9 then false
      else match between.findIdx? (· == []) with
        | none => parts.length == 8 && parts.all isGroup
        | some i =>
          let high := parts.take (i + 1)
          let low := parts.drop (i + 2)
          let high := if high = [[]] then [] else high
          let low := if low = [[]] then [] else low
          decide (high.length + low.length ≤ 7) && high.all isGroup && low.all isGroup

/-- Groups may be followed by the zone that they hold in. -/
def isZoned (cs : List Char) : Bool :=
  let groups := cs.takeWhile (· != '%')
  let zone := (cs.drop (groups.length + 1))
  !cs.contains '/' && isGroups groups &&
    (groups.length == cs.length || (zone != [] && !zone.contains '%'))

/-- The characters that a name of ASCII characters holds as they are. -/
def isNameChar (c : Char) : Bool :=
  c.isAlphanum || "-._~!$&'()*+,;=\"`\x7b\x7d%|\\".toList.contains c

def isLabelEnd (c : Char) : Bool := c == '.' || c == '\u3002' || c == '\uff0e' || c == '\uff61'

def joinWith (sep : Char) : List (List Char) → List Char
  | [] => []
  | [part] => part
  | part :: rest => part ++ sep :: joinWith sep rest

theorem joinWith_cons (sep : Char) (part : List Char) {rest : List (List Char)} (h : rest ≠ []) :
    joinWith sep (part :: rest) = part ++ sep :: joinWith sep rest := by
  cases rest with
  | nil => exact absurd rfl h
  | cons second rest => rfl

theorem joinWith_append (sep : Char) {parts more : List (List Char)} (hparts : parts ≠ [])
    (hmore : more ≠ []) :
    joinWith sep (parts ++ more) = joinWith sep parts ++ sep :: joinWith sep more := by
  induction parts with
  | nil => exact absurd rfl hparts
  | cons part rest ih =>
    by_cases hrest : rest = []
    · rw [hrest, List.singleton_append, joinWith_cons sep part hmore]
      rfl
    · rw [List.cons_append, joinWith_cons sep part (by simp [hrest]), ih hrest,
        joinWith_cons sep part hrest, List.append_assoc, List.cons_append]

theorem joinWith_pieces (sep : Char) (cs : List Char) :
    joinWith sep (pieces (· == sep) cs) = cs := by
  induction cs with
  | nil => rfl
  | cons c rest ih =>
    rw [pieces]
    split
    · next hsep =>
      rw [joinWith_cons sep [] (pieces_ne_nil _ rest), ih, List.nil_append, beq_iff_eq.mp hsep]
    · cases hp : pieces (· == sep) rest with
      | nil => exact absurd hp (pieces_ne_nil _ rest)
      | cons first others =>
        rw [hp] at ih
        cases others with
        | nil => exact congrArg (c :: ·) ih
        | cons second others => exact congrArg (c :: ·) ih

def longest : Nat := 253

/-- The ASCII form of a domain name; the last label may be followed by a point. -/
def asciiDomain? (cs : List Char) : Option (List Char) := do
  let labels := pieces isLabelEnd cs
  let ends := labels.getLast? == some []
  let written ← (if ends then labels.dropLast else labels).mapM DomainLabel.ascii?
  let name := joinWith '.' (if ends then written ++ [[]] else written)
  if name.length ≤ (if ends then longest + 1 else longest) then some name else none

/-- The name of a server as it is kept, without brackets. -/
def read (cs : List Char) : Except Flaw (List Char) :=
  if cs = [] then .ok []
  else if looksLikeOctets cs then if isOctets cs then .ok cs else .error .octets
  else if cs.head? = some '[' ∧ cs.getLast? = some ']' ∧ 2 ≤ cs.length then
    let inner := (cs.drop 1).dropLast
    if isZoned inner then .ok inner else .error .groups
  else if cs.all fun c => decide (c.toNat < 128) then
    .ok (quoteList isNameChar (cs.map lowerChar))
  else match asciiDomain? (lowerCase cs) with
    | some name => .ok name
    | none => .error .domain

end DeployRegistry.ServerName
