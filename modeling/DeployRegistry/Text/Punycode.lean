/-!
# Texts in letters and digits

A text as ASCII letters and digits: the ASCII characters first, and behind a hyphen where the other
ones stand, as numbers of mixed base 36 that grow from one scalar value to the next.
-/

namespace DeployRegistry.Text.Punycode

set_option autoImplicit false

/-- The character of a digit: letters for the first twenty-six, then `0` to `9`. -/
def letter (d : Nat) : Char := if d < 26 then Char.ofNat (97 + d) else Char.ofNat (22 + d)

def value? (c : Char) : Option Nat :=
  if 'a' ≤ c ∧ c ≤ 'z' then some (c.toNat - 97)
  else if 'A' ≤ c ∧ c ≤ 'Z' then some (c.toNat - 65)
  else if '0' ≤ c ∧ c ≤ '9' then some (c.toNat - 22)
  else none

/-- The least digit that is not the last one, at a place of the number. -/
def threshold (place bias : Nat) : Nat :=
  if place ≤ bias then 1 else if bias + 26 ≤ place then 26 else place - bias

theorem threshold_pos (place bias : Nat) : 0 < threshold place bias := by
  unfold threshold
  split
  · omega
  · split <;> omega

/-- The number of divisions by 35 that bring a number to 455 or below, by 36 each, and the rest. -/
def shrink (delta place : Nat) : Nat × Nat :=
  if 455 < delta then shrink (delta / 35) (place + 36) else (delta, place)
termination_by delta
decreasing_by exact Nat.div_lt_self (by omega) (by omega)

/-- The bias after a number, for a text of the given length. -/
def adapted (delta length : Nat) (isFirst : Bool) : Nat :=
  let delta := if isFirst then delta / 700 else delta / 2
  let (rest, place) := shrink (delta + delta / length) 0
  place + 36 * rest / (rest + 38)

/-- The digits of a number, least significant first. -/
def digits (bias place n : Nat) : List Char :=
  if h : n < threshold place bias then [letter n]
  else
    letter (threshold place bias +
      (n - threshold place bias) % (36 - threshold place bias)) ::
      digits bias (place + 36) ((n - threshold place bias) / (36 - threshold place bias))
termination_by n
decreasing_by
  have hpos := threshold_pos place bias
  calc (n - threshold place bias) / (36 - threshold place bias)
      ≤ n - threshold place bias := Nat.div_le_self _ _
    _ < n := by omega

/-- What is written so far: the digits, the distance since the last number, the bias, and how many
characters are placed. -/
structure Writing where
  written : List Char
  delta : Nat
  bias : Nat
  placed : Nat

/-- Passes one character of the text while the scalar value `n` is placed. -/
def pass (basic n : Nat) (w : Writing) (c : Char) : Writing :=
  if c.toNat < n then { w with delta := w.delta + 1 }
  else if c.toNat = n then
    { written := w.written ++ digits w.bias 36 w.delta
      delta := 0
      bias := adapted w.delta (w.placed + 1) (w.placed == basic)
      placed := w.placed + 1 }
  else w

/-- Places all scalar values of a list in increasing order, from `n` on. -/
def placeAll (cs : List Char) (basic : Nat) : Nat → List Nat → Writing → Writing
  | _, [], w => w
  | n, m :: later, w =>
    let w := cs.foldl (pass basic m) { w with delta := w.delta + (m - n) * (w.placed + 1) }
    placeAll cs basic (m + 1) later { w with delta := w.delta + 1 }

def encode (cs : List Char) : List Char :=
  let basic := cs.filter fun c => decide (c.toNat < 128)
  let others := (cs.filter fun c => decide (128 ≤ c.toNat)).map Char.toNat
  let w := placeAll cs basic.length 128 (others.mergeSort (· ≤ ·)).eraseDups
    ⟨[], 0, 72, basic.length⟩
  basic ++ (if basic = [] then [] else ['-']) ++ w.written

/-- Reads one number: its value added to `sum`, and what is left of the text. -/
def readNumber (bias place weight sum : Nat) : List Char → Option (Nat × List Char)
  | [] => none
  | c :: rest => do
    let d ← value? c
    let sum := sum + d * weight
    if d < threshold place bias then some (sum, rest)
    else readNumber bias (place + 36) (weight * (36 - threshold place bias)) sum rest

/-- Reads the numbers and puts their characters in; `next` is the place after the last character,
and `n` its scalar value. -/
def readAll : Nat → List Char → Nat → Nat → Nat → Bool → List Char → Option (List Char)
  | _, done, _, _, _, _, [] => some done
  | 0, _, _, _, _, _, _ => none
  | fuel + 1, done, next, n, bias, isFirst, cs => do
    let (delta, rest) ← readNumber bias 36 1 0 cs
    let length := done.length + 1
    let n := n + (next + delta) / length
    let place := (next + delta) % length
    if n.isValidChar then
      readAll fuel (done.take place ++ Char.ofNat n :: done.drop place) (place + 1) n
        (adapted delta length isFirst) false rest
    else none

/-- The text that letters and digits stand for. -/
def decode? (cs : List Char) : Option (List Char) :=
  let behind := cs.reverse.takeWhile (· != '-')
  let basic := (cs.reverse.drop (behind.length + 1)).reverse
  readAll cs.length basic 0 128 72 true behind.reverse

end DeployRegistry.Text.Punycode
