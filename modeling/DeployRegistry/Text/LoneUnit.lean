/-!
# Units without their pair

Two UTF-16 units of a pair stand for one character; a unit of a pair that stands alone stands for
none. Documents can name such units all the same, and a text keeps one as the character that lies
`shift` above it, among the last ones for private use: U+10D800 to U+10DFFF. So no text here stands
for one that holds a character of that range itself; where one comes in, it counts as a unit.
-/

namespace DeployRegistry.Text

set_option autoImplicit false

def isHighUnit (n : Nat) : Bool := 0xD800 ≤ n && n ≤ 0xDBFF

def isLowUnit (n : Nat) : Bool := 0xDC00 ≤ n && n ≤ 0xDFFF

/-- The character of two UTF-16 units. -/
def joinUnits (high low : Nat) : Char :=
  Char.ofNat (0x10000 + (high - 0xD800) * 0x400 + (low - 0xDC00))

@[irreducible] def shift : Nat := 0x100000

/-- The character of one UTF-16 unit, or the one that is kept for a unit without its pair. -/
def ofUnit (n : Nat) : Char :=
  if isHighUnit n || isLowUnit n then Char.ofNat (shift + n) else Char.ofNat n

/-- The unit that a character is kept for. -/
def loneUnit? (c : Char) : Option Nat :=
  if shift + 0xD800 ≤ c.toNat ∧ c.toNat ≤ shift + 0xDFFF then some (c.toNat - shift) else none

theorem toNat_ofNat {n : Nat} (h : n.isValidChar) : (Char.ofNat n).toNat = n := by
  rw [Char.ofNat, dif_pos h]
  rfl

theorem toNat_ofUnit {n : Nat} (h : 0xD800 ≤ n ∧ n ≤ 0xDFFF) : (ofUnit n).toNat = shift + n := by
  have hu : isHighUnit n || isLowUnit n := by
    simp only [isHighUnit, isLowUnit, Bool.or_eq_true, Bool.and_eq_true, decide_eq_true_eq]
    omega
  have hv : (shift + n).isValidChar := by
    unfold Nat.isValidChar shift
    omega
  rw [ofUnit, if_pos hu, toNat_ofNat hv]

theorem loneUnit?_eq_none {c : Char} (h : c.toNat < 0x10D800) : loneUnit? c = none := by
  unfold loneUnit? shift
  rw [if_neg (by omega)]

/-- Whether a text names a unit without its pair, which has no bytes. -/
def hasLoneUnit (s : String) : Bool := s.toList.any fun c => (loneUnit? c).isSome

/-- The characters of UTF-16 units. -/
def ofUnits : List Nat → List Char
  | [] => []
  | [n] => [ofUnit n]
  | high :: low :: rest =>
    if isHighUnit high && isLowUnit low then joinUnits high low :: ofUnits rest
    else ofUnit high :: ofUnits (low :: rest)

end DeployRegistry.Text
