/-!
# Bytes of a text

A text as its UTF-8 bytes, and back. Reading refuses bytes that are not well-formed UTF-8, or puts
a replacement character where they are not.
-/

namespace DeployRegistry.Text

set_option autoImplicit false

def bytes (s : String) : List UInt8 := s.toUTF8.data.toList

theorem bytes_append (s t : String) : bytes (s ++ t) = bytes s ++ bytes t := by
  simp [bytes, String.toUTF8]

/-- A character of which some bytes are read: the bits so far, the least and the greatest value of
the next byte, and how many bytes are missing. -/
structure Begun where
  bits : Nat
  least : Nat
  greatest : Nat
  missing : Nat
  deriving DecidableEq, Inhabited

/-- What a byte begins when it is the first one of several. -/
def Begun.ofByte? (b : Nat) : Option Begun :=
  if 0xC2 ≤ b ∧ b ≤ 0xDF then some ⟨b % 32, 0x80, 0xBF, 1⟩
  else if b = 0xE0 then some ⟨0, 0xA0, 0xBF, 2⟩
  else if b = 0xED then some ⟨13, 0x80, 0x9F, 2⟩
  else if 0xE1 ≤ b ∧ b ≤ 0xEF then some ⟨b % 16, 0x80, 0xBF, 2⟩
  else if b = 0xF0 then some ⟨0, 0x90, 0xBF, 3⟩
  else if 0xF1 ≤ b ∧ b ≤ 0xF3 then some ⟨b % 8, 0x80, 0xBF, 3⟩
  else if b = 0xF4 then some ⟨4, 0x80, 0x8F, 3⟩
  else none

def replacement : Char := '\ufffd'

/-- The characters that a byte brings at once, and what it begins. -/
def readFirst (b : Nat) : List Char × Option Begun :=
  if b < 0x80 then ([Char.ofNat b], none)
  else match Begun.ofByte? b with
    | some begun => ([], some begun)
    | none => ([replacement], none)

/-- Reads bytes behind the start of a character, if there is one. A byte that does not go on with it
breaks it off, and begins anew. -/
def readBytes : Option Begun → List UInt8 → List Char
  | none, [] => []
  | some _, [] => [replacement]
  | none, b :: rest =>
    let (cs, begun) := readFirst b.toNat
    cs ++ readBytes begun rest
  | some ⟨bits, least, greatest, missing⟩, b :: rest =>
    if least ≤ b.toNat ∧ b.toNat ≤ greatest then
      let bits := 64 * bits + b.toNat % 64
      if missing ≤ 1 then Char.ofNat bits :: readBytes none rest
      else readBytes (some ⟨bits, 0x80, 0xBF, missing - 1⟩) rest
    else
      let (cs, begun) := readFirst b.toNat
      replacement :: (cs ++ readBytes begun rest)

/-- The text of bytes, with a replacement character for each run that begins no character or
breaks one off. -/
def ofBytes (bs : List UInt8) : String := String.ofList (readBytes none bs)

def ofBytes? (bs : List UInt8) : Option String := String.fromUTF8? ⟨bs.toArray⟩

@[simp] theorem ofBytes?_bytes (s : String) : ofBytes? (bytes s) = some s := by
  have h : (⟨(bytes s).toArray⟩ : ByteArray) = s.toUTF8 := by
    simp [bytes]
  rw [ofBytes?, h, String.fromUTF8?]
  exact dif_pos s.isValidUTF8

end DeployRegistry.Text
