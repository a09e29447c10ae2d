import DeployRegistry.Json.Reader
import DeployRegistry.Text.Utf8

/-!
# Documents of bytes

A value that travels as bytes. The bytes may be those of any of the Unicode encodings: a mark at
their start says which, and without one the zeros among the first four bytes do, since a value
starts with two characters of ASCII.
-/

namespace DeployRegistry.Json

set_option autoImplicit false

open Text

inductive Encoding
  | utf8
  | utf16 (bigEndian : Bool)
  | utf32 (bigEndian : Bool)
  deriving DecidableEq, Inhabited

/-- The encoding of bytes without a mark. -/
def Encoding.guess : List UInt8 → Encoding
  | a :: b :: c :: d :: _ =>
    if a = 0 then (if b = 0 then .utf32 true else .utf16 true)
    else if b = 0 then (if c = 0 ∧ d = 0 then .utf32 false else .utf16 false)
    else .utf8
  | [a, b] => if a = 0 then .utf16 true else if b = 0 then .utf16 false else .utf8
  | _ => .utf8

/-- The encoding, and the bytes behind the mark. -/
def Encoding.detect : List UInt8 → Encoding × List UInt8
  | 0 :: 0 :: 0xFE :: 0xFF :: rest => (.utf32 true, rest)
  | 0xFF :: 0xFE :: 0 :: 0 :: rest => (.utf32 false, rest)
  | 0xFE :: 0xFF :: rest => (.utf16 true, rest)
  | 0xFF :: 0xFE :: rest => (.utf16 false, rest)
  | 0xEF :: 0xBB :: 0xBF :: rest => (.utf8, rest)
  | bs => (.guess bs, bs)

def number (bigEndian : Bool) (bs : List UInt8) : Nat :=
  (if bigEndian then bs else bs.reverse).foldl (fun n b => 256 * n + b.toNat) 0

/-- The numbers of two bytes each; an odd byte at the end makes none. -/
def pairs? (bigEndian : Bool) : List UInt8 → Option (List Nat)
  | [] => some []
  | a :: b :: rest => (pairs? bigEndian rest).map (number bigEndian [a, b] :: ·)
  | _ => none

/-- The numbers of four bytes each that are not beyond all characters. -/
def quads? (bigEndian : Bool) : List UInt8 → Option (List Nat)
  | [] => some []
  | a :: b :: c :: d :: rest =>
    let n := number bigEndian [a, b, c, d]
    if 0x110000 ≤ n then none else (quads? bigEndian rest).map (n :: ·)
  | _ => none

/-- The text of bytes; units without their pair are kept in the wider encodings. -/
def Encoding.text? (e : Encoding) (bs : List UInt8) : Option String :=
  match e with
  | utf8 => ofBytes? bs
  | utf16 bigEndian => (pairs? bigEndian bs).map fun ns => String.ofList (ofUnits ns)
  | utf32 bigEndian => (quads? bigEndian bs).map fun ns => String.ofList (ns.map ofUnit)

/-- Why bytes are no value: they are no text, or their text is no value. -/
inductive Flaw
  | notText
  | unreadable (fault : Fault)
  deriving DecidableEq, Inhabited

/-- The value that bytes write. -/
def readBytes (bs : List UInt8) : Except Flaw Json :=
  let (encoding, rest) := Encoding.detect bs
  match encoding.text? rest with
  | none => .error .notText
  | some s =>
    match read s with
    | .ok v => .ok v
    | .error fault => .error (.unreadable fault)

end DeployRegistry.Json
