import DeployRegistry.Text.Hex
import DeployRegistry.Text.Utf8

/-!
# Percent escapes

A character that a text cannot hold as it is, is written by the bytes of its UTF-8 form, each as a
percent sign and two hexadecimal digits. The main statements are `rawBytes_percent`, that an escaped
character is read back as its bytes, whatever follows it, and `quote_injective`.
-/

namespace DeployRegistry.Text

set_option autoImplicit false

def percentByte (b : UInt8) : List Char :=
  ['%', Hex.upperDigit (b.toNat / 16), Hex.upperDigit (b.toNat % 16)]

/-- The percent escapes of the bytes of a character. -/
def percent (c : Char) : List Char := (bytes (String.singleton c)).flatMap percentByte

def quoteList (safe : Char → Bool) (cs : List Char) : List Char :=
  cs.flatMap fun c => if safe c then [c] else percent c

def quote (safe : Char → Bool) (s : String) : String := String.ofList (quoteList safe s.toList)

/-- The bytes that a text with escapes stands for. A percent sign without two digits behind it
stands for itself. -/
def rawBytes : List Char → List UInt8
  | '%' :: high :: low :: rest =>
    match Hex.value? high, Hex.value? low with
    | some x, some y => UInt8.ofNat (16 * x + y) :: rawBytes rest
    | _, _ => bytes "%" ++ rawBytes (high :: low :: rest)
  | c :: rest => bytes (String.singleton c) ++ rawBytes rest
  | [] => []

/-- The text without its escapes; those that are no text become replacement characters. -/
def unquote (s : String) : String := ofBytes (rawBytes s.toList)

theorem rawBytes_percentByte (b : UInt8) (rest : List Char) :
    rawBytes (percentByte b ++ rest) = b :: rawBytes rest := by
  have hb : b.toNat < 256 := b.toNat_lt_size
  have hhigh := Hex.value?_upperDigit (show b.toNat / 16 < 16 by omega)
  have hlow := Hex.value?_upperDigit (show b.toNat % 16 < 16 by omega)
  simp only [percentByte, List.cons_append, List.nil_append, rawBytes, hhigh, hlow]
  rw [show 16 * (b.toNat / 16) + b.toNat % 16 = b.toNat by omega, UInt8.ofNat_toNat]

theorem rawBytes_percentBytes (bs : List UInt8) (rest : List Char) :
    rawBytes (bs.flatMap percentByte ++ rest) = bs ++ rawBytes rest := by
  induction bs with
  | nil => rfl
  | cons b bs ih =>
    rw [List.flatMap_cons, List.append_assoc, rawBytes_percentByte, ih, List.cons_append]

theorem rawBytes_percent (c : Char) (rest : List Char) :
    rawBytes (percent c ++ rest) = bytes (String.singleton c) ++ rawBytes rest :=
  rawBytes_percentBytes _ rest

@[simp] theorem quoteList_append (safe : Char → Bool) (cs ds : List Char) :
    quoteList safe (cs ++ ds) = quoteList safe cs ++ quoteList safe ds := List.flatMap_append

@[simp] theorem quote_append (safe : Char → Bool) (s t : String) :
    quote safe (s ++ t) = quote safe s ++ quote safe t := by
  simp [quote]

theorem quoteList_congr {safe other : Char → Bool} {cs : List Char}
    (h : ∀ c ∈ cs, safe c = other c) : quoteList safe cs = quoteList other cs := by
  induction cs with
  | nil => rfl
  | cons c rest ih =>
    obtain ⟨hc, hrest⟩ := List.forall_mem_cons.mp h
    rw [quoteList, quoteList, List.flatMap_cons, List.flatMap_cons, hc, ← quoteList, ← quoteList,
      ih hrest]

theorem quote_congr {safe other : Char → Bool} {s : String}
    (h : ∀ c ∈ s.toList, safe c = other c) : quote safe s = quote other s :=
  congrArg String.ofList (quoteList_congr h)

theorem quote_of_safe {safe : Char → Bool} {s : String} (h : ∀ c ∈ s.toList, safe c = true) :
    quote safe s = s := by
  rw [quote, quoteList_congr h]
  simp [quoteList]

theorem rawBytes_cons_of_ne {c : Char} (h : c ≠ '%') (rest : List Char) :
    rawBytes (c :: rest) = bytes (String.singleton c) ++ rawBytes rest := by
  rw [rawBytes.eq_def]
  split
  · next heq => exact absurd (List.cons.inj heq).1 h
  · next heq =>
    obtain ⟨rfl, rfl⟩ := List.cons.inj heq
    rfl
  · next heq => cases heq

/-- An escaped text is read back, if it has no percent sign of its own. -/
theorem rawBytes_quoteList (safe : Char → Bool) {cs : List Char} (h : '%' ∉ cs) :
    rawBytes (quoteList safe cs) = bytes (String.ofList cs) := by
  induction cs with
  | nil => rfl
  | cons c rest ih =>
    obtain ⟨hc, hrest⟩ := not_or.mp (mt List.mem_cons.mpr h)
    have hwhole : String.ofList (c :: rest) = String.singleton c ++ String.ofList rest := by
      simp
    have hstep : ∀ tail, rawBytes ((if safe c then [c] else percent c) ++ tail) =
        bytes (String.singleton c) ++ rawBytes tail := by
      intro tail
      split
      · exact rawBytes_cons_of_ne (Ne.symm hc) tail
      · exact rawBytes_percent c tail
    rw [quoteList, List.flatMap_cons, hstep, ← quoteList, ih hrest, hwhole, bytes_append]

theorem quote_injective {safe : Char → Bool} {s t : String} (hs : '%' ∉ s.toList)
    (ht : '%' ∉ t.toList) (h : quote safe s = quote safe t) : s = t := by
  have hlists : quoteList safe s.toList = quoteList safe t.toList := String.ofList_injective h
  have hbytes : bytes s = bytes t := by
    have := congrArg rawBytes hlists
    rwa [rawBytes_quoteList safe hs, rawBytes_quoteList safe ht, String.ofList_toList,
      String.ofList_toList] at this
  have := congrArg ofBytes? hbytes
  rwa [ofBytes?_bytes, ofBytes?_bytes, Option.some.injEq] at this

end DeployRegistry.Text
