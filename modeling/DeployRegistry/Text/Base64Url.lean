/-!
# Bytes in the URL-safe alphabet

Bytes as characters of six bits each, without padding. Reading also takes the two characters of
the ordinary alphabet and passes over every other character; a text whose last group is a single
character of the alphabet is refused. The main statement is `decode?_encode`.
-/

namespace DeployRegistry.Text.Base64Url

set_option autoImplicit false

/-- The character of six bits. -/
def letter (n : Nat) : Char :=
  if n < 26 then Char.ofNat (65 + n)
  else if n < 52 then Char.ofNat (71 + n)
  else if n < 62 then Char.ofNat (n - 4)
  else if n = 62 then '-' else '_'

def sextet? (c : Char) : Option Nat :=
  if 'A' ≤ c ∧ c ≤ 'Z' then some (c.toNat - 65)
  else if 'a' ≤ c ∧ c ≤ 'z' then some (c.toNat - 71)
  else if '0' ≤ c ∧ c ≤ '9' then some (c.toNat + 4)
  else if c = '-' ∨ c = '+' then some 62
  else if c = '_' ∨ c = '/' then some 63
  else none

theorem sextet?_letter {n : Nat} (h : n < 64) : sextet? (letter n) = some n := by
  have hall : ∀ k < 64, sextet? (letter k) = some k := by decide
  exact hall n h

def encode : List UInt8 → List Char
  | a :: b :: c :: rest =>
    letter (a.toNat / 4) :: letter (a.toNat % 4 * 16 + b.toNat / 16) ::
      letter (b.toNat % 16 * 4 + c.toNat / 64) :: letter (c.toNat % 64) :: encode rest
  | [a, b] =>
    [letter (a.toNat / 4), letter (a.toNat % 4 * 16 + b.toNat / 16), letter (b.toNat % 16 * 4)]
  | [a] => [letter (a.toNat / 4), letter (a.toNat % 4 * 16)]
  | [] => []

/-- The same in the ordinary alphabet, padded to groups of four characters. -/
def encodeOrdinary (bs : List UInt8) : List Char :=
  let cs := (encode bs).map fun c => if c = '-' then '+' else if c = '_' then '/' else c
  cs ++ List.replicate ((4 - cs.length % 4) % 4) '='

/-- Reads characters when `place` of them are already taken for the present group; `left` holds
the bits of the last one that belong to the next byte, and `pads` counts the padding since. -/
def readFrom (place left pads : Nat) : List Char → Option (List UInt8)
  | [] => if place = 0 then some [] else none
  | c :: rest =>
    match sextet? c with
    | some n =>
      match place with
      | 0 => readFrom 1 n 0 rest
      | 1 => (readFrom 2 (n % 16) 0 rest).map (UInt8.ofNat (left * 4 + n / 16) :: ·)
      | 2 => (readFrom 3 (n % 4) 0 rest).map (UInt8.ofNat (left * 16 + n / 4) :: ·)
      | _ => (readFrom 0 0 0 rest).map (UInt8.ofNat (left * 64 + n) :: ·)
    | none =>
      if c = '=' ∧ 2 ≤ place then
        if 4 ≤ place + pads + 1 then some [] else readFrom place left (pads + 1) rest
      else readFrom place left pads rest

/-- The bytes that a text stands for, after it is padded to a multiple of four. Characters outside
ASCII count as many times as they have bytes. -/
def decode? (cs : List Char) : Option (List UInt8) :=
  let length := cs.foldl (fun n c => n + c.utf8Size) 0
  readFrom 0 0 0 (cs ++ List.replicate ((4 - length % 4) % 4) '=')

theorem letter_ne_dot {n : Nat} (h : n < 64) : letter n ≠ '.' := by
  have hall : ∀ k < 64, letter k ≠ '.' := by decide
  exact hall n h

theorem utf8Size_letter {n : Nat} (h : n < 64) : (letter n).utf8Size = 1 := by
  have hall : ∀ k < 64, (letter k).utf8Size = 1 := by decide
  exact hall n h

theorem toNat_letter_lt {n : Nat} (h : n < 64) : (letter n).toNat < 128 := by
  have hall : ∀ k < 64, (letter k).toNat < 128 := by decide
  exact hall n h

theorem exists_letter_of_mem {bs : List UInt8} {c : Char} (h : c ∈ encode bs) :
    ∃ n < 64, c = letter n := by
  fun_induction encode bs with
  | case1 a b d rest ih =>
    have ha := a.toNat_lt
    have hb := b.toNat_lt
    have hd := d.toNat_lt
    simp only [List.mem_cons] at h
    rcases h with h | h | h | h | h
    · exact ⟨_, by omega, h⟩
    · exact ⟨_, by omega, h⟩
    · exact ⟨_, by omega, h⟩
    · exact ⟨_, by omega, h⟩
    · exact ih h
  | case2 a b =>
    have ha := a.toNat_lt
    have hb := b.toNat_lt
    simp only [List.mem_cons, List.not_mem_nil, or_false] at h
    rcases h with h | h | h
    · exact ⟨_, by omega, h⟩
    · exact ⟨_, by omega, h⟩
    · exact ⟨_, by omega, h⟩
  | case3 a =>
    have ha := a.toNat_lt
    simp only [List.mem_cons, List.not_mem_nil, or_false] at h
    rcases h with h | h
    · exact ⟨_, by omega, h⟩
    · exact ⟨_, by omega, h⟩
  | case4 => cases h

theorem foldl_utf8Size {cs : List Char} (h : ∀ c ∈ cs, c.utf8Size = 1) (n : Nat) :
    cs.foldl (fun n c => n + c.utf8Size) n = n + cs.length := by
  induction cs generalizing n with
  | nil => rfl
  | cons c rest ih =>
    rw [List.foldl_cons, ih fun d hd => h d (List.mem_cons_of_mem c hd), h c List.mem_cons_self,
      List.length_cons]
    omega

theorem ofNat_eq {n : Nat} {b : UInt8} (h : n = b.toNat) : UInt8.ofNat n = b := by
  rw [h, UInt8.ofNat_toNat]

/-! What each place of a group reads. -/

section

variable {n : Nat} (h : n < 64) (left pads : Nat) (rest : List Char)
include h

theorem readFrom_first : readFrom 0 left pads (letter n :: rest) = readFrom 1 n 0 rest := by
  simp only [readFrom, sextet?_letter h]

theorem readFrom_second : readFrom 1 left pads (letter n :: rest) =
    (readFrom 2 (n % 16) 0 rest).map (UInt8.ofNat (left * 4 + n / 16) :: ·) := by
  simp only [readFrom, sextet?_letter h]

theorem readFrom_third : readFrom 2 left pads (letter n :: rest) =
    (readFrom 3 (n % 4) 0 rest).map (UInt8.ofNat (left * 16 + n / 4) :: ·) := by
  simp only [readFrom, sextet?_letter h]

theorem readFrom_fourth : readFrom 3 left pads (letter n :: rest) =
    (readFrom 0 0 0 rest).map (UInt8.ofNat (left * 64 + n) :: ·) := by
  simp only [readFrom, sextet?_letter h]

end

/-- Three bytes are read from four letters, and padding ends a group that is shorter. -/
theorem readFrom_encode (bs : List UInt8) :
    readFrom 0 0 0 (encode bs ++ List.replicate ((4 - (encode bs).length % 4) % 4) '=') =
      some bs := by
  fun_induction encode bs with
  | case1 a b c rest ih =>
    have ha := a.toNat_lt
    have hb := b.toNat_lt
    have hc := c.toNat_lt
    have hlength : ((encode rest).length + 4) % 4 = (encode rest).length % 4 := by omega
    have hfirst : a.toNat / 4 * 4 + (a.toNat % 4 * 16 + b.toNat / 16) / 16 = a.toNat := by omega
    have hsecond : (a.toNat % 4 * 16 + b.toNat / 16) % 16 * 16 +
        (b.toNat % 16 * 4 + c.toNat / 64) / 4 = b.toNat := by omega
    have hthird : (b.toNat % 16 * 4 + c.toNat / 64) % 4 * 64 + c.toNat % 64 = c.toNat := by omega
    simp only [List.length_cons, Nat.add_assoc, hlength, List.cons_append]
    rw [readFrom_first (by omega), readFrom_second (by omega), readFrom_third (by omega),
      readFrom_fourth (by omega), ih, ofNat_eq hfirst, ofNat_eq hsecond, ofNat_eq hthird]
    rfl
  | case2 a b =>
    have ha := a.toNat_lt
    have hb := b.toNat_lt
    have hfirst : a.toNat / 4 * 4 + (a.toNat % 4 * 16 + b.toNat / 16) / 16 = a.toNat := by omega
    have hsecond : (a.toNat % 4 * 16 + b.toNat / 16) % 16 * 16 + b.toNat % 16 * 4 / 4 =
        b.toNat := by omega
    simp only [List.cons_append, List.nil_append]
    rw [readFrom_first (by omega), readFrom_second (by omega), readFrom_third (by omega),
      ofNat_eq hfirst, ofNat_eq hsecond]
    rfl
  | case3 a =>
    have ha := a.toNat_lt
    have hfirst : a.toNat / 4 * 4 + a.toNat % 4 * 16 / 16 = a.toNat := by omega
    simp only [List.cons_append, List.nil_append]
    rw [readFrom_first (by omega), readFrom_second (by omega), ofNat_eq hfirst]
    rfl
  | case4 => rfl

theorem decode?_encode (bs : List UInt8) : decode? (encode bs) = some bs := by
  have hsize : ∀ c ∈ encode bs, c.utf8Size = 1 := by
    intro c hc
    obtain ⟨n, hn, rfl⟩ := exists_letter_of_mem hc
    exact utf8Size_letter hn
  rw [decode?, foldl_utf8Size hsize, Nat.zero_add]
  exact readFrom_encode bs

end DeployRegistry.Text.Base64Url
