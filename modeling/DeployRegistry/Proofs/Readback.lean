import DeployRegistry.Json.Printer
import DeployRegistry.Json.Reader
import Mathlib.Data.List.Basic

/-!
# Reading what was written

A text comes back from its quoted form, unless two units in it that stand alone make a pair when
they are read. So an object without brackets and fractions inside comes back as it was, its members
in their order. The main statement is `Json.read_text_obj`.
-/

namespace DeployRegistry

set_option autoImplicit false

open Text Number

namespace Text

theorem toNat_lt (c : Char) : c.toNat < 0xD800 ∨ 0xDFFF < c.toNat ∧ c.toNat < 0x110000 := c.valid

namespace Hex

theorem value?_lowerDigit_mod (n : Nat) : value? (lowerDigit n) = some (n % 16) := by
  have hsame : lowerDigit n = lowerDigit (n % 16) := by
    rw [lowerDigit, lowerDigit, Nat.mod_mod]
  rw [hsame]
  exact value?_lowerDigit (Nat.mod_lt n (by omega))

theorem number?_fourDigits {n : Nat} (h : n < 0x10000) : number? (fourDigits n) = some n := by
  simp only [number?, fourDigits, List.foldl_cons, List.foldl_nil, Option.bind_some,
    value?_lowerDigit_mod, Option.map_some]
  congr 1
  omega

end Hex

/-- No unit that may begin a pair stands directly before one that may end a pair. -/
def Unpaired : List Char → Prop
  | [] => True
  | c :: rest =>
    (∀ d ∈ rest.head?, ¬ ((loneUnit? c).any isHighUnit = true ∧
      (loneUnit? d).any isLowUnit = true)) ∧ Unpaired rest

theorem unpaired_of_whole {cs : List Char} (h : ∀ c ∈ cs, loneUnit? c = none) : Unpaired cs := by
  induction cs with
  | nil => trivial
  | cons c rest ih =>
    refine ⟨?_, ih fun d hd => h d (List.mem_cons_of_mem c hd)⟩
    intro d _ hpair
    rw [h c List.mem_cons_self] at hpair
    cases hpair.1

theorem ofUnit_toNat {c : Char} (h : c.toNat < 0x10000) : ofUnit c.toNat = c := by
  have hvalid := toNat_lt c
  have hunit : (isHighUnit c.toNat || isLowUnit c.toNat) = false := by
    simp only [isHighUnit, isLowUnit, Bool.or_eq_false_iff, Bool.and_eq_false_iff,
      decide_eq_false_iff_not]
    omega
  rw [ofUnit, hunit]
  exact Char.ofNat_toNat c

theorem loneUnit?_eq_some {c : Char} {n : Nat} (h : loneUnit? c = some n) :
    (0xD800 ≤ n ∧ n ≤ 0xDFFF) ∧ ofUnit n = c := by
  unfold loneUnit? at h
  split at h
  · next hrange =>
    cases h
    have hn : 0xD800 ≤ c.toNat - shift ∧ c.toNat - shift ≤ 0xDFFF := by omega
    refine ⟨hn, ?_⟩
    apply Char.toNat_inj.mp
    rw [toNat_ofUnit hn]
    omega
  · cases h

theorem joinUnits_split {c : Char} (h : 0x10000 ≤ c.toNat) :
    joinUnits (0xD800 + (c.toNat - 0x10000) / 0x400) (0xDC00 + (c.toNat - 0x10000) % 0x400) =
      c := by
  have hsum : 0x10000 + (0xD800 + (c.toNat - 0x10000) / 0x400 - 0xD800) * 0x400 +
      (0xDC00 + (c.toNat - 0x10000) % 0x400 - 0xDC00) = c.toNat := by omega
  rw [joinUnits, hsum]
  exact Char.ofNat_toNat c

end Text

namespace Json

/-! Quoted texts. -/

theorem readUnit_fourDigits {n : Nat} (h : n < 0x10000) (rest : List Char) :
    readUnit (Hex.fourDigits n ++ rest) = .ok (n, rest) := by
  have hdigits := Hex.number?_fourDigits h
  rw [Hex.fourDigits] at hdigits ⊢
  simp only [List.cons_append, List.nil_append, readUnit, hdigits]

/-- An escape alone stands for its unit, so long as it does not begin a pair that goes on. -/
theorem readEscape_unit {n : Nat} (h : n < 0x10000) {rest : List Char}
    (hpair : ∀ more low after, rest = '\\' :: 'u' :: more → readUnit more = .ok (low, after) →
      ¬ (isHighUnit n = true ∧ isLowUnit low = true)) :
    readEscape ('u' :: (Hex.fourDigits n ++ rest)) = .ok (ofUnit n, rest) := by
  rw [readEscape, readUnit_fourDigits h]
  simp only [bind, Except.bind]
  split
  · next more =>
    cases hmore : readUnit more with
    | error fault => rfl
    | ok p =>
      obtain ⟨low, after⟩ := p
      have hnot := hpair more low after rfl hmore
      dsimp only
      rw [if_neg (by simpa using hnot)]
  · rfl

theorem readEscape_pair {high low : Nat} (hhigh : isHighUnit high = true)
    (hlow : isLowUnit low = true) (rest : List Char) :
    readEscape ('u' :: (Hex.fourDigits high ++ (escape low ++ rest))) =
      .ok (joinUnits high low, rest) := by
  have hhigh' : high < 0x10000 := by
    simp only [isHighUnit, Bool.and_eq_true, decide_eq_true_eq] at hhigh
    omega
  have hlow' : low < 0x10000 := by
    simp only [isLowUnit, Bool.and_eq_true, decide_eq_true_eq] at hlow
    omega
  rw [readEscape, readUnit_fourDigits hhigh']
  simp only [bind, Except.bind, escape, List.cons_append, readUnit_fourDigits hlow', hhigh, hlow,
    Bool.and_self, if_true]

theorem readQuoted_escape {fuel : Nat} {rest after : List Char} {d : Char}
    (h : readEscape rest = .ok (d, after)) :
    readQuoted (fuel + 1) ('\\' :: rest) =
      (readQuoted fuel after).map fun p => (d :: p.1, p.2) := by
  rw [readQuoted, if_neg (by decide), if_pos rfl, h]
  simp only [bind, Except.bind]
  cases readQuoted fuel after <;> rfl

/-- How a character is written: as a short escape, as it is, as the escape of one unit, or as the
escapes of a pair. -/
inductive Written (c : Char) : Prop
  | short (e : Char) (h : writeChar c = ['\\', e]) (hu : e ≠ 'u') (he : shortEscape? e = some c)
  | plain (h : writeChar c = [c]) (hquote : c ≠ '"') (hslash : c ≠ '\\') (hle : 0x20 ≤ c.toNat)
  | unit (n : Nat) (h : writeChar c = escape n) (hn : n < 0x10000) (hc : ofUnit n = c)
      (hhigh : isHighUnit n = true → (loneUnit? c).any isHighUnit = true)
      (hlow : isLowUnit n = true → (loneUnit? c).any isLowUnit = true)
  | pair (high low : Nat) (h : writeChar c = escape high ++ escape low)
      (hhigh : isHighUnit high = true) (hlow : isLowUnit low = true) (hc : joinUnits high low = c)

theorem written (c : Char) : Written c := by
  have hvalid := toNat_lt c
  have h : writeChar c = writeChar c := rfl
  conv at h => rhs; unfold writeChar
  by_cases hquote : c = '"'
  · rw [if_pos hquote] at h
    exact .short '"' h (by decide) (by rw [hquote]; rfl)
  rw [if_neg hquote] at h
  by_cases hslash : c = '\\'
  · rw [if_pos hslash] at h
    exact .short '\\' h (by decide) (by rw [hslash]; rfl)
  rw [if_neg hslash] at h
  by_cases hline : c = '\n'
  · rw [if_pos hline] at h
    exact .short 'n' h (by decide) (by rw [hline]; rfl)
  rw [if_neg hline] at h
  by_cases hreturn : c = '\r'
  · rw [if_pos hreturn] at h
    exact .short 'r' h (by decide) (by rw [hreturn]; rfl)
  rw [if_neg hreturn] at h
  by_cases htab : c = '\t'
  · rw [if_pos htab] at h
    exact .short 't' h (by decide) (by rw [htab]; rfl)
  rw [if_neg htab] at h
  by_cases hback : c = Char.ofNat 8
  · rw [if_pos hback] at h
    exact .short 'b' h (by decide) (by rw [hback]; rfl)
  rw [if_neg hback] at h
  by_cases hfeed : c = Char.ofNat 12
  · rw [if_pos hfeed] at h
    exact .short 'f' h (by decide) (by rw [hfeed]; rfl)
  rw [if_neg hfeed] at h
  by_cases hshown : 0x20 ≤ c.toNat ∧ c.toNat ≤ 0x7E
  · rw [if_pos hshown] at h
    exact .plain h hquote hslash hshown.1
  rw [if_neg hshown] at h
  by_cases hless : c.toNat < 0x10000
  · rw [if_pos hless] at h
    refine .unit c.toNat h hless (ofUnit_toNat hless) ?_ ?_
    · intro hhigh
      simp only [isHighUnit, Bool.and_eq_true, decide_eq_true_eq] at hhigh
      omega
    · intro hlow
      simp only [isLowUnit, Bool.and_eq_true, decide_eq_true_eq] at hlow
      omega
  rw [if_neg hless] at h
  split at h
  · next n hunit =>
    obtain ⟨hn, hc⟩ := loneUnit?_eq_some hunit
    refine .unit n h (by omega) hc ?_ ?_
    · intro hhigh
      simp [hunit, hhigh]
    · intro hlow
      simp [hunit, hlow]
  · refine .pair _ _ h ?_ ?_ (joinUnits_split (Nat.not_lt.mp hless))
    · simp only [isHighUnit, Bool.and_eq_true, decide_eq_true_eq]
      omega
    · simp only [isLowUnit, Bool.and_eq_true, decide_eq_true_eq]
      omega

/-- The escape of a unit that may end a pair stands in front only where the first character is such
a unit. -/
theorem head_of_escape {cs rest more after : List Char} {low : Nat}
    (h : writeChars cs ++ '"' :: rest = '\\' :: 'u' :: more)
    (hmore : readUnit more = .ok (low, after)) (hlow : isLowUnit low = true) :
    ∃ d ∈ cs.head?, (loneUnit? d).any isLowUnit = true := by
  cases cs with
  | nil => simp [writeChars] at h
  | cons d cs =>
    refine ⟨d, rfl, ?_⟩
    rw [writeChars, List.append_assoc] at h
    cases written d with
    | short e hd hu he =>
      rw [hd] at h
      simp only [List.cons_append, List.nil_append, List.cons.injEq, true_and] at h
      exact absurd h.1 hu
    | plain hd hquote hslash hle =>
      rw [hd] at h
      simp only [List.cons_append, List.nil_append, List.cons.injEq] at h
      exact absurd h.1 hslash
    | unit n hd hn hc hhigh hlow' =>
      rw [hd, escape] at h
      simp only [List.cons_append, List.cons.injEq, true_and] at h
      rw [← h, readUnit_fourDigits hn] at hmore
      cases hmore
      exact hlow' hlow
    | pair high low' hd hhigh hlow' hc =>
      have hn : 0xD800 ≤ high ∧ high ≤ 0xDBFF := by simpa [isHighUnit] using hhigh
      rw [hd, escape] at h
      simp only [List.cons_append, List.append_assoc, List.cons.injEq, true_and] at h
      rw [← h, readUnit_fourDigits (by omega)] at hmore
      cases hmore
      simp only [isLowUnit, Bool.and_eq_true, decide_eq_true_eq] at hlow
      omega

theorem readQuoted_writeChar {c : Char} {cs : List Char} (h : Unpaired (c :: cs)) (fuel : Nat)
    (rest : List Char) :
    readQuoted (fuel + 1) (writeChar c ++ (writeChars cs ++ '"' :: rest)) =
      (readQuoted fuel (writeChars cs ++ '"' :: rest)).map fun p => (c :: p.1, p.2) := by
  cases written c with
  | short e hc hu he =>
    rw [hc]
    apply readQuoted_escape
    unfold readEscape
    split
    · next heq => exact absurd (List.cons.inj heq).1 hu
    · next heq =>
      obtain ⟨rfl, rfl⟩ := List.cons.inj heq
      rw [he]
      rfl
    · next heq => cases heq
  | plain hc hquote hslash hle =>
    rw [hc, List.singleton_append, readQuoted, if_neg hquote, if_neg hslash,
      if_neg (Nat.not_lt.mpr hle)]
    simp only [bind, Except.bind]
    cases readQuoted fuel (writeChars cs ++ '"' :: rest) <;> rfl
  | unit n hc hn hunit hhigh hlow =>
    rw [hc, escape, List.cons_append, List.cons_append]
    apply readQuoted_escape
    rw [← hunit]
    apply readEscape_unit hn
    intro more low after hmore hread hpair
    obtain ⟨d, hd, hlow'⟩ := head_of_escape hmore hread hpair.2
    exact h.1 d hd ⟨hhigh hpair.1, hlow'⟩
  | pair high low hc hhigh hlow hjoin =>
    rw [hc, List.append_assoc, escape, List.cons_append, List.cons_append]
    apply readQuoted_escape
    rw [← hjoin]
    exact readEscape_pair hhigh hlow _

theorem readQuoted_writeChars {cs : List Char} (h : Unpaired cs) {fuel : Nat}
    (hfuel : cs.length < fuel) (rest : List Char) :
    readQuoted fuel (writeChars cs ++ '"' :: rest) = .ok (cs, rest) := by
  induction cs generalizing fuel with
  | nil =>
    cases fuel with
    | zero => cases hfuel
    | succ fuel => rfl
  | cons c cs ih =>
    cases fuel with
    | zero => cases hfuel
    | succ fuel =>
      rw [writeChars, List.append_assoc, readQuoted_writeChar h,
        ih h.2 (Nat.lt_of_succ_lt_succ hfuel)]
      rfl

theorem length_le_writeChars (cs : List Char) : cs.length ≤ (writeChars cs).length := by
  induction cs with
  | nil => exact Nat.zero_le _
  | cons c cs ih =>
    have hsome : 1 ≤ (writeChar c).length := by
      cases written c with
      | short e h _ _ => simp [h]
      | plain h _ _ _ => simp [h]
      | unit n h _ _ _ _ => simp [h, escape]
      | pair high low h _ _ _ => simp [h, escape]
    rw [writeChars, List.length_append, List.length_cons]
    omega

theorem readText_writeChars {s : String} (h : Unpaired s.toList) (rest : List Char) :
    readText (writeChars s.toList ++ '"' :: rest) = .ok (s, rest) := by
  have hle := length_le_writeChars s.toList
  rw [readText, readQuoted_writeChars h]
  · simp [Except.map]
  · rw [List.length_append, List.length_cons]
    omega

/-! Whole numbers. -/

/-- What may follow a value inside brackets. -/
def Ends (rest : List Char) : Prop := ∀ c ∈ rest.head?, c = ',' ∨ c = ']' ∨ c = '\x7d'

theorem Ends.not_isDigit {rest : List Char} (h : Ends rest) :
    ∀ c ∈ rest.head?, c.isDigit = false := by
  intro c hc
  rcases h c hc with rfl | rfl | rfl <;> rfl

theorem Ends.readFraction {rest : List Char} (h : Ends rest) : readFraction rest = ([], rest) := by
  unfold Json.readFraction
  split
  · next more => rcases h '.' rfl with hc | hc | hc <;> cases hc
  · rfl

theorem Ends.readExponent {rest : List Char} (h : Ends rest) :
    readExponent rest = (none, rest) := by
  cases rest with
  | nil => rfl
  | cons c rest =>
    have hc : ¬ (c = 'e' ∨ c = 'E') := by
      rcases h c rfl with rfl | rfl | rfl <;> decide
    unfold Json.readExponent
    exact if_neg hc

theorem readWhole_digits (n : Nat) {rest : List Char} (h : Ends rest) :
    readWhole (digits n ++ rest) = .ok (digits n, rest) := by
  rcases digits_cases n with rfl | ⟨d, ds, hd, hzero, hdigit⟩
  · rw [digits]
    rfl
  · have hspan := spanDigits_digits n h.not_isDigit
    rw [hd, List.cons_append] at hspan ⊢
    unfold readWhole
    split
    · next heq => exact absurd (List.cons.inj heq).1 hzero
    · next heq =>
      obtain ⟨rfl, rfl⟩ := List.cons.inj heq
      rw [if_pos hdigit, hspan]
    · next heq => cases heq

theorem readNumeral_digits (negative : Bool) {n : Nat} (hn : (digits n).length ≤ mostDigits)
    {rest : List Char} (h : Ends rest) :
    readNumeral negative (digits n ++ rest) = .ok (.whole (signed negative n), rest) := by
  rw [readNumeral, readWhole_digits n h]
  simp only [bind, Except.bind, h.readFraction, h.readExponent, if_neg (Nat.not_lt.mpr hn),
    ofDigits_digits]

theorem readScalar_digits {n : Nat} (hn : (digits n).length ≤ mostDigits) {rest : List Char}
    (h : Ends rest) : readScalar (digits n ++ rest) = .ok (num (.whole n), rest) := by
  have hnumeral := readNumeral_digits false hn h
  obtain ⟨d, ds, hd, hdigit⟩ := exists_digit n
  rw [hd, List.cons_append] at hnumeral ⊢
  unfold readScalar
  split
  case h_8 =>
    rw [hnumeral]
    rfl
  all_goals
    next heq =>
    obtain ⟨rfl, _⟩ := List.cons.inj heq
    cases hdigit

theorem readScalar_negative {n : Nat} (hn : (digits n).length ≤ mostDigits) {rest : List Char}
    (h : Ends rest) : readScalar ('-' :: (digits n ++ rest)) = .ok (num (.whole (-n)), rest) := by
  have hnumeral := readNumeral_digits true hn h
  obtain ⟨d, ds, hd, hdigit⟩ := exists_digit n
  rw [hd, List.cons_append] at hnumeral ⊢
  unfold readScalar
  split
  case h_6 heq =>
    obtain ⟨rfl, _⟩ := List.cons.inj (List.cons.inj heq).2
    cases hdigit
  case h_7 heq =>
    rw [← (List.cons.inj heq).2, hnumeral]
    rfl
  case h_8 hminus => exact absurd rfl (hminus _)
  all_goals
    next heq => cases (List.cons.inj heq).1

/-! Values and objects. -/

/-- Nothing, or a text without a pair of units that stand alone, or a whole number that is not too
long. -/
inductive Flat : Json → Prop
  | nothing : Flat .null
  | text (s : String) (h : Unpaired s.toList) : Flat (.str s)
  | whole (n : Int) (h : (digits n.natAbs).length ≤ mostDigits) : Flat (.num (.whole n))

theorem write_str (s : String) : write (.str s) = writeText s := rfl

theorem write_num (n : Numeral) : write (.num n) = n.text.toList := rfl

theorem readValue_of_scalar {c : Char} (hquote : c ≠ '"') (hbracket : c ≠ '[')
    (hbrace : c ≠ '\x7b') (fuel room : Nat) (cs : List Char) :
    readValue (fuel + 1) room (c :: cs) = readScalar (c :: cs) := by
  rw [readValue]
  · intro rest heq
    exact hquote (List.cons.inj heq).1
  · intro rest heq
    exact hbracket (List.cons.inj heq).1
  · intro rest heq
    exact hbrace (List.cons.inj heq).1

theorem Flat.readValue {v : Json} (hv : Flat v) (fuel room : Nat) {rest : List Char}
    (h : Ends rest) : Json.readValue (fuel + 1) room (write v ++ rest) = .ok (v, rest) := by
  cases hv with
  | nothing => rfl
  | text s hs =>
    rw [write_str, writeText, List.cons_append, List.append_assoc, List.singleton_append,
      Json.readValue, readText_writeChars hs]
    rfl
  | whole n hn =>
    rw [write_num, Numeral.text, intText]
    split
    · next hneg =>
      have habs : -((n.natAbs : Int)) = n := by omega
      rw [String.toList_ofList, List.cons_append,
        readValue_of_scalar (by decide) (by decide) (by decide), readScalar_negative hn h, habs]
    · next hpos =>
      have habs : (n.natAbs : Int) = n := by omega
      have hscalar := readScalar_digits hn h
      obtain ⟨d, ds, hd, hdigit⟩ := exists_digit n.natAbs
      rw [habs, hd] at hscalar
      have hother : ∀ x : Char, x.isDigit = false → d ≠ x := by
        intro x hx heq
        rw [heq, hx] at hdigit
        cases hdigit
      rw [natText, String.toList_ofList, hd, List.cons_append,
        readValue_of_scalar (hother _ rfl) (hother _ rfl) (hother _ rfl)]
      exact hscalar

theorem Members.put_of_not_mem {ms : Members} {k : String} (h : k ∉ ms.map (·.1)) (v : Json) :
    Members.put ms k v = ms ++ [(k, v)] := by
  induction ms with
  | nil => rfl
  | cons m rest ih =>
    obtain ⟨j, w⟩ := m
    simp only [List.map_cons, List.mem_cons, not_or] at h
    rw [Members.put, if_neg (by simpa using Ne.symm h.1), ih h.2]
    rfl

theorem Members.mem_put {ms : Members} {name : String} {v : Json} {m : String × Json}
    (h : m ∈ put ms name v) : m = (name, v) ∨ m ∈ ms := by
  induction ms with
  | nil => exact Or.inl (List.mem_singleton.1 h)
  | cons n rest ih =>
    obtain ⟨k, w⟩ := n
    by_cases hk : k = name
    · subst hk
      simp only [put, beq_self_eq_true, if_true, List.mem_cons] at h
      rcases h with h | h
      · exact Or.inl h
      · exact Or.inr (List.mem_cons_of_mem _ h)
    · simp only [put, beq_iff_eq, hk, if_false, List.mem_cons] at h
      rcases h with h | h
      · exact Or.inr (h ▸ List.mem_cons_self)
      · rcases ih h with h | h
        · exact Or.inl h
        · exact Or.inr (List.mem_cons_of_mem _ h)

theorem Members.nodup_put {ms : Members} (h : (ms.map (·.1)).Nodup) (name : String) (v : Json) :
    ((put ms name v).map (·.1)).Nodup := by
  induction ms with
  | nil => simp [put]
  | cons n rest ih =>
    obtain ⟨k, w⟩ := n
    rw [List.map_cons, List.nodup_cons] at h
    by_cases hk : k = name
    · simpa [put, hk] using h
    · simp only [put, beq_iff_eq, hk, if_false, List.map_cons, List.nodup_cons]
      refine ⟨?_, ih h.2⟩
      intro hmem
      obtain ⟨m, hm, hkm⟩ := List.mem_map.1 hmem
      rcases mem_put hm with rfl | hold
      · exact hk hkm.symm
      · exact h.1 (List.mem_map.2 ⟨m, hold, hkm⟩)

theorem skipGap_of_not_isGap {c : Char} (h : isGap c = false) (cs : List Char) :
    skipGap (c :: cs) = c :: cs := by
  rw [skipGap, List.dropWhile_cons, h]
  rfl

theorem ends_writeMembers (ms : Members) (rest : List Char) : Ends (writeMembers ms ++ rest) := by
  intro c hc
  cases ms with
  | nil =>
    cases hc
    exact Or.inr (Or.inr rfl)
  | cons m ms =>
    obtain ⟨k, v⟩ := m
    cases hc
    exact Or.inl rfl

/-- The members of an object, of which the first one stands alone. -/
def writeFirst (k : String) (v : Json) (ms : Members) : List Char :=
  writeText k ++ ':' :: (write v ++ writeMembers ms)

theorem isGap_of_isDigit {c : Char} (h : c.isDigit = true) : isGap c = false := by
  simp only [isGap, Bool.or_eq_false_iff, beq_eq_false_iff_ne]
  refine ⟨⟨⟨?_, ?_⟩, ?_⟩, ?_⟩
  all_goals
    intro heq
    rw [heq] at h
    cases h

theorem Flat.skipGap_write {v : Json} (hv : Flat v) (rest : List Char) :
    skipGap (write v ++ rest) = write v ++ rest := by
  have hhead : ∃ c cs, write v = c :: cs ∧ isGap c = false := by
    cases hv with
    | nothing => exact ⟨'n', _, rfl, rfl⟩
    | text s h => exact ⟨'"', _, rfl, rfl⟩
    | whole n h =>
      rw [write_num, Numeral.text, intText]
      split
      · rw [String.toList_ofList]
        exact ⟨'-', _, rfl, rfl⟩
      · obtain ⟨d, ds, hd, hdigit⟩ := exists_digit n.natAbs
        rw [natText, String.toList_ofList]
        exact ⟨d, ds, hd, isGap_of_isDigit hdigit⟩
  obtain ⟨c, cs, hc, hgap⟩ := hhead
  rw [hc, List.cons_append, skipGap_of_not_isGap hgap]

theorem writeFirst_append (k : String) (v : Json) (ms : Members) (rest : List Char) :
    writeFirst k v ms ++ rest =
      '"' :: (writeChars k.toList ++ '"' :: ':' :: (write v ++ (writeMembers ms ++ rest))) := by
  simp [writeFirst, writeText]

theorem skipGap_cons {c : Char} (hc : c = ':' ∨ c = ',' ∨ c = '"' ∨ c = '\x7b' ∨ c = '\x7d')
    (cs : List Char) : skipGap (c :: cs) = c :: cs := by
  apply skipGap_of_not_isGap
  rcases hc with rfl | rfl | rfl | rfl | rfl <;> rfl

section

variable {k : String} {v : Json} (hk : Unpaired k.toList) (hv : Flat v) (fuel room : Nat)
variable (done : Members) (rest : List Char)
include hk hv

theorem readMembers_last :
    readMembers (fuel + 2) room done
        ('"' :: (writeChars k.toList ++ '"' :: ':' :: (write v ++ '\x7d' :: rest))) =
      .ok (Members.put done k v, rest) := by
  have hends : Ends ('\x7d' :: rest) := ends_writeMembers [] rest
  simp only [readMembers, readText_writeChars hk, skipGap_cons, true_or, or_true, hv.skipGap_write,
    hv.readValue fuel room hends]

theorem readMembers_next :
    readMembers (fuel + 2) room done
        ('"' :: (writeChars k.toList ++ '"' :: ':' :: (write v ++ ',' :: '"' :: rest))) =
      readMembers (fuel + 1) room (Members.put done k v) ('"' :: rest) := by
  have hends : Ends (',' :: '"' :: rest) := by
    intro c hc
    cases hc
    exact Or.inl rfl
  rw [readMembers]
  simp only [readText_writeChars hk, skipGap_cons, true_or, or_true, hv.skipGap_write,
    hv.readValue fuel room hends]

end

theorem put_of_nodup {done ms : Members} {k : String} {v : Json}
    (h : ((done ++ (k, v) :: ms).map (·.1)).Nodup) : Members.put done k v = done ++ [(k, v)] := by
  apply Members.put_of_not_mem
  rw [List.map_append, List.nodup_append] at h
  intro hmem
  exact h.2.2 k hmem k List.mem_cons_self rfl

/-- Members with new names are put behind those that are already there. -/
theorem readMembers_writeFirst {k : String} {v : Json} {ms done : Members}
    (hflat : ∀ m ∈ (k, v) :: ms, Unpaired m.1.toList ∧ Flat m.2)
    (hnames : ((done ++ (k, v) :: ms).map (·.1)).Nodup) {fuel : Nat} (hfuel : ms.length ≤ fuel)
    (room : Nat) (rest : List Char) :
    readMembers (fuel + 2) room done (writeFirst k v ms ++ rest) =
      .ok (done ++ (k, v) :: ms, rest) := by
  obtain ⟨hk, hv⟩ := hflat (k, v) List.mem_cons_self
  induction ms generalizing k v done fuel with
  | nil =>
    rw [writeFirst_append, writeMembers, List.singleton_append,
      readMembers_last hk hv fuel room done rest, put_of_nodup hnames]
  | cons m ms ih =>
    obtain ⟨j, w⟩ := m
    obtain ⟨f, rfl⟩ : ∃ f, fuel = f + 1 := Nat.exists_eq_add_of_le' (Nat.le_trans (by simp) hfuel)
    have hnext : writeMembers ((j, w) :: ms) ++ rest =
        ',' :: '"' :: (writeChars j.toList ++ '"' :: ':' :: (write w ++
          (writeMembers ms ++ rest))) := by
      simp [writeMembers, writeText]
    obtain ⟨hj, hw⟩ := hflat (j, w) (List.mem_cons_of_mem _ List.mem_cons_self)
    have hlater : readMembers (f + 2) room (done ++ [(k, v)]) (writeFirst j w ms ++ rest) =
        .ok ((done ++ [(k, v)]) ++ (j, w) :: ms, rest) := by
      apply ih
      · intro m hm
        exact hflat m (List.mem_cons_of_mem _ hm)
      · rw [List.append_assoc]
        exact hnames
      · exact Nat.le_of_succ_le_succ hfuel
      · exact hj
      · exact hw
    rw [writeFirst_append, hnext, readMembers_next hk hv (f + 1) room done, ← writeFirst_append,
      put_of_nodup hnames, hlater, List.append_assoc, List.singleton_append]

theorem length_le_writeMembers (ms : Members) : ms.length ≤ (writeMembers ms).length := by
  induction ms with
  | nil => exact Nat.zero_le _
  | cons m ms ih =>
    obtain ⟨k, v⟩ := m
    simp only [writeMembers, List.length_cons, List.length_append]
    omega

theorem readValue_brace (fuel : Nat) {room : Nat} (h : room ≠ 0) (cs : List Char) :
    readValue (fuel + 1) room ('\x7b' :: '"' :: cs) =
      (readMembers fuel (room - 1) [] ('"' :: cs)).map fun p => (obj p.1, p.2) := by
  rw [readValue, if_neg h, skipGap_cons (by decide)]
  split
  · next heq => cases (List.cons.inj heq).1
  · rfl

/-- An object of texts and whole numbers is read as it was written. -/
theorem read_text_obj {ms : Members} (hflat : ∀ m ∈ ms, Unpaired m.1.toList ∧ Flat m.2)
    (hnames : (ms.map (·.1)).Nodup) : read (text (.obj ms)) = .ok (.obj ms) := by
  cases ms with
  | nil => rfl
  | cons m ms =>
    obtain ⟨k, v⟩ := m
    obtain ⟨cs, hcs⟩ : ∃ cs, cs = writeFirst k v ms := ⟨_, rfl⟩
    have hwritten : write (.obj ((k, v) :: ms)) = '\x7b' :: cs := by
      rw [hcs]
      rfl
    have hlong : ms.length ≤ cs.length := by
      have hle := length_le_writeMembers ms
      rw [hcs]
      simp only [writeFirst, List.length_cons, List.length_append]
      omega
    have hmembers : readMembers (2 * cs.length + 3) (mostBrackets - 1) [] cs =
        .ok ((k, v) :: ms, []) := by
      have hread : readMembers (2 * cs.length + 1 + 2) (mostBrackets - 1) []
          (writeFirst k v ms ++ []) = .ok ((k, v) :: ms, []) :=
        readMembers_writeFirst hflat hnames (by omega) (mostBrackets - 1) []
      rw [List.append_nil, ← hcs] at hread
      exact hread
    have hquote : cs = '"' :: cs.tail := by
      rw [hcs]
      rfl
    have hvalue : readValue (2 * cs.length + 3 + 1) mostBrackets ('\x7b' :: cs) =
        .ok (.obj ((k, v) :: ms), []) := by
      rw [hquote, readValue_brace _ (by decide), ← hquote, hmembers]
      rfl
    rw [read, text, String.toList_ofList, hwritten]
    simp only [skipGap_cons, or_true, true_or, List.length_cons]
    rw [show 2 * (cs.length + 1) + 2 = 2 * cs.length + 3 + 1 by omega, hvalue]
    rfl

end Json

end DeployRegistry
