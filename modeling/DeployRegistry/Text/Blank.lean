/-!
# Blanks and trimming

Two classes of blank characters and the trimming of a text at both ends. The main statement is
`trimList_eq_self`: a list that neither starts nor ends with a blank is its own trimming.
-/

namespace DeployRegistry.Text

set_option autoImplicit false

/-- The characters with the Unicode property `White_Space`. -/
def isBlank (c : Char) : Bool :=
  let n := c.toNat
  (9 ≤ n && n ≤ 13) || n == 0x20 || n == 0x85 || n == 0xA0 || n == 0x1680 ||
    (0x2000 ≤ n && n ≤ 0x200A) || n == 0x2028 || n == 0x2029 || n == 0x202F || n == 0x205F ||
    n == 0x3000

/-- The blanks together with the four information separators. -/
def isSpacing (c : Char) : Bool :=
  isBlank c || (0x1C ≤ c.toNat && c.toNat ≤ 0x1F)

/-- The list without the characters of the class at its two ends. -/
def trimList (p : Char → Bool) (cs : List Char) : List Char :=
  ((cs.dropWhile p).reverse.dropWhile p).reverse

theorem trimList_eq_self {p : Char → Bool} {cs : List Char}
    (hhead : ∀ c ∈ cs.head?, p c = false) (hlast : ∀ c ∈ cs.getLast?, p c = false) :
    trimList p cs = cs := by
  have h₁ : cs.dropWhile p = cs := by
    cases cs with
    | nil => rfl
    | cons c rest => simp [hhead c (by simp)]
  have h₂ : cs.reverse.dropWhile p = cs.reverse := by
    cases h : cs.reverse with
    | nil => rfl
    | cons c rest =>
      have hc : p c = false := hlast c (by rw [← List.head?_reverse, h]; simp)
      simp [hc]
  simp [trimList, h₁, h₂]

def trim (p : Char → Bool) (s : String) : String := String.ofList (trimList p s.toList)

def isUpperAscii (c : Char) : Bool := decide (65 ≤ c.toNat) && decide (c.toNat ≤ 90)

/-- An upper-case ASCII letter becomes lower-case; every other character stays. -/
def lowerChar (c : Char) : Char := if isUpperAscii c then Char.ofNat (c.toNat + 32) else c

theorem isUpperAscii_lowerChar (c : Char) : isUpperAscii (lowerChar c) = false := by
  simp only [lowerChar]
  split
  · rename_i h
    have hall : ∀ n, n ≤ 90 → 65 ≤ n → isUpperAscii (Char.ofNat (n + 32)) = false := by decide
    simp only [isUpperAscii, Bool.and_eq_true, decide_eq_true_eq] at h
    exact hall c.toNat h.2 h.1
  · simp_all

theorem lowerChar_lowerChar (c : Char) : lowerChar (lowerChar c) = lowerChar c := by
  rw [lowerChar, isUpperAscii_lowerChar]
  rfl

def lowerAscii (s : String) : String := String.ofList (s.toList.map lowerChar)

@[simp] theorem toList_lowerAscii (s : String) :
    (lowerAscii s).toList = s.toList.map lowerChar := by
  simp [lowerAscii]

theorem lowerAscii_lowerAscii (s : String) : lowerAscii (lowerAscii s) = lowerAscii s := by
  have h : lowerChar ∘ lowerChar = lowerChar := funext lowerChar_lowerChar
  simp [lowerAscii, h]

/-- The pieces between the characters of the class; a text without one is a single piece. -/
def pieces (p : Char → Bool) : List Char → List (List Char)
  | [] => [[]]
  | c :: rest =>
    if p c then [] :: pieces p rest
    else match pieces p rest with
      | [] => [[c]]
      | first :: others => (c :: first) :: others

theorem pieces_ne_nil (p : Char → Bool) (cs : List Char) : pieces p cs ≠ [] := by
  cases cs with
  | nil => simp [pieces]
  | cons c rest =>
    simp only [pieces]
    split
    · simp
    · split <;> simp

theorem pieces_of_none {p : Char → Bool} {cs : List Char} (h : ∀ c ∈ cs, p c = false) :
    pieces p cs = [cs] := by
  induction cs with
  | nil => rfl
  | cons c rest ih =>
    have hrest : pieces p rest = [rest] := ih fun d hd => h d (by simp [hd])
    simp [pieces, h c (by simp), hrest]

theorem pieces_append {p : Char → Bool} {sep : Char} (hsep : p sep = true) (cs rest : List Char) :
    pieces p (cs ++ sep :: rest) = pieces p cs ++ pieces p rest := by
  induction cs with
  | nil => simp [pieces, hsep]
  | cons c cs ih =>
    rw [List.cons_append, pieces, pieces, ih]
    cases hc : p c with
    | true => rfl
    | false =>
      cases hp : pieces p cs with
      | nil => exact absurd hp (pieces_ne_nil p cs)
      | cons first others => rfl

/-- The pieces of a text that is written around one separator. -/
theorem pieces_append_cons {p : Char → Bool} {cs : List Char} {sep : Char}
    (h : ∀ c ∈ cs, p c = false) (hsep : p sep = true) (rest : List Char) :
    pieces p (cs ++ sep :: rest) = cs :: pieces p rest := by
  rw [pieces_append hsep, pieces_of_none h, List.singleton_append]

def splitAt (sep : Char) (s : String) : List String :=
  (pieces (· == sep) s.toList).map String.ofList

end DeployRegistry.Text
