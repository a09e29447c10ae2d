import DeployRegistry.Text.CharClass
import DeployRegistry.Text.Composed
import DeployRegistry.Text.LabelClass
import DeployRegistry.Text.Punycode

/-!
# Labels of domain names

A label holds letters, digits, marks and hyphens of one direction of writing, in composed form. In
the ASCII form of a name a label with other characters is written in letters and digits behind
`xn--`. A label of ASCII characters is its own ASCII form.
-/

namespace DeployRegistry.Text.DomainLabel

set_option autoImplicit false

/-- No hyphen stands at an end, nor do two at the third and fourth place, which mark the ASCII form
of another label. -/
def hyphensFit (cs : List Char) : Bool :=
  cs.head? != some '-' && cs.getLast? != some '-' && (cs.drop 2).take 2 != ['-', '-']

def isVirama (c : Char) : Bool := Composed.combiningClass c.toNat == 9

def isTransparent (c : Char) : Bool := labelClass c == .mark

/-- A joiner follows a virama; the one that keeps letters apart may also stand between letters that
would join. -/
def joinerFits (before : List Char) (c : Char) (after : List Char) : Bool :=
  before.head?.any isVirama ||
    (c == '\u200c' &&
      (before.dropWhile isTransparent).head?.any (fun d => joinsBoth d || joinsAfter d) &&
      (after.dropWhile isTransparent).head?.any (fun d => joinsBoth d || joinsBefore d))

def isArabicDigit : Char → Bool := inRuns [(0x660, 0x669)]

def isPersianDigit : Char → Bool := inRuns [(0x6F0, 0x6F9)]

/-- Whether a character stands in a context that it may stand in. -/
def contextFits (before : List Char) (c : Char) (after : List Char) : Bool :=
  if c = '\u00b7' then before.head? == some 'l' && after.head? == some 'l'
  else if c = '\u0375' then after.head?.any isGreek
  else if c = '\u05f3' ∨ c = '\u05f4' then before.head?.any isHebrew
  else if c = '\u30fb' then before.any isJapanese || after.any isJapanese
  else if isArabicDigit c then !(before.any isPersianDigit || after.any isPersianDigit)
  else !(before.any isArabicDigit || after.any isArabicDigit)

/-- Whether the characters of a label fit in, from those before them on, last character first. -/
def charactersFit (before : List Char) : List Char → Bool
  | [] => true
  | c :: after =>
    (match labelClass c with
    | .refused => false
    | .joiner => joinerFits before c after
    | .inContext => contextFits before c after
    | _ => true) && charactersFit (c :: before) after

/-- The direction of a character, which those bound to a context and the joiners have as well. -/
def direction (c : Char) : LabelClass :=
  match labelClass c with
  | .inContext =>
    if c = '\u05f3' ∨ c = '\u05f4' then .leftward
    else if isArabicDigit c then .arabicNumber
    else if isPersianDigit c then .number
    else .neutral
  | .joiner => .neutral
  | k => k

/-- A label with characters that are written leftward keeps to one direction, and ends with a
letter or a digit, marks apart. -/
def directionsFit (cs : List Char) : Bool :=
  let ds := cs.map direction
  let last := (ds.reverse.dropWhile (· == .mark)).head?
  if ds.any fun d => d == .leftward || d == .arabicNumber then
    if ds.head? = some .leftward then
      !ds.contains .rightward && !(ds.contains .arabicNumber && ds.contains .number) &&
        (last == some .leftward || last == some .number || last == some .arabicNumber)
    else
      ds.head? == some .rightward && !ds.contains .leftward && !ds.contains .arabicNumber &&
        (last == some .rightward || last == some .number)
  else true

def isLabel (cs : List Char) : Bool :=
  cs != [] && isComposed cs && hyphensFit cs && !cs.head?.any isMark && charactersFit [] cs &&
    directionsFit cs

/-- The mark of the ASCII form of a label. -/
def asciiMark : List Char := "xn--".toList

/-- Whether ASCII characters are a label, or the ASCII form of one. -/
def isAsciiLabel (cs : List Char) : Bool :=
  if asciiMark.isPrefixOf cs then
    let rest := cs.drop 4
    rest != [] && rest.getLast? != some '-' && (Punycode.decode? rest).any isLabel
  else isLabel cs

def longest : Nat := 63

/-- The ASCII form of a label. -/
def ascii? (cs : List Char) : Option (List Char) :=
  if cs.all fun c => decide (c.toNat < 128) then
    if isAsciiLabel cs ∧ cs.length ≤ longest then some cs else none
  else
    let written := asciiMark ++ Punycode.encode cs
    if isLabel cs ∧ written.length ≤ longest then some written else none

end DeployRegistry.Text.DomainLabel
