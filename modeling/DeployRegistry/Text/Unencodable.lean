import DeployRegistry.Text.LoneUnit
import DeployRegistry.Text.Shown

/-!
# Texts without bytes

An encoding may have no bytes for some characters of a text: ASCII for those beyond its 128, UTF-8
for units without their pair. What is said then names the first run of such characters.
-/

namespace DeployRegistry.Text

set_option autoImplicit false

open Number

/-- What is said about the first run of a class of characters in a text; nothing where there is
none. -/
def unencodable? (encoding reason : String) (p : Char → Bool) (s : String) : Option String :=
  let before := s.toList.takeWhile fun c => !p c
  match s.toList.drop before.length with
  | [] => none
  | c :: rest =>
    let more := (rest.takeWhile p).length
    let first := before.length
    some ("'" ++ encoding ++ "' codec can't encode character" ++
      (if more = 0 then " '" ++ String.ofList (escaped c) ++ "' in position " ++ natText first
        else "s in position " ++ natText first ++ "-" ++ natText (first + more)) ++
      ": " ++ reason)

def isAscii (c : Char) : Bool := decide (c.toNat < 128)

/-- What is said about a text that is not of ASCII. -/
def beyondAscii? : String → Option String :=
  unencodable? "ascii" "ordinal not in range(128)" fun c => !isAscii c

/-- What is said about a text with units without their pair. -/
def beyondUtf8? : String → Option String :=
  unencodable? "utf-8" "surrogates not allowed" fun c => (loneUnit? c).isSome

theorem takeWhile_of_forall {p : Char → Bool} {cs : List Char} (h : ∀ c ∈ cs, p c = true) :
    cs.takeWhile p = cs := by
  induction cs with
  | nil => rfl
  | cons c rest ih =>
    rw [List.takeWhile_cons_of_pos (h c (by simp)), ih fun d hd => h d (by simp [hd])]

end DeployRegistry.Text
