import DeployRegistry.Text.Blank

/-!
# Assignments in a text

Settings can be written in a text, one assignment a line: a name, an equals sign and a value that
may stand in quotes. Comments start with a number sign. A line that is none of these is passed over.
A value may refer to names that have a value by then. The last assignment of a name counts.
-/

namespace DeployRegistry.Dotenv

set_option autoImplicit false

open Text

/-- All line breaks as the one character of a line feed. -/
def plainBreaks : List Char → List Char
  | [] => []
  | '\r' :: '\n' :: rest => '\n' :: plainBreaks rest
  | c :: rest => (if c = '\r' then '\n' else c) :: plainBreaks rest

def isInlineBlank (c : Char) : Bool := isSpacing c && c != '\n'

/-- The rest of a text behind the end of the present line. -/
def skipLine (cs : List Char) : List Char := (cs.dropWhile (· != '\n')).drop 1

/-- What stands in quotes, and what follows the closing quote. A backslash takes the next character
of its line with it, so that a quote behind it closes nothing. -/
def cutQuoted (quote : Char) : List Char → Option (List Char × List Char)
  | [] => none
  | '\\' :: c :: rest =>
    if c = '\n' then none else (cutQuoted quote rest).map fun p => ('\\' :: c :: p.1, p.2)
  | c :: rest =>
    if c = quote then some ([], rest)
    else if c = '\\' then none
    else (cutQuoted quote rest).map fun p => (c :: p.1, p.2)

/-- The control character that an escape stands for inside double quotes. -/
def control? : Char → Option Char
  | 'a' => some (Char.ofNat 7)
  | 'b' => some (Char.ofNat 8)
  | 'f' => some (Char.ofNat 12)
  | 'n' => some '\n'
  | 'r' => some '\r'
  | 't' => some '\t'
  | 'v' => some (Char.ofNat 11)
  | _ => none

/-- What an escape stands for; between single quotes there are fewer escapes. -/
def escaped? (quote c : Char) : Option Char :=
  if c = '\\' ∨ c = '\'' then some c
  else if quote = '"' then (if c = '"' then some c else control? c)
  else none

def unescape (quote : Char) : List Char → List Char
  | [] => []
  | [c] => [c]
  | c :: d :: rest =>
    match if c = '\\' then escaped? quote d else none with
    | some e => e :: unescape quote rest
    | none => c :: unescape quote (d :: rest)

def readQuoted (quote : Char) (cs : List Char) : Option (List Char × List Char) :=
  (cutQuoted quote cs).map fun p => (unescape quote p.1, p.2)

/-- A value without quotes ends before a number sign that stands behind a blank. -/
def beforeComment : List Char → List Char
  | [] => []
  | [c] => [c]
  | c :: d :: rest => if isSpacing c ∧ d = '#' then [] else c :: beforeComment (d :: rest)

/-- A value and what follows it. A comment may stand in its place, `apart` from the equals sign. -/
def readValue (apart : Bool) : List Char → Option (List Char × List Char)
  | '\'' :: rest => readQuoted '\'' rest
  | '"' :: rest => readQuoted '"' rest
  | cs =>
    let line := cs.takeWhile (· != '\n')
    let value := if apart && line.head? == some '#' then [] else beforeComment line
    some (trimList isSpacing value, cs.dropWhile (· != '\n'))

def skipExport (cs : List Char) : List Char :=
  match cs.splitAt 6 with
  | (word, c :: rest) =>
    if word = "export".toList ∧ isInlineBlank c then rest.dropWhile isInlineBlank else cs
  | _ => cs

def isNameChar (c : Char) : Bool := !(c == '=' || c == '#' || isSpacing c)

def readName : List Char → Option (List Char × List Char)
  | '\'' :: rest =>
    match rest.takeWhile (· != '\''), rest.dropWhile (· != '\'') with
    | name, _ :: rest => if name = [] then none else some (name, rest)
    | _, [] => none
  | cs =>
    match cs.takeWhile isNameChar with
    | [] => none
    | name => some (name, cs.dropWhile isNameChar)

/-- A name and what is assigned to it, if anything is. -/
abbrev Assignment := String × Option String

/-- What may stand behind an assignment: blanks, perhaps a comment, and the end of the line. With
anything else there the assignment does not count. -/
def finish (a : Assignment) (cs : List Char) : Option Assignment × List Char :=
  match cs.dropWhile isInlineBlank with
  | [] => (some a, [])
  | '#' :: rest => (some a, skipLine rest)
  | c :: rest => if c = '\n' then (some a, rest) else (none, skipLine cs)

/-- One assignment and the text behind its line; a name without an equals sign is assigned
nothing. -/
def readAssignment (cs : List Char) : Option Assignment × List Char :=
  match readName (skipExport cs) with
  | none => (none, skipLine cs)
  | some (name, rest) =>
    match rest.dropWhile isInlineBlank with
    | '=' :: rest =>
      let apart := rest.head?.any isInlineBlank
      let rest := rest.dropWhile isInlineBlank
      match readValue apart rest with
      | some (value, rest) => finish (String.ofList name, some (String.ofList value)) rest
      | none => (none, skipLine rest)
    | rest => finish (String.ofList name, none) rest

/-- All assignments; each round takes at least one character, so that the length is fuel enough. -/
def readAll : Nat → List Char → List Assignment
  | 0, _ => []
  | fuel + 1, cs =>
    match cs.dropWhile isSpacing with
    | [] => []
    | '#' :: rest => readAll fuel (skipLine rest)
    | cs =>
      let (a, rest) := readAssignment cs
      a.toList ++ readAll fuel rest

/-- The name and the fallback of a reference, and what follows it; the list starts behind the
opening brace. -/
def readReference (cs : List Char) : Option (List Char × List Char × List Char) :=
  let inName := fun c : Char => c != '\x7d' && c != ':'
  match cs.dropWhile inName with
  | '\x7d' :: rest => some (cs.takeWhile inName, [], rest)
  | ':' :: '-' :: rest =>
    match rest.dropWhile (· != '\x7d') with
    | _ :: after => some (cs.takeWhile inName, rest.takeWhile (· != '\x7d'), after)
    | [] => none
  | _ => none

/-- A value with its references replaced. The length of the value is fuel enough. -/
def expand (value? : String → Option String) : Nat → List Char → List Char
  | fuel + 1, '$' :: '\x7b' :: rest =>
    match readReference rest with
    | some (name, fallback, after) =>
      ((value? (String.ofList name)).map (·.toList)).getD fallback ++ expand value? fuel after
    | none => '$' :: expand value? fuel ('\x7b' :: rest)
  | fuel + 1, c :: rest => c :: expand value? fuel rest
  | _, _ => []

/-- The names with what is assigned to them; each name occurs once. -/
abbrev Assigned := List Assignment

def assign (known : Assigned) (a : Assignment) : Assigned :=
  a :: known.filter fun b => b.1 != a.1

/-- What a reference to a name stands for: what the text assigned to it, which is empty if that is
nothing, or else its value in the environment. -/
def value? (environment : List (String × String)) (known : Assigned) (name : String) :
    Option String :=
  match known.find? (·.1 == name) with
  | some a => some (a.2.getD "")
  | none => (environment.find? (·.1 == name)).map (·.2)

def resolve (environment : List (String × String)) (known : Assigned) (a : Assignment) :
    Assigned :=
  assign known (a.1, a.2.map fun s =>
    String.ofList (expand (value? environment known) s.length s.toList))

/-- The characters behind a byte order mark, if there is one. -/
def withoutMark : List Char → List Char
  | c :: rest => if c = Char.ofNat 0xFEFF then rest else c :: rest
  | [] => []

/-- The values that a text assigns to names, in an environment. -/
def values (environment : List (String × String)) (s : String) : List (String × String) :=
  let cs := plainBreaks (withoutMark s.toList)
  ((readAll cs.length cs).foldl (resolve environment) []).filterMap fun a => a.2.map (a.1, ·)

end DeployRegistry.Dotenv
