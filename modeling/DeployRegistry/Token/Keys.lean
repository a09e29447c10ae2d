import DeployRegistry.Json.Reader
import DeployRegistry.Json.Shown
import DeployRegistry.Text.Base64Url
import DeployRegistry.Text.Utf8

/-!
# Keys

A secret is one key, or a document that lists keys. A listed key is a text, or an object that holds
the bytes of a key in the URL-safe alphabet. A token is signed with the text of the secret, and
looked up among all its keys.
-/

namespace DeployRegistry.Token

set_option autoImplicit false

open Text

/-- What is wrong with a listed key, or with the list. -/
inductive KeyFlaw
  | notText
  | asymmetric
  | otherType (found : String)
  | notNamed
  | notListed
  | brokenBytes (message : String)
  | noAlgorithm
  deriving DecidableEq, Inhabited

namespace KeyFlaw

/-- What is said about a flaw; nothing is said where an object or list is something else. -/
def message? : KeyFlaw → Option String
  | notText => some "Expecting a string- or bytes-formatted key."
  | asymmetric =>
    some ("The specified key is an asymmetric key or x509 certificate and" ++
      " should not be used as an HMAC secret.")
  | otherType found => some ("Incorrect key type. Expected: 'oct', Received: " ++ found)
  | notNamed => none
  | notListed => none
  | brokenBytes message => some message
  | noAlgorithm => some "Unable to find an algorithm for key"

end KeyFlaw

/-- Marks of keys of another kind, which come in pairs and are no secrets. -/
def asymmetricMarks : List String :=
  ["-----BEGIN PUBLIC KEY-----", "-----BEGIN RSA PUBLIC KEY-----",
    "-----BEGIN CERTIFICATE-----", "ssh-rsa"]

def holds (part : List Char) : List Char → Bool
  | [] => part == []
  | c :: rest => part.isPrefixOf (c :: rest) || holds part rest

def isAsymmetric (s : String) : Bool := asymmetricMarks.any fun m => holds m.toList s.toList

/-- The bytes of a text that is a key. -/
def keyOfText (s : String) : Except KeyFlaw (List UInt8) :=
  if isAsymmetric s then .error .asymmetric else .ok (bytes s)

/-- What is said about a text in the URL-safe alphabet that breaks off. -/
def brokenBytesMessage (s : String) : String :=
  let found := (s.toList.filter fun c => (Base64Url.sextet? c).isSome).length
  if found % 4 = 1 then
    "Invalid base64-encoded string: number of data characters (" ++ Number.natText found ++
      ") cannot be 1 more than a multiple of 4"
  else "Incorrect padding"

/-- The bytes that an object holds. -/
def keyOfMembers (ms : Json.Members) : Except KeyFlaw (List UInt8) :=
  match (Json.Members.member? ms "kty").getD .null with
  | .str "oct" =>
    match Json.Members.member? ms "k" with
    | some (.str s) =>
      match Base64Url.decode? s.toList with
      | some bs => .ok bs
      | none => .error (.brokenBytes (brokenBytesMessage s))
    | some (.num n) =>
      match Base64Url.decode? n.text.toList with
      | some bs => .ok bs
      | none => .error (.brokenBytes (brokenBytesMessage n.text))
    | _ => .error .notNamed
  | found => .error (.otherType found.plain)

/-- The bytes of a listed key; a number is the text that writes it. -/
def keyOf : Json → Except KeyFlaw (List UInt8)
  | .str s => keyOfText s
  | .num n => keyOfText n.text
  | .obj ms => keyOfMembers ms
  | _ => .error .notText

def texts (ss : List String) : List Json := ss.map .str

/-- The characters of a text as keys. -/
def characters (s : String) : List Json := texts (s.toList.map String.singleton)

/-- The keys that an object lists: under a name for that, itself, or all its members. -/
def listed (ms : Json.Members) : Except KeyFlaw (List Json) :=
  match Json.Members.member? ms "keys" with
  | some (.arr vs) => .ok vs
  | some (.obj inner) => .ok (texts (inner.map (·.1)))
  | some (.str s) => .ok (characters s)
  | some (.num n) => .ok (characters n.text)
  | some _ => .error .notListed
  | none =>
    if Json.Members.has ms "kty" ∨ ms = [] then .ok [.obj ms] else .ok (ms.map (·.2))

/-- The keys of a secret. -/
def keys (secret : String) : Except KeyFlaw (List Json) :=
  match Json.read secret with
  | .ok (.obj ms) => listed ms
  | .ok (.arr vs) => .ok vs
  | .ok (.num _) => .ok [.str (trim Json.isGap secret)]
  | .ok v => .ok [v]
  | .error _ => .ok [.str secret]

theorem keys_of_unreadable {secret : String} {fault : Json.Fault}
    (h : Json.read secret = .error fault) : keys secret = .ok [.str secret] := by
  rw [keys, h]

end DeployRegistry.Token
