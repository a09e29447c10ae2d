import DeployRegistry.Digest.Hmac
import DeployRegistry.Json.Printer
import DeployRegistry.Store.Records
import DeployRegistry.Text.Unencodable
import DeployRegistry.Token.Refusal

/-!
# Signed documents

A signed document is written as three texts with dots between them: a header, the document and the
keyed digest of the two. Reading takes it apart at its first and its last dot.
-/

namespace DeployRegistry.Token

set_option autoImplicit false

open Text

/-- The digests that documents are signed with. -/
inductive Algorithm
  | hs256
  | hs384
  | hs512
  deriving DecidableEq, Inhabited

instance : Named Algorithm where
  all := [.hs256, .hs384, .hs512]
  name
    | .hs256 => "HS256"
    | .hs384 => "HS384"
    | .hs512 => "HS512"

def Algorithm.digest : Algorithm → Digest.Blockwise
  | hs256 => Digest.sha256
  | hs384 => Digest.sha384
  | hs512 => Digest.sha512

/-- Who signs: the name of the algorithm and the secret, where there is one. -/
structure Signer where
  algorithm : String
  secret : Option String
  deriving DecidableEq, Inhabited

/-- The bytes that a signer signs with. No secret is none that could be a key. -/
def Signer.key (s : Signer) : Except KeyFlaw (List UInt8) :=
  match s.secret with
  | some secret => keyOfText secret
  | none => .error .notText

/-- The keys among which a signer looks a token up. Without a secret this is the one value that
stands for nothing, which no token can be tried with. -/
def Signer.keys (s : Signer) : Except KeyFlaw (List Json) :=
  match s.secret with
  | some secret => Token.keys secret
  | none => .ok [.null]

/-- Why a document cannot be signed. -/
inductive Unsigned
  | unsupported (algorithm : String)
  | badKey (flaw : KeyFlaw)
  deriving DecidableEq, Inhabited

def Unsigned.message : Unsigned → String
  | unsupported algorithm => "Algorithm " ++ algorithm ++ " not supported."
  | badKey flaw => flaw.message?.getD ""

/-- The characters of a text as the bytes of its UTF-8 form, in the URL-safe alphabet. -/
def armored (s : String) : List Char := Base64Url.encode (bytes s)

def header (a : Algorithm) : Json := .obj [("alg", .str (Named.name a)), ("typ", .str "JWT")]

def digestOf (a : Algorithm) (key : List UInt8) (signed : List Char) : List UInt8 :=
  a.digest.keyed key (bytes (String.ofList signed))

/-- A document with its header and its signature. -/
def write (a : Algorithm) (key : List UInt8) (document : Json) : String :=
  let signed := armored (header a).text ++ '.' :: armored document.text
  String.ofList (signed ++ '.' :: Base64Url.encode (digestOf a key signed))

def sign (s : Signer) (document : Json) : Except Unsigned String :=
  match Named.ofName? s.algorithm, s.key with
  | none, _ => .error (.unsupported s.algorithm)
  | some _, .error flaw => .error (.badKey flaw)
  | some a, .ok key => .ok (write a key document)

/-- The parts of a signed document. -/
structure Parts where
  header : Json.Members
  signed : List Char
  document : List UInt8
  signature : List UInt8

/-- The characters before the first dot and those behind it. -/
def cutFirst (cs : List Char) : Option (List Char × List Char) :=
  match cs.dropWhile (· != '.') with
  | [] => none
  | _ :: rest => some (cs.takeWhile (· != '.'), rest)

/-- The characters before the last dot and those behind it. -/
def cutLast (cs : List Char) : Option (List Char × List Char) :=
  (cutFirst cs.reverse).map fun p => (p.2.reverse, p.1.reverse)

/-- What makes a token unusable where it is missing. -/
def needed {α : Type} : Option α → Except Refusal α
  | some a => .ok a
  | none => .error .unusable

def membersOf (bs : List UInt8) : Except Refusal Json.Members := do
  match Json.read (← needed (ofBytes? bs)) with
  | .ok (.obj ms) => .ok ms
  | .error (.tooDeep isObject) => .error (.tooDeep (.tooDeep isObject))
  | _ => .error .unusable

def parts (token : String) : Except Refusal Parts := do
  let (signed, signature) ← needed (cutLast token.toList)
  let (header, document) ← needed (cutFirst signed)
  let header ← membersOf (← needed (Base64Url.decode? header))
  let document ← needed (Base64Url.decode? document)
  let signature ← needed (Base64Url.decode? signature)
  .ok ⟨header, signed, document, signature⟩

/-- Whether the signature was made with one of the keys, which are tried in order. -/
def isSigned (algorithm : String) (p : Parts) : List Json → Except KeyFlaw Bool
  | [] => .ok false
  | v :: rest =>
    match (Named.ofName? algorithm : Option Algorithm) with
    | none => .error .noAlgorithm
    | some a => do
      let key ← keyOf v
      if p.signature = digestOf a key p.signed then .ok true else isSigned algorithm p rest

/-- The members of a document that was signed with the algorithm and a key of the secret. -/
def read (s : Signer) (token : String) : Except Refusal Json.Members := do
  if let some message := beyondUtf8? token then throw (.unencodable message)
  let p ← parts token
  match Json.Members.member? p.header "alg" with
  | some (.str algorithm) =>
    if algorithm = "" ∨ algorithm ≠ s.algorithm then .error .unusable
    else match s.keys.bind (isSigned algorithm p) with
      | .error flaw => .error (.badKey flaw)
      | .ok false => .error .unusable
      | .ok true => membersOf p.document
  | _ => .error .unusable

end DeployRegistry.Token
