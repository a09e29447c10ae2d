import DeployRegistry.Proofs.Claims

/-!
# What a token carries

A token is read as its parts say: it can be taken apart, it names the algorithm of the signer, one
of the keys of the secret made its signature, and its document is an object. Some tokens cannot be
judged, because of what is in them or of the secret. The main statements are `Token.read_eq_ok_iff`
and `Token.read_error`.
-/

namespace DeployRegistry.Token

set_option autoImplicit false

open Text

theorem needed_eq_ok_iff {α : Type} {o : Option α} {a : α} : needed o = .ok a ↔ o = some a := by
  cases o with
  | none => simp [needed]
  | some b => simp [needed]

theorem unusable_of_needed {α : Type} {o : Option α} {e : Refusal} (h : needed o = .error e) :
    e = .unusable := by
  cases o with
  | none =>
    cases h
    rfl
  | some a => cases h

/-! The parts of a token. -/

theorem cutFirst_append {front : List Char} (h : ∀ c ∈ front, c ≠ '.') (back : List Char) :
    cutFirst (front ++ '.' :: back) = some (front, back) := by
  have hpass : ∀ c ∈ front, (c != '.') = true := by
    intro c hc
    simpa using h c hc
  rw [cutFirst, List.dropWhile_append_of_pos hpass, List.takeWhile_append_of_pos hpass]
  simp

theorem cutLast_append {back : List Char} (h : ∀ c ∈ back, c ≠ '.') (front : List Char) :
    cutLast (front ++ '.' :: back) = some (front, back) := by
  have hreverse : (front ++ '.' :: back).reverse = back.reverse ++ '.' :: front.reverse := by
    simp
  rw [cutLast, hreverse, cutFirst_append (by simpa using h)]
  simp

theorem cutFirst_eq_some_iff {cs front back : List Char} :
    cutFirst cs = some (front, back) ↔ cs = front ++ '.' :: back ∧ ∀ c ∈ front, c ≠ '.' := by
  constructor
  · intro h
    have hparts := List.takeWhile_append_dropWhile (p := (· != '.')) (l := cs)
    have hhead := List.head?_dropWhile_not (· != '.') cs
    unfold cutFirst at h
    cases hdrop : cs.dropWhile (· != '.') with
    | nil =>
      rw [hdrop] at h
      cases h
    | cons d rest =>
      rw [hdrop] at h hparts hhead
      cases h
      have hdot : d = '.' := by simpa using hhead
      subst hdot
      refine ⟨hparts.symm, ?_⟩
      intro c hc
      have hall := List.all_takeWhile (p := (· != '.')) (l := cs)
      simpa using List.all_eq_true.1 hall c hc
  · intro h
    rw [h.1]
    exact cutFirst_append h.2 back

theorem cutLast_eq_some_iff {cs front back : List Char} :
    cutLast cs = some (front, back) ↔ cs = front ++ '.' :: back ∧ ∀ c ∈ back, c ≠ '.' := by
  constructor
  · intro h
    obtain ⟨⟨first, rest⟩, hcut, hpair⟩ := Option.map_eq_some_iff.1 h
    cases hpair
    obtain ⟨hcs, hfirst⟩ := cutFirst_eq_some_iff.1 hcut
    have hback := congrArg List.reverse hcs
    refine ⟨by simpa using hback, ?_⟩
    simpa using hfirst
  · intro h
    rw [h.1]
    exact cutLast_append h.2 front

/-- Bytes are those of a text that writes an object. -/
def Writes (bs : List UInt8) (ms : Json.Members) : Prop :=
  ∃ text, ofBytes? bs = some text ∧ Json.read text = .ok (.obj ms)

/-- Bytes are those of a text that is nested too deeply to be read. -/
def Bottomless (bs : List UInt8) (isObject : Bool) : Prop :=
  ∃ text, ofBytes? bs = some text ∧ Json.read text = .error (.tooDeep isObject)

theorem membersOf_eq_ok_iff {bs : List UInt8} {ms : Json.Members} :
    membersOf bs = .ok ms ↔ Writes bs ms := by
  rw [membersOf, bind_eq_ok_iff]
  constructor
  · intro h
    obtain ⟨text, htext, h⟩ := h
    refine ⟨text, needed_eq_ok_iff.1 htext, ?_⟩
    split at h
    · next hread =>
      cases h
      exact hread
    · cases h
    · cases h
  · intro h
    obtain ⟨text, htext, hread⟩ := h
    refine ⟨text, needed_eq_ok_iff.2 htext, ?_⟩
    rw [hread]

theorem membersOf_error {bs : List UInt8} {e : Refusal} (h : membersOf bs = .error e) :
    e = .unusable ∨ ∃ isObject, e = .tooDeep (.tooDeep isObject) ∧ Bottomless bs isObject := by
  rcases error_cases h with h | ⟨text, htext, h⟩
  · exact Or.inl (unusable_of_needed h)
  · split at h
    · cases h
    · next isObject hread =>
      cases h
      exact Or.inr ⟨isObject, rfl, text, needed_eq_ok_iff.1 htext, hread⟩
    · cases h
      exact Or.inl rfl

theorem membersOf_of_bottomless {bs : List UInt8} {isObject : Bool} (h : Bottomless bs isObject) :
    membersOf bs = .error (.tooDeep (.tooDeep isObject)) := by
  obtain ⟨text, htext, hread⟩ := h
  rw [membersOf, htext]
  simp only [needed, ok_bind, hread]

/-- The texts between the dots of a token. -/
structure Divides (token : String) (header document signature : List Char) : Prop where
  whole : token.toList = header ++ '.' :: document ++ '.' :: signature
  first : ∀ c ∈ header, c ≠ '.'
  last : ∀ c ∈ signature, c ≠ '.'

/-- A token has its parts written in it. -/
def HasParts (token : String) (p : Parts) : Prop :=
  ∃ header document signature head, Divides token header document signature ∧
    p.signed = header ++ '.' :: document ∧
    Base64Url.decode? header = some head ∧ Writes head p.header ∧
    Base64Url.decode? document = some p.document ∧
    Base64Url.decode? signature = some p.signature

/-- The header of a token is nested too deeply. -/
def HasDeepHeader (token : String) (isObject : Bool) : Prop :=
  ∃ header document signature head, Divides token header document signature ∧
    Base64Url.decode? header = some head ∧ Bottomless head isObject

theorem divides_iff {token : String} {header document signature : List Char} :
    Divides token header document signature ↔
      cutLast token.toList = some (header ++ '.' :: document, signature) ∧
        cutFirst (header ++ '.' :: document) = some (header, document) := by
  rw [cutLast_eq_some_iff, cutFirst_eq_some_iff]
  constructor
  · intro h
    exact ⟨⟨h.whole, h.last⟩, rfl, h.first⟩
  · intro h
    exact ⟨h.1.1, h.2.2, h.1.2⟩

theorem parts_eq_ok_iff {token : String} {p : Parts} : parts token = .ok p ↔ HasParts token p := by
  constructor
  · intro h
    obtain ⟨⟨signed, signature⟩, hlast, h⟩ := bind_eq_ok_iff.1 h
    obtain ⟨⟨header, document⟩, hfirst, h⟩ := bind_eq_ok_iff.1 h
    obtain ⟨head, hhead, h⟩ := bind_eq_ok_iff.1 h
    obtain ⟨ms, hms, h⟩ := bind_eq_ok_iff.1 h
    obtain ⟨body, hbody, h⟩ := bind_eq_ok_iff.1 h
    obtain ⟨digest, hdigest, h⟩ := bind_eq_ok_iff.1 h
    cases h
    rw [needed_eq_ok_iff] at hlast hfirst hhead hbody hdigest
    have hsigned := (cutFirst_eq_some_iff.1 hfirst).1
    subst hsigned
    exact ⟨header, document, signature, head, divides_iff.2 ⟨hlast, hfirst⟩, rfl, hhead,
      membersOf_eq_ok_iff.1 hms, hbody, hdigest⟩
  · intro h
    obtain ⟨header, document, signature, head, hdivides, hsigned, hhead, hms, hbody, hdigest⟩ := h
    obtain ⟨hlast, hfirst⟩ := divides_iff.1 hdivides
    rw [parts, hlast]
    simp only [needed, bind, Except.bind, hfirst, hhead, membersOf_eq_ok_iff.2 hms, hbody, hdigest]
    rw [← hsigned]

theorem parts_error {token : String} {e : Refusal} (h : parts token = .error e) :
    e = .unusable ∨
      ∃ isObject, e = .tooDeep (.tooDeep isObject) ∧ HasDeepHeader token isObject := by
  rcases error_cases h with h | ⟨⟨signed, signature⟩, hlast, h⟩
  · exact Or.inl (unusable_of_needed h)
  rcases error_cases h with h | ⟨⟨header, document⟩, hfirst, h⟩
  · exact Or.inl (unusable_of_needed h)
  rcases error_cases h with h | ⟨head, hhead, h⟩
  · exact Or.inl (unusable_of_needed h)
  rcases error_cases h with h | ⟨ms, _, h⟩
  · rcases membersOf_error h with h | ⟨isObject, he, hdeep⟩
    · exact Or.inl h
    · rw [needed_eq_ok_iff] at hlast hfirst hhead
      have hsigned := (cutFirst_eq_some_iff.1 hfirst).1
      subst hsigned
      exact Or.inr ⟨isObject, he, header, document, signature, head,
        divides_iff.2 ⟨hlast, hfirst⟩, hhead, hdeep⟩
  rcases error_cases h with h | ⟨body, _, h⟩
  · exact Or.inl (unusable_of_needed h)
  rcases error_cases h with h | ⟨digest, _, h⟩
  · exact Or.inl (unusable_of_needed h)
  · cases h

theorem parts_of_deepHeader {token : String} {isObject : Bool} (h : HasDeepHeader token isObject) :
    parts token = .error (.tooDeep (.tooDeep isObject)) := by
  obtain ⟨header, document, signature, head, hdivides, hhead, hdeep⟩ := h
  obtain ⟨hlast, hfirst⟩ := divides_iff.1 hdivides
  rw [parts, hlast]
  simp only [needed, ok_bind, hfirst, hhead, membersOf_of_bottomless hdeep]
  rfl

/-! The signature of a token. -/

/-- A token was signed with one of some keys, and no key before that one is of no use. -/
inductive SignedWith (a : Algorithm) (p : Parts) : List Json → Prop
  | here {v : Json} {rest : List Json} {key : List UInt8} (hv : keyOf v = .ok key)
    (hdigest : p.signature = digestOf a key p.signed) : SignedWith a p (v :: rest)
  | later {v : Json} {rest : List Json} {key : List UInt8} (hv : keyOf v = .ok key)
    (hrest : SignedWith a p rest) : SignedWith a p (v :: rest)

theorem isSigned_cons {algorithm : String} {a : Algorithm} (ha : Named.ofName? algorithm = some a)
    (p : Parts) (v : Json) (rest : List Json) :
    isSigned algorithm p (v :: rest) = (keyOf v >>= fun key =>
      if p.signature = digestOf a key p.signed then .ok true else isSigned algorithm p rest) := by
  rw [isSigned, ha]

theorem isSigned_eq_true_iff {algorithm : String} {a : Algorithm}
    (ha : Named.ofName? algorithm = some a) {p : Parts} {vs : List Json} :
    isSigned algorithm p vs = .ok true ↔ SignedWith a p vs := by
  constructor
  · intro h
    induction vs with
    | nil => cases h
    | cons v rest ih =>
      rw [isSigned_cons ha, bind_eq_ok_iff] at h
      obtain ⟨key, hv, h⟩ := h
      by_cases hdigest : p.signature = digestOf a key p.signed
      · exact .here hv hdigest
      · rw [if_neg hdigest] at h
        exact .later hv (ih h)
  · intro h
    induction h with
    | here hv hdigest =>
      rw [isSigned_cons ha, bind_eq_ok_iff]
      exact ⟨_, hv, if_pos hdigest⟩
    | later hv _ ih =>
      rw [isSigned_cons ha, bind_eq_ok_iff]
      refine ⟨_, hv, ?_⟩
      -- The key in front may have made the signature as well.
      rw [ih, ite_self]

/-- One of the keys is of no use, and the signature was made with none before it. -/
inductive Stumbles (a : Algorithm) (p : Parts) (flaw : KeyFlaw) : List Json → Prop
  | here {v : Json} {rest : List Json} (hv : keyOf v = .error flaw) : Stumbles a p flaw (v :: rest)
  | later {v : Json} {rest : List Json} {key : List UInt8} (hv : keyOf v = .ok key)
    (hdigest : p.signature ≠ digestOf a key p.signed) (hrest : Stumbles a p flaw rest) :
    Stumbles a p flaw (v :: rest)

theorem isSigned_eq_error_iff {algorithm : String} {a : Algorithm}
    (ha : Named.ofName? algorithm = some a) {p : Parts} {vs : List Json} {flaw : KeyFlaw} :
    isSigned algorithm p vs = .error flaw ↔ Stumbles a p flaw vs := by
  constructor
  · intro h
    induction vs with
    | nil => cases h
    | cons v rest ih =>
      rw [isSigned_cons ha] at h
      rcases error_cases h with hv | ⟨key, hv, h⟩
      · exact .here hv
      · by_cases hdigest : p.signature = digestOf a key p.signed
        · rw [if_pos hdigest] at h
          cases h
        · rw [if_neg hdigest] at h
          exact .later hv hdigest (ih h)
  · intro h
    induction h with
    | here hv =>
      rw [isSigned_cons ha, hv]
      rfl
    | later hv hdigest _ ih =>
      rw [isSigned_cons ha, hv, ok_bind, if_neg hdigest, ih]

/-- What comes of a signature where the algorithm has no known name. -/
theorem isSigned_of_unnamed {algorithm : String}
    (hnone : (Named.ofName? algorithm : Option Algorithm) = none) (p : Parts) (vs : List Json) :
    isSigned algorithm p vs = if vs = [] then .ok false else .error .noAlgorithm := by
  cases vs with
  | nil => rfl
  | cons v rest =>
    rw [isSigned, hnone, if_neg (List.cons_ne_nil v rest)]

/-- The secret of a signer is of no use for a token: it lists no keys, or keys for no known
algorithm, or one that is tried is of no use. -/
inductive Flawed (signer : Signer) (p : Parts) : KeyFlaw → Prop
  | unlisted {flaw : KeyFlaw} (h : signer.keys = .error flaw) : Flawed signer p flaw
  | unnamed {vs : List Json} (ha : (Named.ofName? signer.algorithm : Option Algorithm) = none)
    (hvs : signer.keys = .ok vs) (h : vs ≠ []) : Flawed signer p .noAlgorithm
  | useless {a : Algorithm} {vs : List Json} {flaw : KeyFlaw}
    (ha : Named.ofName? signer.algorithm = some a) (hvs : signer.keys = .ok vs)
    (h : Stumbles a p flaw vs) : Flawed signer p flaw

theorem isSigned_keys_error_iff {signer : Signer} {p : Parts} {flaw : KeyFlaw} :
    signer.keys.bind (isSigned signer.algorithm p) = .error flaw ↔
      Flawed signer p flaw := by
  constructor
  · intro h
    rcases error_cases h with h | ⟨vs, hvs, h⟩
    · exact .unlisted h
    · cases ha : (Named.ofName? signer.algorithm : Option Algorithm) with
      | none =>
        rw [isSigned_of_unnamed ha] at h
        split at h
        · cases h
        · next hne =>
          cases h
          exact .unnamed ha hvs hne
      | some a => exact .useless ha hvs ((isSigned_eq_error_iff ha).1 h)
  · intro h
    cases h with
    | unlisted h =>
      rw [h]
      rfl
    | unnamed ha hvs hne =>
      rw [hvs]
      exact (isSigned_of_unnamed ha p _).trans (if_neg hne)
    | useless ha hvs h =>
      rw [hvs]
      exact (isSigned_eq_error_iff ha).2 h

/-- A token can be taken apart, and names the algorithm of a signer. -/
structure Shows (signer : Signer) (token : String) (p : Parts) : Prop where
  whole : beyondUtf8? token = none
  parts : HasParts token p
  algorithm : Json.Members.member? p.header "alg" = some (.str signer.algorithm)
  named : signer.algorithm ≠ ""

/-- The signature of a token was made with the secret of a signer. -/
structure Verifies (signer : Signer) (token : String) (p : Parts) : Prop
    extends Shows signer token p where
  signed : ∃ a vs, Named.ofName? signer.algorithm = some a ∧ signer.keys = .ok vs ∧
    SignedWith a p vs

/-- A token carries claims that were signed with the secret of a signer. -/
def Carries (signer : Signer) (token : String) (claims : Json.Members) : Prop :=
  ∃ p, Verifies signer token p ∧ Writes p.document claims

/-- Where no secret is set, no token carries anything: none can be forged with the missing one. -/
theorem not_carries_of_no_secret {signer : Signer} (h : signer.secret = none) (token : String)
    (claims : Json.Members) : ¬ Carries signer token claims := by
  rintro ⟨p, hp, _⟩
  obtain ⟨a, vs, _, hkeys, hsigned⟩ := hp.signed
  rw [Signer.keys, h] at hkeys
  cases hkeys
  cases hsigned with
  | here hkey => cases hkey
  | later hkey => cases hkey

/-- A token cannot be judged: it has characters without bytes, or it is nested too deeply, or the
secret is of no use for it. -/
inductive Unread (signer : Signer) (token : String) : Refusal → Prop
  | unencodable {message : String} (h : beyondUtf8? token = some message) :
    Unread signer token (.unencodable message)
  | deepHeader {isObject : Bool} (hwhole : beyondUtf8? token = none)
    (h : HasDeepHeader token isObject) : Unread signer token (.tooDeep (.tooDeep isObject))
  | flawed {p : Parts} {flaw : KeyFlaw} (hp : Shows signer token p) (h : Flawed signer p flaw) :
    Unread signer token (.badKey flaw)
  | deepClaims {p : Parts} {isObject : Bool} (hp : Verifies signer token p)
    (h : Bottomless p.document isObject) : Unread signer token (.tooDeep (.tooDeep isObject))

variable {signer : Signer} {token : String} {p : Parts}

theorem Shows.read_eq (hp : Shows signer token p) :
    read signer token = match signer.keys.bind (isSigned signer.algorithm p) with
      | .error flaw => .error (.badKey flaw)
      | .ok false => .error .unusable
      | .ok true => membersOf p.document := by
  rw [read, hp.whole]
  rcases hsigned : signer.keys.bind (isSigned signer.algorithm p) with flaw | _ | _
  all_goals
    simp only [parts_eq_ok_iff.2 hp.parts, ok_bind, hp.algorithm, hp.named, ne_eq,
      not_true_eq_false, or_self, if_false, hsigned]

theorem Verifies.read_eq (hp : Verifies signer token p) :
    read signer token = membersOf p.document := by
  obtain ⟨a, vs, ha, hvs, hsigned⟩ := hp.signed
  rw [hp.toShows.read_eq, hvs]
  simp only [Except.bind, (isSigned_eq_true_iff ha).2 hsigned]

theorem Unread.read_eq {e : Refusal} (h : Unread signer token e) :
    read signer token = .error e := by
  cases h with
  | unencodable h =>
    rw [read, h]
    rfl
  | deepHeader hwhole h =>
    rw [read, hwhole]
    simp only [parts_of_deepHeader h, bind, Except.bind]
  | flawed hp h => rw [hp.read_eq, isSigned_keys_error_iff.2 h]
  | deepClaims hp h => rw [Verifies.read_eq hp, membersOf_of_bottomless h]

/-- A token is refused, or cannot be judged, or names the algorithm of the signer. -/
theorem shows_cases (signer : Signer) (token : String) :
    read signer token = .error .unusable ∨ (∃ e, Unread signer token e) ∨
      ∃ p, Shows signer token p := by
  cases hwhole : beyondUtf8? token with
  | some message => exact Or.inr (Or.inl ⟨.unencodable message, .unencodable hwhole⟩)
  | none =>
    cases hparts : parts token with
    | error e =>
      rcases parts_error hparts with rfl | ⟨isObject, rfl, hdeep⟩
      · refine Or.inl ?_
        rw [read, hwhole]
        simp only [hparts, bind, Except.bind]
      · exact Or.inr (Or.inl ⟨_, .deepHeader hwhole hdeep⟩)
    | ok p =>
      by_cases halg : Json.Members.member? p.header "alg" = some (.str signer.algorithm) ∧
          signer.algorithm ≠ ""
      · exact Or.inr (Or.inr ⟨p, hwhole, parts_eq_ok_iff.1 hparts, halg.1, halg.2⟩)
      · refine Or.inl ?_
        rw [read, hwhole]
        simp only [hparts, bind, Except.bind]
        -- The header names no algorithm, or another one than that of the signer.
        split
        · next algorithm hfound =>
          apply if_pos
          by_cases hname : algorithm = ""
          · exact Or.inl hname
          · exact Or.inr fun heq => halg ⟨heq ▸ hfound, heq ▸ hname⟩
        · rfl

theorem Shows.cases (hp : Shows signer token p) :
    read signer token = .error .unusable ∨ (∃ e, Unread signer token e) ∨
      Verifies signer token p := by
  cases hsigned : signer.keys.bind (isSigned signer.algorithm p) with
  | error flaw =>
    exact Or.inr (Or.inl ⟨.badKey flaw, .flawed hp (isSigned_keys_error_iff.1 hsigned)⟩)
  | ok signed =>
    cases signed with
    | false =>
      refine Or.inl ?_
      rw [hp.read_eq, hsigned]
    | true =>
      obtain ⟨vs, hvs, hsigned⟩ := bind_eq_ok_iff.1 hsigned
      cases ha : (Named.ofName? signer.algorithm : Option Algorithm) with
      | none =>
        rw [isSigned_of_unnamed ha] at hsigned
        split at hsigned
        · cases hsigned
        · cases hsigned
      | some a =>
        exact Or.inr (Or.inr ⟨hp, a, vs, ha, hvs, (isSigned_eq_true_iff ha).1 hsigned⟩)

/-- A token is refused, or cannot be judged, or was signed with the secret. -/
theorem read_cases (signer : Signer) (token : String) :
    read signer token = .error .unusable ∨ (∃ e, Unread signer token e) ∨
      ∃ p, Verifies signer token p := by
  rcases shows_cases signer token with h | h | ⟨p, hp⟩
  · exact Or.inl h
  · exact Or.inr (Or.inl h)
  · rcases hp.cases with h | h | h
    · exact Or.inl h
    · exact Or.inr (Or.inl h)
    · exact Or.inr (Or.inr ⟨p, h⟩)

theorem read_eq_ok_iff {claims : Json.Members} :
    read signer token = .ok claims ↔ Carries signer token claims := by
  constructor
  · intro h
    rcases read_cases signer token with h' | ⟨e, hunread⟩ | ⟨p, hp⟩
    · rw [h] at h'
      cases h'
    · rw [hunread.read_eq] at h
      cases h
    · rw [hp.read_eq] at h
      exact ⟨p, hp, membersOf_eq_ok_iff.1 h⟩
  · intro h
    obtain ⟨p, hp, hclaims⟩ := h
    rw [hp.read_eq]
    exact membersOf_eq_ok_iff.2 hclaims

theorem read_error {e : Refusal} (h : read signer token = .error e) :
    e = .unusable ∨ Unread signer token e := by
  rcases read_cases signer token with h' | ⟨e', hunread⟩ | ⟨p, hp⟩
  · rw [h] at h'
    cases h'
    exact Or.inl rfl
  · rw [hunread.read_eq] at h
    cases h
    exact Or.inr hunread
  · rw [hp.read_eq] at h
    rcases membersOf_error h with h | ⟨isObject, rfl, hdeep⟩
    · exact Or.inl h
    · exact Or.inr (.deepClaims hp hdeep)

end DeployRegistry.Token
