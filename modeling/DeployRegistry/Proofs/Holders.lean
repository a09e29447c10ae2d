import DeployRegistry.Proofs.Lifetimes

/-!
# Who holds a token

A token stands for a user exactly when it was signed with a key of the secret, its claims allow the
present time, its kind is right and its subject is the id of that user. Whoever shows another token
is told so, except for a few kinds of tokens that cannot be judged at all, and is never taken for a
caller without a token. The main statement is `Token.holder_resolved`.
-/

namespace DeployRegistry.Token

set_option autoImplicit false

open Text

variable {signer : Signer} {now : WallTime} {token : String}

theorem verify_eq_ok_iff {kind : String} {claims : Json.Members} :
    verify signer now kind token = .ok claims ↔
      Carries signer token claims ∧ Allows now.unixSeconds claims ∧
        claim? claims "type" = some (.str kind) := by
  constructor
  · intro h
    obtain ⟨found, hread, h⟩ := bind_eq_ok_iff.1 h
    obtain ⟨_, hcheck, h⟩ := bind_eq_ok_iff.1 h
    split at h
    · next kind' htype =>
      split at h
      · next hkind =>
        cases h
        subst hkind
        exact ⟨read_eq_ok_iff.1 hread, checkClaims_eq_ok_iff.1 hcheck, htype⟩
      · cases h
    · cases h
  · intro h
    obtain ⟨hcarries, hallows, htype⟩ := h
    rw [verify, read_eq_ok_iff.2 hcarries]
    simp only [bind, Except.bind, checkClaims_eq_ok_iff.2 hallows, htype, if_true]

/-- A token that cannot be judged at a time: it cannot be read, or one of its times cannot be
compared, or the id that it is about cannot be looked up. -/
inductive Unjudged (signer : Signer) (now : WallTime) (token : String) : Refusal → Prop
  | unread {e : Refusal} (h : Unread signer token e) : Unjudged signer now token e
  | mistimed {claims : Json.Members} {e : Refusal} (hclaims : Carries signer token claims)
    (h : Mistimed now.unixSeconds claims e) : Unjudged signer now token e
  | subject {claims : Json.Members} {id message : String} (hclaims : Carries signer token claims)
    (hallows : Allows now.unixSeconds claims)
    (htype : claim? claims "type" = some (.str "access"))
    (hid : claim? claims "sub" = some (.str id)) (h : beyondUtf8? id = some message) :
    Unjudged signer now token (.unencodable message)

theorem isTold_of_detail {e : Refusal} {detail : String} (h : e.detail? = some detail) :
    e.IsTold := by
  refine ⟨Http.Problem.challenged 401 detail e.challenge?, ?_, ?_⟩
  · rw [Http.Problem.response?, h]
    rfl
  · cases hc : e.challenge? with
    | none => rfl
    | some scheme => rfl

theorem not_isTold_of_detail {e : Refusal} (h : e.detail? = none) : ¬ e.IsTold := by
  intro htold
  obtain ⟨answer, hanswer, _⟩ := htold
  rw [Http.Problem.response?, h] at hanswer
  cases hanswer

theorem Incomparable.not_isTold {v : Json} {e : Refusal} (h : Incomparable v e) : ¬ e.IsTold := by
  apply not_isTold_of_detail
  cases h <;> rfl

theorem Unjudged.not_isTold {e : Refusal} (h : Unjudged signer now token e) : ¬ e.IsTold := by
  cases h with
  | unread h =>
    apply not_isTold_of_detail
    cases h <;> rfl
  | mistimed _ h =>
    cases h with
    | issued _ h => exact h.not_isTold
    | begun _ _ h => exact h.not_isTold
    | unexpired _ _ _ h => exact h.not_isTold
  | subject => exact not_isTold_of_detail rfl

theorem verify_error {kind : String} {e : Refusal}
    (h : verify signer now kind token = .error e) : e.IsTold ∨ Unjudged signer now token e := by
  have hunusable : Refusal.unusable.IsTold := isTold_of_detail rfl
  rcases error_cases h with h | ⟨claims, hread, h⟩
  · rcases read_error h with rfl | h
    · exact Or.inl hunusable
    · exact Or.inr (.unread h)
  rcases error_cases h with h | ⟨_, _, h⟩
  · rcases checkClaims_error h with rfl | h
    · exact Or.inl hunusable
    · exact Or.inr (.mistimed (read_eq_ok_iff.1 hread) h)
  · left
    split at h
    · split at h
      · cases h
      · cases h
        exact isTold_of_detail rfl
    · cases h
      exact isTold_of_detail rfl

/-- A token stands for a user at a time, among the users of a store. -/
def StandsFor (signer : Signer) (now : WallTime) (s : Store) (token : String) (u : User) : Prop :=
  ∃ claims, Carries signer token claims ∧ Allows now.unixSeconds claims ∧
    claim? claims "type" = some (.str "access") ∧ claim? claims "sub" = some (.str u.id) ∧
    beyondUtf8? u.id = none ∧ s.user? u.id = some u

variable (signer now token) (s : Store)

theorem holder_eq_ok_iff (u : User) :
    holder signer now s token = .ok u ↔ StandsFor signer now s token u := by
  constructor
  · intro h
    obtain ⟨claims, hverify, h⟩ := bind_eq_ok_iff.1 h
    obtain ⟨hcarries, hallows, htype⟩ := verify_eq_ok_iff.1 hverify
    split at h
    · next id hid =>
      split at h
      · cases h
      · next v hwhole hv =>
        cases h
        have hu := Store.user?_id hv
        subst hu
        exact ⟨claims, hcarries, hallows, htype, hid, hwhole, hv⟩
      · cases h
    · cases h
  · intro h
    obtain ⟨claims, hcarries, hallows, htype, hid, hwhole, hu⟩ := h
    rw [holder, verify_eq_ok_iff.2 ⟨hcarries, hallows, htype⟩]
    simp only [bind, Except.bind, hid, hwhole, hu]

theorem holder_error {e : Refusal} (h : holder signer now s token = .error e) :
    e.IsTold ∨ Unjudged signer now token e := by
  rcases error_cases h with h | ⟨claims, hverify, h⟩
  · exact verify_error h
  obtain ⟨hclaims, hallows, htype⟩ := verify_eq_ok_iff.1 hverify
  split at h
  · next id hid =>
    split at h
    · next message hmessage =>
      cases h
      exact Or.inr (.subject hclaims hallows htype hid hmessage)
    · cases h
    · cases h
      exact Or.inl (isTold_of_detail rfl)
  · cases h
    exact Or.inl (isTold_of_detail rfl)

variable {signer now token} in
theorem Unjudged.holder_eq {e : Refusal} (h : Unjudged signer now token e) :
    holder signer now s token = .error e := by
  cases h with
  | unread h =>
    rw [holder, verify, h.read_eq]
    rfl
  | mistimed hclaims h =>
    rw [holder, verify, read_eq_ok_iff.2 hclaims, ok_bind, h.checkClaims_eq]
    rfl
  | subject hclaims hallows htype hid h =>
    rw [holder, verify_eq_ok_iff.2 ⟨hclaims, hallows, htype⟩]
    simp only [bind, Except.bind, hid, h]

/-- A token gives the user for whom it stands, and nobody else. Any other token is refused with 401,
but for exactly those that cannot be judged. Where a token may be missing, only who shows none is
nobody. -/
theorem holder_resolved :
    (∀ u, holder signer now s token = .ok u ↔ StandsFor signer now s token u) ∧
    (∀ e, holder signer now s token = .error e ∧ ¬ e.IsTold ↔ Unjudged signer now token e) ∧
    holder? signer now s (some token) = (holder signer now s token).map some ∧
    ∀ shown, holder? signer now s shown = .ok none ↔ shown = none := by
  refine ⟨holder_eq_ok_iff signer now token s, ?_, rfl, ?_⟩
  · intro e
    constructor
    · intro h
      rcases holder_error signer now token s h.1 with htold | hunjudged
      · exact absurd htold h.2
      · exact hunjudged
    · intro h
      exact ⟨h.holder_eq s, h.not_isTold⟩
  · intro shown
    cases shown with
    | none => simp [holder?]
    | some t =>
      rw [holder?]
      cases holder signer now s t with
      | error e => simp [Except.map]
      | ok u => simp [Except.map]

def timelessClaims : Json.Members :=
  [("sub", .str "ana"), ("type", .str "access"), ("exp", .null)]

/-- Who shows a token whose time of expiry is nothing is told nothing, though it is signed. -/
theorem timeless_untold :
    ∃ e, holder harbourSigner ⟨63902908800000000⟩ Store.empty
        (write .hs256 (bytes "k") (.obj timelessClaims)) = .error e ∧ ¬ e.IsTold := by
  have hread : read harbourSigner (write .hs256 (bytes "k") (.obj timelessClaims)) =
      .ok timelessClaims := by
    rw [read_write ready_harbourSigner]
    apply membersOf_bytes_text
    · have hplain : ∀ s ∈ ["sub", "ana", "type", "access", "exp"], Unpaired s.toList :=
        fun s hs => unpaired_of_ascii (by decide) hs
      intro m hm
      simp only [timelessClaims, List.mem_cons, List.not_mem_nil, or_false] at hm
      rcases hm with rfl | rfl | rfl
      · exact ⟨hplain _ (by simp), .text _ (hplain _ (by simp))⟩
      · exact ⟨hplain _ (by simp), .text _ (hplain _ (by simp))⟩
      · exact ⟨hplain _ (by simp), .nothing⟩
    · simp [timelessClaims]
  refine ⟨.timeless, ?_, not_isTold_of_detail rfl⟩
  rw [holder, verify, hread]
  rfl

end DeployRegistry.Token
