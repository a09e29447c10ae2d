import DeployRegistry.Http.Server

/-!
# What is submitted

What is known of a submission that passed. A text that names a commit keeps doing so when the case
of its letters changes, and is kept in the same form. So every commit that was recorded can be
looked up, in whatever case it is written, and so can every ref.
-/

namespace DeployRegistry.Form

set_option autoImplicit false

open Text

theorem isDigit_iff (c : Char) :
    Hex.isDigit c = true ↔ (48 ≤ c.toNat ∧ c.toNat ≤ 57) ∨ (97 ≤ c.toNat ∧ c.toNat ≤ 102) ∨
      (65 ≤ c.toNat ∧ c.toNat ≤ 70) := by
  have h0 : '0' ≤ c ↔ 48 ≤ c.toNat := Iff.rfl
  have h9 : c ≤ '9' ↔ c.toNat ≤ 57 := Iff.rfl
  have ha : 'a' ≤ c ↔ 97 ≤ c.toNat := Iff.rfl
  have hf : c ≤ 'f' ↔ c.toNat ≤ 102 := Iff.rfl
  have hA : 'A' ≤ c ↔ 65 ≤ c.toNat := Iff.rfl
  have hF : c ≤ 'F' ↔ c.toNat ≤ 70 := Iff.rfl
  unfold Hex.isDigit Hex.value?
  simp only [h0, h9, ha, hf, hA, hF]
  split
  · next h => simp [h]
  · next h =>
    split
    · next h' => simp [h']
    · next h' =>
      split
      · next h'' => simp [h'']
      · next h'' => simp [h, h', h'']

theorem toNat_lowerChar_of_isUpperAscii {c : Char} (h : isUpperAscii c = true) :
    (lowerChar c).toNat = c.toNat + 32 := by
  have hle : c.toNat ≤ 90 := by
    simp only [isUpperAscii, Bool.and_eq_true, decide_eq_true_eq] at h
    exact h.2
  rw [lowerChar, if_pos h, toNat_ofNat]
  unfold Nat.isValidChar
  omega

theorem isDigit_lowerChar (c : Char) : Hex.isDigit (lowerChar c) = Hex.isDigit c := by
  rw [Bool.eq_iff_iff, isDigit_iff, isDigit_iff]
  by_cases h : isUpperAscii c = true
  · rw [toNat_lowerChar_of_isUpperAscii h]
    simp only [isUpperAscii, Bool.and_eq_true, decide_eq_true_eq] at h
    omega
  · rw [lowerChar, if_neg h]

theorem all_isDigit_lowerAscii (s : String) :
    (lowerAscii s).toList.all Hex.isDigit = s.toList.all Hex.isDigit := by
  rw [toList_lowerAscii, List.all_map]
  congr 1
  exact funext isDigit_lowerChar

theorem length_lowerAscii (s : String) : (lowerAscii s).length = s.length := by
  rw [← String.length_toList, ← String.length_toList, toList_lowerAscii, List.length_map]

theorem hasLoneUnit_of_digits {s : String} (h : s.toList.all Hex.isDigit = true) :
    hasLoneUnit s = false := by
  rw [hasLoneUnit, List.any_eq_false]
  intro c hc
  have hdigit := (isDigit_iff c).mp (List.all_eq_true.mp h c hc)
  unfold loneUnit? shift
  rw [if_neg (by omega)]
  simp

/-- A text passes the rule of some bounds when it is whole and within them, and stays as it is. -/
theorem rule_eq_valid_iff (b : TextBounds) (v : Json) (t : String) :
    b.rule v = .valid t ↔ v = .str t ∧ hasLoneUnit t = false ∧ b.broken? t = none := by
  cases v with
  | str s =>
    cases hl : hasLoneUnit s with
    | true =>
      constructor
      · intro h
        simp [TextBounds.rule, ofWhole, hl, Checked.issue] at h
      · rintro ⟨hs, ht, _⟩
        cases hs
        rw [hl] at ht
        cases ht
    | false =>
      cases hb : b.broken? s with
      | none =>
        simp only [TextBounds.rule, ofWhole, hl, TextBounds.check, hb, Json.str.injEq]
        constructor
        · intro h
          cases h
          exact ⟨rfl, hl, hb⟩
        · rintro ⟨rfl, _⟩
          rfl
      | some cause =>
        simp only [TextBounds.rule, ofWhole, hl, TextBounds.check, hb, Json.str.injEq]
        constructor
        · intro h
          cases h
        · rintro ⟨rfl, _, h⟩
          rw [hb] at h
          cases h
  | _ => simp [TextBounds.rule, Checked.issue]

theorem broken?_shaBounds_iff (least : Nat) (s : String) :
    (shaBounds least).broken? s = none ↔ least ≤ s.length ∧ s.length ≤ 64 ∧ s.toList ≠ [] ∧
      s.toList.all Hex.isDigit = true := by
  simp [TextBounds.broken?_eq_none_iff, shaBounds, hexPattern]

/-- What names a commit, and the form in which the name is kept. -/
theorem sha_eq_valid_iff (least : Nat) (v : Json) (t : String) :
    sha least v = .valid t ↔ ∃ s, v = .str s ∧ least ≤ s.length ∧ s.length ≤ 64 ∧ s.toList ≠ [] ∧
      s.toList.all Hex.isDigit = true ∧ lowerAscii s = t := by
  simp only [sha, Checked.map_eq_valid_iff, rule_eq_valid_iff, broken?_shaBounds_iff]
  constructor
  · rintro ⟨s, ⟨hv, _, hleast, hmost, hne, hd⟩, ht⟩
    exact ⟨s, hv, hleast, hmost, hne, hd, ht⟩
  · rintro ⟨s, hv, hleast, hmost, hne, hd, ht⟩
    exact ⟨s, ⟨hv, hasLoneUnit_of_digits hd, hleast, hmost, hne, hd⟩, ht⟩

/-- Every spelling of a recorded name is found again, and stands for the name in its kept form. -/
theorem soughtSha_of_recordedSha {v : Json} {t s : String} (h : recordedSha v = .valid t)
    (hs : lowerAscii s = t) : soughtSha (.str s) = .valid t := by
  obtain ⟨s', _, hleast, hmost, hne, hd, ht⟩ := (sha_eq_valid_iff 7 v t).mp h
  have hsame : lowerAscii s = lowerAscii s' := hs.trans ht.symm
  have hlength : s.length = s'.length := by
    rw [← length_lowerAscii s, hsame, length_lowerAscii]
  refine (sha_eq_valid_iff 1 _ t).mpr ⟨s, rfl, by omega, by omega, ?_, ?_, hs⟩
  · intro hnil
    rw [← String.length_toList, hnil] at hlength
    simp at hlength
    omega
  · rw [← all_isDigit_lowerAscii, hsame, all_isDigit_lowerAscii]
    exact hd

/-! What a deployment that passed has for its ref and its commit. -/

theorem required_eq_valid {α : Type} {ms : Json.Members} {field : String} {rule : Rule α} {a : α}
    (h : required ms field rule = .valid a) : ∃ v, rule v = .valid a := by
  unfold required at h
  split at h
  · next v _ =>
    rw [checkField, Checked.under_eq_valid_iff, Checked.about_eq_valid_iff] at h
    exact ⟨v, h⟩
  · cases h

theorem optional_str {α : Type} {ms : Json.Members} {field s : String} {rule : Rule α}
    (h : ms.member? field = some (.str s)) : optional ms field rule =
      ((((rule (.str s)).map some).about (.str s)).under field) := by
  rw [optional, withDefault, h]
  rfl

theorem optional_missing {α : Type} {ms : Json.Members} {field : String} {rule : Rule α}
    (h : ms.member? field = none) : optional ms field rule = .valid none := by
  rw [optional, withDefault, h]

theorem required_str {α : Type} {ms : Json.Members} {field s : String} {rule : Rule α}
    (h : ms.member? field = some (.str s)) : required ms field rule =
      (((rule (.str s)).about (.str s)).under field) := by
  rw [required, h]
  rfl

theorem newDeployment_fields {ms : Json.Members} {d : NewDeployment}
    (h : newDeployment.fields ms = .valid d) :
    (∃ v, nameBounds.rule v = .valid d.ref) ∧ ∃ v, recordedSha v = .valid d.sha := by
  simp only [newDeployment, Checked.map_eq, Checked.seq_eq, Checked.seq_eq_valid_iff,
    Checked.map_eq_valid_iff] at h
  obtain ⟨_, time, ⟨_, status, ⟨_, sha, ⟨_, tag, ⟨_, ref, ⟨environment, _, rfl⟩, href, rfl⟩, _,
    rfl⟩, hsha, rfl⟩, _, rfl⟩, _, rfl⟩ := h
  exact ⟨required_eq_valid href, required_eq_valid hsha⟩

theorem submission_eq_valid {α : Type} {c : Http.Content} {m : Model α} {a : α}
    (h : c.submission m = .valid a) : ∃ ms, c = .structured (.obj ms) ∧ m.fields ms = .valid a := by
  unfold Http.Content.submission at h
  rw [Checked.under_eq_valid_iff] at h
  cases c with
  | absent => cases h
  | opaqueText => cases h
  | structured v =>
    dsimp only at h
    rw [Checked.about_eq_valid_iff] at h
    cases v with
    | obj ms => exact ⟨ms, rfl, h⟩
    | _ => cases h

/-- A name is short enough to be sought. -/
theorem length_of_name {v : Json} {ref : String} (h : nameBounds.rule v = .valid ref) :
    ref.length ≤ 255 := by
  rw [rule_eq_valid_iff, TextBounds.broken?_eq_none_iff] at h
  obtain ⟨_, _, _, hmost, _⟩ := h
  exact hmost 255 rfl

theorem criteriaQuery_ref {ref : String} (h : ref.length ≤ 255) :
    Http.criteriaQuery [("ref", .str ref)] = .valid ⟨some ref, none, false, false, false⟩ := by
  have hbounds : soughtRefBounds.broken? ref = none := by
    rw [TextBounds.broken?_eq_none_iff]
    refine ⟨Nat.zero_le _, ?_, by simp [soughtRefBounds]⟩
    intro most hmost
    obtain rfl := Option.some.inj hmost
    exact h
  have hfield :
      optional [("ref", .str ref)] "ref" soughtRefBounds.decodedRule = .valid (some ref) := by
    rw [optional_str (by rfl), TextBounds.decodedRule, TextBounds.check, hbounds]
    rfl
  simp only [Http.criteriaQuery, Checked.map_eq, Checked.seq_eq, hfield]
  rfl

theorem criteriaQuery_sha {s t : String} (h : soughtSha (.str s) = .valid t) :
    Http.criteriaQuery [("sha", .str s)] = .valid ⟨none, some t, false, false, false⟩ := by
  have hcommit : commit.rule (.obj [("sha", .str s)]) = .valid t := by
    change required [("sha", .str s)] "sha" soughtSha = .valid t
    rw [required_str (by rfl), h]
    rfl
  have hasked : Http.criteriaQuery [("sha", .str s)] =
      ((commit.rule (.obj [("sha", .str s)])).under "commit").map
        fun sha => ⟨none, some sha, false, false, false⟩ := rfl
  rw [hasked, hcommit]
  rfl

/-! What the fields of an object hold where a submission of them passed. -/

/-- The field holds a value that the rule takes for `a`, or there is no such field and `a` is what is
taken then. -/
inductive Holds {α : Type} (ms : Json.Members) (field : String) (rule : Rule α) (default a : α) : Prop
  | given (v : Json) (hv : ms.member? field = some v) (h : rule v = .valid a)
  | missing (hv : ms.member? field = none) (h : a = default)

/-- One to 255 characters. -/
structure IsName (s : String) : Prop where
  least : 1 ≤ s.length
  most : s.length ≤ 255

/-- The field holds a text that may be a name. -/
structure HoldsName (ms : Json.Members) (field s : String) : Prop extends IsName s where
  text : ms.member? field = some (.str s)

structure NewProject.Submitted (f : NewProject) (ms : Json.Members) : Prop where
  name : HoldsName ms "name" f.name
  repository : Holds ms "repo_full_name" (orNull repositoryBounds.rule) none f.repository
  visibility : Holds ms "visibility" (word Visibility) .members f.visibility

structure NewMember.Submitted (f : NewMember) (ms : Json.Members) : Prop where
  user : ms.member? "user_id" = some (.str f.user)
  role : Holds ms "role" (word Role) .developer f.role

structure NewEnvironment.Submitted (f : NewEnvironment) (ms : Json.Members) : Prop where
  name : HoldsName ms "name" f.name

structure NewDeployment.Submitted (f : NewDeployment) (ms : Json.Members) : Prop where
  environment : HoldsName ms "environment" f.environment
  ref : HoldsName ms "ref" f.ref
  tag : Holds ms "tag" switch false f.tag
  sha : ∃ s, ms.member? "sha" = some (.str s) ∧ 7 ≤ s.length ∧ s.length ≤ 64 ∧
    s.toList.all Hex.isDigit = true ∧ f.sha = lowerAscii s
  status : Holds ms "status" (word DeployStatus) .success f.status
  time : Holds ms "deployed_at" (orNull moment) none f.time

section

variable {α : Type} {ms : Json.Members} {field : String} {rule : Rule α} {a : α}

theorem member?_of_required (h : required ms field rule = .valid a) :
    ∃ v, ms.member? field = some v ∧ rule v = .valid a := by
  unfold required at h
  split at h
  · next v hv =>
    rw [checkField, Checked.under_eq_valid_iff, Checked.about_eq_valid_iff] at h
    exact ⟨v, hv, h⟩
  · cases h

theorem holds_of_withDefault {default : α} (h : withDefault ms field rule default = .valid a) :
    Holds ms field rule default a := by
  unfold withDefault at h
  split at h
  · next v hv =>
    rw [checkField, Checked.under_eq_valid_iff, Checked.about_eq_valid_iff] at h
    exact .given v hv h
  · next hv =>
    cases h
    exact .missing hv rfl

theorem holdsName_of_required {s : String} (h : required ms field nameBounds.rule = .valid s) :
    HoldsName ms field s := by
  obtain ⟨v, hv, hrule⟩ := member?_of_required h
  rw [rule_eq_valid_iff, TextBounds.broken?_eq_none_iff] at hrule
  obtain ⟨rfl, _, hleast, hmost, _⟩ := hrule
  exact ⟨⟨hleast, hmost 255 rfl⟩, hv⟩

theorem newProject_submitted {f : NewProject} (h : newProject.fields ms = .valid f) :
    f.Submitted ms := by
  simp only [newProject, Checked.map_eq, Checked.seq_eq, Checked.seq_eq_valid_iff,
    Checked.map_eq_valid_iff] at h
  obtain ⟨_, visibility, ⟨_, repository, ⟨name, hname, rfl⟩, hrepository, rfl⟩, hvisibility, rfl⟩ :=
    h
  exact ⟨holdsName_of_required hname, holds_of_withDefault hrepository,
    holds_of_withDefault hvisibility⟩

theorem newMember_submitted {f : NewMember} (h : newMember.fields ms = .valid f) :
    f.Submitted ms := by
  simp only [newMember, Checked.map_eq, Checked.seq_eq, Checked.seq_eq_valid_iff,
    Checked.map_eq_valid_iff] at h
  obtain ⟨_, role, ⟨user, huser, rfl⟩, hrole, rfl⟩ := h
  obtain ⟨v, hv, hrule⟩ := member?_of_required huser
  rw [rule_eq_valid_iff] at hrule
  obtain ⟨rfl, _⟩ := hrule
  exact ⟨hv, holds_of_withDefault hrole⟩

theorem newEnvironment_submitted {f : NewEnvironment} (h : newEnvironment.fields ms = .valid f) :
    f.Submitted ms := by
  simp only [newEnvironment, Checked.map_eq, Checked.map_eq_valid_iff] at h
  obtain ⟨name, hname, rfl⟩ := h
  exact ⟨holdsName_of_required hname⟩

theorem newDeployment_submitted {f : NewDeployment} (h : newDeployment.fields ms = .valid f) :
    f.Submitted ms := by
  simp only [newDeployment, Checked.map_eq, Checked.seq_eq, Checked.seq_eq_valid_iff,
    Checked.map_eq_valid_iff] at h
  obtain ⟨_, time, ⟨_, status, ⟨_, sha, ⟨_, tag, ⟨_, ref, ⟨environment, henvironment, rfl⟩, href,
    rfl⟩, htag, rfl⟩, hsha, rfl⟩, hstatus, rfl⟩, htime, rfl⟩ := h
  obtain ⟨v, hv, hrule⟩ := member?_of_required hsha
  obtain ⟨s, rfl, hleast, hmost, _, hdigits, rfl⟩ := (sha_eq_valid_iff 7 v sha).mp hrule
  exact ⟨holdsName_of_required henvironment, holdsName_of_required href, holds_of_withDefault htag,
    ⟨s, hv, hleast, hmost, hdigits, rfl⟩, holds_of_withDefault hstatus, holds_of_withDefault htime⟩

end

end DeployRegistry.Form
