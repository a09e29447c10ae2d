import DeployRegistry.Proofs.Granting
import DeployRegistry.Proofs.Submissions
import DeployRegistry.Text.LowerCase
import Mathlib.Data.List.Forall2

/-!
# The spellings of a commit

The name of a commit is read in two places: where a deployment is recorded, and where one is looked
for. Both take hexadecimal digits only, in any case of letters, and keep them in lower case; a
recorded name has to be longer. So of two names that were taken, one finds the other exactly when
they are spelled alike. The main statements are `objection_recorded` and `objection_sought`, on what
is said of any text, and `commit_spellings`, on both places together.
-/

namespace DeployRegistry.Text

set_option autoImplicit false

/-- Equal, or the capital and the small form of one letter of ASCII. -/
inductive SameLetter (c d : Char) : Prop
  | same (h : c = d)
  | capital (hc : 'A' ≤ c ∧ c ≤ 'Z') (hd : d.toNat = c.toNat + 32)
  | small (hd : 'A' ≤ d ∧ d ≤ 'Z') (hc : c.toNat = d.toNat + 32)

/-- Texts that differ at most in the case of their letters. -/
def SpelledAlike (s t : String) : Prop := List.Forall₂ SameLetter s.toList t.toList

theorem isUpperAscii_iff (c : Char) : isUpperAscii c = true ↔ 'A' ≤ c ∧ c ≤ 'Z' := by
  simp only [isUpperAscii, Bool.and_eq_true, decide_eq_true_eq]
  exact Iff.rfl

theorem lowerChar_eq_iff (c d : Char) : lowerChar c = lowerChar d ↔ SameLetter c d := by
  have hkept : ∀ {e : Char}, ¬ ('A' ≤ e ∧ e ≤ 'Z') → lowerChar e = e := by
    intro e he
    rw [lowerChar, if_neg (mt (isUpperAscii_iff e).mp he)]
  have hlower : ∀ {e : Char}, 'A' ≤ e ∧ e ≤ 'Z' → (lowerChar e).toNat = e.toNat + 32 := fun he =>
    Form.toNat_lowerChar_of_isUpperAscii ((isUpperAscii_iff _).mpr he)
  have hsmall : ∀ {e : Char}, 'A' ≤ e ∧ e ≤ 'Z' → e.toNat ≤ 90 ∧ 65 ≤ e.toNat := fun he =>
    ⟨he.2, he.1⟩
  constructor
  · intro h
    have hn : (lowerChar c).toNat = (lowerChar d).toNat := congrArg Char.toNat h
    by_cases hc : 'A' ≤ c ∧ c ≤ 'Z' <;> by_cases hd : 'A' ≤ d ∧ d ≤ 'Z'
    · rw [hlower hc, hlower hd] at hn
      exact .same (Char.toNat_inj.mp (by omega))
    · rw [hlower hc, hkept hd] at hn
      exact .capital hc hn.symm
    · rw [hkept hc, hlower hd] at hn
      exact .small hd hn
    · rw [hkept hc, hkept hd] at h
      exact .same h
  · -- The small form of a letter is no capital, so it stays as it is.
    rintro (rfl | ⟨hc, hd⟩ | ⟨hd, hc⟩)
    · rfl
    · have hnot : ¬ ('A' ≤ d ∧ d ≤ 'Z') := fun h => by
        have := hsmall h
        have := hsmall hc
        omega
      rw [hkept hnot]
      exact Char.toNat_inj.mp ((hlower hc).trans hd.symm)
    · have hnot : ¬ ('A' ≤ c ∧ c ≤ 'Z') := fun h => by
        have := hsmall h
        have := hsmall hd
        omega
      rw [hkept hnot]
      exact Char.toNat_inj.mp (hc.trans (hlower hd).symm)

theorem lowerAscii_eq_iff (s t : String) : lowerAscii s = lowerAscii t ↔ SpelledAlike s t := by
  rw [SpelledAlike, ← String.toList_inj, toList_lowerAscii, toList_lowerAscii,
    ← List.forall₂_eq_eq_eq, List.forall₂_map_left_iff, List.forall₂_map_right_iff]
  simp only [lowerChar_eq_iff]

/-- The table of all scripts has one row for the letters of ASCII. -/
theorem small?_of_isAscii {n : Nat} (h : n < 128) :
    LowerCase.small? n = if 65 ≤ n ∧ n ≤ 90 then some (n + 32) else none := by
  have htable : LowerCase.rows = (65, 90, 1, 97) :: LowerCase.rows.tail := rfl
  have hbeyond : ∀ row ∈ LowerCase.rows.tail, 128 ≤ row.1 := by decide +kernel
  have hnone (p : Nat × Nat × Nat × Nat → Bool) (hp : ∀ row, p row = true → row.1 ≤ n) :
      LowerCase.rows.tail.find? p = none := by
    rw [List.find?_eq_none]
    intro row hrow hfound
    have := hbeyond row hrow
    have := hp row hfound
    omega
  rw [LowerCase.small?, htable, List.find?_cons, hnone]
  · dsimp only
    rw [Nat.mod_one, beq_self_eq_true, Bool.and_true, ← Bool.decide_and]
    by_cases hcapital : 65 ≤ n ∧ n ≤ 90
    · rw [decide_eq_true hcapital, if_pos hcapital]
      exact congrArg some (show 97 + (n - 65) = n + 32 by omega)
    · rw [decide_eq_false hcapital, if_neg hcapital]
      rfl
  · rintro ⟨first, last, step, image⟩ hrow
    simp only [Bool.and_eq_true, decide_eq_true_eq] at hrow
    exact hrow.1.1

/-- Of the characters of ASCII only the capitals change in lower case. -/
theorem lowered_of_isAscii {c : Char} (h : c.toNat < 128) (before after : List Char) :
    LowerCase.lowered before c after = [lowerChar c] := by
  have hall : ∀ n < 128, ((if 65 ≤ n ∧ n ≤ 90 then some (n + 32) else none).map Char.ofNat).getD
      (Char.ofNat n) = lowerChar (Char.ofNat n) := by decide +kernel
  have hsigma : c ≠ LowerCase.capitalSigma := by
    rintro rfl
    exact absurd h (by decide)
  have hdotted : c ≠ '\u0130' := by
    rintro rfl
    exact absurd h (by decide)
  have hc := hall c.toNat h
  rw [Char.ofNat_toNat] at hc
  rw [LowerCase.lowered, if_neg hsigma, if_neg hdotted, small?_of_isAscii h, hc]

theorem loweredFrom_of_isAscii {cs : List Char} (h : ∀ c ∈ cs, c.toNat < 128) :
    ∀ before, LowerCase.loweredFrom before cs = cs.map lowerChar := by
  induction cs with
  | nil => exact fun _ => rfl
  | cons c rest ih =>
    intro before
    rw [LowerCase.loweredFrom, lowered_of_isAscii (h c List.mem_cons_self),
      ih fun d hd => h d (List.mem_cons_of_mem c hd)]
    rfl

/-- On a text of ASCII the lower case of all scripts is that of ASCII. -/
theorem lowerCase_of_isAscii {s : String} (h : ∀ c ∈ s.toList, c.toNat < 128) :
    lowerCase s.toList = (lowerAscii s).toList :=
  (loweredFrom_of_isAscii h []).trans (toList_lowerAscii s).symm

end DeployRegistry.Text

namespace DeployRegistry.Form

set_option autoImplicit false

open Text

/-! What is said of single fields. -/

namespace Checked

variable {α β : Type}

def issues : Checked α → List Issue
  | valid _ => []
  | invalid is => is

/-- Why the value of a field was refused. -/
def causesAt (x : Checked α) (field : String) : List Cause :=
  (x.issues.filter fun i => i.path = [field]).map (·.cause)

@[simp] theorem causesAt_map (f : α → β) (x : Checked α) (field : String) :
    (x.map f).causesAt field = x.causesAt field := by
  cases x <;> rfl

theorem causesAt_seq (f : Checked (α → β)) (x : Unit → Checked α) (field : String) :
    (f.seq x).causesAt field = f.causesAt field ++ (x ()).causesAt field := by
  cases f <;> cases hx : x () <;> simp [seq, hx, causesAt, issues]

/-- What is said of one field is not said of another one. -/
theorem causesAt_under_of_ne {field other : String} (h : field ≠ other) (x : Checked α) :
    (x.under field).causesAt other = [] := by
  cases x with
  | valid a => rfl
  | invalid is => simp [under, causesAt, issues, Issue.under, h]

end Checked

section

variable {α : Type} {ms : Json.Members} {field other : String} {rule : Rule α}

theorem causesAt_withDefault_of_ne (h : field ≠ other) (default : α) :
    (withDefault ms field rule default).causesAt other = [] := by
  unfold withDefault
  split
  · exact Checked.causesAt_under_of_ne h _
  · rfl

theorem causesAt_required_of_ne (h : field ≠ other) :
    (required ms field rule).causesAt other = [] := by
  unfold required
  split
  · exact Checked.causesAt_under_of_ne h _
  · simp [Checked.causesAt, Checked.issues, h]

theorem causesAt_required_of_issue {v : Json} {cause : Cause} (hv : ms.member? field = some v)
    (h : rule v = .issue cause) : (required ms field rule).causesAt field = [cause] := by
  unfold required
  rw [hv]
  simp [checkField, h, Checked.issue, Checked.about, Checked.under, Checked.causesAt,
    Checked.issues, Issue.about, Issue.under]

theorem required_of_valid {v : Json} {a : α} (hv : ms.member? field = some v)
    (h : rule v = .valid a) : required ms field rule = .valid a := by
  unfold required
  rw [hv]
  simp [checkField, h, Checked.about, Checked.under]

end

/-! What the name of a commit may be, and what there is to object to any other text. -/

/-- A digit of base sixteen, in either case of letters. -/
def IsHexChar (c : Char) : Prop :=
  ('0' ≤ c ∧ c ≤ '9') ∨ ('a' ≤ c ∧ c ≤ 'f') ∨ ('A' ≤ c ∧ c ≤ 'F')

theorem isDigit_iff_isHexChar (c : Char) : Hex.isDigit c = true ↔ IsHexChar c :=
  isDigit_iff c

/-- From so many up to 64 hexadecimal digits, and nothing else. -/
structure IsCommitName (least : Nat) (s : String) : Prop where
  least_le : least ≤ s.length
  le_most : s.length ≤ 64
  digits : ∀ c ∈ s.toList, IsHexChar c

/-- What there is to object to a text as the name of a commit. Its length counts before its
characters; a text that is no sequence of characters is refused before both. -/
inductive Objection (least : Nat) (s : String) : List Cause → Prop
  | broken (hs : hasLoneUnit s = true) : Objection least s [.brokenText]
  | short (hs : hasLoneUnit s = false) (h : s.length < least) :
      Objection least s [.tooShort least]
  | long (hs : hasLoneUnit s = false) (hleast : least ≤ s.length) (h : 64 < s.length) :
      Objection least s [.tooLong 64]
  | stray (hs : hasLoneUnit s = false) (hleast : least ≤ s.length) (hmost : s.length ≤ 64)
      (c : Char) (hc : c ∈ s.toList) (h : ¬ IsHexChar c) :
      Objection least s [.mismatch "^[0-9a-fA-F]+$"]
  | none (h : IsCommitName least s) : Objection least s []

variable {least : Nat} {s t : String}

theorem all_isDigit_iff : s.toList.all Hex.isDigit = true ↔ ∀ c ∈ s.toList, IsHexChar c := by
  simp only [List.all_eq_true, isDigit_iff_isHexChar]

theorem IsHexChar.isAscii {c : Char} (h : IsHexChar c) : c.toNat < 128 := by
  have := (isDigit_iff c).mp ((isDigit_iff_isHexChar c).mpr h)
  omega

theorem toList_ne_nil_of_lt_length (h : 0 < s.length) : s.toList ≠ [] := by
  intro hnil
  rw [← String.length_toList, hnil] at h
  exact absurd h (by decide)

theorem sha_of_isCommitName (hleast : 0 < least) (h : IsCommitName least s) :
    sha least (.str s) = .valid (lowerAscii s) :=
  (sha_eq_valid_iff least _ _).mpr ⟨s, rfl, h.least_le, h.le_most,
    toList_ne_nil_of_lt_length (Nat.lt_of_lt_of_le hleast h.least_le), all_isDigit_iff.mpr h.digits,
    rfl⟩

theorem isCommitName_of_sha (h : sha least (.str s) = .valid t) :
    IsCommitName least s ∧ t = lowerAscii s := by
  obtain ⟨_, hs, hleast, hmost, _, hdigits, ht⟩ := (sha_eq_valid_iff least _ t).mp h
  cases hs
  exact ⟨⟨hleast, hmost, all_isDigit_iff.mp hdigits⟩, ht.symm⟩

theorem broken?_shaBounds_cases (least : Nat) (hs : hasLoneUnit s = false) :
    IsCommitName least s ∨
      ∃ cause, (shaBounds least).broken? s = some cause ∧ Objection least s [cause] := by
  by_cases hshort : s.length < least
  · refine Or.inr ⟨_, ?_, .short hs hshort⟩
    simp [TextBounds.broken?, shaBounds, hshort]
  have hleast := Nat.not_lt.mp hshort
  by_cases hlong : 64 < s.length
  · refine Or.inr ⟨_, ?_, .long hs hleast hlong⟩
    simp [TextBounds.broken?, shaBounds, hshort, hlong]
  have hmost := Nat.not_lt.mp hlong
  by_cases hdigits : ∀ c ∈ s.toList, IsHexChar c
  · exact Or.inl ⟨hleast, hmost, hdigits⟩
  · obtain ⟨c, hc, hstray⟩ : ∃ c ∈ s.toList, ¬ IsHexChar c := by simpa using hdigits
    have hall : s.toList.all Hex.isDigit = false := by
      rw [← Bool.not_eq_true, all_isDigit_iff]
      exact hdigits
    refine Or.inr ⟨_, ?_, .stray hs hleast hmost c hc hstray⟩
    simp [TextBounds.broken?, shaBounds, hexPattern, hshort, hlong, hall]

/-- A text that is no name is refused for one cause. -/
theorem sha_cases (least : Nat) (s : String) :
    IsCommitName least s ∨
      ∃ cause, sha least (.str s) = .issue cause ∧ Objection least s [cause] := by
  cases hs : hasLoneUnit s with
  | true =>
    refine Or.inr ⟨_, ?_, .broken hs⟩
    simp [sha, TextBounds.rule, ofWhole, hs, Checked.issue, Checked.map]
  | false =>
    rcases broken?_shaBounds_cases least hs with hname | ⟨cause, hbroken, hobjection⟩
    · exact Or.inl hname
    · refine Or.inr ⟨cause, ?_, hobjection⟩
      simp [sha, TextBounds.rule, ofWhole, hs, TextBounds.check, hbroken, Checked.issue,
        Checked.map]

/-- What a field says of the text that it holds. -/
theorem objection_required {ms : Json.Members} (hleast : 0 < least)
    (h : ms.member? "sha" = some (.str s)) :
    Objection least s ((required ms "sha" (sha least)).causesAt "sha") := by
  rcases sha_cases least s with hname | ⟨cause, hissue, hobjection⟩
  · rw [required_of_valid h (sha_of_isCommitName hleast hname)]
    exact .none hname
  · rw [causesAt_required_of_issue h hissue]
    exact hobjection

theorem objection_sought {ms : Json.Members} (h : ms.member? "sha" = some (.str s)) :
    Objection 1 s ((commit.fields ms).causesAt "sha") :=
  objection_required Nat.one_pos h

/-- Nothing else of a new deployment is at issue in the field of its commit. -/
theorem objection_recorded {ms : Json.Members} (h : ms.member? "sha" = some (.str s)) :
    Objection 7 s ((newDeployment.fields ms).causesAt "sha") := by
  have hsame : (newDeployment.fields ms).causesAt "sha" =
      (required ms "sha" recordedSha).causesAt "sha" := by
    simp only [newDeployment, optional, Checked.map_eq, Checked.seq_eq, Checked.causesAt_seq,
      Checked.causesAt_map]
    rw [causesAt_required_of_ne (by decide), causesAt_required_of_ne (by decide),
      causesAt_withDefault_of_ne (by decide), causesAt_withDefault_of_ne (by decide),
      causesAt_withDefault_of_ne (by decide)]
    simp
  rw [hsame]
  exact objection_required (by decide) h

/-! The two places where a commit is named. -/

theorem Model.rule_obj {α : Type} (m : Model α) (ms : Json.Members) :
    m.rule (.obj ms) = m.fields ms := rfl

/-- A new deployment is taken whose commit is given as this text. -/
def RecordedAs (s : String) (f : NewDeployment) : Prop :=
  ∃ ms : Json.Members, ms.member? "sha" = some (.str s) ∧ newDeployment.rule (.obj ms) = .valid f

/-- A commit is looked for that is given as this text. -/
def SoughtAs (s sha : String) : Prop :=
  ∃ ms : Json.Members, ms.member? "sha" = some (.str s) ∧ commit.rule (.obj ms) = .valid sha

/-- The deployment is the one that the registry recorded for a submission. -/
def EnteredFrom (f : NewDeployment) (d : Deployment) : Prop :=
  ∃ (r : Registry) (ids : Ids) (now : WallTime) (user project : String) (r' : Registry),
    r.recordDeployment ids now user project f = .ok (d, r')

/-- A deployment is looked for by its commit alone. -/
structure SeeksCommit (c : Criteria) (sha : String) : Prop where
  ref : c.ref = none
  commit : c.commit = some sha

theorem RecordedAs.name {f : NewDeployment} (h : RecordedAs s f) :
    IsCommitName 7 s ∧ f.sha = lowerAscii s := by
  obtain ⟨ms, hs, hvalid⟩ := h
  obtain ⟨s', hs', hleast, hmost, hdigits, hsha⟩ := (newDeployment_submitted hvalid).sha
  rw [hs] at hs'
  cases hs'
  exact ⟨⟨hleast, hmost, all_isDigit_iff.mp hdigits⟩, hsha⟩

/-- The least that is submitted with the name of a commit. -/
def leastDeployment (s : String) : Json.Members :=
  [("environment", .str "e"), ("ref", .str "r"), ("sha", .str s)]

theorem exists_recordedAs (h : IsCommitName 7 s) : ∃ f, RecordedAs s f ∧ f.sha = lowerAscii s := by
  have henvironment : required (leastDeployment s) "environment" nameBounds.rule = .valid "e" :=
    required_of_valid (v := .str "e") (by rfl)
      ((rule_eq_valid_iff _ _ _).mpr ⟨rfl, by decide +kernel, by decide⟩)
  have href : required (leastDeployment s) "ref" nameBounds.rule = .valid "r" :=
    required_of_valid (v := .str "r") (by rfl)
      ((rule_eq_valid_iff _ _ _).mpr ⟨rfl, by decide +kernel, by decide⟩)
  have htag : withDefault (leastDeployment s) "tag" switch false = .valid false := by rfl
  have hsha : required (leastDeployment s) "sha" recordedSha = .valid (lowerAscii s) :=
    required_of_valid (v := .str s) (by rfl) (sha_of_isCommitName (by decide) h)
  have hstatus : withDefault (leastDeployment s) "status" (word DeployStatus) .success =
      .valid .success := by rfl
  have htime : optional (leastDeployment s) "deployed_at" moment = .valid none :=
    optional_missing (by rfl)
  refine ⟨⟨"e", "r", false, lowerAscii s, .success, none⟩, ⟨leastDeployment s, by rfl, ?_⟩, rfl⟩
  rw [Model.rule_obj]
  simp only [newDeployment, Checked.map_eq, Checked.seq_eq, henvironment, href, htag, hsha,
    hstatus, htime]
  rfl

theorem soughtAs_iff (s sha : String) :
    SoughtAs s sha ↔ IsCommitName 1 s ∧ sha = lowerAscii s := by
  constructor
  · rintro ⟨ms, hs, hvalid⟩
    obtain ⟨v, hv, hrule⟩ := member?_of_required hvalid
    rw [hs] at hv
    cases hv
    exact isCommitName_of_sha hrule
  · rintro ⟨hname, rfl⟩
    have hfield : required [("sha", .str s)] "sha" soughtSha = .valid (lowerAscii s) :=
      required_of_valid (v := .str s) (by rfl) (sha_of_isCommitName Nat.one_pos hname)
    exact ⟨[("sha", .str s)], by rfl, hfield⟩

theorem EnteredFrom.sha_eq {f : NewDeployment} {d : Deployment} (h : EnteredFrom f d) :
    d.sha = f.sha := by
  obtain ⟨r, ids, now, user, project, r', hgranted⟩ := h
  obtain ⟨e, r₁, _, _, rfl, _⟩ := Registry.recordDeployment_eq_ok hgranted
  rfl

theorem SeeksCommit.matches_iff {c : Criteria} {sha : String} (h : SeeksCommit c sha)
    (d : Deployment) : c.matches d = true ↔ d.sha = sha := by
  simp [Criteria.matches, h.ref, h.commit]

theorem IsCommitName.mono {more : Nat} (hle : least ≤ more) (h : IsCommitName more s) :
    IsCommitName least s :=
  ⟨Nat.le_trans hle h.least_le, h.le_most, h.digits⟩

theorem IsCommitName.lowerAscii (h : IsCommitName least s) : IsCommitName least (lowerAscii s) where
  least_le := by
    rw [length_lowerAscii]
    exact h.least_le
  le_most := by
    rw [length_lowerAscii]
    exact h.le_most
  digits := by
    rw [← all_isDigit_iff, all_isDigit_lowerAscii, all_isDigit_iff]
    exact h.digits

theorem IsCommitName.of_isPrefix (hname : IsCommitName least s) (h : t.toList <+: s.toList)
    (hne : 0 < t.length) : IsCommitName 1 t where
  least_le := hne
  le_most := by
    have hle := h.length_le
    rw [String.length_toList, String.length_toList] at hle
    exact Nat.le_trans hle hname.le_most
  digits := fun c hc => hname.digits c (h.subset hc)

theorem not_isCommitName_append_break (least : Nat) (s : String) :
    ¬ IsCommitName least (s ++ "\n") := by
  intro h
  have hbreak := h.digits '\n' (by simp)
  rw [← isDigit_iff_isHexChar] at hbreak
  exact absurd hbreak (by decide)

theorem length_eq_of_spelledAlike (h : SpelledAlike s t) : s.length = t.length := by
  rw [← String.length_toList, ← String.length_toList]
  exact h.length_eq

/-- A deployment is found by the spellings of its commit. -/
theorem matches_iff_spelledAlike {f : NewDeployment} {d : Deployment} {sha : String} {c : Criteria}
    (hf : RecordedAs s f) (hd : EnteredFrom f d) (ht : SoughtAs t sha) (hc : SeeksCommit c sha) :
    c.matches d = true ↔ SpelledAlike s t := by
  rw [hc.matches_iff, hd.sha_eq, hf.name.2, ((soughtAs_iff t sha).mp ht).2, lowerAscii_eq_iff]

/-- What the two places make of a text as the name of a commit. -/
structure CommitSpellings (s : String) : Prop where
  recorded : (∃ f, RecordedAs s f) ↔ IsCommitName 7 s
  sought : (∃ sha, SoughtAs s sha) ↔ IsCommitName 1 s
  /-- Each place says why it refuses a text; its length counts before its characters. -/
  objections : ∀ ms : Json.Members, ms.member? "sha" = some (.str s) →
    Objection 7 s ((newDeployment.fields ms).causesAt "sha") ∧
      Objection 1 s ((commit.fields ms).causesAt "sha")
  /-- A line break at the end is refused like any other character. -/
  unbroken : (¬ ∃ f, RecordedAs (s ++ "\n") f) ∧ ¬ ∃ sha, SoughtAs (s ++ "\n") sha
  /-- Both places keep one form of the text. -/
  kept : (∀ f, RecordedAs s f → f.sha = lowerAscii s) ∧ ∀ sha, SoughtAs s sha → sha = lowerAscii s
  /-- The rules for the letters of other scripts have no say in that form. -/
  scripts : IsCommitName 1 s → lowerCase s.toList = (lowerAscii s).toList
  /-- The kept form is taken again in the same place, and stays. -/
  again : (∀ f, RecordedAs s f → ∃ f', RecordedAs f.sha f' ∧ f'.sha = f.sha) ∧
    ∀ sha, SoughtAs s sha → SoughtAs sha sha
  /-- What was recorded can be looked for, as it was given and as it is kept. -/
  found : ∀ f, RecordedAs s f → SoughtAs s f.sha ∧ SoughtAs f.sha f.sha
  /-- A deployment is found by exactly the spellings of the text that was recorded. -/
  alike : ∀ f d t sha c, RecordedAs s f → EnteredFrom f d → SoughtAs t sha → SeeksCommit c sha →
    (c.matches d = true ↔ SpelledAlike s t)
  /-- A proper part from the front, which is taken as a name as well, finds nothing. -/
  front : ∀ f d u t, RecordedAs s f → EnteredFrom f d → u = s ∨ u = f.sha →
    t.toList <+: u.toList → 0 < t.length → t.length < u.length →
    (∃ sha, SoughtAs t sha) ∧
      ∀ sha c, SoughtAs t sha → SeeksCommit c sha → c.matches d = false

theorem commit_spellings (s : String) : CommitSpellings s where
  recorded := ⟨fun ⟨_, h⟩ => h.name.1, fun h => (exists_recordedAs h).imp fun _ hf => hf.1⟩
  sought := by simp only [soughtAs_iff, exists_and_left, exists_eq, and_true]
  objections := fun ms h => ⟨objection_recorded h, objection_sought h⟩
  unbroken := ⟨fun ⟨_, h⟩ => not_isCommitName_append_break 7 s h.name.1,
    fun ⟨sha, h⟩ => not_isCommitName_append_break 1 s ((soughtAs_iff _ sha).mp h).1⟩
  kept := ⟨fun _ h => h.name.2, fun sha h => ((soughtAs_iff s sha).mp h).2⟩
  scripts := fun h => lowerCase_of_isAscii fun c hc => (h.digits c hc).isAscii
  again := by
    constructor
    · intro f hf
      obtain ⟨hname, hsha⟩ := hf.name
      obtain ⟨f', hf', hsha'⟩ := exists_recordedAs hname.lowerAscii
      rw [lowerAscii_lowerAscii, ← hsha] at hsha'
      exact ⟨f', hsha ▸ hf', hsha'⟩
    · intro sha h
      obtain ⟨hname, rfl⟩ := (soughtAs_iff s sha).mp h
      exact (soughtAs_iff _ _).mpr ⟨hname.lowerAscii, (lowerAscii_lowerAscii s).symm⟩
  found := by
    intro f hf
    obtain ⟨hname, hsha⟩ := hf.name
    have hsought := hname.mono (show 1 ≤ 7 by decide)
    rw [hsha]
    exact ⟨(soughtAs_iff _ _).mpr ⟨hsought, rfl⟩,
      (soughtAs_iff _ _).mpr ⟨hsought.lowerAscii, (lowerAscii_lowerAscii s).symm⟩⟩
  alike := fun f d t sha c hf hd ht hc => matches_iff_spelledAlike hf hd ht hc
  front := by
    intro f d u t hf hd hu hprefix hne hlt
    obtain ⟨hname, hsha⟩ := hf.name
    obtain ⟨hu, hlength⟩ : IsCommitName 7 u ∧ u.length = s.length := by
      rcases hu with rfl | rfl
      · exact ⟨hname, rfl⟩
      · rw [hsha]
        exact ⟨hname.lowerAscii, length_lowerAscii s⟩
    refine ⟨⟨_, (soughtAs_iff t _).mpr ⟨hu.of_isPrefix hprefix hne, rfl⟩⟩, ?_⟩
    intro sha c ht hc
    rw [← Bool.not_eq_true, matches_iff_spelledAlike hf hd ht hc]
    intro halike
    have := length_eq_of_spelledAlike halike
    omega

end DeployRegistry.Form
