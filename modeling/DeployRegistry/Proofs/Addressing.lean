import DeployRegistry.Form.Submissions
import DeployRegistry.Proofs.Inquiries
import DeployRegistry.Proofs.Submissions
import Mathlib.Data.List.TakeWhile

/-!
# Addresses below a base

What is written behind the address of a server, from a slash on, changes neither the scheme nor the
server. So a client whose base is an address can write a request for every question about a
repository and commits that are named as callers may name them. The main statement is
`Client.Ready.destination`.
-/

namespace DeployRegistry

set_option autoImplicit false

open Form Number Text

namespace Address

/-- Neither a control character nor a unit without its pair. -/
def IsClean (c : Char) : Prop := isControl c = false ∧ loneUnit? c = none

theorem splitWhere_append {p : Char → Bool} (cs : List Char) {d : Char} (hd : p d = true)
    (ds : List Char) :
    splitWhere p (cs ++ d :: ds) = ((splitWhere p cs).1, (splitWhere p cs).2 ++ d :: ds) := by
  induction cs with
  | nil => simp [splitWhere, hd]
  | cons c rest ih =>
    by_cases hc : p c = true
    · simp [splitWhere, hc]
    · simpa [splitWhere, hc] using ih

theorem splitWhere_eq (p : Char → Bool) (cs : List Char) :
    (splitWhere p cs).1 ++ (splitWhere p cs).2 = cs := List.takeWhile_append_dropWhile

/-- A scheme that is there ends at a colon, and so does not change. -/
theorem splitScheme_append {cs scheme rest : List Char} (h : splitScheme cs = (scheme, rest))
    (hscheme : scheme ≠ []) (ds : List Char) :
    splitScheme (cs ++ '/' :: ds) = (scheme, rest ++ '/' :: ds) := by
  have hslash : (!isSchemeChar '/') = true := by decide
  unfold splitScheme at h ⊢
  rw [splitWhere_append cs hslash ds]
  rcases hs : splitWhere (fun c => !isSchemeChar c) cs with ⟨name, tail⟩
  rw [hs] at h
  cases name with
  | nil =>
    -- Without a name there is no scheme, whatever follows.
    split at h <;> simp_all
  | cons c name =>
    cases tail with
    | nil => simp_all
    | cons d tail =>
      by_cases hd : d = ':'
      · subst hd
        cases hc : c.isAlpha with
        | true =>
          simp only [hc, if_true, List.cons_append] at h ⊢
          cases h
          rfl
        | false =>
          simp only [hc] at h
          cases h
          exact absurd rfl hscheme
      · simp_all

theorem splitServer_append {cs server rest : List Char} (h : splitServer cs = (server, rest))
    (hserver : server ≠ []) (ds : List Char) :
    splitServer (cs ++ '/' :: ds) = (server, rest ++ '/' :: ds) := by
  have hslash : (fun c => c == '/' || c == '?' || c == '#') '/' = true := by decide
  unfold splitServer at h
  split at h
  · next tail =>
    have happend : ('/' :: '/' :: tail) ++ '/' :: ds = '/' :: '/' :: (tail ++ '/' :: ds) := rfl
    rw [happend, splitServer, splitWhere_append tail hslash ds, h]
  · cases h
    exact absurd rfl hserver

/-! Where no unit stands alone, every part can be read. -/

theorem readPart_of_clean (safe : Char → Bool) {cs : List Char}
    (h : ∀ c ∈ cs, loneUnit? c = none) :
    readPart safe cs = .ok (quote safe (String.ofList cs)) := by
  have hnone : cs.find? (fun c => (loneUnit? c).isSome) = none := by
    rw [List.find?_eq_none]
    intro c hc
    rw [h c hc]
    decide
  rw [readPart, hnone]

theorem readPart?_of_clean (safe : Char → Bool) {part : Option (List Char)}
    (h : ∀ cs ∈ part, ∀ c ∈ cs, loneUnit? c = none) : ∃ q, readPart? safe part = .ok q := by
  cases part with
  | none => exact ⟨none, rfl⟩
  | some cs =>
    rw [readPart?, readPart_of_clean safe (h cs rfl)]
    exact ⟨_, rfl⟩

theorem mem_of_mem_pieces {p : Char → Bool} {cs piece : List Char} (h : piece ∈ pieces p cs) :
    piece ⊆ cs := by
  induction cs generalizing piece with
  | nil =>
    obtain rfl := List.mem_singleton.mp h
    exact List.Subset.refl _
  | cons c rest ih =>
    rw [pieces] at h
    split at h
    · rcases List.mem_cons.mp h with rfl | hrest
      · exact List.nil_subset _
      · exact List.subset_cons_of_subset c (ih hrest)
    · cases hp : pieces p rest with
      | nil => exact absurd hp (pieces_ne_nil p rest)
      | cons first others =>
        rw [hp] at h
        rcases List.mem_cons.mp h with rfl | hothers
        · exact List.cons_subset_cons c (ih (hp ▸ List.mem_cons_self))
        · exact List.subset_cons_of_subset c (ih (hp ▸ List.mem_cons_of_mem first hothers))

theorem mem_of_mem_climb {segments : List (List Char)} :
    ∀ {done : List (List Char)} {segment : List Char},
      segment ∈ climb done segments → segment ∈ done ∨ segment ∈ segments := by
  induction segments with
  | nil =>
    intro done segment h
    exact Or.inl h
  | cons first rest ih =>
    intro done segment h
    rw [climb] at h
    split at h
    · exact (ih h).imp_right (List.mem_cons_of_mem first)
    split at h
    · rcases ih h with hdone | hrest
      · split at hdone
        · exact Or.inl hdone
        · exact Or.inl ((List.dropLast_sublist done).subset hdone)
      · exact Or.inr (List.mem_cons_of_mem first hrest)
    · rcases ih h with hdone | hrest
      · rcases List.mem_append.mp hdone with hold | hnew
        · exact Or.inl hold
        · exact Or.inr (List.mem_singleton.mp hnew ▸ List.mem_cons_self)
      · exact Or.inr (List.mem_cons_of_mem first hrest)

theorem mem_joinWith {sep c : Char} {parts : List (List Char)}
    (h : c ∈ ServerName.joinWith sep parts) : c = sep ∨ ∃ part ∈ parts, c ∈ part := by
  induction parts with
  | nil => cases h
  | cons part rest ih =>
    cases rest with
    | nil => exact Or.inr ⟨part, List.mem_cons_self, h⟩
    | cons second rest =>
      rw [ServerName.joinWith] at h
      · rcases List.mem_append.mp h with hpart | hrest
        · exact Or.inr ⟨part, List.mem_cons_self, hpart⟩
        rcases List.mem_cons.mp hrest with rfl | hrest
        · exact Or.inl rfl
        rcases ih hrest with hsep | ⟨other, hother, hc⟩
        · exact Or.inl hsep
        · exact Or.inr ⟨other, List.mem_cons_of_mem part hother, hc⟩
      · nofun

theorem mem_normalPath {cs : List Char} {c : Char} (h : c ∈ normalPath cs) : c = '/' ∨ c ∈ cs := by
  unfold normalPath at h
  dsimp only at h
  split at h
  · rcases mem_joinWith h with rfl | ⟨segment, hsegment, hc⟩
    · exact Or.inl rfl
    · rcases mem_of_mem_climb hsegment with hnone | hpiece
      · cases hnone
      · exact Or.inr (mem_of_mem_pieces hpiece hc)
  · exact Or.inr h

/-- What stands in front of the path of an address. -/
structure Front (cs : List Char) (a : Address) where
  scheme : List Char
  behind : List Char
  authority : List Char
  rest : List Char
  splitScheme_eq : splitScheme cs = (scheme, behind)
  splitServer_eq : splitServer behind = (authority, rest)
  scheme_eq : a.scheme = String.ofList (scheme.map lowerChar)
  user_eq : readPart (fun c => isUserChar c || c == ':') (splitUser authority).1 = .ok a.user
  server_eq : readServer (splitPort (splitUser authority).2).1 = .ok a.server
  port_eq : readPort scheme (splitPort (splitUser authority).2).2 = .ok a.port

theorem front_of_readParts {cs : List Char} {a : Address} (h : readParts cs = .ok a) :
    Nonempty (Front cs a) := by
  rcases hs : splitScheme cs with ⟨scheme, behind⟩
  rcases hv : splitServer behind with ⟨authority, rest⟩
  simp only [readParts, hs, hv] at h
  cases hu : readPart (fun c => isUserChar c || c == ':') (splitUser authority).1 with
  | error flaw => simp [hu, bind, Except.bind] at h
  | ok user =>
  cases hn : readServer (splitPort (splitUser authority).2).1 with
  | error flaw => simp [hu, hn, bind, Except.bind] at h
  | ok server =>
  cases hp : readPort scheme (splitPort (splitUser authority).2).2 with
  | error flaw => simp [hu, hn, hp, bind, Except.bind] at h
  | ok port =>
  simp only [hu, hn, hp, bind, Except.bind] at h
  have hfields : a.scheme = String.ofList (scheme.map lowerChar) ∧ a.user = user ∧
      a.server = server ∧ a.port = port := by
    repeat' split at h
    all_goals cases h
    all_goals exact ⟨rfl, rfl, rfl, rfl⟩
  obtain ⟨hscheme, rfl, rfl, rfl⟩ := hfields
  exact ⟨⟨scheme, behind, authority, rest, hs, hv, hscheme, hu, hn, hp⟩⟩

theorem mem_of_behind? {mark : Char} {cs part : List Char} (h : behind? mark cs = some part) :
    part ⊆ cs := by
  cases cs with
  | nil => cases h
  | cons c rest =>
    rw [behind?] at h
    split at h
    · cases h
      exact List.subset_cons_self _ _
    · cases h

/-- Behind a scheme, everything without a lone unit can be read. -/
theorem Front.readParts {cs : List Char} {a : Address} (f : Front cs a) (hscheme : f.scheme ≠ [])
    (hclean : ∀ c ∈ f.rest, loneUnit? c = none) : ∃ path query fragment,
      readParts cs = .ok { a with path := path, query := query, fragment := fragment } := by
  rcases hw : splitWhere (fun c => c == '?' || c == '#') f.rest with ⟨path, more⟩
  have hrest : path ++ more = f.rest := by
    have := splitWhere_eq (fun c => c == '?' || c == '#') f.rest
    rwa [hw] at this
  have hpath : ∀ c ∈ normalPath path, loneUnit? c = none := by
    intro c hc
    rcases mem_normalPath hc with rfl | hc
    · exact loneUnit?_eq_none (by decide)
    · exact hclean c (hrest ▸ List.mem_append_left more hc)
  have hmore : ∀ c ∈ more, loneUnit? c = none := fun c hc =>
    hclean c (hrest ▸ List.mem_append_right path hc)
  have hquery : ∀ part ∈ (behind? '?' more).map fun more => (splitWhere (· == '#') more).1,
      ∀ c ∈ part, loneUnit? c = none := by
    intro part hpart c hc
    obtain ⟨text, htext, rfl⟩ := Option.map_eq_some_iff.mp hpart
    exact hmore c (mem_of_behind? htext ((List.takeWhile_sublist _).subset hc))
  have hfragment : ∀ part ∈ behind? '#' (splitWhere (· == '#') more).2,
      ∀ c ∈ part, loneUnit? c = none := by
    intro part hpart c hc
    exact hmore c ((List.dropWhile_sublist _).subset (mem_of_behind? hpart hc))
  obtain ⟨query, hquery⟩ := readPart?_of_clean isQueryChar hquery
  obtain ⟨fragment, hfragment⟩ := readPart?_of_clean isFragmentChar hfragment
  refine ⟨quote isPathChar (String.ofList (normalPath path)), query, fragment, ?_⟩
  simp only [Address.readParts, f.splitScheme_eq, f.splitServer_eq, hw, f.user_eq, f.server_eq,
    f.port_eq, bind, Except.bind, hscheme, false_and, if_false, readPart_of_clean isPathChar hpath,
    hquery, hfragment, f.scheme_eq]

theorem splitScheme_subset (cs : List Char) : (splitScheme cs).2 ⊆ cs := by
  unfold splitScheme
  have hsplit := splitWhere_eq (fun c => !isSchemeChar c) cs
  rcases hs : splitWhere (fun c => !isSchemeChar c) cs with ⟨name, tail⟩
  rw [hs] at hsplit
  have htail : ∀ rest, tail = ':' :: rest → rest ⊆ cs := by
    intro rest hrest c hc
    rw [← hsplit, hrest]
    exact List.mem_append_right name (List.mem_cons_of_mem ':' hc)
  split
  · next rest heq => exact htail rest (Prod.mk.inj heq).2
  · next c name' rest heq =>
    split
    · exact htail rest (Prod.mk.inj heq).2
    · exact List.Subset.refl cs
  · exact List.Subset.refl cs

theorem splitServer_subset (cs : List Char) : (splitServer cs).2 ⊆ cs := by
  unfold splitServer
  split
  · next rest =>
    intro c hc
    exact List.mem_cons_of_mem _ (List.mem_cons_of_mem _ ((List.dropWhile_sublist _).subset hc))
  · exact List.Subset.refl cs

theorem Front.rest_subset {cs : List Char} {a : Address} (f : Front cs a) : f.rest ⊆ cs := by
  have hbehind := splitScheme_subset cs
  have hrest := splitServer_subset f.behind
  rw [f.splitScheme_eq] at hbehind
  rw [f.splitServer_eq] at hrest
  exact List.Subset.trans hrest hbehind

theorem Front.ne_nil {cs : List Char} {a : Address} (f : Front cs a)
    (hplaced : a.isPlaced = true) : f.scheme ≠ [] ∧ f.authority ≠ [] := by
  simp only [isPlaced, Bool.and_eq_true, bne_iff_ne] at hplaced
  constructor
  · intro hnil
    have := f.scheme_eq
    rw [hnil] at this
    exact hplaced.1 this
  · intro hnil
    have hserver := f.server_eq
    rw [hnil] at hserver
    exact hplaced.2 (Except.ok.inj hserver).symm

def Front.append {cs : List Char} {a : Address} (f : Front cs a) (hscheme : f.scheme ≠ [])
    (hauthority : f.authority ≠ []) (ds : List Char) : Front (cs ++ '/' :: ds) a :=
  { f with
    behind := f.behind ++ '/' :: ds
    rest := f.rest ++ '/' :: ds
    splitScheme_eq := splitScheme_append f.splitScheme_eq hscheme ds
    splitServer_eq := splitServer_append f.splitServer_eq hauthority ds }

theorem ofText_eq_ok_iff (s : String) (a : Address) :
    ofText s = .ok a ↔ s.toList.length ≤ 65536 ∧ (∀ c ∈ s.toList, isControl c = false) ∧
      readParts s.toList = .ok a := by
  obtain ⟨before, hbefore⟩ : ∃ l, l = s.toList.takeWhile fun c => !isControl c := ⟨_, rfl⟩
  have hdrop : s.toList.drop before.length = s.toList.dropWhile fun c => !isControl c := by
    calc s.toList.drop before.length
        = (before ++ s.toList.dropWhile fun c => !isControl c).drop before.length := by
          rw [hbefore, List.takeWhile_append_dropWhile]
      _ = s.toList.dropWhile fun c => !isControl c := List.drop_left
  have hnil : s.toList.drop before.length = [] ↔ ∀ c ∈ s.toList, isControl c = false := by
    rw [hdrop, List.dropWhile_eq_nil_iff]
    simp
  unfold ofText
  dsimp only
  rw [← hbefore]
  by_cases hlong : 65536 < s.toList.length
  · have hnot : ¬ s.toList.length ≤ 65536 := Nat.not_le.mpr hlong
    simp [hlong, hnot]
  · have hshort : s.toList.length ≤ 65536 := Nat.not_lt.mp hlong
    rw [if_neg hlong]
    cases hd : s.toList.drop before.length with
    | nil =>
      have hcontrol := hnil.mp hd
      exact ⟨fun hparts => ⟨hshort, hcontrol, hparts⟩, fun hparts => hparts.2.2⟩
    | cons c rest =>
      have hcontrol : ¬ ∀ c ∈ s.toList, isControl c = false := by
        rw [← hnil, hd]
        exact List.cons_ne_nil c rest
      simp [hcontrol]

/-- A clean text behind an address, from a slash on, changes only what is behind the server. -/
theorem ofText_append {base suffix : String} {more : List Char} {a : Address}
    (h : ofText base = .ok a) (hplaced : a.isPlaced = true) (hbase : hasLoneUnit base = false)
    (hsuffix : suffix.toList = '/' :: more) (hclean : ∀ c ∈ more, IsClean c)
    (hlength : base.length + suffix.length ≤ 65536) : ∃ path query fragment,
      ofText (base ++ suffix) =
        .ok { a with path := path, query := query, fragment := fragment } := by
  obtain ⟨_, hcontrol, hparts⟩ := (ofText_eq_ok_iff base a).mp h
  obtain ⟨f⟩ := front_of_readParts hparts
  obtain ⟨hscheme, hauthority⟩ := f.ne_nil hplaced
  have hwhole : ∀ c ∈ base.toList, loneUnit? c = none := by
    intro c hc
    have := List.any_eq_false.mp hbase c hc
    simpa using this
  have hslash : IsClean '/' := ⟨by decide, loneUnit?_eq_none (by decide)⟩
  have hread : ∀ c ∈ (f.append hscheme hauthority more).rest, loneUnit? c = none := by
    intro c hc
    rcases List.mem_append.mp hc with hold | hnew
    · exact hwhole c (f.rest_subset hold)
    · rcases List.mem_cons.mp hnew with rfl | hmore
      · exact hslash.2
      · exact (hclean c hmore).2
  obtain ⟨path, query, fragment, happended⟩ :=
    (f.append hscheme hauthority more).readParts hscheme hread
  refine ⟨path, query, fragment, (ofText_eq_ok_iff _ _).mpr ⟨?_, ?_, ?_⟩⟩
  · rwa [String.toList_append, List.length_append, String.length_toList, String.length_toList]
  · rw [String.toList_append, hsuffix]
    intro c hc
    rcases List.mem_append.mp hc with hold | hnew
    · exact hcontrol c hold
    · rcases List.mem_cons.mp hnew with rfl | hmore
      · exact hslash.1
      · exact (hclean c hmore).1
  · rw [String.toList_append, hsuffix]
    exact happended

end Address

/-! What may stand in the name of a repository or a commit. -/

open Address (IsClean)

theorem isClean_of_range {c : Char} (h : 0x20 ≤ c.toNat ∧ c.toNat ≠ 0x7F ∧ c.toNat < 0x10D800) :
    IsClean c := by
  refine ⟨?_, loneUnit?_eq_none h.2.2⟩
  simp only [Address.isControl, Bool.or_eq_false_iff, decide_eq_false_iff_not, beq_eq_false_iff_ne]
  exact ⟨Nat.not_lt.mpr h.1, h.2.1⟩

theorem isClean_of_isDigit {c : Char} (h : Hex.isDigit c = true) : IsClean c := by
  have hrange := (isDigit_iff c).mp h
  apply isClean_of_range
  omega

theorem isClean_of_isWordChar {c : Char} (h : isWordChar c = true) : IsClean c := by
  apply isClean_of_range
  unfold isWordChar at h
  split at h
  · next hascii =>
    rw [Bool.or_eq_true, beq_iff_eq] at h
    rcases h with h | rfl
    · have hupper : c.isUpper = decide ('A'.val ≤ c.val ∧ c.val ≤ 'Z'.val) := rfl
      have hlower : c.isLower = (decide ('a'.val ≤ c.val) && decide (c.val ≤ 'z'.val)) := rfl
      have hdigit : c.isDigit = (decide ('0'.val ≤ c.val) && decide (c.val ≤ '9'.val)) := rfl
      have hA : 'A'.val ≤ c.val ↔ 65 ≤ c.toNat := Iff.rfl
      have hZ : c.val ≤ 'Z'.val ↔ c.toNat ≤ 90 := Iff.rfl
      have ha : 'a'.val ≤ c.val ↔ 97 ≤ c.toNat := Iff.rfl
      have hz : c.val ≤ 'z'.val ↔ c.toNat ≤ 122 := Iff.rfl
      have h0 : '0'.val ≤ c.val ↔ 48 ≤ c.toNat := Iff.rfl
      have h9 : c.val ≤ '9'.val ↔ c.toNat ≤ 57 := Iff.rfl
      have hword : c.isAlphanum = ((c.isUpper || c.isLower) || c.isDigit) := rfl
      simp only [hword, hupper, hlower, hdigit, Bool.or_eq_true, Bool.and_eq_true,
        decide_eq_true_eq, hA, hZ, ha, hz, h0, h9] at h
      omega
    · decide
  · next hbeyond =>
    have htable : ∀ r ∈ WordChar.ranges, r.2 ≤ 0xE01EF := by decide +kernel
    obtain ⟨r, hr, hin⟩ := List.any_eq_true.mp h
    have hbound := htable r hr
    simp only [Bool.and_eq_true, decide_eq_true_eq] at hin
    omega

theorem isClean_of_isSegmentChar {c : Char} (h : isSegmentChar c = true) : IsClean c := by
  simp only [isSegmentChar, Bool.or_eq_true, beq_iff_eq] at h
  rcases h with (hword | rfl) | rfl
  · exact isClean_of_isWordChar hword
  · exact isClean_of_range (by decide)
  · exact isClean_of_range (by decide)

/-- A name of a repository has an owner in front of its slash and a name behind it. -/
theorem exists_owner {s : String} (h : repositoryBounds.broken? s = none) :
    ∃ owner name : String, s = owner ++ "/" ++ name ∧
      (∀ c ∈ owner.toList, isSegmentChar c = true) ∧
      ∀ c ∈ name.toList, isSegmentChar c = true := by
  obtain ⟨_, _, hpattern⟩ := (TextBounds.broken?_eq_none_iff _ s).mp h
  have hname : isRepositoryName s.toList = true := hpattern _ rfl
  unfold isRepositoryName at hname
  split at hname
  · next owner name hpieces =>
    simp only [isSegment, Bool.and_eq_true, List.all_eq_true] at hname
    refine ⟨String.ofList owner, String.ofList name, ?_, by simpa using hname.1.2,
      by simpa using hname.2.2⟩
    have hjoined := ServerName.joinWith_pieces '/' s.toList
    rw [hpieces] at hjoined
    rw [← String.toList_inj, ← hjoined]
    simp [ServerName.joinWith]
  · cases hname

/-- A question about a repository and commits that are named as callers may name them. -/
structure Question.Accepted (q : Question) : Prop where
  repository : repositoryBounds.broken? q.repository = none
  ancestor : (shaBounds 1).broken? q.ancestor = none
  descendant : (shaBounds 1).broken? q.descendant = none

theorem clean_of_sha {s : String} (h : (shaBounds 1).broken? s = none) :
    s.length ≤ 64 ∧ ∀ c ∈ s.toList, IsClean c := by
  obtain ⟨_, hmost, hpattern⟩ := (TextBounds.broken?_eq_none_iff _ s).mp h
  refine ⟨hmost 64 rfl, ?_⟩
  intro c hc
  have hdigits := hpattern hexPattern rfl
  simp only [hexPattern, Bool.and_eq_true, List.all_eq_true] at hdigits
  exact isClean_of_isDigit (hdigits.2 c hc)

theorem clean_of_repository {s : String} (h : repositoryBounds.broken? s = none) :
    s.length ≤ 255 ∧ ∀ c ∈ s.toList, IsClean c := by
  obtain ⟨_, hmost, _⟩ := (TextBounds.broken?_eq_none_iff _ s).mp h
  obtain ⟨owner, name, rfl, howner, hname⟩ := exists_owner h
  refine ⟨hmost 255 rfl, ?_⟩
  intro c hc
  have hslash : "/".toList = ['/'] := rfl
  simp only [String.toList_append, hslash, List.mem_append, List.mem_singleton] at hc
  rcases hc with (hc | rfl) | hc
  · exact isClean_of_isSegmentChar (howner c hc)
  · exact isClean_of_range (by decide)
  · exact isClean_of_isSegmentChar (hname c hc)

namespace Client

/-- The client is open, its base is an address that leaves room for a question, and everything in
front of the path and in the headers is of ASCII. -/
structure Ready (c : Client) : Prop where
  isOpen : c.connection ≠ .shared true
  base : ∃ a, Address.ofText c.base = .ok a ∧ a.isPlaced = true ∧ c.headerFault? a = none
  whole : hasLoneUnit c.base = false
  room : c.base.length ≤ 65000

def reposPart : List Char := ['r', 'e', 'p', 'o', 's', '/']

def comparePart : List Char := ['/', 'c', 'o', 'm', 'p', 'a', 'r', 'e', '/']

def dotsPart : List Char := ['.', '.', '.']

/-- What a question adds to the base of a client, behind the first slash. -/
def below (q : Question) : List Char :=
  reposPart ++ q.repository.toList ++ comparePart ++ q.ancestor.toList ++ dotsPart ++
    q.descendant.toList

theorem toList_below (q : Question) : ("/repos/" ++ q.repository ++ "/compare/" ++ q.ancestor ++
    "..." ++ q.descendant).toList = '/' :: below q := by
  have hrepos : "/repos/".toList = '/' :: reposPart := by decide
  have hcompare : "/compare/".toList = comparePart := by decide
  have hdots : "...".toList = dotsPart := by decide
  simp only [String.toList_append, hrepos, hcompare, hdots, below, List.cons_append]

theorem addressText_eq (c : Client) (q : Question) : ∃ suffix : String,
    c.addressText q = c.base ++ suffix ∧ suffix.toList = '/' :: below q := by
  refine ⟨_, ?_, toList_below q⟩
  simp only [addressText, String.append_assoc]

theorem below_of_accepted {q : Question} (hq : q.Accepted) :
    (below q).length ≤ 401 ∧ ∀ c ∈ below q, IsClean c := by
  obtain ⟨hlongRepository, hrepository⟩ := clean_of_repository hq.repository
  obtain ⟨hlongAncestor, hancestor⟩ := clean_of_sha hq.ancestor
  obtain ⟨hlongDescendant, hdescendant⟩ := clean_of_sha hq.descendant
  have hfixed : ∀ c ∈ reposPart ++ comparePart ++ dotsPart,
      0x20 ≤ c.toNat ∧ c.toNat ≠ 0x7F ∧ c.toNat < 0x10D800 := by
    have hall : (reposPart ++ comparePart ++ dotsPart).all (fun c =>
        decide (0x20 ≤ c.toNat ∧ c.toNat ≠ 0x7F ∧ c.toNat < 0x10D800)) = true := by
      decide
    intro c hc
    exact of_decide_eq_true (List.all_eq_true.mp hall c hc)
  constructor
  · have hrepos : reposPart.length = 6 := rfl
    have hcompare : comparePart.length = 9 := rfl
    have hdots : dotsPart.length = 3 := rfl
    simp only [below, List.length_append, String.length_toList, hrepos, hcompare, hdots]
    omega
  · intro c hc
    simp only [below, List.mem_append] at hc hfixed
    rcases hc with ((((hc | hc) | hc) | hc) | hc) | hc
    · exact isClean_of_range (hfixed c (Or.inl (Or.inl hc)))
    · exact hrepository c hc
    · exact isClean_of_range (hfixed c (Or.inl (Or.inr hc)))
    · exact hancestor c hc
    · exact isClean_of_range (hfixed c (Or.inr hc))
    · exact hdescendant c hc

/-- The headers depend on what is in front of the path only. -/
theorem headerFault?_congr (c : Client) {a b : Address} (ha : a.isPlaced = true)
    (hb : b.isPlaced = true) (hserver : a.serverText = b.serverText) :
    c.headerFault? a = c.headerFault? b := by
  rw [headerFault?, headerFault?, Address.target_of_isPlaced ha, Address.target_of_isPlaced hb,
    hserver]

theorem Ready.destination {c : Client} (h : c.Ready) {q : Question} (hq : q.Accepted) :
    ∃ address, c.destination q = .ok address ∧ address.isPlaced = true := by
  obtain ⟨a, ha, hplaced, hheaders⟩ := h.base
  obtain ⟨hlong, hclean⟩ := below_of_accepted hq
  obtain ⟨suffix, htext, hsuffix⟩ := addressText_eq c q
  have hlength : c.base.length + suffix.length ≤ 65536 := by
    have hroom := h.room
    have hsize : suffix.length = (below q).length + 1 := by
      rw [← String.length_toList, hsuffix, List.length_cons]
    omega
  obtain ⟨path, query, fragment, haddress⟩ :=
    Address.ofText_append ha hplaced h.whole hsuffix hclean hlength
  obtain ⟨b, hb⟩ : ∃ b, b = { a with path := path, query := query, fragment := fragment } :=
    ⟨_, rfl⟩
  have hplaced' : b.isPlaced = true := by
    rw [hb]
    exact hplaced
  have hheaders' : c.headerFault? b = none := by
    rw [c.headerFault?_congr hplaced' hplaced (by rw [hb]; rfl), hheaders]
  refine ⟨b, ?_, hplaced'⟩
  rw [Client.destination, htext, haddress, ← hb]
  simp only [hheaders', if_neg h.isOpen]

end Client

end DeployRegistry
