import DeployRegistry.Proofs.Addressing
import DeployRegistry.Proofs.Remembering

/-!
# Where requests go

The path of an address holds no segments `.` and `..`; they are taken away, and `..` takes the
segment in front of it along. So what is written behind a base stays behind it, if it has no such
segments of its own. The main statements are `Address.ofText_below`, on addresses, and
`Client.requests_below`, on the requests of a client. The names of repositories that callers may use
can have such segments, and lead away from the base (`Client.requests_elsewhere`).
-/

namespace DeployRegistry

set_option autoImplicit false

open Form Number Text ServerName

namespace Address

/-- There is no segment `.` and no segment `..`. -/
def Undotted (segments : List (List Char)) : Prop :=
  ∀ segment ∈ segments, segment ≠ ['.'] ∧ segment ≠ ['.', '.']

/-! Segments without dots are only added. -/

theorem climb_append (segments more : List (List Char)) :
    ∀ done, climb done (segments ++ more) = climb (climb done segments) more := by
  induction segments with
  | nil => exact fun done => rfl
  | cons segment rest ih =>
    intro done
    simp only [List.cons_append, climb, ih]
    split
    · rfl
    · split <;> rfl

theorem climb_of_undotted {segments : List (List Char)} (h : Undotted segments) :
    ∀ done, climb done segments = done ++ segments := by
  induction segments with
  | nil => exact fun done => (List.append_nil done).symm
  | cons segment rest ih =>
    intro done
    obtain ⟨⟨hone, htwo⟩, hrest⟩ := List.forall_mem_cons.mp h
    rw [climb, if_neg hone, if_neg htwo, ih hrest, List.append_assoc, List.singleton_append]

/-- The root is never left. -/
theorem head?_climb (segments : List (List Char)) :
    ∀ done, done.head? = some [] → (climb done segments).head? = some [] := by
  induction segments with
  | nil => exact fun done h => h
  | cons segment rest ih =>
    intro done h
    obtain ⟨later, rfl⟩ := List.head?_eq_some_iff.mp h
    rw [climb]
    split
    · exact ih _ h
    split
    · apply ih
      cases later <;> simp
    · exact ih _ rfl

theorem normalPath_eq (cs : List Char) :
    normalPath cs = joinWith '/' (climb [] (pieces (· == '/') cs)) := by
  unfold normalPath
  dsimp only
  split
  · rfl
  · next h =>
    have hundotted : Undotted (pieces (· == '/') cs) := by
      intro segment hsegment
      simp only [List.contains_eq_mem, Bool.or_eq_true, decide_eq_true_eq, not_or] at h
      constructor
      · rintro rfl
        exact h.1 hsegment
      · rintro rfl
        exact h.2 hsegment
    rw [climb_of_undotted hundotted, List.nil_append, joinWith_pieces]

/-- What is written behind a path that is empty or starts at the root stays there. -/
theorem normalPath_append {front more : List Char} (hfront : ∀ c ∈ front.head?, c = '/')
    (hmore : Undotted (pieces (· == '/') more)) :
    normalPath (front ++ '/' :: more) = normalPath front ++ '/' :: more := by
  have hroot : (climb [] (pieces (· == '/') front)).head? = some [] := by
    obtain ⟨rest, hrest⟩ : ∃ rest, pieces (· == '/') front = [] :: rest := by
      cases front with
      | nil => exact ⟨[], rfl⟩
      | cons c tail =>
        obtain rfl := hfront c rfl
        exact ⟨_, rfl⟩
    rw [hrest]
    exact head?_climb rest [[]] rfl
  have hne : climb [] (pieces (· == '/') front) ≠ [] := by
    intro hnil
    rw [hnil] at hroot
    cases hroot
  rw [normalPath_eq, normalPath_eq, pieces_append (p := (· == '/')) rfl, climb_append,
    climb_of_undotted hmore, joinWith_append '/' hne (pieces_ne_nil _ more), joinWith_pieces]

/-! What is read behind the server. -/

theorem readPart_eq_ok_iff (safe : Char → Bool) (cs : List Char) (s : String) :
    readPart safe cs = .ok s ↔
      (∀ c ∈ cs, loneUnit? c = none) ∧ s = quote safe (String.ofList cs) := by
  constructor
  · intro h
    rw [readPart] at h
    split at h
    · cases h
    · next hnone =>
      cases h
      refine ⟨fun c hc => ?_, rfl⟩
      simpa using List.find?_eq_none.mp hnone c hc
  · rintro ⟨hclean, rfl⟩
    exact readPart_of_clean safe hclean

theorem readPart_append {safe : Char → Bool} {cs more : List Char} {s : String}
    (h : readPart safe cs = .ok s) (hmore : ∀ c ∈ more, loneUnit? c = none) :
    readPart safe (cs ++ more) = .ok (s ++ quote safe (String.ofList more)) := by
  obtain ⟨hcs, rfl⟩ := (readPart_eq_ok_iff safe cs s).mp h
  rw [← quote_append, ← String.ofList_append]
  exact readPart_of_clean safe fun c hc => (List.mem_append.mp hc).elim (hcs c) (hmore c)

def isPathEnd (c : Char) : Bool := c == '?' || c == '#'

variable {cs : List Char} {a : Address}

theorem Front.reads (f : Front cs a) (hscheme : f.scheme ≠ []) (h : Address.readParts cs = .ok a) :
    readPart isPathChar (normalPath (splitWhere isPathEnd f.rest).1) = .ok a.path ∧
    readPart? isQueryChar ((behind? '?' (splitWhere isPathEnd f.rest).2).map fun more =>
      (splitWhere (· == '#') more).1) = .ok a.query ∧
    readPart? isFragmentChar
      (behind? '#' (splitWhere (· == '#') (splitWhere isPathEnd f.rest).2).2) =
        .ok a.fragment := by
  have hend : isPathEnd = fun c => c == '?' || c == '#' := rfl
  simp only [Address.readParts, f.splitScheme_eq, f.splitServer_eq, f.user_eq, f.server_eq,
    f.port_eq, bind, Except.bind, hscheme, false_and, if_false, ← hend] at h
  cases hpath : readPart isPathChar (normalPath (splitWhere isPathEnd f.rest).1) with
  | error flaw => simp [hpath] at h
  | ok path =>
  cases hquery : readPart? isQueryChar ((behind? '?' (splitWhere isPathEnd f.rest).2).map
      fun more => (splitWhere (· == '#') more).1) with
  | error flaw => simp [hpath, hquery] at h
  | ok query =>
  cases hfragment : readPart? isFragmentChar
      (behind? '#' (splitWhere (· == '#') (splitWhere isPathEnd f.rest).2).2) with
  | error flaw => simp [hpath, hquery, hfragment] at h
  | ok fragment =>
  simp only [hpath, hquery, hfragment, Except.ok.injEq] at h
  refine ⟨?_, ?_, ?_⟩
  all_goals rw [← h]

theorem head?_splitWhere {p : Char → Bool} {cs : List Char} {c : Char}
    (h : c ∈ (splitWhere p cs).2.head?) : p c = true := by
  have hfound : cs.find? p = some c := by
    rw [List.find?_eq_head?_dropWhile_not]
    simpa [splitWhere] using h
  exact List.find?_some hfound

/-- Behind the server there is a slash or a mark. -/
theorem Front.head?_rest (f : Front cs a) (hauthority : f.authority ≠ []) :
    ∀ c ∈ f.rest.head?, c = '/' ∨ isPathEnd c = true := by
  have hserver := f.splitServer_eq
  unfold splitServer at hserver
  split at hserver
  · next tail _ =>
    intro c hc
    have hrest : f.rest = (splitWhere (fun c => c == '/' || c == '?' || c == '#') tail).2 := by
      rw [hserver]
    rw [hrest] at hc
    have hmark := head?_splitWhere hc
    rwa [Bool.or_assoc, Bool.or_eq_true, beq_iff_eq] at hmark
  · exact absurd (Prod.mk.inj hserver).1.symm hauthority

theorem none_of_readPart? {safe : Char → Bool} {part : Option (List Char)}
    (h : readPart? safe part = .ok none) : part = none := by
  cases part with
  | none => rfl
  | some cs =>
    rw [readPart?] at h
    cases hread : readPart safe cs with
    | error flaw => simp [hread, Except.map] at h
    | ok s => simp [hread, Except.map] at h

/-- Without a query and a fragment, all that is behind the server is the path. -/
theorem Front.splitWhere_rest (f : Front cs a) (hscheme : f.scheme ≠ [])
    (h : Address.readParts cs = .ok a) (hquery : a.query = none) (hfragment : a.fragment = none) :
    splitWhere isPathEnd f.rest = (f.rest, []) := by
  obtain ⟨-, hreadQuery, hreadFragment⟩ := f.reads hscheme h
  rw [hquery] at hreadQuery
  rw [hfragment] at hreadFragment
  have hnoQuery := none_of_readPart? hreadQuery
  have hnoFragment := none_of_readPart? hreadFragment
  have hwhole := splitWhere_eq isPathEnd f.rest
  rcases hsplit : splitWhere isPathEnd f.rest with ⟨path, more⟩
  rw [hsplit] at hnoQuery hnoFragment hwhole
  cases more with
  | nil => rw [← hwhole, List.append_nil]
  | cons c more =>
    have hhead : c ∈ (splitWhere isPathEnd f.rest).2.head? := by
      rw [hsplit]
      rfl
    have hmark : isPathEnd c = true := head?_splitWhere hhead
    rw [isPathEnd, Bool.or_eq_true, beq_iff_eq, beq_iff_eq] at hmark
    rcases hmark with rfl | rfl
    · simp [behind?] at hnoQuery
    · simp [splitWhere, behind?] at hnoFragment

theorem splitWhere_eq_self_iff {p : Char → Bool} {cs : List Char} :
    splitWhere p cs = (cs, []) ↔ ∀ c ∈ cs, p c = false := by
  rw [splitWhere, Prod.mk.injEq, List.dropWhile_eq_nil_iff, List.takeWhile_eq_self_iff, and_self]
  simp only [Bool.not_eq_eq_eq_not, Bool.not_true]

/-- A path behind a base goes on behind the path of the base, if it has no segments of dots. -/
theorem readParts_below (h : Address.readParts cs = .ok a) (hplaced : a.isPlaced = true)
    (hquery : a.query = none) (hfragment : a.fragment = none) {more : List Char}
    (hclean : ∀ c ∈ more, loneUnit? c = none) (hinside : ∀ c ∈ more, isPathEnd c = false)
    (hundotted : Undotted (pieces (· == '/') more)) :
    Address.readParts (cs ++ '/' :: more) =
      .ok { a with path := a.path ++ quote isPathChar (String.ofList ('/' :: more)) } := by
  obtain ⟨f⟩ := front_of_readParts h
  obtain ⟨hscheme, hauthority⟩ := f.ne_nil hplaced
  have hsplit := f.splitWhere_rest hscheme h hquery hfragment
  obtain ⟨hpath, -, -⟩ := f.reads hscheme h
  rw [hsplit] at hpath
  have hrest := splitWhere_eq_self_iff.mp hsplit
  have hroot : ∀ c ∈ f.rest.head?, c = '/' := by
    intro c hc
    rcases f.head?_rest hauthority c hc with hslash | hend
    · exact hslash
    · rw [hrest c (List.mem_of_mem_head? hc)] at hend
      cases hend
  have hslash : loneUnit? '/' = none := loneUnit?_eq_none (by decide)
  have hpaths : readPart isPathChar (normalPath (f.rest ++ '/' :: more)) =
      .ok (a.path ++ quote isPathChar (String.ofList ('/' :: more))) := by
    rw [normalPath_append hroot hundotted]
    exact readPart_append hpath (List.forall_mem_cons.mpr ⟨hslash, hclean⟩)
  have hwhole : splitWhere (fun c => c == '?' || c == '#') (f.rest ++ '/' :: more) =
      (f.rest ++ '/' :: more, []) := by
    apply splitWhere_eq_self_iff.mpr
    intro c hc
    rcases List.mem_append.mp hc with hold | hnew
    · exact hrest c hold
    · rcases List.mem_cons.mp hnew with rfl | hmore
      · decide
      · exact hinside c hmore
  obtain ⟨g, hgrest, hgscheme⟩ : ∃ g : Front (cs ++ '/' :: more) a,
      g.rest = f.rest ++ '/' :: more ∧ g.scheme ≠ [] :=
    ⟨f.append hscheme hauthority more, rfl, hscheme⟩
  rw [← hgrest] at hwhole hpaths
  simp only [Address.readParts, g.splitScheme_eq, g.splitServer_eq, hwhole, g.user_eq, g.server_eq,
    g.port_eq, bind, Except.bind, hgscheme, false_and, if_false, hpaths, ← g.scheme_eq, hquery,
    hfragment]
  rfl

theorem ofText_below {base suffix : String} {more : List Char} {b : Address}
    (h : ofText base = .ok a) (hplaced : a.isPlaced = true) (hquery : a.query = none)
    (hfragment : a.fragment = none) (hsuffix : suffix.toList = '/' :: more)
    (hclean : ∀ c ∈ more, loneUnit? c = none) (hinside : ∀ c ∈ more, isPathEnd c = false)
    (hundotted : Undotted (pieces (· == '/') more)) (hb : ofText (base ++ suffix) = .ok b) :
    b = { a with path := a.path ++ quote isPathChar suffix } := by
  obtain ⟨_, _, hparts⟩ := (ofText_eq_ok_iff base a).mp h
  obtain ⟨_, _, hwhole⟩ := (ofText_eq_ok_iff (base ++ suffix) b).mp hb
  rw [String.toList_append, hsuffix,
    readParts_below hparts hplaced hquery hfragment hclean hinside hundotted, ← hsuffix,
    String.ofList_toList] at hwhole
  exact (Except.ok.inj hwhole).symm

/-- Addresses that differ in the path only have different texts. -/
theorem path_inj {first second : String} (hquery : a.query = none) (hfragment : a.fragment = none)
    (h : text { a with path := a.path ++ first } = text { a with path := a.path ++ second }) :
    first = second := by
  simp only [text, hquery, hfragment, authorityText, serverText, ← String.toList_inj,
    String.toList_append, List.append_assoc, List.append_cancel_left_eq,
    List.append_cancel_right_eq] at h
  exact String.toList_inj.mp h

end Address

/-! What a question writes behind the base. -/

theorem isSegmentChar_of_isDigit {c : Char} (h : Hex.isDigit c = true) :
    isSegmentChar c = true := by
  have htable : ∀ n < 103, Hex.isDigit (Char.ofNat n) = true →
      isSegmentChar (Char.ofNat n) = true := by
    decide
  have hrange := (isDigit_iff c).mp h
  have hc := htable c.toNat (by omega)
  rw [Char.ofNat_toNat] at hc
  exact hc h

/-- Of the characters in names, the path of an address holds those of ASCII as they are. -/
theorem isPathChar_eq_isAscii {c : Char} (h : isSegmentChar c = true) :
    Address.isPathChar c = isAscii c := by
  have htable : ∀ n < 128, isSegmentChar (Char.ofNat n) = true →
      Address.isPathChar (Char.ofNat n) = true := by
    decide
  by_cases hascii : c.toNat < 128
  · have hc := htable c.toNat hascii
    rw [Char.ofNat_toNat] at hc
    rw [hc h, isAscii, decide_eq_true hascii]
  · have hbeyond : ¬ c.toNat < 127 := fun hlt => hascii (Nat.lt_succ_of_lt hlt)
    simp [Address.isPathChar, Address.visibleExcept, isAscii, hascii, hbeyond]

theorem ne_slash_of_isSegmentChar {c : Char} (h : isSegmentChar c = true) :
    (c == '/') = false := by
  rw [beq_eq_false_iff_ne]
  rintro rfl
  exact absurd h (by decide)

/-- No character in names ends a path. -/
theorem not_isPathEnd_of_isSegmentChar {c : Char} (h : isSegmentChar c = true) :
    Address.isPathEnd c = false := by
  rw [Address.isPathEnd, Bool.or_eq_false_iff, beq_eq_false_iff_ne, beq_eq_false_iff_ne]
  constructor
  · rintro rfl
    exact absurd h (by decide)
  · rintro rfl
    exact absurd h (by decide)

theorem digits_of_sha {s : String} (h : (shaBounds 1).broken? s = none) :
    ∀ c ∈ s.toList, Hex.isDigit c = true := by
  obtain ⟨_, _, _, hdigits⟩ := (broken?_shaBounds_iff 1 s).mp h
  exact List.all_eq_true.mp hdigits

namespace Question

/-- Neither the owner nor the name of the repository is a segment of dots. -/
def Stays (q : Question) : Prop := Address.Undotted (pieces (· == '/') q.repository.toList)

variable {q r : Question}

/-- The last segment that a question writes. -/
def comparison (q : Question) : List Char :=
  q.ancestor.toList ++ Client.dotsPart ++ q.descendant.toList

theorem Accepted.mem_comparison (h : q.Accepted) {c : Char} (hc : c ∈ q.comparison) :
    isSegmentChar c = true := by
  simp only [comparison, List.mem_append] at hc
  rcases hc with (hancestor | hdot) | hdescendant
  · exact isSegmentChar_of_isDigit (digits_of_sha h.ancestor c hancestor)
  · have hall : Client.dotsPart.all isSegmentChar = true := by decide
    exact List.all_eq_true.mp hall c hdot
  · exact isSegmentChar_of_isDigit (digits_of_sha h.descendant c hdescendant)

def reposSegment : List Char := ['r', 'e', 'p', 'o', 's']

def compareSegment : List Char := ['c', 'o', 'm', 'p', 'a', 'r', 'e']

theorem isSegmentChar_of_fixed :
    (∀ c ∈ reposSegment, isSegmentChar c = true) ∧ ∀ c ∈ compareSegment, isSegmentChar c = true := by
  have hall : (reposSegment ++ compareSegment).all isSegmentChar = true := by decide
  rwa [List.all_append, Bool.and_eq_true, List.all_eq_true, List.all_eq_true] at hall

theorem below_eq (q : Question) : Client.below q =
    reposSegment ++ '/' :: (q.repository.toList ++ '/' :: (compareSegment ++ '/' :: q.comparison)) := by
  simp [Client.below, Client.reposPart, Client.comparePart, reposSegment, compareSegment,
    comparison]

theorem Accepted.pieces_below (h : q.Accepted) : pieces (· == '/') (Client.below q) =
    reposSegment :: (pieces (· == '/') q.repository.toList ++ [compareSegment, q.comparison]) := by
  obtain ⟨hrepos, hcompare⟩ := isSegmentChar_of_fixed
  have hcomparison : ∀ c ∈ q.comparison, (c == '/') = false := fun c hc =>
    ne_slash_of_isSegmentChar (h.mem_comparison hc)
  rw [below_eq,
    pieces_append_cons (fun c hc => ne_slash_of_isSegmentChar (hrepos c hc)) rfl,
    pieces_append (p := (· == '/')) rfl,
    pieces_append_cons (fun c hc => ne_slash_of_isSegmentChar (hcompare c hc)) rfl,
    pieces_of_none hcomparison]

/-- The characters that a question writes behind the base. -/
theorem Accepted.mem_below (h : q.Accepted) {c : Char} (hc : c ∈ Client.below q) :
    c = '/' ∨ isSegmentChar c = true := by
  obtain ⟨owner, name, hrepository, howner, hname⟩ := exists_owner h.repository
  obtain ⟨hrepos, hcompare⟩ := isSegmentChar_of_fixed
  have hslash : "/".toList = ['/'] := rfl
  rw [below_eq, hrepository, String.toList_append, String.toList_append, hslash] at hc
  simp only [List.mem_append, List.mem_cons, List.not_mem_nil, or_false] at hc
  rcases hc with hc | hc | ((hc | hc) | hc) | hc | hc | hc | hc
  · exact Or.inr (hrepos c hc)
  · exact Or.inl hc
  · exact Or.inr (howner c hc)
  · exact Or.inl hc
  · exact Or.inr (hname c hc)
  · exact Or.inl hc
  · exact Or.inr (hcompare c hc)
  · exact Or.inl hc
  · exact Or.inr (h.mem_comparison hc)

theorem Accepted.not_mem_percent (h : q.Accepted) : '%' ∉ '/' :: Client.below q := by
  intro hmem
  rcases List.mem_cons.mp hmem with hslash | hbelow
  · exact absurd hslash (by decide)
  rcases h.mem_below hbelow with hslash | hsegment
  · exact absurd hslash (by decide)
  · exact absurd hsegment (by decide)

theorem Accepted.undotted_below (h : q.Accepted) (hstays : q.Stays) :
    Address.Undotted (pieces (· == '/') (Client.below q)) := by
  have hlong : 3 ≤ q.comparison.length := by
    simp [comparison, Client.dotsPart]
    omega
  rw [h.pieces_below]
  intro segment hsegment
  simp only [List.mem_cons, List.mem_append, List.not_mem_nil, or_false] at hsegment
  rcases hsegment with rfl | hrepository | rfl | rfl
  · decide
  · exact hstays segment hrepository
  · decide
  · constructor
    · intro heq
      rw [heq] at hlong
      exact absurd hlong (by decide)
    · intro heq
      rw [heq] at hlong
      exact absurd hlong (by decide)

/-- Commits are told apart by the first dot between them. -/
theorem Accepted.comparison_inj (hq : q.Accepted) (hr : r.Accepted)
    (h : q.comparison = r.comparison) : q.ancestor = r.ancestor ∧ q.descendant = r.descendant := by
  have hsplit : ∀ {q : Question}, q.Accepted → Address.splitWhere (· == '.') q.comparison =
      (q.ancestor.toList, Client.dotsPart ++ q.descendant.toList) := by
    intro q hq
    have hnone : ∀ c ∈ q.ancestor.toList, (c == '.') = false := by
      intro c hc
      have := digits_of_sha hq.ancestor c hc
      rw [beq_eq_false_iff_ne]
      rintro rfl
      exact absurd this (by decide)
    have hwhole := Address.splitWhere_append (p := (· == '.')) q.ancestor.toList (d := '.') rfl
      ('.' :: '.' :: q.descendant.toList)
    rw [Address.splitWhere_eq_self_iff.mpr hnone] at hwhole
    simpa [comparison, Client.dotsPart] using hwhole
  have hpair := (hsplit hq).symm.trans ((congrArg _ h).trans (hsplit hr))
  rw [Prod.mk.injEq, List.append_cancel_left_eq, String.toList_inj, String.toList_inj] at hpair
  exact hpair

theorem Accepted.below_inj (hq : q.Accepted) (hr : r.Accepted)
    (h : Client.below q = Client.below r) : q = r := by
  have hpieces := congrArg (pieces (· == '/')) h
  rw [hq.pieces_below, hr.pieces_below, List.cons.injEq] at hpieces
  obtain ⟨hrepositories, hrest⟩ := List.append_inj' hpieces.2 rfl
  have hrepository : q.repository = r.repository := by
    have := congrArg (joinWith '/') hrepositories
    rwa [joinWith_pieces, joinWith_pieces, String.toList_inj] at this
  have hcomparison : q.comparison = r.comparison := by
    simpa using hrest
  obtain ⟨hancestor, hdescendant⟩ := hq.comparison_inj hr hcomparison
  cases q
  cases r
  simp_all

end Question

namespace Client

variable {c : Client} {a : Address} {q r : Question} {url : String}

/-- The client requests the address in the course of some questions, one of which is this one. -/
def Requests (c : Client) (q : Question) (url : String) : Prop :=
  ∃ (σ : Type) (send : HostRequest → StateM σ Delivery) (host : σ) (inquiries : List Inquiry),
    ∃ t ∈ c.run send host inquiries, t.question = q ∧ ∃ x ∈ t.exchanges, x.request.url = url

theorem Takes.request_eq {t : Turn} (h : c.Takes t) : ∀ x ∈ t.exchanges,
    ∃ address, c.destination t.question = .ok address ∧ x.request = c.request address := by
  have hrequest : ∀ {address : Address} {deliveries : List Delivery},
      ∀ x ∈ c.exchanges address deliveries, x.request = c.request address := by
    intro address deliveries x hx
    obtain ⟨d, _, rfl⟩ := List.mem_map.mp hx
    rfl
  cases h with
  | same h => nofun
  | recalled h hfound => nofun
  | unsent h hmissed hnowhere => nofun
  | learned h hmissed haddress => exact fun x hx => ⟨_, haddress, hrequest x hx⟩
  | unknown h hmissed haddress => exact fun x hx => ⟨_, haddress, hrequest x hx⟩
  | unreadable h hmissed haddress => exact fun x hx => ⟨_, haddress, hrequest x hx⟩
  | failed h hmissed haddress => exact fun x hx => ⟨_, haddress, hrequest x hx⟩

/-- Requests about a question go where the client that was there first would send them. -/
theorem Requests.exists_destination (h : c.Requests q url) :
    ∃ address, c.destination q = .ok address ∧ url = address.target.text := by
  obtain ⟨σ, send, host, inquiries, t, ht, rfl, x, hx, rfl⟩ := h
  have hfollows := (follows_run send inquiries c host).1
  obtain ⟨front, back, hrun⟩ := List.append_of_mem ht
  rw [hrun] at hfollows
  obtain ⟨hfront, hrest⟩ := hfollows.split
  obtain ⟨address, haddress, hrequest⟩ := hrest.uncons.1.request_eq x hx
  rw [hfront.destination_eq] at haddress
  exact ⟨address, haddress, by rw [hrequest]; rfl⟩

/-- Where a question goes whose repository has no segment of dots. -/
theorem destination_below {address : Address} (hbase : Address.ofText c.base = .ok a)
    (hplaced : a.isPlaced = true) (hquery : a.query = none) (hfragment : a.fragment = none)
    (hq : q.Accepted) (hstays : q.Stays) (h : c.destination q = .ok address) :
    address = { a with
      path := a.path ++ quote Address.isPathChar (String.ofList ('/' :: below q)) } := by
  obtain ⟨suffix, htext, hsuffix⟩ := addressText_eq c q
  obtain ⟨hwritten, _⟩ := written_of_destination h
  rw [htext] at hwritten
  have hclean : ∀ c ∈ below q, loneUnit? c = none := fun c hc =>
    ((below_of_accepted hq).2 c hc).2
  have hinside : ∀ c ∈ below q, Address.isPathEnd c = false := by
    intro c hc
    rcases hq.mem_below hc with rfl | hsegment
    · decide
    · exact not_isPathEnd_of_isSegmentChar hsegment
  rw [← hsuffix, String.ofList_toList]
  exact Address.ofText_below hbase hplaced hquery hfragment hsuffix hclean hinside
    (hq.undotted_below hstays) hwritten

theorem Requests.url_eq (h : c.Requests q url) (hbase : Address.ofText c.base = .ok a)
    (hplaced : a.isPlaced = true) (hquery : a.query = none) (hfragment : a.fragment = none)
    (hq : q.Accepted) (hstays : q.Stays) :
    url = Address.text { a with
      path := a.path ++ quote Address.isPathChar (String.ofList ('/' :: below q)) } := by
  obtain ⟨address, haddress, rfl⟩ := h.exists_destination
  rw [destination_below hbase hplaced hquery hfragment hq hstays haddress]
  exact congrArg Address.text (Address.target_of_isPlaced hplaced)

/-- The path that a question adds to the one of the base. -/
theorem quote_below (hq : q.Accepted) {owner name : String}
    (hrepository : q.repository = owner ++ "/" ++ name)
    (howner : ∀ c ∈ owner.toList, isSegmentChar c = true)
    (hname : ∀ c ∈ name.toList, isSegmentChar c = true) :
    quote Address.isPathChar (String.ofList ('/' :: below q)) =
      "/repos/" ++ quote isAscii owner ++ "/" ++ quote isAscii name ++ "/compare/" ++
        q.ancestor ++ "..." ++ q.descendant := by
  have hwritten : String.ofList ('/' :: below q) =
      "/repos/" ++ (owner ++ "/" ++ name) ++ "/compare/" ++ q.ancestor ++ "..." ++
        q.descendant := by
    rw [← hrepository, ← toList_below, String.ofList_toList]
  have hsha : ∀ {s : String}, (shaBounds 1).broken? s = none →
      quote Address.isPathChar s = s := by
    intro s hs
    apply quote_of_safe
    intro c hc
    have hdigit := digits_of_sha hs c hc
    have hrange := (isDigit_iff c).mp hdigit
    rw [isPathChar_eq_isAscii (isSegmentChar_of_isDigit hdigit), isAscii, decide_eq_true_eq]
    omega
  have hfixed : ∀ s ∈ ["/repos/", "/", "/compare/", "..."], quote Address.isPathChar s = s := by
    decide
  simp only [List.forall_mem_cons] at hfixed
  obtain ⟨hrepos, hslash, hcompare, hdots, -⟩ := hfixed
  have howner' := quote_congr fun c hc => isPathChar_eq_isAscii (howner c hc)
  have hname' := quote_congr fun c hc => isPathChar_eq_isAscii (hname c hc)
  simp only [hwritten, quote_append, hsha hq.ancestor, hsha hq.descendant, hrepos, hslash, hcompare,
    hdots, howner', hname', String.append_assoc]

/-- A client that can write requests and remembers nothing makes one. -/
theorem exists_requests (hready : c.Ready) (hempty : c.cache.entries = []) (hq : q.Accepted)
    (hne : q.ancestor ≠ q.descendant) : ∃ url, c.Requests q url := by
  obtain ⟨address, haddress, _⟩ := hready.destination hq
  obtain ⟨t, host, hturn, hi, htakes⟩ :=
    takes_turn scripted c [] ⟨q, default, default, default⟩
  have hquestion : t.question = q := congrArg Inquiry.question hi
  have hsent := htakes.sends (by rwa [hquestion]) (by rw [Cache.entry?, hempty]; rfl)
  rw [hquestion, haddress] at hsent
  obtain ⟨x, hx⟩ := List.exists_mem_of_ne_nil t.exchanges hsent
  refine ⟨x.request.url, _, scripted, [], [⟨q, default, default, default⟩], t, ?_, hquestion, x,
    hx, rfl⟩
  rw [run_cons, hturn]
  exact List.mem_cons_self

/-- Questions about repositories without segments of dots, as callers may name them, on a client
whose base has no query and no fragment: each is requested below the base, under the owner and the
name of its repository, and no two of them are requested at the same address. -/
theorem requests_below (hbase : Address.ofText c.base = .ok a) (hplaced : a.isPlaced = true)
    (hquery : a.query = none) (hfragment : a.fragment = none) :
    (∀ q url, q.Accepted → q.Stays → c.Requests q url →
      ∃ owner name : String, q.repository = owner ++ "/" ++ name ∧
        '/' ∉ owner.toList ∧ '/' ∉ name.toList ∧
        url = Address.text { a with
          path := a.path ++ ("/repos/" ++ quote isAscii owner ++ "/" ++ quote isAscii name ++
            "/compare/" ++ q.ancestor ++ "..." ++ q.descendant) }) ∧
    (∀ q r url, q.Accepted → q.Stays → r.Accepted → r.Stays → c.Requests q url →
      c.Requests r url → q = r) ∧
    (c.Ready → c.cache.entries = [] → ∀ q, q.Accepted → q.ancestor ≠ q.descendant →
      ∃ url, c.Requests q url) := by
  refine ⟨?_, ?_, fun hready hempty q hq hne => exists_requests hready hempty hq hne⟩
  · intro q url hq hstays hrequests
    obtain ⟨owner, name, hrepository, howner, hname⟩ := exists_owner hq.repository
    refine ⟨owner, name, hrepository, ?_, ?_, ?_⟩
    · exact fun hmem => absurd (howner '/' hmem) (by decide)
    · exact fun hmem => absurd (hname '/' hmem) (by decide)
    · rw [hrequests.url_eq hbase hplaced hquery hfragment hq hstays,
        quote_below hq hrepository howner hname]
  · intro q r url hq hqStays hr hrStays hqRequests hrRequests
    have hqUrl := hqRequests.url_eq hbase hplaced hquery hfragment hq hqStays
    have hrUrl := hrRequests.url_eq hbase hplaced hquery hfragment hr hrStays
    have hpath := Address.path_inj hquery hfragment (hqUrl.symm.trans hrUrl)
    have hwritten := quote_injective (by simpa using hq.not_mem_percent)
      (by simpa using hr.not_mem_percent) hpath
    exact hq.below_inj hr (List.cons.inj (String.ofList_injective hwritten)).2

def harbourBase : Address where
  scheme := "https"
  user := ""
  server := "host.test"
  port := none
  path := ""
  query := none
  fragment := none

theorem ofText_harbourBase : Address.ofText harbourClient.base = .ok harbourBase := by
  apply eq_ok_of_toOption
  decide +kernel

theorem accepted_harbourQuestion : harbourQuestion.Accepted where
  repository := by decide +kernel
  ancestor := by decide +kernel
  descendant := by decide +kernel

theorem requests_below_harbour : ∃ (url owner name : String),
    harbourClient.Requests harbourQuestion url ∧ "acme/web" = owner ++ "/" ++ name ∧
      url = Address.text { harbourBase with
        path := "" ++ ("/repos/" ++ quote isAscii owner ++ "/" ++ quote isAscii name ++
          "/compare/" ++ "a" ++ "..." ++ "b") } := by
  have hready : harbourClient.Ready := by
    refine ⟨by decide, ⟨harbourBase, ofText_harbourBase, by decide, by decide +kernel⟩, ?_, ?_⟩
    · decide +kernel
    · decide
  have hstays : harbourQuestion.Stays := by
    unfold Question.Stays Address.Undotted
    decide
  obtain ⟨hbelow, _, hthere⟩ :=
    requests_below ofText_harbourBase (by decide) (by decide) (by decide)
  obtain ⟨url, hurl⟩ := hthere hready rfl harbourQuestion accepted_harbourQuestion (by decide)
  obtain ⟨owner, name, hrepository, _, _, htext⟩ :=
    hbelow harbourQuestion url accepted_harbourQuestion hstays hurl
  exact ⟨url, owner, name, hurl, hrepository, htext⟩

theorem requests_of_turn {i : Inquiry}
    (h : url ∈ (c.turn scripted [] i).1.exchanges.map (·.request.url)) :
    c.Requests i.question url := by
  obtain ⟨x, hx, rfl⟩ := List.mem_map.mp h
  obtain ⟨t, host, hturn, hi, _⟩ := takes_turn scripted c [] i
  refine ⟨_, scripted, [], [i], _, ?_, ?_, x, hx, rfl⟩
  · rw [run_cons]
    exact List.mem_cons_self
  · rw [hturn]
    exact congrArg Inquiry.question hi

/-- A repository whose name leads away from the base. -/
def strayQuestion : Question := ⟨"./..", "a", "b"⟩

theorem requests_elsewhere :
    (strayQuestion.Accepted ∧ ∃ url, harbourClient.Requests strayQuestion url ∧
      ¬ "https://host.test/repos/".toList <+: url.toList) ∧
    ∃ (q r : Question) (url : String), q.Accepted ∧ r.Accepted ∧ q ≠ r ∧
      harbourClient.Requests q url ∧ harbourClient.Requests r url := by
  constructor
  · refine ⟨⟨by decide +kernel, by decide +kernel, by decide +kernel⟩,
      "https://host.test/compare/a...b", ?_, by decide⟩
    apply requests_of_turn (i := ⟨strayQuestion, default, default, default⟩)
    decide +kernel
  · refine ⟨⟨"./web", "a", "b"⟩, ⟨"web/.", "a", "b"⟩, "https://host.test/repos/web/compare/a...b",
      ⟨by decide +kernel, by decide +kernel, by decide +kernel⟩,
      ⟨by decide +kernel, by decide +kernel, by decide +kernel⟩, by decide, ?_, ?_⟩
    · apply requests_of_turn (i := ⟨⟨"./web", "a", "b"⟩, default, default, default⟩)
      decide +kernel
    · apply requests_of_turn (i := ⟨⟨"web/.", "a", "b"⟩, default, default, default⟩)
      decide +kernel

end Client

end DeployRegistry
