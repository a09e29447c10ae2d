import DeployRegistry.Proofs.Readings
import DeployRegistry.Proofs.Writes

/-!
# Pages of a listing

The deployments of a project that a listing is about make one list, the newest first, and a page is
a stretch of that list. Pages that follow each other are the list cut into stretches. The store can
skip only so many deployments, and a listing that would skip more breaks down. The main statement is
`Http.Site.pages_of_listing`.
-/

namespace DeployRegistry

set_option autoImplicit false

open Form Number Text

/-- A restriction that is absent or empty restricts nothing. -/
def Wanted : Option String → String → Prop
  | none, _ => True
  | some wanted, found => wanted = "" ∨ found = wanted

instance (wanted : Option String) (found : String) : Decidable (Wanted wanted found) :=
  match wanted with
  | none => isTrue trivial
  | some text => inferInstanceAs (Decidable (text = "" ∨ found = text))

namespace Deployment

/-- A listing with these restrictions is about the deployment. -/
def Listed (project : String) (environment ref : Option String) (d : Deployment) : Prop :=
  d.project = project ∧ Wanted environment d.environment ∧ Wanted ref d.ref

instance (project : String) (environment ref : Option String) (d : Deployment) :
    Decidable (d.Listed project environment ref) :=
  inferInstanceAs (Decidable (d.project = project ∧ Wanted environment d.environment ∧
    Wanted ref d.ref))

/-- A deployment stands in front of those that were made before it, and of those with a smaller id
that were made at the same time. -/
def StandsBefore (a b : Deployment) : Prop := b.time < a.time ∨ a.time = b.time ∧ b.id < a.id

instance (a b : Deployment) : Decidable (a.StandsBefore b) :=
  inferInstanceAs (Decidable (b.time < a.time ∨ a.time = b.time ∧ b.id < a.id))

theorem StandsBefore.asymm {a b : Deployment} (h : a.StandsBefore b) : ¬ b.StandsBefore a := by
  intro h'
  simp only [StandsBefore, WallTime.lt_def] at h h'
  rcases h with hlt | ⟨heq, hid⟩
  · rcases h' with hlt' | ⟨heq', _⟩
    · omega
    · rw [heq'] at hlt
      omega
  · rcases h' with hlt' | ⟨_, hid'⟩
    · rw [heq] at hlt'
      omega
    · exact String.lt_asymm hid hid'

end Deployment

namespace Store

variable {s : Store} {project : String} {environment ref : Option String} {ds : List Deployment}

/-- The deployments that a listing is about, each in front of those that it stands before. -/
structure IsListing (s : Store) (project : String) (environment ref : Option String)
    (ds : List Deployment) : Prop where
  members : ∀ d, d ∈ ds ↔ d ∈ s.deployments ∧ d.Listed project environment ref
  falling : ds.Pairwise Deployment.StandsBefore

theorem IsListing.nodup (h : s.IsListing project environment ref ds) : ds.Nodup := by
  apply h.falling.imp
  intro a b hab heq
  subst heq
  exact hab.asymm hab

theorem IsListing.eq {others : List Deployment} (h : s.IsListing project environment ref ds)
    (h' : s.IsListing project environment ref others) : others = ds := by
  have hmem : ∀ d, d ∈ others ↔ d ∈ ds := by
    intro d
    rw [h.members, h'.members]
  apply List.Perm.eq_of_pairwise ?_ h'.falling h.falling
  · exact (List.perm_ext_iff_of_nodup h'.nodup h.nodup).mpr hmem
  · intro a b _ _ hab hba
    exact absurd hba hab.asymm

theorem meets_iff_wanted (wanted : Option String) (found : String) :
    meets wanted found = true ↔ Wanted wanted found := by
  cases wanted with
  | none => simp [meets, Wanted]
  | some text =>
    by_cases hempty : text = ""
    · simp [meets, Wanted, Option.filter, hempty]
    · simp [meets, Wanted, Option.filter, hempty]

theorem isListing_listed (hs : (s.deployments.map (·.id)).Nodup) (project : String) (l : Listing) :
    s.IsListing project l.environment l.ref (s.listed project l) where
  members := by
    intro d
    rw [mem_listed_iff, meets_iff_wanted, meets_iff_wanted]
    exact Iff.rfl
  falling := by
    have hids : ((s.listed project l).map (·.id)).Nodup :=
      OrdersBy.nodup_mergeSort (nodup_map_filter hs _)
    have hdistinct : (s.listed project l).Pairwise fun a b => a.id ≠ b.id :=
      List.pairwise_map.mp hids
    have hsorted : (s.listed project l).Pairwise fun a b => a.notBefore b = true :=
      Deployment.ordersBy_notBefore.pairwise_mergeSort _
    apply (hsorted.and hdistinct).imp
    intro a b hab
    obtain ⟨hbefore, hne⟩ := hab
    rcases (Deployment.notBefore_iff a b).mp hbefore with hlt | ⟨heq, hle⟩
    · exact Or.inl hlt
    · -- Of one time, the ids decide, and these differ.
      refine Or.inr ⟨heq, ?_⟩
      by_contra hnot
      exact hne (String.le_antisymm (String.not_lt.mp hnot) hle)

theorem length_listed (s : Store) (project : String) (l : Listing) :
    (s.listed project l).length =
      s.deployments.countP fun d => decide (d.Listed project l.environment l.ref) := by
  rw [listed, List.length_mergeSort, List.countP_eq_length_filter]
  congr 2
  funext d
  rw [Bool.eq_iff_iff, decide_eq_true_iff]
  simp only [Bool.and_eq_true, beq_iff_eq, meets_iff_wanted, Deployment.Listed, and_assoc]

/-! A list that is cut into pages. -/

/-- The page with a number, where pages have so many places. -/
def pageAt (ds : List Deployment) (limit i : Nat) : List Deployment :=
  (ds.drop (i * limit)).take limit

theorem pageAt_eq_nil_iff {limit : Nat} (hlimit : 1 ≤ limit) (ds : List Deployment) (i : Nat) :
    pageAt ds limit i = [] ↔ ds.length ≤ i * limit := by
  rw [pageAt, List.take_eq_nil_iff, List.drop_eq_nil_iff]
  omega

theorem flatten_pages (ds : List Deployment) (limit k : Nat) :
    ((List.range k).map (pageAt ds limit)).flatten = ds.take (k * limit) := by
  induction k with
  | zero => simp
  | succ k ih =>
    rw [List.range_succ, List.map_append, List.flatten_append, ih, Nat.succ_mul, List.take_add]
    simp [pageAt]

theorem flatten_takeWhile {pages : List (List Deployment)}
    (h : pages.Pairwise fun page later => page = [] → later = []) :
    (pages.takeWhile fun page => decide (page ≠ [])).flatten = pages.flatten := by
  induction pages with
  | nil => rfl
  | cons page rest ih =>
    rw [List.pairwise_cons] at h
    by_cases hempty : page = []
    · have hrest : rest.flatten = [] := by
        rw [List.flatten_eq_nil_iff]
        intro later hlater
        exact h.1 later hlater hempty
      simp [hempty, hrest]
    · have hkeep : decide (page ≠ []) = true := decide_eq_true hempty
      rw [List.takeWhile_cons, hkeep, if_pos rfl, List.flatten_cons, List.flatten_cons, ih h.2]

/-- Pages that go on for long enough come to an empty one. -/
theorem nil_mem_pages {limit k : Nat} (hlimit : 1 ≤ limit)
    (hlong : ds.length + limit ≤ k * limit) : [] ∈ (List.range k).map (pageAt ds limit) := by
  cases k with
  | zero => omega
  | succ k =>
    rw [Nat.succ_mul] at hlong
    apply List.mem_map.mpr
    refine ⟨k, List.mem_range.mpr (Nat.lt_succ_self k), ?_⟩
    exact (pageAt_eq_nil_iff hlimit ds k).mpr (by omega)

/-- The pages up to the first empty one are the whole list. -/
theorem flatten_takeWhile_pages {limit k : Nat} (hlimit : 1 ≤ limit)
    (hend : [] ∈ (List.range k).map (pageAt ds limit)) :
    (((List.range k).map (pageAt ds limit)).takeWhile fun page => decide (page ≠ [])).flatten =
      ds := by
  rw [flatten_takeWhile, flatten_pages]
  · obtain ⟨i, hi, hpage⟩ := List.mem_map.mp hend
    have hlast := (pageAt_eq_nil_iff hlimit ds i).mp hpage
    have hle : i * limit ≤ k * limit :=
      Nat.mul_le_mul_right limit (Nat.le_of_lt (List.mem_range.mp hi))
    exact List.take_of_length_le (hlast.trans hle)
  · rw [List.pairwise_map]
    apply List.pairwise_lt_range.imp
    intro i j hij hempty
    have hlast := (pageAt_eq_nil_iff hlimit ds i).mp hempty
    have hle : i * limit ≤ j * limit := Nat.mul_le_mul_right limit (Nat.le_of_lt hij)
    exact (pageAt_eq_nil_iff hlimit ds j).mpr (hlast.trans hle)

end Store

namespace Form

theorem not_isDigit_of_mem {cs : List Char} (h : ∀ c ∈ cs, c.isDigit = true) {x : Char}
    (hx : x.isDigit = false) : ∀ c ∈ cs, (c == x) = false := by
  intro c hc
  rw [beq_eq_false_iff_ne]
  intro heq
  rw [heq] at hc
  exact Bool.false_ne_true (hx.symm.trans (h x hc))

theorem isBlank_of_isDigit {c : Char} (h : c.isDigit = true) : isBlank c = false := by
  have hrange : 48 ≤ c.toNat ∧ c.toNat ≤ 57 := by
    simpa [Char.isDigit, UInt32.le_iff_toNat_le] using h
  simp only [isBlank, Bool.or_eq_false_iff, Bool.and_eq_false_iff, decide_eq_false_iff_not,
    beq_eq_false_iff_ne]
  omega

theorem withoutLeadingZeros?_digits (n : Nat) :
    withoutLeadingZeros? (digits n) = some (digits n) := by
  rcases digits_cases n with rfl | ⟨c, rest, hd, hc, hdigit⟩
  · decide +kernel
  · rw [hd]
    unfold withoutLeadingZeros?
    split
    · next heq => exact absurd (List.cons.inj heq).1 hc
    · next heq =>
      obtain ⟨rfl, rfl⟩ := List.cons.inj heq
      simp [hdigit]
    · next heq => cases heq

theorem withoutZeroFraction_of_digits {cs : List Char} (h : ∀ c ∈ cs, c.isDigit = true) :
    withoutZeroFraction cs = cs := by
  have hpoint : cs.dropWhile (· != '.') = [] := by
    rw [List.dropWhile_eq_nil_iff]
    intro c hc
    simp [bne, not_isDigit_of_mem h (x := '.') rfl c hc]
  rw [withoutZeroFraction, hpoint]

theorem withoutUnderscores?_of_digits {cs : List Char} (h : ∀ c ∈ cs, c.isDigit = true)
    (hne : cs ≠ []) : withoutUnderscores? cs = some cs := by
  have hone : pieces (· == '_') cs = [cs] := pieces_of_none (not_isDigit_of_mem h rfl)
  simp [withoutUnderscores?, hone, hne.symm]

theorem bareWhole?_digits (n : Nat) : bareWhole? (digits n) = some (digits n) := by
  have hdigit := isDigit_of_mem_digits n
  have hsign : ∀ rest, digits n ≠ '+' :: rest := by
    intro rest heq
    have := hdigit '+' (by rw [heq]; exact List.mem_cons_self)
    cases this
  unfold bareWhole?
  split
  · next rest heq => exact absurd heq (hsign _)
  · next rest _ heq => exact absurd heq (hsign _)
  · simp only [Option.bind_eq_bind, Option.bind_some, withoutLeadingZeros?_digits,
      withoutZeroFraction_of_digits hdigit, withoutUnderscores?_of_digits hdigit (digits_ne_nil n),
      Option.getD_some]

theorem wholeOfBare_digits {n : Nat} (h : (digits n).length ≤ longestWhole) :
    wholeOfBare (digits n) = .valid n := by
  have hspan : spanDigits (digits n ++ []) = (digits n, []) := spanDigits_digits n (by simp)
  rw [List.append_nil] at hspan
  rcases digits_cases n with rfl | ⟨c, rest, hd, hc, hdigit⟩
  · rw [digits]
    rfl
  · have hminus : c ≠ '-' := by
      intro heq
      rw [heq] at hdigit
      cases hdigit
    have hnumber : ofDigits (c :: rest) = n := by rw [← hd, ofDigits_digits]
    rw [hd] at h hspan ⊢
    unfold wholeOfBare
    split
    next negative ds heq =>
    split at heq
    · next heq' => exact absurd (List.cons.inj heq').1 hminus
    · obtain ⟨rfl, rfl⟩ := Prod.mk.inj heq
      rw [hspan]
      dsimp only
      split
      · next heq' => cases heq'
      · next heq' => exact absurd (List.cons.inj heq').1 hc
      · rw [if_neg (by simpa using h), if_neg (by simp), hnumber]
        rfl

/-- The digits of a number are read as the number. -/
theorem whole_natText {n : Nat} (h : (digits n).length ≤ longestWhole) :
    whole (natText n) = .valid n := by
  have htrim : trimList isBlank (digits n) = digits n := by
    apply trimList_eq_self
    · intro c hc
      exact isBlank_of_isDigit (isDigit_of_mem_digits n c (List.mem_of_mem_head? hc))
    · intro c hc
      exact isBlank_of_isDigit (isDigit_of_mem_digits n c (List.mem_of_mem_getLast? hc))
  rw [whole, natText, String.toList_ofList, htrim, bareWhole?_digits]
  exact wholeOfBare_digits h

end Form

namespace Http

/-- The query for a page, with the restrictions that there are. -/
def pageQuery (l : Listing) : List (String × String) :=
  (l.environment.map fun id => ("environment_id", id)).toList ++
    (l.ref.map fun ref => ("ref", ref)).toList ++
      [("limit", natText l.limit), ("offset", natText l.offset)]

theorem length_digits_of_le {n : Nat} (h : n ≤ greatestOffset) :
    (digits n).length ≤ longestWhole := by
  have hgreatest : (digits greatestOffset).length ≤ longestWhole := by decide +kernel
  exact (length_digits_mono h).trans hgreatest

theorem wholeText_natText {check : Int → Checked Int} {n : Nat} (h : n ≤ greatestOffset)
    (hcheck : check n = .valid n) : wholeText check (.str (natText n)) = .valid n := by
  rw [wholeText, whole_natText (length_digits_of_le h)]
  simp [Checked.andThen, hcheck, Checked.map]

theorem optional_text {ms : Json.Members} {field : String} {wanted : Option String}
    (h : ms.member? field = wanted.map .str) : optional ms field text = .valid wanted := by
  cases wanted with
  | none => exact optional_missing h
  | some x =>
    rw [optional_str h]
    rfl

theorem withDefault_natText {ms : Json.Members} {field : String} {check : Int → Checked Int}
    {n default : Nat} (h : ms.member? field = some (.str (natText n))) (hle : n ≤ greatestOffset)
    (hcheck : check n = .valid n) : withDefault ms field (wholeText check) default = .valid n := by
  simp only [withDefault, h, checkField, wholeText_natText hle hcheck, Checked.about,
    Checked.under]

theorem atLeast_of_le {bound n : Int} (h : bound ≤ n) : atLeast bound n = .valid n :=
  if_neg (Int.not_lt.mpr h)

theorem atMost_of_le {bound n : Int} (h : n ≤ bound) : atMost bound n = .valid n :=
  if_neg (Int.not_lt.mpr h)

/-- Every page of one to a hundred places can be asked for, from wherever the store can skip to. -/
theorem listingQuery_pageQuery {limit offset : Nat} (hleast : 1 ≤ limit) (hmost : limit ≤ 100)
    (hoffset : offset ≤ greatestOffset) (environment ref : Option String) :
    listingQuery (membersOf (pageQuery ⟨environment, ref, limit, offset⟩)) =
      .valid ⟨environment, ref, limit, offset⟩ := by
  obtain ⟨ms, hms⟩ : ∃ ms, ms = membersOf (pageQuery ⟨environment, ref, limit, offset⟩) := ⟨_, rfl⟩
  have hfields : ms.member? "environment_id" = environment.map .str ∧
      ms.member? "ref" = ref.map .str ∧ ms.member? "limit" = some (.str (natText limit)) ∧
      ms.member? "offset" = some (.str (natText offset)) := by
    rw [hms]
    cases environment with
    | none => cases ref <;> exact ⟨rfl, rfl, rfl, rfl⟩
    | some id => cases ref <;> exact ⟨rfl, rfl, rfl, rfl⟩
  obtain ⟨henvironment, href, hlimit, hskip⟩ := hfields
  have hplaces : withDefault ms "limit" (wholeText fun n => (atLeast 1 n).andThen (atMost 100)) 50 =
      .valid limit := by
    apply withDefault_natText hlimit
    · unfold greatestOffset
      omega
    · rw [atLeast_of_le (by omega)]
      exact atMost_of_le (by omega)
  have hstart : withDefault ms "offset" (wholeText (atLeast 0)) 0 = .valid offset :=
    withDefault_natText hskip hoffset (atLeast_of_le (by omega))
  rw [← hms]
  simp only [listingQuery, Checked.map_eq, Checked.seq_eq, optional_text henvironment,
    optional_text href, hplaces, hstart]
  rfl

namespace Site

variable {σ : Type} {site : Site σ} {s : Store} {asking : Option User} {project : String}
variable {p : Project} {environment ref : Option String}

/-- A page is told to all who read the project. -/
theorem tells_page (site : Site σ) (h : s.readable (asking.map (·.id)) project = .ok p)
    {query : List (String × String)} {l : Listing} (hl : l.offset ≤ greatestOffset)
    (hquery : listingQuery (membersOf query) = .valid l) :
    site.Tells s asking (.deployments project) query (Shape.deployments site.clock
      (Store.page l (s.listed project l)) (s.listed project l).length) := by
  apply tells_of_read
  intro sv hsv
  refine ⟨sv, ?_⟩
  simp only [read, hquery, Serving.checked, list, hsv, Store.listDeployments_of_readable h,
    if_neg (Nat.not_lt.mpr hl)]

/-- A page that is further on than the store can skip to breaks down. -/
theorem respond_of_far (h : s.readable (asking.map (·.id)) project = .ok p)
    {query : List (String × String)} {l : Listing} (hl : greatestOffset < l.offset)
    (hquery : listingQuery (membersOf query) = .valid l) {sv : Serving σ} {r : Request}
    (hr : site.Asks s asking (.deployments project) query sv r) :
    site.respond sv r = (Response.broken, sv) := by
  have hmembers : r.queryMembers = membersOf query := by
    rw [Request.queryMembers, hr.query]
    rfl
  have hperform : site.perform sv r (.reading (.deployments project)) =
      (.error .breakdown, sv) := by
    simp only [perform, hr.caller, hmembers, read, hquery, Serving.checked, list, hr.records,
      Store.listDeployments_of_readable h, if_pos hl]
  rw [respond_of_error hr.route hperform]
  rfl

/-- Requests for the pages of a listing, one after the other and from the page with a number. The
store can skip to all of these pages. -/
def AsksInTurn (site : Site σ) (s : Store) (asking : Option User) (project : String)
    (environment ref : Option String) (limit : Nat) (sv : Serving σ) : Nat → List Visit → Prop
  | _, [] => True
  | i, v :: rest =>
    i * limit ≤ greatestOffset ∧
      site.Asks s asking (.deployments project) (pageQuery ⟨environment, ref, limit, i * limit⟩)
        (sv.upon v) v.request ∧
      AsksInTurn site s asking project environment ref limit sv (i + 1) rest

theorem registry_serve_of_asks {query : List (String × String)} {reading : Reading}
    {sv : Serving σ} {v : Visit} (h : site.Asks s asking reading query (sv.upon v) v.request) :
    (site.serve sv v).2.registry = sv.registry := by
  apply registry_of_not_writing
  intro w hroute
  cases h.route.symm.trans hroute

theorem Asks.of_registry_eq {query : List (String × String)} {reading : Reading}
    {sv sv' : Serving σ} {v : Visit} (h : site.Asks s asking reading query (sv.upon v) v.request)
    (hsame : sv'.registry = sv.registry) :
    site.Asks s asking reading query (sv'.upon v) v.request where
  records := by
    have hrecords : sv.registry.store = s := h.records
    rw [← hrecords, ← hsame]
    rfl
  route := h.route
  caller := by
    rw [← h.caller]
    apply site.caller?_congr
    · exact congrArg (fun r => r.store.users) hsame
    · rfl
  query := h.query

theorem AsksInTurn.of_registry_eq {limit i : Nat} {sv sv' : Serving σ} {vs : List Visit}
    (h : site.AsksInTurn s asking project environment ref limit sv i vs)
    (hsame : sv'.registry = sv.registry) :
    site.AsksInTurn s asking project environment ref limit sv' i vs := by
  induction vs generalizing i with
  | nil => trivial
  | cons v rest ih =>
    obtain ⟨hreach, hasks, hrest⟩ := h
    exact ⟨hreach, hasks.of_registry_eq hsame, ih hrest⟩

/-- Whoever asks for one page after the other is told one page after the other. -/
theorem run_of_asksInTurn (h : s.readable (asking.map (·.id)) project = .ok p) {limit : Nat}
    (hleast : 1 ≤ limit) (hmost : limit ≤ 100) {ds : List Deployment}
    (hds : ∀ offset, s.listed project ⟨environment, ref, limit, offset⟩ = ds) {i : Nat}
    {sv : Serving σ} {vs : List Visit}
    (hvs : site.AsksInTurn s asking project environment ref limit sv i vs) :
    (site.run sv vs).1.map (fun answer => (answer.status, answer.payload)) =
      (List.range' i vs.length).map fun k =>
        (200, .structured (Shape.deployments site.clock (Store.pageAt ds limit k) ds.length)) := by
  induction vs generalizing sv i with
  | nil => rfl
  | cons v rest ih =>
    obtain ⟨hreach, hasks, hrest⟩ := hvs
    have hquery := listingQuery_pageQuery hleast hmost hreach environment ref
    obtain ⟨hstatus, hpayload⟩ := tells_page site h hreach hquery _ _ hasks
    -- A listing leaves the records alone, so the later requests are made of the same store.
    have hlater := ih (hrest.of_registry_eq (registry_serve_of_asks hasks))
    rw [run_cons, List.map_cons, hlater, List.length_cons, List.range'_succ, List.map_cons]
    rw [hds] at hpayload
    congr 1
    exact Prod.ext hstatus hpayload

/-- What those who read a project are told of a list of deployments, page by page: the documents, and
what is read from the answers. -/
structure Paged (site : Site σ) (s : Store) (asking : Option User) (project : String)
    (environment ref : Option String) (ds : List Deployment) : Prop where
  told : ∀ limit offset query,
    listingQuery (membersOf query) = .valid ⟨environment, ref, limit, offset⟩ →
      offset ≤ greatestOffset → site.Tells s asking (.deployments project) query
        (Shape.deployments site.clock ((ds.drop offset).take limit) ds.length)
  read : ∀ limit offset query,
    listingQuery (membersOf query) = .valid ⟨environment, ref, limit, offset⟩ →
      offset ≤ greatestOffset → ∀ sv r, site.Asks s asking (.deployments project) query sv r →
        (site.respond sv r).1.pageIds = ((ds.drop offset).take limit).map (·.id) ∧
        (site.respond sv r).1.total? = some (ds.length : Int)
  far : ∀ limit offset query,
    listingQuery (membersOf query) = .valid ⟨environment, ref, limit, offset⟩ →
      greatestOffset < offset → ∀ sv r, site.Asks s asking (.deployments project) query sv r →
        site.respond sv r = (Response.broken, sv)
  asked : ∀ limit offset, 1 ≤ limit → limit ≤ 100 → offset ≤ greatestOffset →
    listingQuery (membersOf (pageQuery ⟨environment, ref, limit, offset⟩)) =
      .valid ⟨environment, ref, limit, offset⟩
  inTurn : ∀ limit sv vs, 1 ≤ limit → limit ≤ 100 →
    site.AsksInTurn s asking project environment ref limit sv 0 vs →
      ∃ pages : List (List Deployment),
        (site.run sv vs).1.map (fun answer => (answer.status, answer.payload)) =
          pages.map (fun page =>
            (200, .structured (Shape.deployments site.clock page ds.length))) ∧
        (site.run sv vs).1.map (fun answer => (answer.pageIds, answer.total?)) =
          pages.map (fun page => (page.map (·.id), some (ds.length : Int))) ∧
        pages.flatten = ds.take (vs.length * limit) ∧
        (ds.length + limit ≤ vs.length * limit → [] ∈ pages) ∧
        ([] ∈ pages → (pages.takeWhile fun page => decide (page ≠ [])).flatten = ds)

/-- Ids and total can be read from an answer with a page. -/
theorem read_of_payload {answer : Response} {clock : Clock} {page : List Deployment} {total : Nat}
    (h : answer.payload = .structured (Shape.deployments clock page total)) :
    answer.pageIds = page.map (·.id) ∧ answer.total? = some (total : Int) :=
  ⟨pageIds_of_payload h, total?_of_member? h (member?_total clock page total)⟩

theorem map_read_of_map_payload {answers : List Response} {clock : Clock}
    {pages : List (List Deployment)} {total : Nat}
    (h : answers.map (fun answer => (answer.status, answer.payload)) =
      pages.map fun page => (200, .structured (Shape.deployments clock page total))) :
    answers.map (fun answer => (answer.pageIds, answer.total?)) =
      pages.map fun page => (page.map (·.id), some (total : Int)) := by
  induction answers generalizing pages with
  | nil =>
    obtain rfl := List.map_eq_nil_iff.mp h.symm
    rfl
  | cons answer rest ih =>
    cases pages with
    | nil => cases h
    | cons page others =>
      rw [List.map_cons, List.map_cons, List.cons.injEq, Prod.mk.injEq] at h
      obtain ⟨hids, htotal⟩ := read_of_payload h.1.2
      rw [List.map_cons, List.map_cons, hids, htotal, ih h.2]

theorem paged_listed (site : Site σ) (h : s.readable (asking.map (·.id)) project = .ok p)
    {ds : List Deployment}
    (hds : ∀ limit offset, s.listed project ⟨environment, ref, limit, offset⟩ = ds) :
    site.Paged s asking project environment ref ds where
  told := by
    intro limit offset query hquery hreach
    have htold := tells_page site h hreach hquery
    rw [hds] at htold
    exact htold
  read := by
    intro limit offset query hquery hreach sv r hr
    have hpayload := (tells_page site h hreach hquery sv r hr).2
    rw [hds] at hpayload
    exact read_of_payload hpayload
  far := by
    intro limit offset query hquery hfar sv r hr
    exact respond_of_far h hfar hquery hr
  asked := by
    intro limit offset hleast hmost hreach
    exact listingQuery_pageQuery hleast hmost hreach environment ref
  inTurn := by
    intro limit sv vs hleast hmost hvs
    have hpages : (site.run sv vs).1.map (fun answer => (answer.status, answer.payload)) =
        ((List.range vs.length).map (Store.pageAt ds limit)).map fun page =>
          (200, .structured (Shape.deployments site.clock page ds.length)) := by
      rw [run_of_asksInTurn h hleast hmost (hds limit) hvs, List.map_map, List.range_eq_range']
      rfl
    refine ⟨(List.range vs.length).map (Store.pageAt ds limit), hpages, ?_, ?_, ?_, ?_⟩
    · exact map_read_of_map_payload hpages
    · exact Store.flatten_pages ds limit vs.length
    · intro hlong
      exact Store.nil_mem_pages hleast hlong
    · intro hend
      exact Store.flatten_takeWhile_pages hleast hend

/-- The deployments of a project that a listing with some restrictions is about make one list, each
of them once. Every page of it is told along with the number of all of them, and pages that are
asked for one after the other are the list from its beginning; up to the first empty page they are
the whole of it. Only what lies further on than the store can skip is never told. -/
theorem pages_of_listing (site : Site σ) (asking : Option User)
    (hs : (s.deployments.map (·.id)).Nodup) (h : s.readable (asking.map (·.id)) project = .ok p)
    (environment ref : Option String) :
    ∃ ds, s.IsListing project environment ref ds ∧ ds.Nodup ∧
      (∀ others, s.IsListing project environment ref others → others = ds) ∧
      ds.length = s.deployments.countP (fun d => decide (d.Listed project environment ref)) ∧
      site.Paged s asking project environment ref ds := by
  have hlisting : s.IsListing project environment ref
      (s.listed project ⟨environment, ref, 1, 0⟩) :=
    s.isListing_listed hs project ⟨environment, ref, 1, 0⟩
  refine ⟨_, hlisting, hlisting.nodup, ?_, ?_, ?_⟩
  · intro others hothers
    exact hlisting.eq hothers
  · exact s.length_listed project ⟨environment, ref, 1, 0⟩
  · apply paged_listed site h
    intro limit offset
    rfl

/-- Three deployments, of which two were made at one time. -/
def busyStore : Store :=
  { openStore with deployments := [
      ⟨"a", "p", "e", "main", false, "abcdef1", .success, ⟨1⟩⟩,
      ⟨"b", "p", "e", "main", false, "abcdef2", .failed, ⟨2⟩⟩,
      ⟨"c", "p", "e", "next", false, "abcdef3", .success, ⟨2⟩⟩] }

/-- A visit for a page of two places. -/
def pageVisit (offset : Nat) : Visit :=
  plainVisit "GET" "/api/v1/projects/p/deployments" (pageQuery ⟨none, none, 2, offset⟩) [] ""

theorem asks_pageVisit (offset : Nat) :
    plainSite.Asks busyStore none (.deployments "p") (pageQuery ⟨none, none, 2, offset⟩)
      ((plainServing busyStore 0).upon (pageVisit offset)) (pageVisit offset).request where
  records := rfl
  route := by
    change route "/api/v1" "GET" "/api/v1/projects/p/deployments" = _
    decide +kernel
  caller := rfl
  query := rfl

theorem isListing_busyStore :
    busyStore.IsListing "p" none none busyStore.deployments.reverse where
  members := by
    intro d
    rw [List.mem_reverse]
    constructor
    · intro hd
      refine ⟨hd, ?_, trivial, trivial⟩
      revert d
      decide
    · intro hd
      exact hd.1
  falling := by decide

theorem pages_of_listing_harbour :
    ∃ pages : List (List Deployment),
      (plainSite.run (plainServing busyStore 0) [pageVisit 0, pageVisit 2, pageVisit 4]).1.map
          (fun answer => (answer.status, answer.payload)) =
        pages.map (fun page => (200, .structured (Shape.deployments plainSite.clock page 3))) ∧
      (plainSite.run (plainServing busyStore 0) [pageVisit 0, pageVisit 2, pageVisit 4]).1.map
          (fun answer => (answer.pageIds, answer.total?)) =
        pages.map (fun page => (page.map (·.id), some 3)) ∧
      (pages.takeWhile fun page => decide (page ≠ [])).flatten =
        busyStore.deployments.reverse := by
  obtain ⟨ds, _, _, hone, _, hpaged⟩ := pages_of_listing plainSite none
    (show (busyStore.deployments.map (·.id)).Nodup by decide)
    (show busyStore.readable none "p" = .ok ⟨"p", "Harbour", some "acme/harbour", .everyone, false⟩
      from rfl) none none
  obtain rfl := hone _ isListing_busyStore
  have hturns : plainSite.AsksInTurn busyStore none "p" none none 2 (plainServing busyStore 0) 0
      [pageVisit 0, pageVisit 2, pageVisit 4] := by
    refine ⟨by decide, asks_pageVisit 0, by decide, asks_pageVisit 2, by decide,
      asks_pageVisit 4, trivial⟩
  obtain ⟨pages, hpages, hread, _, hlong, hwhole⟩ :=
    hpaged.inTurn 2 _ _ (by decide) (by decide) hturns
  exact ⟨pages, hpages, hread, hwhole (hlong (by decide))⟩

/-- An offset that the store cannot skip to is accepted, and then nobody is told anything. -/
theorem far_page_untold :
    listingQuery (membersOf [("offset", "9223372036854775808")]) =
        .valid ⟨none, none, 50, 9223372036854775808⟩ ∧
      ∃ sv r, plainSite.Asks openStore none (.deployments "p")
          [("offset", "9223372036854775808")] sv r ∧
        (plainSite.respond sv r).1.status = 500 := by
  have hquery : listingQuery (membersOf [("offset", "9223372036854775808")]) =
      .valid ⟨none, none, 50, 9223372036854775808⟩ := by
    rfl
  have hasks : plainSite.Asks openStore none (.deployments "p")
      [("offset", "9223372036854775808")] openServing (plainVisit "GET"
        "/api/v1/projects/p/deployments" [("offset", "9223372036854775808")] [] "").request :=
    ⟨rfl, by decide +kernel, rfl, rfl⟩
  refine ⟨hquery, _, _, hasks, ?_⟩
  have hreadable : openStore.readable none "p" =
      .ok ⟨"p", "Harbour", some "acme/harbour", .everyone, false⟩ := rfl
  rw [respond_of_far hreadable (by decide) hquery hasks]
  rfl

end Site

end Http

end DeployRegistry
