import DeployRegistry.Proofs.Inquiries
import DeployRegistry.Proofs.Precision
import DeployRegistry.Proofs.Visits

/-!
# What the cache of a client remembers

Along a run every entry of the cache is backed by a turn: the last one that learned an answer to the
question of the entry. The main statements are `Client.run_recalls`, on a client that starts with an
empty cache, and `Client.run_given_cache`, on a client that is given one.
-/

namespace DeployRegistry

set_option autoImplicit false

open Number Binary64

/-- The last of some turns that learned an answer to a question. -/
def LastLearned (past : List Turn) (q : Question) (s : Turn) (answer : Bool) : Prop :=
  ∃ earlier later, past = earlier ++ s :: later ∧ s.question = q ∧ s.Learned answer ∧
    ∀ u ∈ later, u.question = q → ∀ other, ¬ u.Learned other

theorem LastLearned.concat {past : List Turn} {q : Question} {s u : Turn} {answer : Bool}
    (h : LastLearned past q s answer) (hu : u.question = q → ∀ other, ¬ u.Learned other) :
    LastLearned (past ++ [u]) q s answer := by
  obtain ⟨earlier, later, rfl, hq, hlearned, hlater⟩ := h
  refine ⟨earlier, later ++ [u], by simp, hq, hlearned, ?_⟩
  intro v hv
  rcases List.mem_append.mp hv with hold | hnew
  · exact hlater v hold
  · obtain rfl := List.mem_singleton.mp hnew
    exact hu

theorem lastLearned_concat_self (past : List Turn) {s : Turn} {answer : Bool}
    (h : s.Learned answer) : LastLearned (past ++ [s]) s.question s answer :=
  ⟨past, [], rfl, rfl, h, fun _ hu => absurd hu List.not_mem_nil⟩

theorem LastLearned.mem {past : List Turn} {q : Question} {s : Turn} {answer : Bool}
    (h : LastLearned past q s answer) : s ∈ past := by
  obtain ⟨earlier, later, rfl, _⟩ := h
  simp

/-- Every entry comes from the last turn that learned an answer to its question. -/
def Backed (past : List Turn) (cache : Cache Question Bool) : Prop :=
  ∀ e ∈ cache.entries, ∃ s, LastLearned past e.key s e.value ∧
    e.expires = s.stored.add cache.lifetime

theorem eq_ok_of_toOption {ε α : Type} {x : Except ε α} {a : α} (h : x.toOption = some a) :
    x = .ok a := by
  cases x with
  | ok b => exact congrArg Except.ok (Option.some.inj h)
  | error e => cases h

theorem exists_error_of_toOption {ε α : Type} {x : Except ε α} (h : x.toOption = none) :
    ∃ e, x = .error e := by
  cases x with
  | ok a => cases h
  | error e => exact ⟨e, rfl⟩

namespace Client

variable {c : Client} {past : List Turn}

theorem Takes.backed {t : Turn} (h : c.Takes t) (hbacked : Backed past c.cache) :
    Backed (past ++ [t]) t.client.cache := by
  intro e he
  rcases h.learns with ⟨answer, cache, hlearned, hcache, hclient⟩ | ⟨hnot, cache, hcache, hclient⟩
  · rw [hclient] at he ⊢
    rcases Cache.mem_store he with rfl | ⟨hold, hkey⟩
    · exact ⟨t, lastLearned_concat_self past hlearned, rfl⟩
    · obtain ⟨s, hs, hexpires⟩ := hbacked e (hcache.entries hold)
      refine ⟨s, hs.concat fun hq => absurd hq.symm hkey, ?_⟩
      rw [hexpires, Cache.lifetime_store, hcache.lifetime]
  · rw [hclient] at he ⊢
    obtain ⟨s, hs, hexpires⟩ := hbacked e (hcache.entries he)
    exact ⟨s, hs.concat fun _ => hnot, by rw [hexpires, hcache.lifetime]⟩

theorem Follows.backed {turns : List Turn} (h : c.Follows turns) :
    ∀ {past : List Turn}, Backed past c.cache →
      Backed (past ++ turns) (c.after turns).cache := by
  induction h with
  | nil c =>
    intro past hbacked
    rwa [List.append_nil]
  | @cons c t rest htakes hrest ih =>
    intro past hbacked
    have := ih (htakes.backed hbacked)
    rwa [List.append_assoc] at this

/-- Turns about other questions bring no entry for this one. -/
theorem Follows.no_entry {turns : List Turn} {q : Question} (h : c.Follows turns)
    (hother : ∀ v ∈ turns, v.question ≠ q) (hnone : c.cache.entry? q = none) :
    (c.after turns).cache.entry? q = none := by
  induction h with
  | nil c => exact hnone
  | @cons c t rest htakes hrest ih =>
    rw [List.forall_mem_cons] at hother
    refine ih hother.2 ?_
    have habsent := List.find?_eq_none.mp hnone
    apply List.find?_eq_none.mpr
    intro e he
    rcases htakes.learns with ⟨answer, cache, _, hcache, hclient⟩ | ⟨_, cache, hcache, hclient⟩
    · rw [hclient] at he
      rcases Cache.mem_store he with rfl | ⟨hold, _⟩
      · simpa using hother.1
      · exact habsent e (hcache.entries hold)
    · rw [hclient] at he
      exact habsent e (hcache.entries he)

/-- A request for the question can be written: its address is one, and its headers are of ASCII. -/
def CanWrite (c : Client) (q : Question) : Prop :=
  ∃ address, Address.ofText (c.addressText q) = .ok address ∧ c.headerFault? address = none

theorem destination_of_canWrite {q : Question} (h : c.CanWrite q)
    (hopen : c.connection ≠ .shared true) : ∃ address, c.destination q = .ok address := by
  obtain ⟨address, haddress, hheaders⟩ := h
  exact ⟨address, by simp only [destination, haddress, hheaders, if_neg hopen]⟩

theorem written_of_destination {q : Question} {address : Address}
    (h : c.destination q = .ok address) :
    Address.ofText (c.addressText q) = .ok address ∧ c.headerFault? address = none := by
  unfold destination at h
  split at h
  · cases h
  · cases h
  next hwritten =>
  split at h
  · cases h
  next hheaders =>
  split at h
  · cases h
  · cases h
    exact ⟨hwritten, hheaders⟩

theorem canWrite_of_destination {q : Question} {address : Address}
    (h : c.destination q = .ok address) : c.CanWrite q :=
  ⟨address, written_of_destination h⟩

/-- What is recalled was learned by an earlier turn, and has not expired. -/
theorem Follows.recalled {front : List Turn} {t : Turn} (hfront : c.Follows front)
    (htakes : (c.after front).Takes t) (hempty : c.cache.entries = [])
    (hne : t.question.ancestor ≠ t.question.descendant) (hunsent : t.exchanges = [])
    {answer : Bool} (hanswer : t.answer = .ok answer) :
    ∃ s, LastLearned front t.question s answer ∧
      t.asked.less (s.stored.add c.cache.lifetime) = true := by
  have hnothing : Backed [] c.cache := by
    intro e he
    rw [hempty] at he
    cases he
  obtain ⟨e, he, hlive, rfl⟩ := htakes.recalled_of_unsent hne hunsent hanswer
  obtain ⟨hmem, hkey⟩ := Cache.entry?_eq_some he
  obtain ⟨s, hs, hexpires⟩ := hfront.backed hnothing e hmem
  rw [hkey] at hs
  rw [hfront.lifetime_eq] at hexpires
  refine ⟨s, hs, ?_⟩
  rw [← hexpires]
  exact hlive

/-- After an error or an unknown commit, the next turn about the question is asked of the host. -/
theorem Takes.asks_again {t u : Turn} {between : List Turn} (htakes : c.Takes t)
    (hbad : t.Unknown ∨ ∃ reason, t.answer = .error reason) (hbetween : t.client.Follows between)
    (hother : ∀ v ∈ between, v.question ≠ t.question) (hu : u.question = t.question)
    (hasks : (t.client.after between).Takes u) :
    match c.destination t.question with
    | .ok _ => u.exchanges ≠ []
    | .error reason => u.exchanges = [] ∧ u.answer = .error reason := by
  have hne : u.question.ancestor ≠ u.question.descendant := by
    intro heq
    rw [hu] at heq
    obtain ⟨hanswer, hunsent, _⟩ := htakes.of_same heq
    rcases hbad with hunknown | ⟨reason, hreason⟩
    · exact hunknown.sent hunsent
    · rw [hanswer] at hreason
      cases hreason
  have hmiss : (t.client.after between).cache.entry? u.question = none := by
    rw [hu]
    exact hbetween.no_entry hother (htakes.forgets hbad)
  have hdestination : (t.client.after between).destination u.question =
      c.destination t.question := by
    rw [hu]
    exact (Follows.cons htakes hbetween).destination_eq t.question
  rw [← hdestination]
  exact hasks.sends hne hmiss

/-- On a run from an empty cache: an answer without an exchange is the one that the last turn to
learn an answer to the same question learned, less than the lifetime ago. After an error, or when
the host did not know the commit, nothing is kept, and the next turn about the question makes a
request if one can be written. A question about a commit and itself changes nothing. -/
theorem run_recalls {σ : Type} (send : HostRequest → StateM σ Delivery) (host : σ)
    {inquiries : List Inquiry} (hempty : c.cache.entries = [])
    (hopen : c.connection ≠ .shared true)
    (hclock : ∀ i ∈ inquiries, i.asked.IsReading ∧ i.stored.IsReading)
    {front back : List Turn} {t : Turn} (hrun : c.run send host inquiries = front ++ t :: back) :
    (t.question.ancestor ≠ t.question.descendant → t.exchanges = [] →
      ∀ answer, t.answer = .ok answer → ∃ s, LastLearned front t.question s answer ∧
        Within c.cache.lifetime s.stored t.asked) ∧
    (t.Unknown ∨ (∃ reason, t.answer = .error reason) →
      t.client.cache.entry? t.question = none ∧
      ∀ between u rest, back = between ++ u :: rest →
        (∀ v ∈ between, v.question ≠ t.question) → u.question = t.question →
        (c.CanWrite t.question → u.exchanges ≠ []) ∧
        (¬ c.CanWrite t.question → u.exchanges = [] ∧ ∃ reason, u.answer = .error reason)) ∧
    (t.question.ancestor = t.question.descendant →
      t.answer = .ok true ∧ t.exchanges = [] ∧ t.client = c.after front) := by
  obtain ⟨hfollows, hinquiries⟩ := follows_run send inquiries c host
  rw [hrun] at hfollows hinquiries
  obtain ⟨hfront, hrest⟩ := hfollows.split
  obtain ⟨htakes, hback⟩ := hrest.uncons
  have hreading : ∀ u ∈ front ++ t :: back, u.asked.IsReading ∧ u.stored.IsReading := by
    intro u hu
    exact hclock u.toInquiry (hinquiries ▸ List.mem_map_of_mem hu)
  refine ⟨?_, ?_, htakes.of_same⟩
  · intro hne hunsent answer hanswer
    obtain ⟨s, hs, hless⟩ := hfront.recalled htakes hempty hne hunsent hanswer
    have hmem : s ∈ front ++ t :: back := List.mem_append_left _ hs.mem
    exact ⟨s, hs, within_of_less_add (hreading s hmem).2 (hreading t (by simp)).1 hless⟩
  · intro hbad
    refine ⟨htakes.forgets hbad, ?_⟩
    rintro between u rest rfl hother hu
    obtain ⟨hbetween, hlast⟩ := hback.split
    have hsends := htakes.asks_again hbad hbetween hother hu hlast.uncons.1
    rw [hfront.destination_eq] at hsends
    constructor
    · intro hwrite
      obtain ⟨address, haddress⟩ := destination_of_canWrite hwrite hopen
      rw [haddress] at hsends
      exact hsends
    · intro hnot
      cases hd : c.destination t.question with
      | ok address => exact absurd (canWrite_of_destination hd) hnot
      | error reason =>
        rw [hd] at hsends
        exact ⟨hsends.1, reason, hsends.2⟩

/-- A host that sends the given deliveries and knows nothing after them. -/
def scripted (_ : HostRequest) : StateM (List Delivery) Delivery
  | [] => (.reply 404 "", [])
  | delivery :: rest => (delivery, rest)

def harbourClient : Client where
  token := none
  base := "https://host.test"
  version := "2022-11-28"
  retry := ⟨1, by decide, .finite 0, .finite 0, .finite 0⟩
  cache := .empty (.finite 60) 16 (by decide)
  connection := .separate

def harbourQuestion : Question := ⟨"acme/web", "a", "b"⟩

def harbourReplies : List Delivery := [.reply 200 "\x7b\"status\": \"ahead\"\x7d"]

def harbourInquiry : Inquiry :=
  ⟨harbourQuestion, .finite (1000 : Int), .finite (1000 : Int), .finite (1000 : Int)⟩

/-- The same question ten seconds later. -/
def laterInquiry : Inquiry :=
  ⟨harbourQuestion, .finite (1010 : Int), .finite (1010 : Int), .finite (1010 : Int)⟩

def harbourInquiries : List Inquiry := [harbourInquiry, laterInquiry]

theorem run_recalls_harbour : ∃ first second,
    harbourClient.run scripted harbourReplies harbourInquiries = [first] ++ second :: [] ∧
      (∃ s, LastLearned [first] harbourQuestion s true ∧
        Within (.finite 60) s.stored second.asked) := by
  have hclock : ∀ i ∈ harbourInquiries, i.asked.IsReading ∧ i.stored.IsReading := by
    intro i hi
    rcases List.mem_pair.mp hi with rfl | rfl
    · exact ⟨isReading_int (by decide), isReading_int (by decide)⟩
    · exact ⟨isReading_int (by decide), isReading_int (by decide)⟩
  obtain ⟨first, hfirst⟩ : ∃ p, p = harbourClient.turn scripted harbourReplies harbourInquiry :=
    ⟨_, rfl⟩
  obtain ⟨second, hsecond⟩ : ∃ t, t = (first.1.client.turn scripted first.2 laterInquiry).1 :=
    ⟨_, rfl⟩
  have hrun : harbourClient.run scripted harbourReplies harbourInquiries =
      [first.1] ++ second :: [] := by
    rw [harbourInquiries, run_cons, ← hfirst, run_cons, ← hsecond]
    rfl
  have hanswer : second.answer.toOption = some true := by
    rw [hsecond, hfirst]
    decide +kernel
  have hunsent : second.exchanges = [] := by
    rw [hsecond, hfirst]
    decide +kernel
  have hquestion : second.question = harbourQuestion := by
    rw [hsecond, hfirst]
    decide +kernel
  refine ⟨first.1, second, hrun, ?_⟩
  rw [← hquestion]
  refine (run_recalls scripted harbourReplies rfl (by decide) hclock hrun).1 ?_ hunsent true ?_
  · rw [hquestion]
    decide
  · exact eq_ok_of_toOption hanswer

/-- The address of this client names no server that there is. -/
def strayClient : Client := { harbourClient with base := "https://999.1.1.1" }

/-- After an error there may be no request either. -/
theorem unsent_after_error : strayClient.cache.entries = [] ∧
    strayClient.connection ≠ .shared true ∧
    ∃ t u, strayClient.run scripted harbourReplies harbourInquiries = [t, u] ∧
      (∃ reason, t.answer = .error reason) ∧ u.question = t.question ∧ u.exchanges = [] := by
  refine ⟨rfl, by decide, _, _, rfl, ?_, ?_, ?_⟩
  · apply exists_error_of_toOption
    decide +kernel
  · decide +kernel
  · decide +kernel

/-! A client that is given a cache. -/

theorem Takes.stores {t : Turn} (h : c.Takes t) {answer : Bool} (hanswer : t.Learned answer) :
    t.client.cache.entries.getLast? =
      some ⟨t.question, answer, t.stored.add c.cache.lifetime⟩ := by
  rcases h.learns with ⟨other, cache, hother, hcache, hclient⟩ | ⟨hnot, _⟩
  · have hsame : other = answer := Except.ok.inj (hother.1.symm.trans hanswer.1)
    rw [hclient, ← hcache.lifetime, ← hsame]
    exact Cache.getLast?_store cache t.stored t.question other
  · exact absurd hanswer (hnot answer)

theorem Takes.size_le {t : Turn} (h : c.Takes t) (hsize : c.cache.size ≤ c.cache.capacity) :
    t.client.cache.size ≤ c.cache.capacity := by
  rcases h.learns with ⟨answer, cache, _, hcache, hclient⟩ | ⟨_, cache, hcache, hclient⟩
  · rw [hclient, ← hcache.capacity]
    exact Cache.length_store_le cache t.stored t.question answer
  · rw [hclient]
    exact Nat.le_trans hcache.size hsize

theorem Follows.size_le {turns : List Turn} (h : c.Follows turns)
    (hsize : c.cache.size ≤ c.cache.capacity) :
    (c.after turns).cache.size ≤ c.cache.capacity := by
  induction h with
  | nil c => exact hsize
  | @cons c t rest htakes hrest ih =>
    have hkept := (Follows.cons htakes (.nil _)).capacity_eq
    rw [after, after] at hkept
    rw [← hkept]
    apply ih
    rw [hkept]
    exact htakes.size_le hsize

/-- The cache of a new client that is given one: that one if it has an entry, and otherwise a new
one with the lifetime and the room of the settings. -/
def cacheFor (s : Settings) (given : Cache Question Bool) : Cache Question Bool :=
  match s.ancestryRoom with
  | ⟨room, positive⟩ =>
    if given.size = 0 then .empty s.ancestryLifetime room positive else given

theorem cache_create (s : Settings) (token base : Option String) (given : Cache Question Bool)
    (connection : Connection) :
    (create s token base (some given) connection).cache = cacheFor s given := by
  unfold create cacheFor
  by_cases h : given.size = 0 <;> simp [h, Option.filter]

/-- Lookups and stores of a new client go to the cache that is chosen for it: it keeps its lifetime
and its room, every answer that is learned is stored last in it, and a live entry is an answer
without an exchange. -/
theorem run_given_cache {σ : Type} (send : HostRequest → StateM σ Delivery) (host : σ)
    (s : Settings) (token base : Option String) (connection : Connection)
    {given : Cache Question Bool} (hsize : given.size ≤ given.capacity)
    {inquiries : List Inquiry} {front back : List Turn} {t : Turn}
    (hrun : (create s token base (some given) connection).run send host inquiries =
      front ++ t :: back) :
    let c := create s token base (some given) connection
    c.cache = cacheFor s given ∧
    t.client.cache.lifetime = (cacheFor s given).lifetime ∧
    t.client.cache.capacity = (cacheFor s given).capacity ∧
    t.client.cache.size ≤ (cacheFor s given).capacity ∧
    (∀ answer, t.Learned answer → t.client.cache.entries.getLast? =
      some ⟨t.question, answer, t.stored.add (cacheFor s given).lifetime⟩) ∧
    (t.question.ancestor ≠ t.question.descendant → ∀ e,
      (c.after front).cache.entry? t.question = some e → e.isLive t.asked = true →
      t.exchanges = [] ∧ t.answer = .ok e.value) := by
  intro c
  have hcache : c.cache = cacheFor s given := cache_create s token base given connection
  have hroom : c.cache.size ≤ c.cache.capacity := by
    rw [hcache]
    unfold cacheFor
    dsimp only
    split
    · exact Nat.zero_le _
    · exact hsize
  have hfollows := (follows_run send inquiries c host).1
  rw [hrun] at hfollows
  obtain ⟨hfront, hrest⟩ := hfollows.split
  obtain ⟨htakes, _⟩ := hrest.uncons
  obtain ⟨hturns, hafter⟩ := hfront.concat htakes
  rw [← hcache, ← hafter, hturns.lifetime_eq, hturns.capacity_eq]
  refine ⟨rfl, rfl, rfl, hturns.size_le hroom, ?_, ?_⟩
  · intro answer hanswer
    rw [hafter, ← hfront.lifetime_eq]
    exact htakes.stores hanswer
  · intro hne e he hlive
    exact htakes.recalls hne he hlive

/-- A cache with a live answer to the question. -/
def harbourCache : Cache Question Bool :=
  { harbourClient.cache with entries := [⟨harbourQuestion, true, .finite (1060 : Int)⟩] }

theorem run_given_cache_harbour : harbourCache.size ≤ harbourCache.capacity ∧
    ∃ t, (create Http.Site.plainSettings none none (some harbourCache) .separate).run scripted []
        [harbourInquiry] = [] ++ t :: [] ∧
      t.client.cache.capacity = harbourCache.capacity ∧ t.exchanges = [] ∧
      t.answer = .ok true := by
  have hsize : harbourCache.size ≤ harbourCache.capacity := by decide
  obtain ⟨t, ht⟩ : ∃ t, t = ((create Http.Site.plainSettings none none (some harbourCache)
      .separate).turn scripted [] harbourInquiry).1 := ⟨_, rfl⟩
  have hrun : (create Http.Site.plainSettings none none (some harbourCache) .separate).run
      scripted [] [harbourInquiry] = [] ++ t :: [] := by
    rw [run_cons, ← ht]
    rfl
  have hgiven := run_given_cache scripted [] Http.Site.plainSettings none none .separate hsize hrun
  have hquestion : t.question = harbourQuestion := by
    rw [ht]
    decide +kernel
  have hasked : t.asked = .finite (1000 : Int) := by
    rw [ht]
    decide +kernel
  obtain ⟨_, _, hcapacity, _, _, hrecalls⟩ := hgiven
  refine ⟨hsize, t, hrun, hcapacity, ?_⟩
  apply hrecalls _ ⟨harbourQuestion, true, .finite (1060 : Int)⟩
  · rw [hquestion]
    decide +kernel
  · rw [hasked]
    decide +kernel
  · rw [hquestion]
    decide

end Client

end DeployRegistry
