import DeployRegistry.Proofs.Recency
import DeployRegistry.Proofs.Remembering

/-!
# What a new answer displaces

Before an answer is stored in a full cache, the expired ones go. So a live answer is displaced only
where all answers are live and there is no room for another one, and then it is the one whose last
use is longest ago. The main statements are `Cache.Orderly.entries_store` and
`Client.run_spares_live`.
-/

namespace DeployRegistry

set_option autoImplicit false

open Number Binary64

namespace Cache

variable {κ α : Type} {c : Cache κ α} {now : Binary64}

/-- The cache as it is when an answer is stored: where there is no room, the expired ones go. -/
def relieved (c : Cache κ α) (now : Binary64) : Cache κ α :=
  if c.capacity ≤ c.size then (c.purge now).2 else c

/-- There is no room for another entry, and none of them has expired. -/
def Crowded (c : Cache κ α) (now : Binary64) : Prop :=
  c.size = c.capacity ∧ ∀ e ∈ c.entries, e.isLive now = true

theorem not_hasExpired_of_isLive {e : Entry κ α} (h : e.isLive now = true) :
    e.hasExpired now = false := by
  rw [Entry.isLive] at h
  rw [Entry.hasExpired, ← Bool.not_eq_true, atMost_iff]
  rintro ⟨_, _, hless⟩
  rw [h] at hless
  cases hless

/-- Where the lifetime is a number, what is not live has expired. -/
theorem Orderly.hasExpired_of_not_isLive (h : c.Orderly) (hlifetime : c.lifetime ≠ notANumber)
    (hnow : now ≠ notANumber) {e : Entry κ α} (he : e ∈ c.entries) (hlive : e.isLive now = false) :
    e.hasExpired now = true := by
  obtain ⟨s, hs, hexpires⟩ := h.dated e he
  exact (atMost_iff _ _).mpr ⟨hexpires ▸ hs.add_ne_notANumber hlifetime, hnow, hlive⟩

/-- Where the lifetime is no number, nothing is ever live. -/
theorem Orderly.isLive_of_notANumber (h : c.Orderly) (hlifetime : c.lifetime = notANumber)
    {e : Entry κ α} (he : e ∈ c.entries) : e.isLive now = false := by
  obtain ⟨s, _, hexpires⟩ := h.dated e he
  rw [Entry.isLive, hexpires, hlifetime]
  cases s <;> cases now <;> rfl

theorem filter_isLive_relieved (c : Cache κ α) (now : Binary64) :
    (c.relieved now).entries.filter (·.isLive now) = c.entries.filter (·.isLive now) := by
  unfold relieved
  split
  · rw [purge, List.filter_filter]
    apply List.filter_congr
    intro e _
    cases hlive : e.isLive now with
    | true => rw [not_hasExpired_of_isLive hlive]; rfl
    | false => rfl
  · rfl

theorem relieved_of_crowded (h : c.Crowded now) : c.relieved now = c := by
  have hleft : (c.entries.filter fun e => !e.hasExpired now) = c.entries := by
    rw [List.filter_eq_self]
    intro e he
    rw [not_hasExpired_of_isLive (h.2 e he)]
    rfl
  rw [relieved, if_pos h.1.ge, purge, hleft]

theorem relieved_sublist (c : Cache κ α) (now : Binary64) :
    (c.relieved now).entries.Sublist c.entries := by
  unfold relieved
  split
  · exact List.filter_sublist
  · exact List.Sublist.refl _

/-- Without a crowd there is room for one entry after the expired ones are gone. -/
theorem Orderly.size_relieved_lt (h : c.Orderly) (hlifetime : c.lifetime ≠ notANumber)
    (hnow : now ≠ notANumber) (hcrowd : ¬ c.Crowded now) :
    (c.relieved now).size < c.capacity := by
  unfold relieved
  split
  · next hfull =>
    have hsize : c.size = c.capacity := Nat.le_antisymm h.size_le hfull
    have hdead : ∃ e ∈ c.entries, e.isLive now = false := by
      by_contra hnone
      refine hcrowd ⟨hsize, fun e he => ?_⟩
      rw [← Bool.not_eq_false]
      exact fun hlive => hnone ⟨e, he, hlive⟩
    obtain ⟨e, he, hlive⟩ := hdead
    rw [← hsize]
    refine List.length_filter_lt_length_iff_exists.mpr ⟨e, he, ?_⟩
    rw [h.hasExpired_of_not_isLive hlifetime hnow he hlive]
    decide
  · next hroom => exact Nat.not_le.mp hroom

variable [DecidableEq κ]

/-- What a store keeps of the entries when it is made after the expired ones are gone. -/
structure Spares (c : Cache κ α) (now : Binary64) (kept : List (Entry κ α)) : Prop where
  sublist : kept.Sublist c.entries
  crowded : c.Crowded now → kept = c.entries.tail
  live : ¬ c.Crowded now → kept.filter (·.isLive now) = c.entries.filter (·.isLive now)

theorem Orderly.entries_store (h : c.Orderly) (hnow : now ≠ notANumber) {key : κ}
    (hnone : c.entry? key = none) (stored : Binary64) (value : α) : ∃ kept, c.Spares now kept ∧
      ((c.relieved now).store stored key value).entries =
        kept ++ [⟨key, value, stored.add c.lifetime⟩] := by
  have hbounds : (c.relieved now).lifetime = c.lifetime ∧
      (c.relieved now).capacity = c.capacity := by
    unfold relieved
    split <;> exact ⟨rfl, rfl⟩
  have hothers : (c.relieved now).others key = (c.relieved now).entries := by
    apply others_eq_entries
    rw [entry?_eq_none_iff] at hnone ⊢
    exact fun e he => hnone e ((c.relieved_sublist now).subset he)
  obtain ⟨kept, hkept⟩ : ∃ kept, kept = (c.relieved now).entries.drop
      ((c.relieved now).size + 1 - c.capacity) := ⟨_, rfl⟩
  refine ⟨kept, ⟨?_, ?_, ?_⟩, ?_⟩
  · rw [hkept]
    exact (List.drop_sublist _ _).trans (c.relieved_sublist now)
  · intro hcrowd
    rw [hkept, relieved_of_crowded hcrowd, hcrowd.1, Nat.add_sub_cancel_left, List.drop_one]
  · intro hcrowd
    by_cases hlifetime : c.lifetime = notANumber
    · have hdead : ∀ {l : List (Entry κ α)}, l.Sublist c.entries →
          l.filter (·.isLive now) = [] := by
        intro l hl
        rw [List.filter_eq_nil_iff]
        intro e he
        rw [h.isLive_of_notANumber hlifetime (hl.subset he)]
        exact Bool.false_ne_true
      rw [hdead (List.Sublist.refl _), hdead]
      rw [hkept]
      exact (List.drop_sublist _ _).trans (c.relieved_sublist now)
    · have hroom := h.size_relieved_lt hlifetime hnow hcrowd
      have hzero : (c.relieved now).size + 1 - c.capacity = 0 := by omega
      rw [hkept, hzero, List.drop_zero, filter_isLive_relieved]
  · simp only [Cache.store, hothers, hbounds.1, hbounds.2, hkept, size]

end Cache

namespace Client

variable {c : Client} {t : Turn}

/-- A turn that learns an answer found none in the cache, and stores it. -/
theorem Takes.keeps (h : c.Takes t) {answer : Bool} (hlearned : t.Learned answer) :
    ∃ cache, c.cache.lookup t.asked t.question = (none, cache) ∧
      t.client.cache = (cache.relieved t.replied).store t.stored t.question answer := by
  cases h with
  | same h => exact (Turn.not_learned_of_unsent rfl answer hlearned).elim
  | recalled h hfound => exact (Turn.not_learned_of_unsent rfl answer hlearned).elim
  | unsent h hmissed => exact (Turn.not_learned_of_unsent rfl answer hlearned).elim
  | @learned i cache address before status body other h hmissed =>
    obtain rfl : other = answer := Except.ok.inj hlearned.1
    exact ⟨cache, hmissed, rfl⟩
  | @unknown i cache address before body h hmissed =>
    exact (Turn.not_learned_of_unknown ⟨body, last?_exchanges address before _ rfl⟩ answer
      hlearned).elim
  | unreadable h hmissed => exact (Turn.not_learned_of_error rfl answer hlearned).elim
  | failed h hmissed => exact (Turn.not_learned_of_error rfl answer hlearned).elim

/-- A turn leaves the cache in good order. -/
theorem Takes.orderly (h : c.Takes t) (hcache : c.cache.Orderly) (hstored : t.stored.IsReading) :
    t.client.cache.Orderly := by
  have hlookup : ∀ {i : Inquiry} {found : Option Bool} {cache : Cache Question Bool},
      c.cache.lookup i.asked i.question = (found, cache) → cache.Orderly := by
    intro i found cache hl
    have := hcache.lookup i.asked i.question
    rwa [hl] at this
  cases h with
  | same h => exact hcache
  | recalled h hfound => exact hlookup hfound
  | unsent h hmissed => exact hlookup hmissed
  | @learned i cache address before status body answer h hmissed =>
    have hrelieved : (cache.relieved i.replied).Orderly := by
      unfold Cache.relieved
      split
      · exact (hlookup hmissed).purge i.replied
      · exact hlookup hmissed
    exact hrelieved.store hstored i.question answer
  | unknown h hmissed => exact hlookup hmissed
  | unreadable h hmissed => exact hlookup hmissed
  | failed h hmissed => exact hlookup hmissed

theorem Follows.orderly {turns : List Turn} (h : c.Follows turns) (hcache : c.cache.Orderly)
    (hclock : ∀ t ∈ turns, t.stored.IsReading) : (c.after turns).cache.Orderly := by
  induction h with
  | nil c => exact hcache
  | @cons c t rest htakes hrest ih =>
    rw [List.forall_mem_cons] at hclock
    exact ih (htakes.orderly hcache hclock.1) hclock.2

/-- What is not live when a question is asked is not live when the host has replied. -/
theorem isLive_later {e : Entry Question Bool} {i : Inquiry} (hasked : i.asked ≠ notANumber)
    (hforward : i.replied.less i.asked = false) (hdead : e.isLive i.asked = false) :
    e.isLive i.replied = false := by
  rw [← Bool.not_eq_true]
  intro hlive
  rw [Entry.isLive, less_of_not_less_of_less hasked hforward hlive] at hdead
  cases hdead

/-- The entry that a missed question loses is no loss for what a store spares. -/
theorem spares_of_missed {cache : Cache Question Bool} {i : Inquiry} (hcache : c.cache.Orderly)
    (hasked : i.asked ≠ notANumber) (hforward : i.replied.less i.asked = false)
    (hmissed : c.cache.lookup i.asked i.question = (none, cache))
    {kept : List (Entry Question Bool)} (h : cache.Spares i.replied kept) :
    c.cache.Spares i.replied kept := by
  have hnone : (c.cache.lookup i.asked i.question).1 = none := by rw [hmissed]
  obtain rfl := Cache.lookup_eq_none hmissed
  have hdead : ∀ e ∈ c.cache.entries, e.key = i.question → e.isLive i.replied = false := by
    intro e he hkey
    apply isLive_later hasked hforward
    rw [← Bool.not_eq_true]
    intro hlive
    simp [Cache.lookup_fst, ← hkey, hcache.entry?_eq_some he, Option.filter, hlive] at hnone
  cases hfound : c.cache.entry? i.question with
  | none =>
    simp only [Cache.others_eq_entries hfound] at h
    exact ⟨h.sublist, h.crowded, h.live⟩
  | some e =>
    obtain ⟨he, hkey⟩ := Cache.entry?_eq_some hfound
    have hlost := Cache.length_others_lt hfound
    -- With an entry that is not live, neither cache is crowded.
    refine ⟨h.sublist.trans (c.cache.others_sublist i.question), fun hcrowd => ?_, fun _ => ?_⟩
    · have hlive := hcrowd.2 e he
      rw [hdead e he hkey] at hlive
      cases hlive
    · have hroom : ¬ Cache.Crowded { c.cache with
          entries := c.cache.others i.question, misses := c.cache.misses + 1 } i.replied := by
        rintro ⟨hfull, _⟩
        have hsize : (c.cache.others i.question).length = c.cache.capacity := hfull
        have := hcache.size_le
        omega
      rw [h.live hroom, Cache.others, List.filter_filter]
      apply List.filter_congr
      intro other hother
      by_cases hsame : other.key = i.question
      · simp [hdead other hother hsame]
      · simp [hsame]

/-- When a turn stores an answer, in a run that begins with a cache in good order: every answer
that is live then stays, with its expiry and in its place, unless there is no room and all answers
are live, where the one whose last use is longest ago goes and all others stay. The new answer is
the last one, and there are no more answers than there is room for. -/
theorem run_spares_live {σ : Type} (send : HostRequest → StateM σ Delivery) (host : σ)
    (hcache : c.cache.Orderly) {inquiries : List Inquiry}
    (hclock : ∀ i ∈ inquiries, i.asked.IsReading ∧ i.replied.IsReading ∧ i.stored.IsReading ∧
      i.replied.less i.asked = false)
    {front back : List Turn} (hrun : c.run send host inquiries = front ++ t :: back)
    {answer : Bool} (hlearned : t.Learned answer) :
    let before := (c.after front).cache
    let after := t.client.cache
    (∃ kept, after.entries = kept ++ [⟨t.question, answer, t.stored.add before.lifetime⟩] ∧
      kept.Sublist before.entries ∧
      (before.size = before.capacity ∧ (∀ e ∈ before.entries, e.isLive t.replied = true) →
        kept = before.entries.tail) ∧
      (¬ (before.size = before.capacity ∧ ∀ e ∈ before.entries, e.isLive t.replied = true) →
        kept.filter (·.isLive t.replied) = before.entries.filter (·.isLive t.replied))) ∧
    after.size ≤ before.capacity := by
  intro before after
  obtain ⟨hfollows, hinquiries⟩ := follows_run send inquiries c host
  rw [hrun] at hfollows hinquiries
  obtain ⟨hfront, hrest⟩ := hfollows.split
  obtain ⟨htakes, _⟩ := hrest.uncons
  have hmoments : ∀ u ∈ front ++ t :: back, u.asked.IsReading ∧ u.replied.IsReading ∧
      u.stored.IsReading ∧ u.replied.less u.asked = false :=
    fun u hu => hclock u.toInquiry (hinquiries ▸ List.mem_map_of_mem hu)
  have hbefore : before.Orderly :=
    hfront.orderly hcache fun u hu => (hmoments u (List.mem_append_left _ hu)).2.2.1
  obtain ⟨hasked, hreplied, hstored, hforward⟩ := hmoments t (by simp)
  obtain ⟨cache, hmissed, hcache⟩ := htakes.keeps hlearned
  have hrest : cache.Orderly := by
    have := hbefore.lookup t.asked t.question
    rwa [hmissed] at this
  have hsub := Cache.subcache_of_lookup hmissed
  have hnone : cache.entry? t.question = none := by
    obtain rfl := Cache.lookup_eq_none hmissed
    exact Cache.entry?_others _ _ _ _
  obtain ⟨kept, hspares, hentries⟩ :=
    hrest.entries_store hreplied.ne_notANumber hnone t.stored answer
  have hkept : before.Spares t.replied kept :=
    spares_of_missed hbefore hasked.ne_notANumber hforward hmissed hspares
  refine ⟨⟨kept, ?_, hkept.sublist, hkept.crowded, hkept.live⟩, ?_⟩
  · rw [← hsub.lifetime, ← hentries, ← hcache]
  · have hcapacity : after.capacity = before.capacity := by
      obtain ⟨_, hclient, _, hroom⟩ := htakes.client_eq
      rw [show after = t.client.cache from rfl, hclient]
      exact hroom
    rw [← hcapacity]
    exact (htakes.orderly hbefore hstored).size_le

/-- A full cache: the answer that was used last has expired, the other one is live. -/
def mixedClient : Client :=
  { harbourClient with
    cache := {
      lifetime := .finite 60
      capacity := 2
      capacity_pos := by decide
      entries := [⟨⟨"acme/web", "c", "d"⟩, true, (Binary64.finite (1000 : Int)).add (.finite 60)⟩,
        ⟨⟨"acme/web", "e", "f"⟩, false, (Binary64.finite (900 : Int)).add (.finite 60)⟩]
      hits := 0
      misses := 0 } }

/-- The clock moves on while the host replies, and again before the answer is stored. -/
def lateInquiry : Inquiry :=
  ⟨harbourQuestion, .finite (1010 : Int), .finite (1011 : Int), .finite (1012 : Int)⟩

theorem run_spares_live_mixed :
    ∃ t, mixedClient.run scripted harbourReplies [lateInquiry] = [] ++ t :: [] ∧
      t.client.cache.size ≤ 2 ∧ ∃ kept, t.client.cache.entries =
        kept ++ [⟨harbourQuestion, true, (Binary64.finite (1012 : Int)).add (.finite 60)⟩] ∧
        kept.filter (·.isLive (.finite (1011 : Int))) =
          mixedClient.cache.entries.filter (·.isLive (.finite (1011 : Int))) := by
  have hcache : mixedClient.cache.Orderly := by
    refine ⟨by decide, by decide, ?_⟩
    intro e he
    rcases List.mem_pair.mp he with rfl | rfl
    · exact ⟨.finite (1000 : Int), isReading_int (by decide), rfl⟩
    · exact ⟨.finite (900 : Int), isReading_int (by decide), rfl⟩
  obtain ⟨t, ht⟩ : ∃ t, t = (mixedClient.turn scripted harbourReplies lateInquiry).1 :=
    ⟨_, rfl⟩
  have hrun : mixedClient.run scripted harbourReplies [lateInquiry] = [] ++ t :: [] := by
    rw [run_cons, ← ht]
    rfl
  have hclock : ∀ i ∈ [lateInquiry], i.asked.IsReading ∧ i.replied.IsReading ∧
      i.stored.IsReading ∧ i.replied.less i.asked = false := by
    intro i hi
    obtain rfl := List.mem_singleton.mp hi
    exact ⟨isReading_int (by decide), isReading_int (by decide), isReading_int (by decide),
      by decide +kernel⟩
  have hlearned : t.Learned true := by
    have hanswer : t.answer.toOption = some true := by
      rw [ht]
      decide +kernel
    have hread : (readReply "\x7b\"status\": \"ahead\"\x7d").toOption = some true := by
      decide +kernel
    refine ⟨eq_ok_of_toOption hanswer, 200, _, ?_, rfl, eq_ok_of_toOption hread⟩
    rw [ht]
    decide +kernel
  have hquestion : t.question = harbourQuestion := by
    rw [ht]
    decide +kernel
  have hreplied : t.replied = .finite (1011 : Int) := by
    rw [ht]
    decide +kernel
  have hstored : t.stored = .finite (1012 : Int) := by
    rw [ht]
    decide +kernel
  obtain ⟨⟨kept, hentries, _, _, hlive⟩, hsize⟩ :=
    run_spares_live scripted harbourReplies hcache hclock hrun hlearned
  rw [hquestion, hstored] at hentries
  rw [hreplied] at hlive
  exact ⟨t, hrun, hsize, kept, hentries, hlive (by decide +kernel)⟩

end Client

end DeployRegistry
