import DeployRegistry.Cache
import DeployRegistry.Proofs.Precision
import Mathlib.Data.Finset.Card
import Mathlib.Data.List.Nodup

/-!
# The order of last use

Whatever is done with a cache is written down as a history, and what the cache answers is told from
that history alone. Behind an entry stand only keys that were used since its own key was. So when
room is made for a key and a live entry has to go, as many keys as the cache has room for have been
used since. The main statements are `Course.Sound.act`, what one act keeps, and
`Cache.course_refines`, what holds after all of them.
-/

namespace DeployRegistry

set_option autoImplicit false

open Number Binary64

/-! Caches in good order. -/

namespace Cache

variable {κ α : Type}

/-- No key has two entries, there are no more entries than there is room for, and each of them
expires a lifetime after some moment. -/
structure Orderly (c : Cache κ α) : Prop where
  nodup : c.keys.Nodup
  size_le : c.size ≤ c.capacity
  dated : ∀ e ∈ c.entries, ∃ s : Binary64, s.IsReading ∧ e.expires = s.add c.lifetime

theorem orderly_empty (lifetime : Binary64) {capacity : Nat} (h : 0 < capacity) :
    (empty lifetime capacity h : Cache κ α).Orderly where
  nodup := List.nodup_nil
  size_le := Nat.zero_le _
  dated := fun _ he => absurd he List.not_mem_nil

variable {c : Cache κ α} {now : Binary64} {key : κ}

theorem Orderly.of_sublist (h : c.Orderly) {entries : List (Entry κ α)}
    (hentries : entries.Sublist c.entries) (hits misses : Nat) :
    Orderly { c with entries := entries, hits := hits, misses := misses } where
  nodup := h.nodup.sublist (hentries.map _)
  size_le := hentries.length_le.trans h.size_le
  dated := fun e he => h.dated e (hentries.subset he)

theorem Orderly.purge (h : c.Orderly) (now : Binary64) : (c.purge now).2.Orderly :=
  h.of_sublist List.filter_sublist _ _

theorem Orderly.clear (h : c.Orderly) : c.clear.Orderly :=
  h.of_sublist (List.nil_sublist _) _ _

variable [DecidableEq κ]

theorem others_sublist (c : Cache κ α) (key : κ) : (c.others key).Sublist c.entries :=
  List.filter_sublist

/-- A key stays unique where an entry takes the place of those that it had. -/
theorem Orderly.nodup_concat (h : c.Orderly) {kept : List (Entry κ α)} {e : Entry κ α}
    (hkept : kept.Sublist (c.others key)) (he : e.key = key) :
    ((kept ++ [e]).map (·.key)).Nodup := by
  rw [List.map_append, List.nodup_append]
  refine ⟨h.nodup.sublist ((hkept.trans (c.others_sublist key)).map _), List.nodup_singleton _, ?_⟩
  intro k hk k' hk' heq
  obtain ⟨other, hother, rfl⟩ := List.mem_map.mp hk
  obtain rfl := List.mem_singleton.mp hk'
  exact ((c.mem_others_iff key other).mp (hkept.subset hother)).2 (heq.trans he)

theorem Orderly.found (h : c.Orderly) {e : Entry κ α} (he : c.entry? key = some e)
    (hits : Nat) : Orderly { c with entries := c.others key ++ [e], hits := hits } where
  nodup := h.nodup_concat (List.Sublist.refl _) (entry?_eq_some he).2
  size_le := by
    have := length_others_lt he
    have := h.size_le
    simp only [size, List.length_append, List.length_singleton] at *
    omega
  dated := by
    intro x hx
    rcases List.mem_append.mp hx with hother | hlast
    · exact h.dated x ((c.mem_others_iff key x).mp hother).1
    · exact h.dated x (List.mem_singleton.mp hlast ▸ (entry?_eq_some he).1)

theorem Orderly.store (h : c.Orderly) (hnow : now.IsReading) (key : κ) (value : α) :
    (c.store now key value).Orderly where
  nodup := h.nodup_concat (List.drop_sublist _ _) rfl
  size_le := length_store_le c now key value
  dated := by
    intro e he
    rcases mem_store he with rfl | ⟨hold, _⟩
    · exact ⟨now, hnow, rfl⟩
    · exact h.dated e hold

theorem Orderly.lookup (h : c.Orderly) (now : Binary64) (key : κ) :
    (c.lookup now key).2.Orderly := by
  rcases hl : c.lookup now key with ⟨found, cache⟩
  cases found with
  | some value =>
    obtain ⟨e, he, _, _, rfl⟩ := lookup_eq_some hl
    exact h.found he _
  | none =>
    obtain rfl := lookup_eq_none hl
    exact h.of_sublist (c.others_sublist key) _ _

/-- In good order an entry is found by its key. -/
theorem Orderly.entry?_eq_some (h : c.Orderly) {e : Entry κ α} (he : e ∈ c.entries) :
    c.entry? e.key = some e := by
  cases hfound : c.entry? e.key with
  | none => exact absurd rfl ((c.entry?_eq_none_iff e.key).mp hfound e he)
  | some other =>
    obtain ⟨hother, hkey⟩ := Cache.entry?_eq_some hfound
    rw [List.inj_on_of_nodup_map h.nodup hother he hkey]

end Cache

/-- What can be done with a cache. -/
inductive Use (κ α : Type)
  | store (key : κ) (value : α)
  | lookup (key : κ)
  | contains (key : κ)
  | purge
  | clear
  deriving DecidableEq

/-- A use, and what the clock shows then. -/
structure Act (κ α : Type) where
  now : Binary64
  use : Use κ α
  deriving DecidableEq

/-- What a history tells of. -/
inductive Event (κ α : Type)
  | stored (key : κ) (value : α) (time : Binary64)
  | found (key : κ)
  | missed (key : κ)
  | cleared
  deriving DecidableEq

/-- A cache with its history, the latest event first. -/
structure Course (κ α : Type) where
  events : List (Event κ α)
  cache : Cache κ α

/-- The clock shows readings, and never goes back. -/
structure Ticking (times : List Binary64) : Prop where
  readings : ∀ t ∈ times, t.IsReading
  forward : times.Pairwise fun earlier later => later.less earlier = false

section

variable {κ α : Type} [DecidableEq κ]

/-! What a history says of a key. -/

/-- The value and the moment of the last store of a key since the cache was last cleared. -/
def lastStore? (key : κ) : List (Event κ α) → Option (α × Binary64)
  | [] => none
  | .stored k value time :: earlier => if k = key then some (value, time) else lastStore? key earlier
  | .found _ :: earlier => lastStore? key earlier
  | .missed _ :: earlier => lastStore? key earlier
  | .cleared :: _ => none

/-- The other keys that were stored or found since a key last was. -/
def usedSince (key : κ) : List (Event κ α) → Finset κ
  | [] => ∅
  | .stored k _ _ :: earlier => if k = key then ∅ else insert k (usedSince key earlier)
  | .found k :: earlier => if k = key then ∅ else insert k (usedSince key earlier)
  | .missed _ :: earlier => usedSince key earlier
  | .cleared :: _ => ∅

/-- The number of lookups since the cache was last cleared. -/
def lookups : List (Event κ α) → Nat
  | [] => 0
  | .stored _ _ _ :: earlier => lookups earlier
  | .found _ :: earlier => lookups earlier + 1
  | .missed _ :: earlier => lookups earlier + 1
  | .cleared :: _ => 0

namespace Course

def act (r : Course κ α) (a : Act κ α) : Course κ α :=
  match a.use with
  | .store key value => ⟨.stored key value a.now :: r.events, r.cache.store a.now key value⟩
  | .lookup key =>
    match r.cache.lookup a.now key with
    | (some _, cache) => ⟨.found key :: r.events, cache⟩
    | (none, cache) => ⟨.missed key :: r.events, cache⟩
  | .contains _ => r
  | .purge => ⟨r.events, (r.cache.purge a.now).2⟩
  | .clear => ⟨.cleared :: r.events, r.cache.clear⟩

end Course

/-- What becomes of a cache by some acts, one after the other. -/
def Cache.course (c : Cache κ α) (acts : List (Act κ α)) : Course κ α :=
  acts.foldl Course.act ⟨[], c⟩

/-! What is true of a cache and its history. -/

/-- The used keys of a history grow by a key that is used. -/
theorem usedSince_found_of_ne {key k : κ} (h : k ≠ key) (events : List (Event κ α)) :
    usedSince key (.found k :: events) = insert k (usedSince key events) := by
  rw [usedSince, if_neg h]

theorem usedSince_stored_of_ne {key k : κ} (h : k ≠ key) (value : α) (time : Binary64)
    (events : List (Event κ α)) :
    usedSince key (.stored k value time :: events) = insert k (usedSince key events) := by
  rw [usedSince, if_neg h]

theorem lastStore?_stored_self (key : κ) (value : α) (time : Binary64)
    (events : List (Event κ α)) :
    lastStore? key (.stored key value time :: events) = some (value, time) := by
  rw [lastStore?, if_pos rfl]

theorem lastStore?_stored_of_ne {key k : κ} (h : k ≠ key) (value : α) (time : Binary64)
    (events : List (Event κ α)) :
    lastStore? key (.stored k value time :: events) = lastStore? key events := by
  rw [lastStore?, if_neg h]

namespace Course

/-- Every entry is of the last store of its key, and behind it stand only keys that were used since.
A key without an entry was not stored, or its last store has expired, or as many keys as there is
room for were used since. -/
structure Sound (r : Course κ α) (now : Binary64) : Prop where
  orderly : r.cache.Orderly
  stored : ∀ e ∈ r.cache.entries, ∃ s, lastStore? e.key r.events = some (e.value, s) ∧
    e.expires = s.add r.cache.lifetime
  order : r.cache.entries.Pairwise fun e later => later.key ∈ usedSince e.key r.events
  absent : ∀ key value s, lastStore? key r.events = some (value, s) →
    now.less (s.add r.cache.lifetime) = true → r.cache.entry? key = none →
    r.cache.capacity ≤ (usedSince key r.events).card
  times : ∀ key value s, lastStore? key r.events = some (value, s) → s.IsReading
  counted : r.cache.hits + r.cache.misses = lookups r.events

variable {r : Course κ α} {now : Binary64}

theorem sound_empty (lifetime : Binary64) {capacity : Nat} (h : 0 < capacity) (now : Binary64) :
    Sound (⟨[], .empty lifetime capacity h⟩ : Course κ α) now where
  orderly := Cache.orderly_empty lifetime h
  stored := fun _ he => absurd he List.not_mem_nil
  order := .nil
  absent := nofun
  times := nofun
  counted := rfl

/-- What is live later on is live before. -/
theorem Sound.later {earlier : Binary64} (h : r.Sound earlier) (hearlier : earlier ≠ notANumber)
    (hforward : now.less earlier = false) : r.Sound now :=
  { h with
    absent := fun key value s hs hlive =>
      h.absent key value s hs (less_of_not_less_of_less hearlier hforward hlive) }

/-- An entry tells whether the last store of its key has expired. -/
theorem Sound.isLive_eq (h : r.Sound now) {key : κ} {e : Entry κ α} {value : α} {s : Binary64}
    (he : r.cache.entry? key = some e) (hs : lastStore? key r.events = some (value, s)) :
    e.value = value ∧ e.isLive now = now.less (s.add r.cache.lifetime) := by
  obtain ⟨hmem, rfl⟩ := Cache.entry?_eq_some he
  obtain ⟨s', hs', hexpires⟩ := h.stored e hmem
  obtain ⟨rfl, rfl⟩ := Prod.mk.inj (Option.some.inj (hs.symm.trans hs'))
  exact ⟨rfl, by rw [Entry.isLive, hexpires]⟩

/-- Entries that are not live may go, if nothing is used. -/
theorem Sound.drop (h : r.Sound now) {events : List (Event κ α)} {entries : List (Entry κ α)}
    {hits misses : Nat} (hentries : entries.Sublist r.cache.entries)
    (hlive : ∀ e ∈ r.cache.entries, e.isLive now = true → e ∈ entries)
    (hstore : ∀ key, lastStore? key events = lastStore? key r.events)
    (hused : ∀ key, usedSince key events = usedSince key r.events)
    (hcount : hits + misses = lookups events) :
    Sound ⟨events, { r.cache with entries := entries, hits := hits, misses := misses }⟩ now where
  orderly := h.orderly.of_sublist hentries hits misses
  stored := fun e he => by
    rw [hstore]
    exact h.stored e (hentries.subset he)
  order := (h.order.sublist hentries).imp fun hlater => by rwa [hused]
  absent := by
    intro key value s hs hless hnone
    rw [hstore] at hs
    rw [hused]
    cases he : r.cache.entry? key with
    | none => exact h.absent key value s hs hless he
    | some e =>
      have hstays := hlive e (Cache.entry?_eq_some he).1 ((h.isLive_eq he hs).2.trans hless)
      exact absurd (Cache.entry?_eq_some he).2 ((Cache.entry?_eq_none_iff _ key).mp hnone e hstays)
  times := fun key value s hs => h.times key value s (hstore key ▸ hs)
  counted := hcount

theorem Sound.missed (h : r.Sound now) {key : κ} {cache : Cache κ α}
    (hmiss : r.cache.lookup now key = (none, cache)) :
    Sound ⟨.missed key :: r.events, cache⟩ now := by
  have hnone : (r.cache.lookup now key).1 = none := by rw [hmiss]
  rw [Cache.lookup_fst] at hnone
  obtain rfl := Cache.lookup_eq_none hmiss
  refine h.drop (r.cache.others_sublist key) ?_ (fun _ => rfl) (fun _ => rfl) ?_
  · intro e he hlive
    refine (r.cache.mem_others_iff key e).mpr ⟨he, ?_⟩
    rintro rfl
    simp [h.orderly.entry?_eq_some he, Option.filter, hlive] at hnone
  · rw [lookups, ← h.counted, Nat.add_assoc]

theorem Sound.purge (h : r.Sound now) : Sound ⟨r.events, (r.cache.purge now).2⟩ now := by
  refine h.drop List.filter_sublist ?_ (fun _ => rfl) (fun _ => rfl) h.counted
  intro e he hlive
  apply (r.cache.mem_purge_iff now e).mpr
  rw [Entry.hasExpired, ← Bool.not_eq_true, atMost_iff]
  refine ⟨he, fun hexpired => ?_⟩
  rw [Entry.isLive, hexpired.2.2] at hlive
  cases hlive

theorem Sound.clear (h : r.Sound now) : Sound ⟨.cleared :: r.events, r.cache.clear⟩ now where
  orderly := h.orderly.clear
  stored := fun _ he => absurd he List.not_mem_nil
  order := .nil
  absent := nofun
  times := nofun
  counted := rfl

/-- Where an entry comes last, its key was used since that of every other entry. -/
theorem Sound.order_concat (h : r.Sound now) {key : κ} {e : Entry κ α} {event : Event κ α}
    {kept : List (Entry κ α)} (hkept : kept.Sublist (r.cache.others key)) (he : e.key = key)
    (hused : ∀ k, key ≠ k → usedSince k (event :: r.events) = insert key (usedSince k r.events)) :
    (kept ++ [e]).Pairwise fun x later => later.key ∈ usedSince x.key (event :: r.events) := by
  have hne : ∀ x ∈ kept, key ≠ x.key := fun x hx =>
    (((r.cache.mem_others_iff key x).mp (hkept.subset hx)).2).symm
  refine List.pairwise_append.mpr ⟨?_, List.pairwise_singleton _ _, ?_⟩
  · refine (h.order.sublist (hkept.trans (r.cache.others_sublist key))).imp_of_mem ?_
    intro x later hx _ hlater
    rw [hused x.key (hne x hx)]
    exact Finset.mem_insert_of_mem hlater
  · intro x hx later hlater
    obtain rfl := List.mem_singleton.mp hlater
    rw [hused x.key (hne x hx), he]
    exact Finset.mem_insert_self key _

theorem Sound.found (h : r.Sound now) {key : κ} {value : α} {cache : Cache κ α}
    (hfound : r.cache.lookup now key = (some value, cache)) :
    Sound ⟨.found key :: r.events, cache⟩ now := by
  obtain ⟨e, he, hlive, rfl, rfl⟩ := Cache.lookup_eq_some hfound
  obtain ⟨hmem, hkey⟩ := Cache.entry?_eq_some he
  have hused : ∀ k, key ≠ k →
      usedSince k (.found key :: r.events) = insert key (usedSince k r.events) :=
    fun k hk => usedSince_found_of_ne hk r.events
  refine ⟨h.orderly.found he _, ?_, h.order_concat (List.Sublist.refl _) hkey hused, ?_, h.times, ?_⟩
  · intro x hx
    rcases List.mem_append.mp hx with hother | hlast
    · exact h.stored x ((r.cache.mem_others_iff key x).mp hother).1
    · exact h.stored x (List.mem_singleton.mp hlast ▸ hmem)
  · intro k value s hs hless hnone
    rw [Cache.entry?_eq_none_iff] at hnone
    have hk : key ≠ k := fun hk => hnone e (by simp) (hkey.trans hk)
    have hold : r.cache.entry? k = none := by
      rw [Cache.entry?_eq_none_iff]
      intro x hx hxk
      refine hnone x (List.mem_append_left _ ?_) hxk
      exact (r.cache.mem_others_iff key x).mpr ⟨hx, hxk ▸ hk.symm⟩
    rw [hused k hk]
    exact (h.absent k value s hs hless hold).trans (Finset.card_le_card (Finset.subset_insert _ _))
  · rw [lookups, ← h.counted, Nat.add_right_comm]

/-- An entry that has to go for a key leaves behind as many keys as there is room for, all used
since. -/
theorem Sound.card_of_displaced (h : r.Sound now) {key : κ} {e : Entry κ α}
    (he : e ∈ r.cache.others key)
    (hgone : e ∉ (r.cache.others key).drop
      ((r.cache.others key).length + 1 - r.cache.capacity)) :
    r.cache.capacity ≤ (insert key (usedSince e.key r.events)).card := by
  have horder := h.order.sublist (r.cache.others_sublist key)
  have hnodup : ((r.cache.others key).map (·.key)).Nodup :=
    h.orderly.nodup.sublist ((r.cache.others_sublist key).map _)
  have hother : ∀ x ∈ r.cache.others key, x.key ≠ key := fun x hx =>
    ((r.cache.mem_others_iff key x).mp hx).2
  have hlength := (r.cache.others_sublist key).length_le
  have hsize := h.orderly.size_le
  rw [Cache.size] at hsize
  cases hkept : r.cache.others key with
  | nil =>
    rw [hkept] at he
    cases he
  | cons first rest =>
    rw [hkept] at he hgone horder hnodup hother hlength
    rw [List.length_cons] at hgone hlength
    -- Only one entry has to go, and that is the first one.
    have hone : rest.length + 1 + 1 - r.cache.capacity = 1 := by
      by_contra hne
      have hzero : rest.length + 1 + 1 - r.cache.capacity = 0 := by omega
      rw [hzero, List.drop_zero] at hgone
      exact hgone he
    rw [hone, List.drop_one, List.tail_cons] at hgone
    obtain rfl : e = first := (List.mem_cons.mp he).resolve_right hgone
    obtain ⟨hbehind, _⟩ := List.pairwise_cons.mp horder
    rw [List.map_cons, List.nodup_cons] at hnodup
    have hkey : key ∉ (rest.map (·.key)).toFinset := by
      simp only [List.mem_toFinset, List.mem_map, not_exists, not_and]
      exact fun x hx => hother x (List.mem_cons_of_mem e hx)
    calc r.cache.capacity
        ≤ rest.length + 1 := by omega
      _ = (insert key (rest.map (·.key)).toFinset).card := by
          rw [Finset.card_insert_of_notMem hkey, List.toFinset_card_of_nodup hnodup.2,
            List.length_map]
      _ ≤ (insert key (usedSince e.key r.events)).card := by
          apply Finset.card_le_card
          apply Finset.insert_subset_insert
          intro k hk
          obtain ⟨x, hx, rfl⟩ := List.mem_map.mp (List.mem_toFinset.mp hk)
          exact hbehind x hx

theorem Sound.store (h : r.Sound now) (hnow : now.IsReading) (key : κ) (value : α) :
    Sound ⟨.stored key value now :: r.events, r.cache.store now key value⟩ now := by
  have hused : ∀ k, key ≠ k → usedSince k (.stored key value now :: r.events) =
      insert key (usedSince k r.events) :=
    fun k hk => usedSince_stored_of_ne hk value now r.events
  have hstore : ∀ k, key ≠ k →
      lastStore? k (.stored key value now :: r.events) = lastStore? k r.events :=
    fun k hk => lastStore?_stored_of_ne hk value now r.events
  refine ⟨h.orderly.store hnow key value, ?_,
    h.order_concat (List.drop_sublist _ _) rfl hused, ?_, ?_, h.counted⟩
  · intro e he
    rcases Cache.mem_store he with rfl | ⟨hold, hne⟩
    · exact ⟨now, lastStore?_stored_self key value now r.events, rfl⟩
    · rw [hstore e.key hne.symm]
      exact h.stored e hold
  · intro k v s hs hless hnone
    rw [Cache.entry?_eq_none_iff] at hnone
    have hk : key ≠ k := hnone _ (List.mem_append_right _ (List.mem_singleton.mpr rfl))
    rw [hstore k hk] at hs
    rw [hused k hk]
    cases he : r.cache.entry? k with
    | none =>
      exact (h.absent k v s hs hless he).trans (Finset.card_le_card (Finset.subset_insert _ _))
    | some e =>
      obtain ⟨hmem, rfl⟩ := Cache.entry?_eq_some he
      refine h.card_of_displaced ((r.cache.mem_others_iff key e).mpr ⟨hmem, hk.symm⟩) ?_
      exact fun hstays => hnone e (List.mem_append_left _ hstays) rfl
  · intro k v s hs
    by_cases hk : key = k
    · subst hk
      rw [lastStore?_stored_self] at hs
      cases hs
      exact hnow
    · rw [hstore k hk] at hs
      exact h.times k v s hs

/-- One act keeps it all. -/
theorem Sound.act (h : r.Sound now) {a : Act κ α} (ha : a.now = now) (hnow : now.IsReading) :
    (r.act a).Sound now := by
  obtain ⟨moment, use⟩ := a
  obtain rfl : moment = now := ha
  cases use with
  | store key value => exact h.store hnow key value
  | lookup key =>
    simp only [Course.act]
    rcases hl : r.cache.lookup moment key with ⟨found, cache⟩
    cases found with
    | some value => exact h.found hl
    | none => exact h.missed hl
  | contains key => exact h
  | purge => exact h.purge
  | clear => exact h.clear

/-- Any acts keep it all, while the clock does not go back. -/
theorem Sound.foldl {acts : List (Act κ α)} :
    ∀ {r : Course κ α} {earlier : Binary64}, r.Sound earlier →
      Ticking (earlier :: (acts.map (·.now) ++ [now])) → (acts.foldl Course.act r).Sound now := by
  induction acts with
  | nil =>
    intro r earlier h hclock
    have hforward := (List.pairwise_cons.mp hclock.forward).1 now (by simp)
    exact h.later (hclock.readings earlier (by simp)).ne_notANumber hforward
  | cons a rest ih =>
    intro r earlier h hclock
    obtain ⟨hforward, hrest⟩ := List.pairwise_cons.mp hclock.forward
    have ha : Sound r a.now :=
      h.later (hclock.readings earlier (by simp)).ne_notANumber (hforward a.now (by simp))
    have hreading : a.now.IsReading := hclock.readings a.now (by simp)
    refine ih (ha.act rfl hreading) ⟨?_, hrest⟩
    intro t ht
    exact hclock.readings t (List.mem_cons_of_mem earlier ht)

theorem sound_course (lifetime : Binary64) {capacity : Nat} (hpos : 0 < capacity)
    {acts : List (Act κ α)} (hclock : Ticking (acts.map (·.now) ++ [now])) :
    ((Cache.empty lifetime capacity hpos).course acts).Sound now := by
  cases acts with
  | nil => exact sound_empty lifetime hpos now
  | cons a rest =>
    have hreading : a.now.IsReading := hclock.readings a.now (by simp)
    exact ((sound_empty lifetime hpos a.now).act rfl hreading).foldl hclock

theorem bounds_act (r : Course κ α) (a : Act κ α) :
    (r.act a).cache.lifetime = r.cache.lifetime ∧ (r.act a).cache.capacity = r.cache.capacity := by
  obtain ⟨moment, use⟩ := a
  cases use with
  | store key value => exact ⟨rfl, rfl⟩
  | lookup key =>
    simp only [Course.act]
    rcases hl : r.cache.lookup moment key with ⟨found, cache⟩
    have hcache := Cache.subcache_of_lookup hl
    cases found <;> exact ⟨hcache.lifetime, hcache.capacity⟩
  | contains key => exact ⟨rfl, rfl⟩
  | purge => exact ⟨rfl, rfl⟩
  | clear => exact ⟨rfl, rfl⟩

theorem bounds_foldl (acts : List (Act κ α)) : ∀ r : Course κ α,
    (acts.foldl Course.act r).cache.lifetime = r.cache.lifetime ∧
      (acts.foldl Course.act r).cache.capacity = r.cache.capacity := by
  induction acts with
  | nil => exact fun r => ⟨rfl, rfl⟩
  | cons a rest ih =>
    intro r
    obtain ⟨hlifetime, hcapacity⟩ := ih (r.act a)
    exact ⟨hlifetime.trans (bounds_act r a).1, hcapacity.trans (bounds_act r a).2⟩

/-- What is found was stored last under its key, and has not expired. -/
theorem Sound.of_found (h : r.Sound now) {key : κ} {value : α}
    (hfound : (r.cache.lookup now key).1 = some value) :
    ∃ s, lastStore? key r.events = some (value, s) ∧
      now.less (s.add r.cache.lifetime) = true := by
  obtain ⟨e, he, hlive, rfl, _⟩ := Cache.lookup_eq_some (Prod.ext hfound rfl)
  obtain ⟨hmem, rfl⟩ := Cache.entry?_eq_some he
  obtain ⟨s, hs, hexpires⟩ := h.stored e hmem
  rw [Entry.isLive, hexpires] at hlive
  exact ⟨s, hs, hlive⟩

/-- What was stored and has not expired, but is not found, was displaced. -/
theorem Sound.of_missed (h : r.Sound now) {key : κ} {value : α} {s : Binary64}
    (hs : lastStore? key r.events = some (value, s))
    (hlive : now.less (s.add r.cache.lifetime) = true)
    (hmiss : (r.cache.lookup now key).1 = none) :
    r.cache.capacity ≤ (usedSince key r.events).card := by
  apply h.absent key value s hs hlive
  cases he : r.cache.entry? key with
  | none => rfl
  | some e =>
    have hstill := (h.isLive_eq he hs).2.trans hlive
    simp [Cache.lookup_fst, he, Option.filter, hstill] at hmiss

/-- An expiry that is a number has come as soon as the entry is not found. -/
theorem Sound.hasExpired_eq (h : r.Sound now) (hnow : now ≠ notANumber)
    (hlifetime : r.cache.lifetime ≠ notANumber) {e : Entry κ α} (he : e ∈ r.cache.entries) :
    e.hasExpired now = (r.cache.lookup now e.key).1.isNone := by
  obtain ⟨s, hs, hexpires⟩ := h.orderly.dated e he
  have hnumber : e.expires ≠ notANumber := hexpires ▸ hs.add_ne_notANumber hlifetime
  rw [Cache.lookup_fst, h.orderly.entry?_eq_some he, Entry.hasExpired, atMost, bne_iff_ne.mpr hnow,
    bne_iff_ne.mpr hnumber]
  cases hlive : e.isLive now with
  | false =>
    rw [Entry.isLive] at hlive
    simp [hlive, Option.filter, Entry.isLive]
  | true =>
    rw [Entry.isLive] at hlive
    simp [hlive, Option.filter, Entry.isLive]

theorem Sound.purge_eq (h : r.Sound now) (hnow : now ≠ notANumber)
    (hlifetime : r.cache.lifetime ≠ notANumber) :
    r.cache.purge now =
      ((r.cache.entries.filter fun e => (r.cache.lookup now e.key).1.isNone).length,
        { r.cache with entries :=
            r.cache.entries.filter fun e => (r.cache.lookup now e.key).1.isSome }) := by
  have hleft : (r.cache.entries.filter fun e => !e.hasExpired now) =
      r.cache.entries.filter fun e => (r.cache.lookup now e.key).1.isSome := by
    apply List.filter_congr
    intro e he
    rw [h.hasExpired_eq hnow hlifetime he, Option.not_isNone]
  have hsplit := List.length_eq_length_filter_add (l := r.cache.entries)
    fun e => (r.cache.lookup now e.key).1.isSome
  simp only [Option.not_isSome] at hsplit
  simp only [Cache.purge, Cache.size, hleft, hsplit, Nat.add_sub_cancel_left]

/-- With a lifetime that is no number no entry ever expires, though none is found either. -/
theorem Sound.purge_of_notANumber (h : r.Sound now) (hlifetime : r.cache.lifetime = notANumber) :
    r.cache.purge now = (0, r.cache) := by
  have hkept : (r.cache.entries.filter fun e => !e.hasExpired now) = r.cache.entries := by
    rw [List.filter_eq_self]
    intro e he
    obtain ⟨s, _, hexpires⟩ := h.orderly.dated e he
    rw [hlifetime, add_notANumber] at hexpires
    rw [Entry.hasExpired, hexpires]
    rfl
  simp only [Cache.purge, Cache.size, hkept, Nat.sub_self]

end Course

/-- After any acts on an empty cache, while the clock does not go back: there are no more entries
than there is room for, and their keys are distinct. A lookup finds what was stored last under its
key since the cache was cleared, less than a lifetime ago; it misses a store of less than a lifetime
ago only if as many other keys as there is room for were used since the key was. Asking for a key
tells whether a lookup would find it and changes nothing. A purge takes away the entries that a
lookup would miss, and tells their number; with a lifetime that is no number it takes none away.
Every lookup since the cache was cleared is counted. -/
theorem Cache.course_refines (lifetime : Binary64) {capacity : Nat} (hpos : 0 < capacity)
    {acts : List (Act κ α)} {now : Binary64} (hclock : Ticking (acts.map (·.now) ++ [now])) :
    let r := (Cache.empty lifetime capacity hpos).course acts
    r.cache.size ≤ capacity ∧ r.cache.keys.Nodup ∧
    (∀ key value, (r.cache.lookup now key).1 = some value →
      ∃ s, lastStore? key r.events = some (value, s) ∧ now.less (s.add lifetime) = true ∧
        Within lifetime s now) ∧
    (∀ key value s, lastStore? key r.events = some (value, s) →
      now.less (s.add lifetime) = true → (r.cache.lookup now key).1 = none →
      capacity ≤ (usedSince key r.events).card) ∧
    (∀ key, r.cache.contains now key = (r.cache.lookup now key).1.isSome ∧
      r.act ⟨now, .contains key⟩ = r) ∧
    (lifetime ≠ notANumber → r.cache.purge now =
      ((r.cache.entries.filter fun e => (r.cache.lookup now e.key).1.isNone).length,
        { r.cache with entries :=
            r.cache.entries.filter fun e => (r.cache.lookup now e.key).1.isSome })) ∧
    (lifetime = notANumber → r.cache.purge now = (0, r.cache)) ∧
    r.cache.hits + r.cache.misses = lookups r.events := by
  intro r
  have h : r.Sound now := Course.sound_course lifetime hpos hclock
  obtain ⟨hlifetime, hcapacity⟩ : r.cache.lifetime = lifetime ∧ r.cache.capacity = capacity :=
    Course.bounds_foldl acts ⟨[], .empty lifetime capacity hpos⟩
  have hnow : now.IsReading := hclock.readings now (by simp)
  refine ⟨hcapacity ▸ h.orderly.size_le, h.orderly.nodup, ?_, ?_, ?_, ?_, ?_, h.counted⟩
  · intro key value hfound
    obtain ⟨s, hs, hlive⟩ := h.of_found hfound
    rw [hlifetime] at hlive
    exact ⟨s, hs, hlive, within_of_less_add (h.times key value s hs) hnow hlive⟩
  · intro key value s hs hlive hmiss
    rw [← hcapacity]
    exact h.of_missed hs (hlifetime.symm ▸ hlive) hmiss
  · exact fun key => ⟨r.cache.contains_eq_isSome_lookup now key, rfl⟩
  · intro hnumber
    exact h.purge_eq hnow.ne_notANumber (hlifetime.symm ▸ hnumber)
  · intro hnone
    exact h.purge_of_notANumber (hlifetime.trans hnone)

end

/-- Room for two keys: the first one is used again, and then a third one comes. -/
def quayActs : List (Act String Nat) :=
  [⟨.finite (1000 : Int), .store "crane" 1⟩, ⟨.finite (1001 : Int), .store "buoy" 2⟩,
    ⟨.finite (1002 : Int), .lookup "crane"⟩, ⟨.finite (1003 : Int), .store "rope" 3⟩]

theorem Cache.course_refines_quay :
    let r := (Cache.empty (.finite 60) 2 (by decide)).course quayActs
    r.cache.keys = ["crane", "rope"] ∧ 2 ≤ (usedSince "buoy" r.events).card ∧
      ∃ s, lastStore? "crane" r.events = some (1, s) ∧
        Within (.finite 60) s (.finite (1010 : Int)) := by
  have hclock : Ticking (quayActs.map (·.now) ++ [.finite (1010 : Int)]) := by
    constructor
    · intro t ht
      simp only [quayActs, List.map_cons, List.map_nil, List.cons_append, List.nil_append,
        List.mem_cons, List.not_mem_nil, or_false] at ht
      rcases ht with rfl | rfl | rfl | rfl | rfl <;> exact isReading_int (by decide)
    · decide +kernel
  obtain ⟨_, _, hfound, hmissed, _⟩ :=
    Cache.course_refines (.finite 60) (show 0 < 2 by decide) hclock
  refine ⟨by decide +kernel, ?_, ?_⟩
  · exact hmissed "buoy" 2 (.finite (1001 : Int)) (by decide +kernel) (by decide +kernel)
      (by decide +kernel)
  · obtain ⟨s, hs, _, hwithin⟩ := hfound "crane" 1 (by decide +kernel)
    exact ⟨s, hs, hwithin⟩

end DeployRegistry
