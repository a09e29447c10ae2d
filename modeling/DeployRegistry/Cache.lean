import DeployRegistry.Number.Binary64

/-!
# Caches with a lifetime

A cache holds a bounded number of entries, each for a fixed lifetime. When room is needed the least
recently used entry goes; an expired entry stays until it is looked up, purged or displaced. The
clock and the lifetime are numbers of double precision. The main statement is `length_store_le`: a
store never leaves more entries than the capacity.
-/

namespace DeployRegistry

set_option autoImplicit false

open Number

structure Entry (κ α : Type) where
  key : κ
  value : α
  expires : Binary64
  deriving DecidableEq

/-- An entry is live before the moment of its expiry. -/
def Entry.isLive {κ α : Type} (e : Entry κ α) (now : Binary64) : Bool := now.less e.expires

/-- From that moment on an entry has expired. An expiry that is no number never comes, though the
entry is never live either. -/
def Entry.hasExpired {κ α : Type} (e : Entry κ α) (now : Binary64) : Bool := e.expires.atMost now

/-- The entries are in the order of their last use, the least recent one first. -/
structure Cache (κ α : Type) where
  lifetime : Binary64
  capacity : Nat
  capacity_pos : 0 < capacity
  entries : List (Entry κ α)
  hits : Nat
  misses : Nat

namespace Cache

variable {κ α : Type}

def empty (lifetime : Binary64) (capacity : Nat) (h : 0 < capacity) : Cache κ α :=
  ⟨lifetime, capacity, h, [], 0, 0⟩

/-- What is said to a capacity without room for an entry. -/
def noRoom : String := "maxsize must be at least 1"

def create (lifetime : Binary64) (capacity : Int) : Except String (Cache κ α) :=
  if h : 0 < capacity.toNat then .ok (empty lifetime capacity.toNat h) else .error noRoom

def size (c : Cache κ α) : Nat := c.entries.length

def keys (c : Cache κ α) : List κ := c.entries.map (·.key)

/-- The cache without its expired entries, and their number. -/
def purge (c : Cache κ α) (now : Binary64) : Nat × Cache κ α :=
  let left := c.entries.filter fun e => !e.hasExpired now
  (c.size - left.length, { c with entries := left })

def clear (c : Cache κ α) : Cache κ α := { c with entries := [], hits := 0, misses := 0 }

/-- A description of the cache; its lifetime appears as it was written. -/
def describe (c : Cache κ α) (lifetime : String) : String :=
  "TTLCache(ttl_seconds=" ++ lifetime ++ ", maxsize=" ++ natText c.capacity ++
    ", size=" ++ natText c.size ++ ", hits=" ++ natText c.hits ++
    ", misses=" ++ natText c.misses ++ ")"

theorem mem_purge_iff (c : Cache κ α) (now : Binary64) (e : Entry κ α) :
    e ∈ (c.purge now).2.entries ↔ e ∈ c.entries ∧ e.hasExpired now = false := by
  simp [purge]

/-- A cache that has lost some entries of another one, and gained none. -/
structure Subcache (rest c : Cache κ α) : Prop where
  lifetime : rest.lifetime = c.lifetime
  capacity : rest.capacity = c.capacity
  entries : rest.entries ⊆ c.entries
  size : rest.size ≤ c.size

theorem Subcache.refl (c : Cache κ α) : Subcache c c :=
  ⟨rfl, rfl, List.Subset.refl _, Nat.le_refl _⟩

theorem Subcache.trans {a b c : Cache κ α} (hab : Subcache a b) (hbc : Subcache b c) :
    Subcache a c where
  lifetime := hab.lifetime.trans hbc.lifetime
  capacity := hab.capacity.trans hbc.capacity
  entries := List.Subset.trans hab.entries hbc.entries
  size := Nat.le_trans hab.size hbc.size

theorem subcache_purge (c : Cache κ α) (now : Binary64) : Subcache (c.purge now).2 c where
  lifetime := rfl
  capacity := rfl
  entries := fun _ he => (List.mem_filter.mp he).1
  size := List.length_filter_le _ _

variable [DecidableEq κ]

def entry? (c : Cache κ α) (key : κ) : Option (Entry κ α) :=
  c.entries.find? fun e => decide (e.key = key)

/-- The entries of all other keys. -/
def others (c : Cache κ α) (key : κ) : List (Entry κ α) :=
  c.entries.filter fun e => decide (e.key ≠ key)

/-- A live entry becomes the most recently used one; an expired one is dropped. -/
def lookup (c : Cache κ α) (now : Binary64) (key : κ) : Option α × Cache κ α :=
  match c.entry? key with
  | some e =>
    if e.isLive now then
      (some e.value, { c with entries := c.others key ++ [e], hits := c.hits + 1 })
    else (none, { c with entries := c.others key, misses := c.misses + 1 })
  | none => (none, { c with misses := c.misses + 1 })

/-- The new entry is the most recently used one; those at the other end go when room is needed. -/
def store (c : Cache κ α) (now : Binary64) (key : κ) (value : α) : Cache κ α :=
  let kept := c.others key
  { c with entries :=
      kept.drop (kept.length + 1 - c.capacity) ++ [⟨key, value, now.add c.lifetime⟩] }

def contains (c : Cache κ α) (now : Binary64) (key : κ) : Bool :=
  (c.entry? key).any (·.isLive now)

theorem mem_others_iff (c : Cache κ α) (key : κ) (e : Entry κ α) :
    e ∈ c.others key ↔ e ∈ c.entries ∧ e.key ≠ key := by
  simp [others]

theorem entry?_eq_some {c : Cache κ α} {key : κ} {e : Entry κ α} (h : c.entry? key = some e) :
    e ∈ c.entries ∧ e.key = key :=
  ⟨List.mem_of_find?_eq_some h, by simpa using List.find?_some h⟩

theorem length_store_le (c : Cache κ α) (now : Binary64) (key : κ) (value : α) :
    (c.store now key value).size ≤ c.capacity := by
  have := c.capacity_pos
  simp only [store, size, List.length_append, List.length_drop, List.length_singleton]
  omega

theorem others_eq_entries {c : Cache κ α} {key : κ} (h : c.entry? key = none) :
    c.others key = c.entries := by
  rw [others, List.filter_eq_self]
  intro e he
  have := List.find?_eq_none.mp h e he
  simpa using this

theorem length_others_lt {c : Cache κ α} {key : κ} {e : Entry κ α} (h : c.entry? key = some e) :
    (c.others key).length < c.size := by
  obtain ⟨he, hkey⟩ := entry?_eq_some h
  refine List.length_filter_lt_length_iff_exists.mpr ⟨e, he, ?_⟩
  simpa using hkey

theorem entry?_eq_none_iff (c : Cache κ α) (key : κ) :
    c.entry? key = none ↔ ∀ e ∈ c.entries, e.key ≠ key := by
  unfold entry?
  simp

theorem lookup_fst (c : Cache κ α) (now : Binary64) (key : κ) :
    (c.lookup now key).1 = ((c.entry? key).filter (·.isLive now)).map (·.value) := by
  unfold lookup
  cases c.entry? key with
  | none => rfl
  | some e => cases h : e.isLive now <;> simp [Option.filter, h]

theorem contains_eq_isSome_lookup (c : Cache κ α) (now : Binary64) (key : κ) :
    c.contains now key = (c.lookup now key).1.isSome := by
  rw [lookup_fst, contains]
  cases c.entry? key with
  | none => rfl
  | some e => cases h : e.isLive now <;> simp [Option.filter, h]

theorem lookup_of_isLive {c : Cache κ α} {now : Binary64} {key : κ} {e : Entry κ α}
    (h : c.entry? key = some e) (hlive : e.isLive now = true) :
    c.lookup now key =
      (some e.value, { c with entries := c.others key ++ [e], hits := c.hits + 1 }) := by
  simp only [lookup, h, hlive, if_true]

/-- A value is found only in a live entry. -/
theorem lookup_eq_some {c cache : Cache κ α} {now : Binary64} {key : κ} {value : α}
    (h : c.lookup now key = (some value, cache)) :
    ∃ e, c.entry? key = some e ∧ e.isLive now = true ∧ e.value = value ∧
      cache = { c with entries := c.others key ++ [e], hits := c.hits + 1 } := by
  unfold lookup at h
  split at h
  · next e he =>
    split at h
    · next hlive =>
      obtain ⟨hvalue, rfl⟩ := Prod.mk.inj h
      exact ⟨e, he, hlive, Option.some.inj hvalue, rfl⟩
    · cases h
  · cases h

/-- Where no value is found, no entry of the key is left. -/
theorem lookup_eq_none {c cache : Cache κ α} {now : Binary64} {key : κ}
    (h : c.lookup now key = (none, cache)) :
    cache = { c with entries := c.others key, misses := c.misses + 1 } := by
  unfold lookup at h
  split at h
  · split at h
    · cases h
    · exact (Prod.mk.inj h).2.symm
  · next hnone =>
    rw [others_eq_entries hnone]
    exact (Prod.mk.inj h).2.symm

theorem lookup_of_not_isLive {c : Cache κ α} {now : Binary64} {key : κ}
    (h : ∀ e ∈ c.entry? key, e.isLive now = false) :
    c.lookup now key = (none, { c with entries := c.others key, misses := c.misses + 1 }) := by
  have hnone : (c.lookup now key).1 = none := by
    rw [lookup_fst, Option.map_eq_none_iff, Option.filter_eq_none_iff]
    intro e he
    rw [h e he]
    decide
  rw [← lookup_eq_none (Prod.ext hnone rfl), ← hnone]

theorem subcache_of_lookup {c cache : Cache κ α} {now : Binary64} {key : κ} {found : Option α}
    (h : c.lookup now key = (found, cache)) : Subcache cache c := by
  cases found with
  | some value =>
    obtain ⟨e, he, _, _, rfl⟩ := lookup_eq_some h
    refine ⟨rfl, rfl, ?_, ?_⟩
    · intro e' he'
      rcases List.mem_append.mp he' with hother | hlast
      · exact ((mem_others_iff c key e').mp hother).1
      · exact List.mem_singleton.mp hlast ▸ (entry?_eq_some he).1
    · have := length_others_lt he
      simp only [size, List.length_append, List.length_singleton]
      exact this
  | none =>
    obtain rfl := lookup_eq_none h
    exact ⟨rfl, rfl, fun _ he => (List.mem_filter.mp he).1, List.length_filter_le _ _⟩

theorem entry?_others (c : Cache κ α) (key : κ) (hits misses : Nat) :
    Cache.entry? { c with entries := c.others key, hits := hits, misses := misses } key = none := by
  unfold entry?
  rw [List.find?_eq_none]
  intro e he
  simpa using ((mem_others_iff c key e).mp he).2

theorem mem_store {c : Cache κ α} {now : Binary64} {key : κ} {value : α} {e : Entry κ α}
    (h : e ∈ (c.store now key value).entries) :
    e = ⟨key, value, now.add c.lifetime⟩ ∨ e ∈ c.entries ∧ e.key ≠ key := by
  rcases List.mem_append.mp h with hkept | hnew
  · exact Or.inr ((mem_others_iff c key e).mp (List.mem_of_mem_drop hkept))
  · exact Or.inl (List.mem_singleton.mp hnew)

theorem getLast?_store (c : Cache κ α) (now : Binary64) (key : κ) (value : α) :
    (c.store now key value).entries.getLast? = some ⟨key, value, now.add c.lifetime⟩ :=
  List.getLast?_concat

@[simp] theorem lifetime_store (c : Cache κ α) (now : Binary64) (key : κ) (value : α) :
    (c.store now key value).lifetime = c.lifetime := rfl

end Cache

end DeployRegistry
