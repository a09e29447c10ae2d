import DeployRegistry.Service.Environments
import Mathlib.Data.List.Nodup

/-!
# The orders of the listings

Listings are sorted by a total order that tells records with different keys apart. Where the keys
of the records are distinct, such a listing depends on the set of records alone, and the opposite
order gives the same listing backwards.
-/

namespace DeployRegistry

set_option autoImplicit false

/-- A total order on records in which only records with one key are level. -/
structure OrdersBy {α κ : Type} (key : α → κ) (le : α → α → Bool) : Prop where
  trans : ∀ a b c, le a b = true → le b c = true → le a c = true
  total : ∀ a b, (le a b || le b a) = true
  antisymm : ∀ a b, le a b = true → le b a = true → key a = key b

theorem eq_of_key_eq {α κ : Type} {key : α → κ} {as : List α} (h : (as.map key).Nodup) {a b : α}
    (ha : a ∈ as) (hb : b ∈ as) (hk : key a = key b) : a = b :=
  List.inj_on_of_nodup_map h ha hb hk

namespace OrdersBy

variable {α κ : Type} {key : α → κ} {le : α → α → Bool} {as bs : List α}

theorem flip (h : OrdersBy key le) : OrdersBy key fun a b => le b a where
  trans a b c hab hbc := h.trans c b a hbc hab
  total a b := h.total b a
  antisymm a b hab hba := h.antisymm a b hba hab

theorem pairwise_mergeSort (h : OrdersBy key le) (as : List α) :
    (as.mergeSort le).Pairwise fun a b => le a b = true :=
  List.pairwise_mergeSort h.trans h.total as

/-- Sorted listings of the same records with distinct keys are the same listing. -/
theorem eq_of_perm (h : OrdersBy key le) (hk : (as.map key).Nodup) (hp : as.Perm bs)
    (ha : as.Pairwise fun a b => le a b = true) (hb : bs.Pairwise fun a b => le a b = true) :
    as = bs := by
  refine List.Perm.eq_of_pairwise ?_ ha hb hp
  intro a b hma hmb hab hba
  exact eq_of_key_eq hk hma (hp.mem_iff.mpr hmb) (h.antisymm a b hab hba)

theorem nodup_mergeSort (hk : (as.map key).Nodup) : ((as.mergeSort le).map key).Nodup :=
  ((List.mergeSort_perm as le).map key).nodup_iff.mpr hk

/-- Listings of the same records are the same, also when they are sorted by two orders, so long as
these agree on the records. -/
theorem mergeSort_congr {le' : α → α → Bool} (h : OrdersBy key le) (h' : OrdersBy key le')
    (hk : (as.map key).Nodup) (hp : as.Perm bs) (hle : ∀ a ∈ as, ∀ b ∈ as, le a b = le' a b) :
    as.mergeSort le = bs.mergeSort le' := by
  -- Both results have the same records, and by the second order both are sorted.
  have hperm : (as.mergeSort le).Perm (bs.mergeSort le') :=
    (List.mergeSort_perm as le).trans (hp.trans (List.mergeSort_perm bs le').symm)
  refine h'.eq_of_perm (nodup_mergeSort hk) hperm ?_ (h'.pairwise_mergeSort bs)
  refine (h.pairwise_mergeSort as).imp_of_mem fun {a b} ha hb hab => ?_
  rw [← hle a (List.mem_mergeSort.mp ha) b (List.mem_mergeSort.mp hb)]
  exact hab

theorem mergeSort_eq_of_perm (h : OrdersBy key le) (hk : (as.map key).Nodup) (hp : as.Perm bs) :
    as.mergeSort le = bs.mergeSort le :=
  h.mergeSort_congr h hk hp fun _ _ _ _ => rfl

theorem mergeSort_flip (h : OrdersBy key le) (hk : (as.map key).Nodup) :
    as.mergeSort (fun a b => le b a) = (as.mergeSort le).reverse := by
  have hp : (as.mergeSort fun a b => le b a).Perm (as.mergeSort le).reverse :=
    (List.mergeSort_perm as _).trans
      ((List.mergeSort_perm as le).symm.trans (List.reverse_perm _).symm)
  exact h.flip.eq_of_perm (nodup_mergeSort hk) hp (h.flip.pairwise_mergeSort as)
    (List.pairwise_reverse.mpr (h.pairwise_mergeSort as))

theorem head?_mergeSort_eq_some_iff (h : OrdersBy key le) (hk : (as.map key).Nodup) (a : α) :
    (as.mergeSort le).head? = some a ↔ a ∈ as ∧ ∀ b ∈ as, le a b = true := by
  have hmem : ∀ b, b ∈ as.mergeSort le ↔ b ∈ as := fun b => List.mem_mergeSort
  cases hs : as.mergeSort le with
  | nil =>
    have hnone : ∀ b, b ∉ as := fun b hb => by simpa [hs] using (hmem b).mpr hb
    simp [hnone]
  | cons first rest =>
    have hsorted := h.pairwise_mergeSort as
    rw [hs, List.pairwise_cons] at hsorted
    have hfirst : ∀ b ∈ as, le first b = true := by
      intro b hb
      rcases List.mem_cons.mp (hs ▸ (hmem b).mpr hb) with rfl | hr
      · simpa using h.total b b
      · exact hsorted.1 b hr
    have hin : first ∈ as := (hmem first).mp (hs ▸ List.mem_cons_self)
    constructor
    · intro he
      obtain rfl : first = a := by simpa using he
      exact ⟨hin, hfirst⟩
    · rintro ⟨ha, hle⟩
      have := eq_of_key_eq hk hin ha (h.antisymm first a (hfirst a ha) (hle first hin))
      simp [this]

end OrdersBy

theorem perm_of_mem_iff {α κ : Type} {key : α → κ} {as bs : List α} (ha : (as.map key).Nodup)
    (hb : (bs.map key).Nodup) (h : ∀ a, a ∈ as ↔ a ∈ bs) : as.Perm bs :=
  (List.perm_ext_iff_of_nodup ha.of_map hb.of_map).mpr h

theorem nodup_map_filter {α κ : Type} {key : α → κ} {as : List α} (h : (as.map key).Nodup)
    (p : α → Bool) : ((as.filter p).map key).Nodup :=
  (List.filter_sublist.map key).nodup h

/-! The latest of some times is one of them, and none is later. -/

theorem latest?_eq_some_iff (ts : List WallTime) (u : WallTime) :
    latest? ts = some u ↔ u ∈ ts ∧ ∀ t ∈ ts, t ≤ u := by
  constructor
  · exact fun h => ⟨latest?_mem h, fun t ht => le_latest? h ht⟩
  · rintro ⟨hu, hle⟩
    cases h : latest? ts with
    | none =>
      rw [latest?_eq_none_iff] at h
      simp [h] at hu
    | some v =>
      have hvu := hle v (latest?_mem h)
      have huv := le_latest? h hu
      rw [WallTime.le_def] at hvu huv
      rw [Option.some.injEq]
      exact WallTime.ext (by omega)

theorem latest?_congr {ts us : List WallTime} (h : ∀ t, t ∈ ts ↔ t ∈ us) :
    latest? ts = latest? us := by
  apply Option.ext
  intro u
  simp only [latest?_eq_some_iff, h]

/-! The order of last deployments: none at all is before any. -/

/-- Whether one time of a last deployment lies before another. -/
def Sooner : Option WallTime → Option WallTime → Prop
  | _, none => False
  | none, some _ => True
  | some a, some b => a < b

theorem deployedBefore_iff (ta tb : Option WallTime) (a b : String) :
    deployedBefore ta tb a b = true ↔ Sooner ta tb ∨ (ta = tb ∧ a ≤ b) := by
  cases ta <;> cases tb <;> simp [deployedBefore, Sooner]

theorem Sooner.trans {ta tb tc : Option WallTime} (hab : Sooner ta tb) (hbc : Sooner tb tc) :
    Sooner ta tc := by
  cases ta <;> cases tb <;> cases tc <;> simp_all only [Sooner, WallTime.lt_def]
  omega

theorem not_sooner_self (ta : Option WallTime) : ¬ Sooner ta ta := by
  cases ta <;> simp [Sooner, WallTime.lt_def]

theorem sooner_trichotomy (ta tb : Option WallTime) : Sooner ta tb ∨ ta = tb ∨ Sooner tb ta := by
  cases ta <;> cases tb <;> simp only [Sooner, WallTime.lt_def, Option.some.injEq, WallTime.ext_iff,
    reduceCtorEq, or_true, or_false]
  omega

namespace Store

/-- Whether an environment stands before another one in a full answer: its last deployment is
earlier, or equally late and its id is smaller. -/
def Earlier (s : Store) (a b : Environment) : Prop :=
  Sooner (s.lastDeployed? a.id) (s.lastDeployed? b.id) ∨
    (s.lastDeployed? a.id = s.lastDeployed? b.id ∧ a.id < b.id)

theorem oldestFirst_iff (s : Store) (a b : Environment) :
    s.oldestFirst a b = true ↔ Sooner (s.lastDeployed? a.id) (s.lastDeployed? b.id) ∨
      (s.lastDeployed? a.id = s.lastDeployed? b.id ∧ a.id ≤ b.id) := by
  rw [oldestFirst, deployedBefore_iff]

theorem ordersBy_oldestFirst (s : Store) : OrdersBy (·.id) s.oldestFirst where
  trans a b c hab hbc := by
    rw [oldestFirst_iff] at hab hbc ⊢
    rcases hab with hab | ⟨htab, hab⟩
    · rcases hbc with hbc | ⟨htbc, _⟩
      · exact Or.inl (hab.trans hbc)
      · exact Or.inl (htbc ▸ hab)
    · rcases hbc with hbc | ⟨htbc, hbc⟩
      · exact Or.inl (htab ▸ hbc)
      · exact Or.inr ⟨htab.trans htbc, String.le_trans hab hbc⟩
  total a b := by
    rw [Bool.or_eq_true, oldestFirst_iff, oldestFirst_iff]
    rcases sooner_trichotomy (s.lastDeployed? a.id) (s.lastDeployed? b.id) with h | h | h
    · exact Or.inl (Or.inl h)
    · rcases String.le_total a.id b.id with hle | hle
      · exact Or.inl (Or.inr ⟨h, hle⟩)
      · exact Or.inr (Or.inr ⟨h.symm, hle⟩)
    · exact Or.inr (Or.inl h)
  antisymm a b hab hba := by
    rw [oldestFirst_iff] at hab hba
    rcases hab with hab | ⟨ht, hab⟩
    · rcases hba with hba | ⟨ht, _⟩
      · exact absurd (hab.trans hba) (not_sooner_self _)
      · exact absurd (ht ▸ hab) (not_sooner_self _)
    · rcases hba with hba | ⟨_, hba⟩
      · exact absurd (ht ▸ hba) (not_sooner_self _)
      · exact String.le_antisymm hab hba

theorem earlier_of_oldestFirst {s : Store} {a b : Environment} (h : s.oldestFirst a b = true)
    (hne : a.id ≠ b.id) : s.Earlier a b := by
  rw [oldestFirst_iff] at h
  rcases h with h | ⟨ht, hle⟩
  · exact Or.inl h
  · exact Or.inr ⟨ht, String.not_le.mp fun hba => hne (String.le_antisymm hle hba)⟩

end Store

/-! The order of deployments and that of names. -/

theorem Deployment.notBefore_iff (a b : Deployment) :
    a.notBefore b = true ↔ b.time < a.time ∨ (a.time = b.time ∧ b.id ≤ a.id) := by
  simp [Deployment.notBefore]

theorem Deployment.ordersBy_notBefore : OrdersBy (·.id) Deployment.notBefore where
  trans a b c hab hbc := by
    rw [notBefore_iff] at hab hbc ⊢
    simp only [WallTime.lt_def, WallTime.ext_iff] at hab hbc ⊢
    rcases hab with hab | ⟨htab, hab⟩
    · exact Or.inl (by omega)
    · rcases hbc with hbc | ⟨htbc, hbc⟩
      · exact Or.inl (by omega)
      · exact Or.inr ⟨by omega, String.le_trans hbc hab⟩
  total a b := by
    rw [Bool.or_eq_true, notBefore_iff, notBefore_iff]
    simp only [WallTime.lt_def, WallTime.ext_iff]
    rcases Nat.lt_trichotomy a.time.micros b.time.micros with ht | ht | ht
    · exact Or.inr (Or.inl ht)
    · rcases String.le_total a.id b.id with hle | hle
      · exact Or.inr (Or.inr ⟨ht.symm, hle⟩)
      · exact Or.inl (Or.inr ⟨ht, hle⟩)
    · exact Or.inl (Or.inl ht)
  antisymm a b hab hba := by
    rw [notBefore_iff] at hab hba
    simp only [WallTime.lt_def, WallTime.ext_iff] at hab hba
    rcases hab with hab | ⟨_, hab⟩
    · rcases hba with hba | ⟨_, _⟩ <;> omega
    · rcases hba with hba | ⟨_, hba⟩
      · omega
      · exact String.le_antisymm hba hab

theorem ordersBy_byName : OrdersBy (·.name) byName where
  trans a b c hab hbc := by
    simp only [byName, decide_eq_true_eq] at hab hbc ⊢
    exact String.le_trans hab hbc
  total a b := by
    simp only [byName, Bool.or_eq_true, decide_eq_true_eq]
    exact String.le_total a.name b.name
  antisymm a b hab hba := by
    simp only [byName, decide_eq_true_eq] at hab hba
    exact String.le_antisymm hab hba

end DeployRegistry
