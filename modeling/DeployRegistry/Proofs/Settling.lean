import DeployRegistry.Proofs.Visibility

/-!
# Checks that settle

A check settles on an answer when it gives that answer whatever is remembered and whatever state
the world is in, and never fails. When all checks of a resolution settle, so does the resolution:
on the candidates that pass, or on the first of them.
-/

namespace DeployRegistry

set_option autoImplicit false

/-- Computations that remember values of type `κ`, deal with a world of type `σ`, and may fail. -/
abbrev Asking (κ ε σ : Type) := StateT κ (ExceptT ε (StateM σ))

section

variable {κ ε σ α β : Type}

/-- What comes of a computation: a result with what is remembered, or a failure, and the world. -/
def outcome (x : Asking κ ε σ α) (known : κ) (world : σ) : Except ε (α × κ) × σ :=
  ((x.run known).run).run world

@[simp] theorem outcome_pure (a : α) (known : κ) (world : σ) :
    outcome (pure a : Asking κ ε σ α) known world = (.ok (a, known), world) := rfl

theorem outcome_bind (x : Asking κ ε σ α) (f : α → Asking κ ε σ β) (known : κ) (world : σ) :
    outcome (x >>= f) known world =
      match outcome x known world with
      | (.ok (a, known), world) => outcome (f a) known world
      | (.error e, world) => (.error e, world) := by
  simp only [outcome, StateT.run_bind, ExceptT.run_bind]
  cases ((x.run known).run).run world with
  | mk result world => cases result <;> rfl

theorem outcome_liftM (x : ExceptT ε (StateM σ) α) (known : κ) (world : σ) :
    outcome (liftM x : Asking κ ε σ α) known world =
      match (x.run).run world with
      | (.ok a, world) => (.ok (a, known), world)
      | (.error e, world) => (.error e, world) := by
  rcases h : (x.run).run world with ⟨e | a, world'⟩ <;>
    simp only [outcome, liftM, StateT.run_monadLift, monadLift_self, ExceptT.run_bind,
      StateT.run_bind, h] <;> rfl

/-- The computation gives the answer from every memory that is held good, without fail, and leaves
such a memory behind. -/
def Settles (Good : κ → Prop) (x : Asking κ ε σ α) (a : α) : Prop :=
  ∀ known world, Good known → ∃ known' world',
    outcome x known world = (.ok (a, known'), world') ∧ Good known'

variable {Good : κ → Prop}

theorem Settles.pure (a : α) : Settles Good (pure a : Asking κ ε σ α) a :=
  fun known world hk => ⟨known, world, rfl, hk⟩

theorem Settles.bind {x : Asking κ ε σ α} {f : α → Asking κ ε σ β} {a : α} {b : β}
    (hx : Settles Good x a) (hf : Settles Good (f a) b) : Settles Good (x >>= f) b := by
  intro known world hk
  obtain ⟨known₁, world₁, h₁, hk₁⟩ := hx known world hk
  obtain ⟨known₂, world₂, h₂, hk₂⟩ := hf known₁ world₁ hk₁
  refine ⟨known₂, world₂, ?_, hk₂⟩
  rw [outcome_bind, h₁]
  exact h₂

theorem Settles.passes {k : Checks (Asking κ ε σ)} {answer : Check → Bool} {checks : List Check}
    (h : ∀ check ∈ checks, Settles Good (k.run check) (answer check)) :
    Settles Good (k.passes checks) (checks.all answer) := by
  induction checks with
  | nil => exact .pure true
  | cons check rest ih =>
    rw [List.forall_mem_cons] at h
    refine h.1.bind ?_
    -- A check that fails ends the row, and the checks after it are not asked.
    cases hc : answer check with
    | true => simpa [hc] using ih h.2
    | false => simpa [hc] using Settles.pure false

variable {test : α → Asking κ ε σ Bool} {good : α → Bool}

theorem Settles.selectAll (h : ∀ a, Settles Good (test a) (good a)) (as : List α) :
    Settles Good (selectAll test as) (as.filter good) := by
  induction as with
  | nil => exact .pure []
  | cons a rest ih =>
    refine (h a).bind ?_
    cases hg : good a with
    | true =>
      rw [List.filter_cons_of_pos hg]
      exact ih.bind (.pure (a :: rest.filter good))
    | false => simpa [hg] using ih

theorem Settles.selectFirst (h : ∀ a, Settles Good (test a) (good a)) (as : List α) :
    Settles Good (selectFirst test as) (as.filter good).head?.toList := by
  induction as with
  | nil => exact .pure []
  | cons a rest ih =>
    refine (h a).bind ?_
    cases hg : good a with
    | true => simpa [hg] using Settles.pure [a]
    | false => simpa [hg] using ih

/-- What a resolution settles on: the candidates that pass all checks, or the first of them. -/
def Criteria.settled (c : Criteria) (s : Store) (project : String) (caller : Option String)
    (answer : Check → Bool) : List Environment :=
  let passing := (s.candidates project c).filter fun e => (c.checks caller e).all answer
  if c.latestOnly then passing.head?.toList else passing

/-- Only the checks that the criteria ask for have to settle. -/
theorem Settles.resolve {k : Checks (Asking κ ε σ)} {answer : Check → Bool}
    {caller : Option String} {c : Criteria}
    (h : ∀ e, ∀ check ∈ c.checks caller e, Settles Good (k.run check) (answer check)) (s : Store)
    (project : String) :
    Settles Good (k.resolve s project caller c) (c.settled s project caller answer) := by
  have htest : ∀ e, Settles Good (k.passes (c.checks caller e)) ((c.checks caller e).all answer) :=
    fun e => .passes (h e)
  cases hl : c.latestOnly with
  | true => simpa [Checks.resolve, Criteria.settled, hl] using Settles.selectFirst htest _
  | false => simpa [Checks.resolve, Criteria.settled, hl] using Settles.selectAll htest _

end

/-! Whatever the checks do, only candidates are selected. -/

section

variable {κ ε σ α β : Type}

/-- Every result of the computation has the property. -/
def Yields (x : Asking κ ε σ α) (P : α → Prop) : Prop :=
  ∀ known world a known' world', outcome x known world = (.ok (a, known'), world') → P a

theorem Yields.pure {P : α → Prop} {a : α} (h : P a) : Yields (pure a : Asking κ ε σ α) P := by
  intro known world b known' world' hb
  rw [outcome_pure, Prod.mk.injEq, Except.ok.injEq, Prod.mk.injEq] at hb
  exact hb.1.1 ▸ h

theorem Yields.bind {P : α → Prop} {Q : β → Prop} {x : Asking κ ε σ α}
    {f : α → Asking κ ε σ β} (hx : Yields x P) (hf : ∀ a, P a → Yields (f a) Q) :
    Yields (x >>= f) Q := by
  intro known world b known' world' hb
  rw [outcome_bind] at hb
  cases ho : outcome x known world with
  | mk result world₁ =>
    cases result with
    | error e => simp [ho] at hb
    | ok r =>
      have hrest : outcome (f r.1) r.2 world₁ = (.ok (b, known'), world') := by simpa [ho] using hb
      exact hf r.1 (hx known world r.1 r.2 world₁ ho) r.2 world₁ b known' world' hrest

theorem Yields.trivial (x : Asking κ ε σ α) : Yields x fun _ => True :=
  fun _ _ _ _ _ _ => True.intro

variable (test : α → Asking κ ε σ Bool)

theorem yields_selectAll (as : List α) : Yields (selectAll test as) (· ⊆ as) := by
  induction as with
  | nil => exact .pure (List.Subset.refl _)
  | cons a rest ih =>
    refine (Yields.trivial (test a)).bind fun passed _ => ?_
    cases passed with
    | true => exact ih.bind fun bs hbs => .pure (List.cons_subset_cons a hbs)
    | false =>
      intro known world bs known' world' hb
      exact List.subset_cons_of_subset a (ih known world bs known' world' hb)

theorem yields_selectFirst (as : List α) : Yields (selectFirst test as) (· ⊆ as) := by
  induction as with
  | nil => exact .pure (List.Subset.refl _)
  | cons a rest ih =>
    refine (Yields.trivial (test a)).bind fun passed _ => ?_
    cases passed with
    | true => exact .pure (by simp)
    | false =>
      intro known world bs known' world' hb
      exact List.subset_cons_of_subset a (ih known world bs known' world' hb)

theorem yields_resolve (k : Checks (Asking κ ε σ)) (s : Store) (project : String)
    (caller : Option String) (c : Criteria) :
    Yields (k.resolve s project caller c) (· ⊆ s.candidates project c) := by
  cases hl : c.latestOnly with
  | true => simpa [Checks.resolve, hl] using yields_selectFirst _ _
  | false => simpa [Checks.resolve, hl] using yields_selectAll _ _

end

/-! The checks against a store settle on what the store says. -/

/-- All live deployments that are remembered are those of the store. -/
def Snapshots.Current (m : Snapshots) (s : Store) : Prop :=
  ∀ environment d, m.find? environment = some d → d = s.lastSuccess? environment

theorem Snapshots.live_of_current {m : Snapshots} {s : Store} (h : m.Current s)
    (environment : String) :
    (m.live s environment).1 = s.lastSuccess? environment ∧ (m.live s environment).2.Current s := by
  rw [live]
  cases hf : m.find? environment with
  | some d =>
    rw [Memo.ask_of_find? hf]
    exact ⟨h environment d hf, h⟩
  | none =>
    rw [Memo.ask_of_find?_none hf]
    refine ⟨rfl, fun other d hd => ?_⟩
    rw [Memo.find?_cons] at hd
    split at hd
    · simp_all
    · exact h other d hd

/-- Everything that a resolution remembers is as the store has it. -/
structure Recollection.Current (known : Recollection) (s : Store) : Prop where
  roles : known.roles.Current s
  snapshots : known.snapshots.Current s

theorem Recollection.current_empty (s : Store) : Recollection.empty.Current s where
  roles := Roles.current_empty s
  snapshots := fun environment d h => by simp [Recollection.empty] at h

/-- The host gives each question its answer, whatever state it is in. -/
def Answers {ε σ : Type} (host : Question → ExceptT ε (StateM σ) Bool)
    (reply : Question → Bool) : Prop :=
  ∀ q world, ∃ world', ((host q).run).run world = (.ok (reply q), world')

/-- What a store, and a host where there is one, have to say to a check. -/
def Store.answer (s : Store) (hosted : Bool) (reply : Question → Bool) : Check → Bool
  | .allowed caller action e => s.allowed caller action (.environment e)
  | .recentlyUpdated e ref => cameFrom (s.lastSuccess? e.id) ref
  | .includesCommit e sha =>
    match s.inclusion hosted (s.lastSuccess? e.id) e sha with
    | .known answer => answer
    | .ask q => reply q

section

variable {ε σ : Type} (s : Store)

theorem settles_allowed (caller : Option String) (action : Action) (r : Resource) :
    Settles (·.Current s) (Recollection.allowed s caller action r : Asking Recollection ε σ Bool)
      (s.allowed caller action r) := by
  intro known world hk
  obtain ⟨hanswer, hroles⟩ := Roles.allowed_of_current hk.roles caller action r
  refine ⟨{ known with roles := (known.roles.allowed s caller action r).2 }, world, ?_,
    ⟨hroles, hk.snapshots⟩⟩
  rw [← hanswer]
  rfl

theorem outcome_live (environment : String) (known : Recollection) (world : σ) :
    outcome (Recollection.live s environment : Asking Recollection ε σ (Option Deployment)) known
        world =
      (.ok ((known.snapshots.live s environment).1,
        { known with snapshots := (known.snapshots.live s environment).2 }), world) := rfl

theorem settles_live (environment : String) :
    Settles (·.Current s)
      (Recollection.live s environment : Asking Recollection ε σ (Option Deployment))
      (s.lastSuccess? environment) := by
  intro known world hk
  obtain ⟨hanswer, hsnapshots⟩ := Snapshots.live_of_current hk.snapshots environment
  refine ⟨{ known with snapshots := (known.snapshots.live s environment).2 }, world, ?_,
    ⟨hk.roles, hsnapshots⟩⟩
  rw [outcome_live, hanswer]

variable {host : Option (Question → ExceptT ε (StateM σ) Bool)} {reply : Question → Bool}

theorem settles_host {Good : Recollection → Prop} {ask : Question → ExceptT ε (StateM σ) Bool}
    (h : Answers ask reply) (q : Question) :
    Settles Good (liftM (ask q) : Asking Recollection ε σ Bool) (reply q) := by
  intro known world hk
  obtain ⟨world', hw⟩ := h q world
  refine ⟨known, world', ?_, hk⟩
  rw [outcome_liftM, hw]

theorem Store.inclusion_unhosted (live : Option Deployment) (e : Environment) (sha : String)
    (q : Question) : s.inclusion false live e sha ≠ .ask q := by
  cases live with
  | none => simp
  | some d =>
    by_cases hd : d.sha = sha
    · simp [inclusion, hd]
    · cases hr : s.repository? e.project <;> simp [inclusion, hd, hr]

theorem settles_stored (h : ∀ ask ∈ host, Answers ask reply) (check : Check) :
    Settles (·.Current s) ((Checks.stored s host).run check)
      (s.answer host.isSome reply check) := by
  cases check with
  | allowed caller action e => exact settles_allowed s caller action (.environment e)
  | recentlyUpdated e ref => exact (settles_live s e.id).bind (.pure _)
  | includesCommit e sha =>
    refine (settles_live s e.id).bind ?_
    simp only [Store.answer]
    cases hi : s.inclusion host.isSome (s.lastSuccess? e.id) e sha with
    | known answer => exact .pure answer
    | ask q =>
      cases host with
      | none => exact absurd hi (s.inclusion_unhosted _ e sha q)
      | some ask => exact settles_host (h ask rfl) q

end

end DeployRegistry
