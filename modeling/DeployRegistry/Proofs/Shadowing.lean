import DeployRegistry.Proofs.Finding

/-!
# Searches in two worlds

A search that is carried out in two worlds, of which the second one may keep more, such as notes of
what happens. If every question to the host comes to the same in both, so does the search; and if
the second world accounts for every question that fails, it accounts for a search that fails. The
main statement is `echoes_findEnvironments`.
-/

namespace DeployRegistry

set_option autoImplicit false

section

variable {κ ε σ τ α β : Type}

/-- From worlds that belong together, two computations come to the same and leave worlds that belong
together. The second world accounts for a failure. -/
def Echoes (Rel : σ → τ → Prop) (Failure : ε → τ → Prop) (x : ExceptT ε (StateM σ) α)
    (y : ExceptT ε (StateM τ) α) : Prop :=
  ∀ world other, Rel world other → ∃ result world' other',
    (x.run).run world = (result, world') ∧ (y.run).run other = (result, other') ∧
    Rel world' other' ∧ ∀ e, result = .error e → Failure e other'

/-- The same of computations with a memory, which they find good and leave good. -/
def Shadows (Good : κ → Prop) (Rel : σ → τ → Prop) (Failure : ε → τ → Prop)
    (x : Asking κ ε σ α) (y : Asking κ ε τ α) : Prop :=
  ∀ known world other, Good known → Rel world other → ∃ result world' other',
    outcome x known world = (result, world') ∧ outcome y known other = (result, other') ∧
    Rel world' other' ∧ (∀ a known', result = .ok (a, known') → Good known') ∧
    ∀ e, result = .error e → Failure e other'

variable {Good : κ → Prop} {Rel : σ → τ → Prop} {Failure : ε → τ → Prop}

/-- What deals with the memory only goes alike in all worlds. -/
theorem Shadows.of_silent {x : Asking κ ε σ α} {y : Asking κ ε τ α}
    (h : ∀ known, Good known → ∃ a known', Good known' ∧
      (∀ world, outcome x known world = (.ok (a, known'), world)) ∧
      ∀ other, outcome y known other = (.ok (a, known'), other)) :
    Shadows Good Rel Failure x y := by
  intro known world other hknown hrel
  obtain ⟨a, known', hgood, hx, hy⟩ := h known hknown
  refine ⟨_, world, other, hx world, hy other, hrel, ?_, nofun⟩
  intro b known'' heq
  cases heq
  exact hgood

theorem Shadows.pure (a : α) :
    Shadows Good Rel Failure (pure a : Asking κ ε σ α) (pure a : Asking κ ε τ α) :=
  .of_silent fun known hknown => ⟨a, known, hknown, fun _ => rfl, fun _ => rfl⟩

theorem Shadows.liftM {x : ExceptT ε (StateM σ) α} {y : ExceptT ε (StateM τ) α}
    (h : Echoes Rel Failure x y) :
    Shadows Good Rel Failure (liftM x : Asking κ ε σ α) (liftM y : Asking κ ε τ α) := by
  intro known world other hknown hrel
  obtain ⟨result, world', other', hx, hy, hrel', hfailure⟩ := h world other hrel
  simp only [outcome_liftM, hx, hy]
  cases result with
  | ok a =>
    refine ⟨_, world', other', rfl, rfl, hrel', ?_, nofun⟩
    intro b known' heq
    cases heq
    exact hknown
  | error e =>
    refine ⟨_, world', other', rfl, rfl, hrel', nofun, ?_⟩
    intro e' heq
    cases heq
    exact hfailure e rfl

theorem Shadows.bind {x : Asking κ ε σ α} {y : Asking κ ε τ α} {f : α → Asking κ ε σ β}
    {g : α → Asking κ ε τ β} (hx : Shadows Good Rel Failure x y)
    (hf : ∀ a, Shadows Good Rel Failure (f a) (g a)) :
    Shadows Good Rel Failure (x >>= f) (y >>= g) := by
  intro known world other hknown hrel
  obtain ⟨result, world₁, other₁, hleft, hright, hrel₁, hgood, hfailure⟩ :=
    hx known world other hknown hrel
  simp only [outcome_bind, hleft, hright]
  cases result with
  | error e =>
    refine ⟨_, world₁, other₁, rfl, rfl, hrel₁, nofun, ?_⟩
    intro e' heq
    cases heq
    exact hfailure e rfl
  | ok r => exact hf r.1 r.2 world₁ other₁ (hgood r.1 r.2 rfl) hrel₁

section

variable {k : Checks (Asking κ ε σ)} {l : Checks (Asking κ ε τ)}

theorem Shadows.passes {checks : List Check}
    (h : ∀ check ∈ checks, Shadows Good Rel Failure (k.run check) (l.run check)) :
    Shadows Good Rel Failure (k.passes checks) (l.passes checks) := by
  induction checks with
  | nil => exact .pure true
  | cons check rest ih =>
    rw [List.forall_mem_cons] at h
    apply h.1.bind
    intro passed
    cases passed with
    | true => exact ih h.2
    | false => exact .pure false

variable {test : α → Asking κ ε σ Bool} {test' : α → Asking κ ε τ Bool}

theorem Shadows.selectAll (h : ∀ a, Shadows Good Rel Failure (test a) (test' a)) (as : List α) :
    Shadows Good Rel Failure (selectAll test as) (selectAll test' as) := by
  induction as with
  | nil => exact .pure []
  | cons a rest ih =>
    apply (h a).bind
    intro passed
    cases passed with
    | true => exact ih.bind fun others => .pure (a :: others)
    | false => exact ih

theorem Shadows.selectFirst (h : ∀ a, Shadows Good Rel Failure (test a) (test' a)) (as : List α) :
    Shadows Good Rel Failure (selectFirst test as) (selectFirst test' as) := by
  induction as with
  | nil => exact .pure []
  | cons a rest ih =>
    apply (h a).bind
    intro passed
    cases passed with
    | true => exact .pure [a]
    | false => exact ih

theorem Shadows.resolve {caller : Option String} {c : Criteria}
    (h : ∀ e, ∀ check ∈ c.checks caller e, Shadows Good Rel Failure (k.run check) (l.run check))
    (s : Store) (project : String) :
    Shadows Good Rel Failure (k.resolve s project caller c) (l.resolve s project caller c) := by
  have htest : ∀ e, Shadows Good Rel Failure (k.passes (c.checks caller e))
      (l.passes (c.checks caller e)) := fun e => .passes (h e)
  unfold Checks.resolve
  split
  · exact .selectFirst htest _
  · exact .selectAll htest _

end

end

/-- A question that a search for a commit may have for the host. -/
def Store.Poses (s : Store) (sha : String) (q : Question) : Prop :=
  q.ancestor = sha ∧ (∃ p ∈ s.projects, p.repository = some q.repository) ∧
    ∃ d ∈ s.deployments, d.sha = q.descendant

theorem Store.poses_of_inclusion {s : Store} {hosted : Bool} {environment sha : String}
    {e : Environment} {q : Question}
    (h : s.inclusion hosted (s.lastSuccess? environment) e sha = .ask q) : s.Poses sha q := by
  unfold inclusion at h
  split at h
  · cases h
  next d hd =>
  split at h
  · cases h
  split at h
  · cases h
  next repository hrepository =>
  split at h
  · cases h
    refine ⟨rfl, ?_, d, (lastSuccess?_mem hd).1, rfl⟩
    unfold repository? at hrepository
    split at hrepository
    · cases hrepository
    next p hp =>
    exact ⟨p, project?_mem hp, Option.eq_some_of_filter_eq_some hrepository⟩
  · cases h

section

variable {ε σ τ α : Type} {Rel : σ → τ → Prop} {Failure : ε → τ → Prop} {s : Store}

/-- The live deployment that is remembered is that of the store. -/
theorem Shadows.live_bind {environment : String}
    {f : Option Deployment → Asking Recollection ε σ α}
    {g : Option Deployment → Asking Recollection ε τ α}
    (h : Shadows (·.Current s) Rel Failure (f (s.lastSuccess? environment))
      (g (s.lastSuccess? environment))) :
    Shadows (·.Current s) Rel Failure (Recollection.live s environment >>= f)
      (Recollection.live s environment >>= g) := by
  intro known world other hknown hrel
  obtain ⟨hanswer, hsnapshots⟩ := Snapshots.live_of_current hknown.snapshots environment
  simp only [outcome_bind, outcome_live, hanswer]
  exact h _ world other ⟨hknown.roles, hsnapshots⟩ hrel

variable {ask : Question → ExceptT ε (StateM σ) Bool}
  {ask' : Question → ExceptT ε (StateM τ) Bool} {caller : Option String} {c : Criteria}

/-- Only questions to the host make a difference, and a search for a commit has only certain
ones. -/
theorem shadows_stored
    (h : ∀ sha ∈ c.commit, ∀ q, s.Poses sha q → Echoes Rel Failure (ask q) (ask' q))
    (e : Environment) : ∀ check ∈ c.checks caller e,
      Shadows (·.Current s) Rel Failure ((Checks.stored s (some ask)).run check)
        ((Checks.stored s (some ask')).run check) := by
  intro check hcheck
  cases (c.mem_checks_iff_due caller e check).mp hcheck with
  | allowed =>
    refine .of_silent fun known hknown => ?_
    have hroles :=
      (Roles.allowed_of_current hknown.roles caller .readEnvironment (.environment e)).2
    exact ⟨(known.roles.allowed s caller .readEnvironment (.environment e)).1,
      { known with roles := (known.roles.allowed s caller .readEnvironment (.environment e)).2 },
      ⟨hroles, hknown.snapshots⟩, fun _ => rfl, fun _ => rfl⟩
  | recentlyUpdated ref hr hu => exact .live_bind (.pure _)
  | includesCommit ref sha hr hc =>
    refine .live_bind ?_
    simp only [Option.isSome_some]
    cases hi : s.inclusion true (s.lastSuccess? e.id) e sha with
    | known answer => exact .pure answer
    | ask q => exact .liftM (h sha hc q (Store.poses_of_inclusion hi))

theorem echoes_findEnvironments {project : String}
    (h : ∀ sha ∈ c.commit, ∀ q, s.Poses sha q → Echoes Rel Failure (ask q) (ask' q)) :
    Echoes Rel Failure (s.findEnvironments caller project c (some ask))
      (s.findEnvironments caller project c (some ask')) := by
  intro world other hrel
  simp only [findEnvironments_run]
  cases s.readable caller project with
  | error d => exact ⟨_, world, other, rfl, rfl, hrel, nofun⟩
  | ok p =>
    have hresolve : Shadows (·.Current s) Rel Failure
        ((Checks.stored s (some ask)).resolve s p.id caller c)
        ((Checks.stored s (some ask')).resolve s p.id caller c) :=
      .resolve (shadows_stored h) s p.id
    obtain ⟨result, world', other', hx, hy, hrel', _, hfailure⟩ :=
      hresolve Recollection.empty world other (Recollection.current_empty s) hrel
    simp only [hx, hy]
    cases result with
    | ok found => exact ⟨_, world', other', rfl, rfl, hrel', nofun⟩
    | error e =>
      refine ⟨_, world', other', rfl, rfl, hrel', ?_⟩
      intro e' heq
      cases heq
      exact hfailure e rfl

end

end DeployRegistry
