import DeployRegistry.Proofs.Finding

/-!
# Complete readings

Whether a caller may read is decided twice: for the project, when it is handed out, and by the
policy for each of its environments. Both go by the role that is remembered for the caller in the
project, so what is let through once is never rejected afterwards, and listings are complete. The
main statement is `Roles.read_checks_agree`.
-/

namespace DeployRegistry

set_option autoImplicit false

namespace Roles

/-! What a service does with a policy that remembers roles. -/

section

variable (m : Roles) (s : Store) (caller : Option String)

/-- The project with an id, when the caller may read it. The role of the caller is of interest only
where the project is not open. -/
def readable (project : String) : Except Denial Project × Roles :=
  match s.project? project with
  | none => (.error .noProject, m)
  | some p =>
    if p.isOpen then (.ok p, m)
    else
      let (role, m) := m.roleFor s caller p.id
      (if role.isSome then .ok p else .error .noProject, m)

/-- Those of some environments that the policy lets the caller read. -/
def sift (m : Roles) : List Environment → List Environment × Roles
  | [] => ([], m)
  | e :: rest =>
    let (answer, m) := m.allowed s caller .readEnvironment (.environment e)
    let (others, m) := sift m rest
    (if answer then e :: others else others, m)

def listEnvironments (project : String) (state : Option EnvState) :
    Except Denial (List Environment) × Roles :=
  match m.readable s caller project with
  | (.error d, m) => (.error d, m)
  | (.ok p, m) =>
    let found := (s.environmentsOf p.id).filter fun e => state.all (e.state == ·)
    let (es, m) := sift s caller m (found.mergeSort byName)
    (.ok es, m)

def getEnvironment (project id : String) : Except Denial Environment × Roles :=
  match m.readable s caller project with
  | (.error d, m) => (.error d, m)
  | (.ok p, m) =>
    match s.environment? p.id id with
    | none => (.error .noEnvironment, m)
    | some e =>
      let (answer, m) := m.allowed s caller .readEnvironment (.environment e)
      (if answer then .ok e else .error .noEnvironment, m)

end

variable {m : Roles} {s : Store} {caller : Option String} {p : Project}

/-! A role that is looked up stays what it is, whatever else is looked up. -/

theorem roleFor_roleFor (m : Roles) (s : Store) (caller other : Option String)
    (project elsewhere : String) :
    ((m.roleFor s other elsewhere).2.roleFor s caller project).1 =
      (m.roleFor s caller project).1 := by
  cases caller with
  | none => rfl
  | some user =>
    cases other with
    | none => rfl
    | some asked =>
      simp only [roleFor, Memo.fst_ask, Memo.find?_ask]
      by_cases h : (asked, elsewhere) = (user, project)
      · obtain ⟨rfl, rfl⟩ := Prod.mk.inj h
        cases m.find? (asked, elsewhere) <;> simp
      · rw [if_neg h, Option.or_none]

theorem roleFor_allowed (m : Roles) (s : Store) (caller other : Option String) (project : String)
    (action : Action) (r : Resource) :
    ((m.allowed s other action r).2.roleFor s caller project).1 =
      (m.roleFor s caller project).1 := by
  rw [allowed]
  cases s.projectOf? r with
  | none => rfl
  | some q => exact roleFor_roleFor m s caller other project q.id

theorem roleFor_readable (m : Roles) (s : Store) (caller other : Option String)
    (project elsewhere : String) :
    ((m.readable s other elsewhere).2.roleFor s caller project).1 =
      (m.roleFor s caller project).1 := by
  rw [readable]
  cases s.project? elsewhere with
  | none => rfl
  | some q =>
    by_cases hopen : q.isOpen = true
    · simp only [hopen, if_true]
    · simp only [hopen, Bool.false_eq_true, if_false]
      exact roleFor_roleFor m s caller other project q.id

/-- The caller may read the project by the role that is remembered, or else looked up. -/
def Reads (m : Roles) (s : Store) (caller : Option String) (p : Project) : Prop :=
  Action.readEnvironment.permitted p (m.roleFor s caller p.id).1 = true

theorem fst_allowed_project (m : Roles) (s : Store) (caller : Option String) (action : Action)
    (p : Project) :
    (m.allowed s caller action (.project p)).1 =
      action.permitted p (m.roleFor s caller p.id).1 := rfl

/-- An environment is judged as its project. -/
theorem allowed_environment {e : Environment} (he : s.project? e.project = some p) (m : Roles)
    (caller : Option String) (action : Action) :
    m.allowed s caller action (.environment e) = m.allowed s caller action (.project p) := by
  have hproject : s.projectOf? (.environment e) = some p := he
  rw [allowed, hproject]
  rfl

theorem Reads.after_allowed (h : m.Reads s caller p) (other : Option String) (action : Action)
    (r : Resource) : (m.allowed s other action r).2.Reads s caller p := by
  rw [Reads, roleFor_allowed]
  exact h

/-- The check of a project comes to the answer of the policy on it. -/
theorem fst_readable_of_found {project : String} (hfound : s.project? project = some p)
    (m : Roles) (caller : Option String) :
    (m.readable s caller project).1 =
      if (m.allowed s caller .readEnvironment (.project p)).1 = true then .ok p
      else .error .noProject := by
  rw [readable, hfound, fst_allowed_project, Action.permitted]
  by_cases hopen : p.isOpen = true
  · simp only [hopen, if_true, Bool.true_or]
  · simp only [hopen, Bool.false_eq_true, if_false, Bool.false_or]

theorem readable_eq_ok_iff (m : Roles) (s : Store) (caller : Option String) (project : String)
    (p : Project) :
    (m.readable s caller project).1 = .ok p ↔ s.project? project = some p ∧ m.Reads s caller p := by
  cases hfound : s.project? project with
  | none => simp [readable, hfound]
  | some q =>
    rw [fst_readable_of_found hfound, fst_allowed_project, Option.some.injEq]
    by_cases hread : Action.readEnvironment.permitted q (m.roleFor s caller q.id).1 = true
    · rw [if_pos hread, Except.ok.injEq]
      constructor
      · rintro rfl
        exact ⟨rfl, hread⟩
      · exact And.left
    · rw [if_neg hread]
      constructor
      · intro h
        cases h
      · rintro ⟨rfl, h⟩
        exact absurd h hread

theorem readable_eq_ok_or_error (m : Roles) (s : Store) (caller : Option String)
    (project : String) :
    (∃ p, (m.readable s caller project).1 = .ok p) ∨
      (m.readable s caller project).1 = .error .noProject := by
  cases hfound : s.project? project with
  | none => exact Or.inr (by rw [readable, hfound])
  | some p =>
    rw [fst_readable_of_found hfound]
    by_cases hread : (m.allowed s caller .readEnvironment (.project p)).1 = true
    · exact Or.inl ⟨p, if_pos hread⟩
    · exact Or.inr (if_neg hread)

theorem reads_after_readable (h : m.Reads s caller p) (project : String) :
    (m.readable s caller project).2.Reads s caller p := by
  rw [Reads, roleFor_readable]
  exact h

/-- Where the caller may read the project, none of its environments is left out. -/
theorem sift_of_reads (h : m.Reads s caller p) {es : List Environment}
    (hes : ∀ e ∈ es, s.project? e.project = some p) : (sift s caller m es).1 = es := by
  -- A check leaves the role that is gone by as it is, so the hypothesis holds of every later memory.
  induction es generalizing m with
  | nil => rfl
  | cons e rest ih =>
    rw [List.forall_mem_cons] at hes
    have hanswer : (m.allowed s caller .readEnvironment (.environment e)).1 = true := by
      rw [allowed_environment hes.1, fst_allowed_project]
      exact h
    have hrest := ih (h.after_allowed caller .readEnvironment (.environment e)) hes.2
    rw [sift]
    simp only [hanswer, if_true, hrest]

/-- What is remembered of a store is what a look-up in it gives. -/
theorem sift_of_current (h : m.Current s) (es : List Environment) :
    (sift s caller m es).1 =
      es.filter fun e => s.allowed caller .readEnvironment (.environment e) := by
  induction es generalizing m with
  | nil => rfl
  | cons e rest ih =>
    obtain ⟨hanswer, hcurrent⟩ := allowed_of_current h caller .readEnvironment (.environment e)
    rw [sift]
    simp only [hanswer, ih hcurrent, List.filter_cons]

theorem readable_of_current (h : m.Current s) (caller : Option String) (project : String) :
    (m.readable s caller project).1 = s.readable caller project ∧
      (m.readable s caller project).2.Current s := by
  rw [readable, Store.readable]
  cases s.project? project with
  | none => exact ⟨rfl, h⟩
  | some q =>
    obtain ⟨hrole, hcurrent⟩ := roleFor_of_current h caller q.id
    by_cases hopen : q.isOpen = true
    · simp only [hopen, if_true]
      exact ⟨trivial, h⟩
    · simp only [hopen, hrole, Bool.false_eq_true, if_false]
      exact ⟨trivial, hcurrent⟩

theorem getEnvironment_of_current (h : m.Current s) (caller : Option String)
    (project id : String) :
    (m.getEnvironment s caller project id).1 = s.getEnvironment caller project id := by
  obtain ⟨hread, hcurrent⟩ := readable_of_current h caller project
  rw [getEnvironment, Store.getEnvironment, ← hread]
  rcases hm : m.readable s caller project with ⟨d | p, m'⟩
  · rfl
  · rw [hm] at hcurrent
    simp only [bind, Except.bind]
    cases s.environment? p.id id with
    | none => rfl
    | some e =>
      simp only [(allowed_of_current hcurrent caller .readEnvironment (.environment e)).1]
      rfl

theorem listEnvironments_of_current (h : m.Current s) (caller : Option String)
    (project : String) (state : Option EnvState) :
    (m.listEnvironments s caller project state).1 = s.listEnvironments caller project state := by
  obtain ⟨hread, hcurrent⟩ := readable_of_current h caller project
  rw [listEnvironments, Store.listEnvironments, ← hread]
  rcases hm : m.readable s caller project with ⟨d | p, m'⟩
  · rfl
  · rw [hm] at hcurrent
    simp only [sift_of_current hcurrent]
    rfl

end Roles

/-! A search whose policy is asked, next to one whose policy is not. -/

/-- The checks of a search without the question to the policy. -/
def Checks.unguarded {n : Type → Type} [Monad n] (k : Checks n) : Checks n :=
  { k with allowed := fun _ _ _ => pure true }

/-- A search with some checks, by a policy and a history that remember what they remember. -/
def Recollection.find {n : Type → Type} [Monad n] (known : Recollection)
    (k : Checks (StateT Recollection n)) (s : Store) (caller : Option String) (project : String)
    (c : Criteria) : n (Except Denial (List Environment)) :=
  match known.roles.readable s caller project with
  | (.error d, _) => pure (.error d)
  | (.ok p, roles) => do
    let es ← (k.resolve s p.id caller c).run' { known with roles := roles }
    pure (.ok es)

section

variable {κ ε σ α β : Type} {R : κ → κ → Prop}

/-- Two outcomes with one result and one world, where what is remembered is related. -/
inductive Alike (R : κ → κ → Prop) : Except ε (α × κ) × σ → Except ε (α × κ) × σ → Prop
  | ok (a : α) {known known' : κ} (world : σ) (h : R known known') :
      Alike R (.ok (a, known), world) (.ok (a, known'), world)
  | error (x : ε) (world : σ) : Alike R (.error x, world) (.error x, world)

/-- From related memories, the computations come to the same. -/
def Mirrors (R : κ → κ → Prop) (x y : Asking κ ε σ α) : Prop :=
  ∀ known known' world, R known known' → Alike R (outcome x known world) (outcome y known' world)

theorem Mirrors.pure (a : α) : Mirrors R (pure a : Asking κ ε σ α) (pure a) :=
  fun _ _ world h => .ok a world h

theorem Mirrors.bind {x y : Asking κ ε σ α} {f g : α → Asking κ ε σ β} (hx : Mirrors R x y)
    (hf : ∀ a, Mirrors R (f a) (g a)) : Mirrors R (x >>= f) (y >>= g) := by
  intro known known' world h
  have halike := hx known known' world h
  rw [outcome_bind, outcome_bind]
  generalize outcome x known world = ox at halike ⊢
  generalize outcome y known' world = oy at halike ⊢
  cases halike with
  | ok a world' h' => exact hf a _ _ world' h'
  | error e world' => exact .error e world'

theorem Mirrors.passes {k l : Checks (Asking κ ε σ)} {checks : List Check}
    (h : ∀ check ∈ checks, Mirrors R (k.run check) (l.run check)) :
    Mirrors R (k.passes checks) (l.passes checks) := by
  induction checks with
  | nil => exact .pure true
  | cons check rest ih =>
    rw [List.forall_mem_cons] at h
    refine h.1.bind fun answer => ?_
    cases answer with
    | true => exact ih h.2
    | false => exact .pure false

variable {test test' : α → Asking κ ε σ Bool} {as : List α}

theorem Mirrors.selectAll (h : ∀ a ∈ as, Mirrors R (test a) (test' a)) :
    Mirrors R (selectAll test as) (selectAll test' as) := by
  induction as with
  | nil => exact .pure []
  | cons a rest ih =>
    rw [List.forall_mem_cons] at h
    refine h.1.bind fun answer => ?_
    cases answer with
    | true => exact (ih h.2).bind fun others => .pure (a :: others)
    | false => exact ih h.2

theorem Mirrors.selectFirst (h : ∀ a ∈ as, Mirrors R (test a) (test' a)) :
    Mirrors R (selectFirst test as) (selectFirst test' as) := by
  induction as with
  | nil => exact .pure []
  | cons a rest ih =>
    rw [List.forall_mem_cons] at h
    refine h.1.bind fun answer => ?_
    cases answer with
    | true => exact .pure [a]
    | false => exact ih h.2

theorem Mirrors.resolve {k l : Checks (Asking κ ε σ)} {s : Store} {project : String}
    {caller : Option String} {c : Criteria}
    (h : ∀ e ∈ s.candidates project c, ∀ check ∈ c.checks caller e,
      Mirrors R (k.run check) (l.run check)) :
    Mirrors R (k.resolve s project caller c) (l.resolve s project caller c) := by
  have htest : ∀ e ∈ s.candidates project c,
      Mirrors R (k.passes (c.checks caller e)) (l.passes (c.checks caller e)) :=
    fun e he => .passes (h e he)
  cases hl : c.latestOnly with
  | true => simpa only [Checks.resolve, hl, if_true] using Mirrors.selectFirst htest
  | false =>
    simpa only [Checks.resolve, hl, Bool.false_eq_true, if_false] using Mirrors.selectAll htest

/-- What is found, with the memory left out of account. -/
def found (o : Except ε (α × κ) × σ) : Except ε α × σ := (o.1.map Prod.fst, o.2)

theorem Alike.found_eq {o o' : Except ε (α × κ) × σ} (h : Alike R o o') : found o = found o' := by
  cases h with
  | ok => rfl
  | error => rfl

theorem run_run' (x : Asking κ ε σ α) (known : κ) (world : σ) :
    ((x.run' known).run).run world = found (outcome x known world) := by
  have hrun : ((x known).run).run world = outcome x known world := rfl
  simp only [StateT.run', ExceptT.run_map, StateT.run_map, hrun]
  rcases outcome x known world with ⟨e | r, world'⟩
  · rfl
  · rfl

end

section

variable {ε σ : Type} {s : Store} {caller : Option String} {p : Project}

/-- The role that the first policy goes by lets the caller read the project, and both histories
remember the same. -/
structure ReadAlike (s : Store) (caller : Option String) (p : Project)
    (known known' : Recollection) : Prop where
  reads : known.roles.Reads s caller p
  snapshots : known'.snapshots = known.snapshots

theorem mirrors_live (environment : String) :
    Mirrors (ReadAlike s caller p)
      (Recollection.live s environment : Asking Recollection ε σ (Option Deployment))
      (Recollection.live s environment) := by
  intro known known' world h
  rw [outcome_live, outcome_live, h.snapshots]
  exact .ok _ world ⟨h.reads, rfl⟩

theorem mirrors_liftM (x : ExceptT ε (StateM σ) Bool) :
    Mirrors (ReadAlike s caller p) (liftM x : Asking Recollection ε σ Bool) (liftM x) := by
  intro known known' world h
  rw [outcome_liftM, outcome_liftM]
  rcases (x.run).run world with ⟨e | answer, world'⟩
  · exact .error e world'
  · exact .ok answer world' h

/-- Where the caller may read the project, the policy has nothing against its environments. -/
theorem mirrors_unguarded (host : Option (Question → ExceptT ε (StateM σ) Bool)) {c : Criteria}
    {e : Environment} (he : s.project? e.project = some p) {check : Check}
    (hcheck : check ∈ c.checks caller e) :
    Mirrors (ReadAlike s caller p) ((Checks.stored s host).run check)
      ((Checks.stored s host).unguarded.run check) := by
  cases (c.mem_checks_iff_due caller e check).mp hcheck with
  | allowed =>
    intro known known' world h
    have hanswer :
        (known.roles.allowed s caller .readEnvironment (.environment e)).1 = true := by
      rw [Roles.allowed_environment he]
      exact h.reads
    have hrun : outcome ((Checks.stored s host).run (.allowed caller .readEnvironment e)) known
        world = (.ok (true, { known with roles :=
          (known.roles.allowed s caller .readEnvironment (.environment e)).2 }), world) := by
      rw [← hanswer]
      rfl
    rw [hrun]
    exact .ok true world ⟨h.reads.after_allowed caller _ _, h.snapshots⟩
  | recentlyUpdated ref hr hu =>
    exact (mirrors_live e.id).bind fun live => .pure (cameFrom live ref)
  | includesCommit ref sha hr hc =>
    refine (mirrors_live e.id).bind fun live => ?_
    cases s.inclusion host.isSome live e sha with
    | known answer => exact .pure answer
    | ask q =>
      cases host with
      | none => exact .pure false
      | some ask => exact mirrors_liftM (ask q)

/-- A search in a project that the caller may read finds what it would find without a policy. -/
theorem found_resolve (hs : s.Keyed) (hp : p ∈ s.projects)
    (host : Option (Question → ExceptT ε (StateM σ) Bool)) (c : Criteria)
    {known known' : Recollection} (h : ReadAlike s caller p known known') (world : σ) :
    found (outcome ((Checks.stored s host).resolve s p.id caller c) known world) =
      found (outcome ((Checks.stored s host).unguarded.resolve s p.id caller c) known' world) := by
  refine (Mirrors.resolve (fun e he check hcheck => ?_) known known' world h).found_eq
  obtain ⟨_, hhome, _⟩ := (s.mem_candidates_iff p.id c e).mp he
  exact mirrors_unguarded host ((hs.project?_eq_some_iff _ _).mpr ⟨hp, hhome.symm⟩) hcheck

end

section

variable {ε σ : Type} (known : Recollection) (k : Checks (Asking Recollection ε σ)) {s : Store}
  {caller : Option String} {project : String} {p : Project} (c : Criteria) (world : σ)

theorem Recollection.find_of_error {d : Denial}
    (h : (known.roles.readable s caller project).1 = .error d) :
    ((known.find k s caller project c).run).run world = (.ok (.error d), world) := by
  rw [Recollection.find]
  rcases hm : known.roles.readable s caller project with ⟨d' | q, roles⟩
  · obtain rfl : d' = d := by simpa [hm] using h
    rfl
  · simp [hm] at h

theorem Recollection.find_of_ok (h : (known.roles.readable s caller project).1 = .ok p) :
    ((known.find k s caller project c).run).run world =
      Prod.map (Except.map Except.ok) id (found (outcome (k.resolve s p.id caller c)
        { known with roles := (known.roles.readable s caller project).2 } world)) := by
  rw [Recollection.find]
  rcases hm : known.roles.readable s caller project with ⟨d' | q, roles⟩
  · simp [hm] at h
  · obtain rfl : q = p := by simpa [hm] using h
    simp only [ExceptT.run_bind, StateT.run_bind, run_run']
    rcases outcome (k.resolve s q.id caller c) { known with roles := roles } world with
      ⟨e | r, world'⟩
    · rfl
    · rfl

end

theorem run_findEnvironments {ε σ : Type} {s : Store} {caller : Option String}
    {project : String} {p : Project} (h : s.readable caller project = .ok p) (c : Criteria)
    (host : Option (Question → ExceptT ε (StateM σ) Bool)) (world : σ) :
    ((s.findEnvironments caller project c host).run).run world =
      Prod.map (Except.map Except.ok) id
        (found
          (outcome ((Checks.stored s host).resolve s p.id caller c) Recollection.empty world)) := by
  rw [findEnvironments_run, h]
  dsimp only
  rcases outcome ((Checks.stored s host).resolve s p.id caller c) Recollection.empty world with
    ⟨e | r, world'⟩
  · rfl
  · rfl

/-- A service whose policy and history are new searches as the registry does. -/
theorem find_of_current {ε σ : Type} {s : Store} (hs : s.Keyed) {m : Roles} (h : m.Current s)
    (caller : Option String) (project : String) (c : Criteria)
    (host : Option (Question → ExceptT ε (StateM σ) Bool)) (world : σ) :
    ((Recollection.find ⟨m, Memo.empty⟩ (Checks.stored s host) s caller project c).run).run world =
      ((s.findEnvironments caller project c host).run).run world := by
  have hreadable : ∀ roles : Roles, roles.Current s →
      (roles.readable s caller project).1 = s.readable caller project :=
    fun _ h => (Roles.readable_of_current h caller project).1
  cases hp : s.readable caller project with
  | error d =>
    rw [Recollection.find_of_error _ _ c world ((hreadable m h).trans hp), findEnvironments_run, hp]
  | ok p =>
    have hreads : ∀ roles : Roles, roles.Current s → roles.Reads s caller p := fun roles h =>
      ((roles.readable_eq_ok_iff s caller project p).mp ((hreadable roles h).trans hp)).2
    -- Both searches find what is found without a policy.
    have hfind : ∀ roles : Roles, roles.Reads s caller p →
        found (outcome ((Checks.stored s host).resolve s p.id caller c) ⟨roles, Memo.empty⟩ world) =
          found (outcome ((Checks.stored s host).unguarded.resolve s p.id caller c)
            Recollection.empty world) := by
      intro roles h
      have halike : ReadAlike s caller p ⟨roles, Memo.empty⟩ Recollection.empty := ⟨h, rfl⟩
      exact found_resolve hs (Store.readable_eq_ok hp).1 host c halike world
    have hm := hfind _ (Roles.reads_after_readable (hreads m h) project)
    have hempty := hfind Memo.empty (hreads Memo.empty (Roles.current_empty s))
    rw [Recollection.find_of_ok _ _ c world ((hreadable m h).trans hp), run_findEnvironments hp]
    exact congrArg (Prod.map (Except.map Except.ok) id) (hm.trans hempty.symm)

namespace Roles

/-- What holds of the readings of a caller in a project, by a policy that remembers some roles. -/
structure ReadOnce (m : Roles) (s : Store) (caller : Option String) (project : String) : Prop where
  /-- The project is handed out where it is there and the policy lets the caller read it, -/
  agree : ∀ p, (m.readable s caller project).1 = .ok p ↔ p ∈ s.projects ∧ p.id = project ∧
    (m.allowed s caller .readEnvironment (.project p)).1 = true
  /-- and reported as missing elsewhere. -/
  missing : (∃ p, (m.readable s caller project).1 = .ok p) ∨
    (m.readable s caller project).1 = .error .noProject
  /-- The policy says of an environment what it says of the project. -/
  everywhere : ∀ p ∈ s.projects, p.id = project → ∀ e : Environment, e.project = project →
    (m.allowed s caller .readEnvironment (.environment e)).1 =
      (m.allowed s caller .readEnvironment (.project p)).1
  /-- Of the environments of a project that was handed out, it rejects none. -/
  spared : ∀ p, (m.readable s caller project).1 = .ok p → ∀ es : List Environment,
    (∀ e ∈ es, e.project = project) → (sift s caller (m.readable s caller project).2 es).1 = es
  /-- So a listing has all environments of the project, or all in a state, by their names. -/
  listed : ∀ p state, (m.readable s caller project).1 = .ok p → ∃ es,
    (m.listEnvironments s caller project state).1 = .ok es ∧
    (∀ e, e ∈ es ↔ e ∈ s.environments ∧ e.project = project ∧
      ∀ wanted, state = some wanted → e.state = wanted) ∧
    es.Pairwise fun a b => a.name < b.name
  /-- An environment is shown where it is one of the project. -/
  shown : ∀ id e, (m.getEnvironment s caller project id).1 = .ok e ↔
    (∃ p, (m.readable s caller project).1 = .ok p) ∧ e ∈ s.environments ∧ e.id = id ∧
      e.project = project
  /-- A search finds what it would find without the policy, whatever the host does. -/
  searched : ∀ {ε σ : Type} (snapshots : Snapshots) (c : Criteria)
    (host : Option (Question → ExceptT ε (StateM σ) Bool)) (world : σ),
    ((Recollection.find ⟨m, snapshots⟩ (Checks.stored s host) s caller project c).run).run world =
      ((Recollection.find ⟨m, snapshots⟩ (Checks.stored s host).unguarded s caller project
        c).run).run world

/-- With nothing remembered but what the store has, the readings are those of the registry. -/
structure Faithful (m : Roles) (s : Store) (caller : Option String) (project : String) : Prop where
  readable : (m.readable s caller project).1 = s.readable caller project
  listed : ∀ state,
    (m.listEnvironments s caller project state).1 = s.listEnvironments caller project state
  shown : ∀ id, (m.getEnvironment s caller project id).1 = s.getEnvironment caller project id
  searched : ∀ {ε σ : Type} (c : Criteria)
    (host : Option (Question → ExceptT ε (StateM σ) Bool)) (world : σ),
    ((Recollection.find ⟨m, Memo.empty⟩ (Checks.stored s host) s caller project c).run).run world =
      ((s.findEnvironments caller project c host).run).run world

variable {m : Roles} {s : Store} {caller : Option String} {project : String} {p : Project}

theorem listEnvironments_of_readable (hs : s.Constrained)
    (h : (m.readable s caller project).1 = .ok p) (state : Option EnvState) :
    ∃ es, (m.listEnvironments s caller project state).1 = .ok es ∧
      (∀ e, e ∈ es ↔ e ∈ s.environments ∧ e.project = project ∧
        ∀ wanted, state = some wanted → e.state = wanted) ∧
      es.Pairwise fun a b => a.name < b.name := by
  obtain ⟨hfound, hreads⟩ := (m.readable_eq_ok_iff s caller project p).mp h
  obtain rfl := Store.project?_id hfound
  have hmem : ∀ e, e ∈ (((s.environmentsOf p.id).filter fun e => state.all (e.state == ·)).mergeSort
      byName) ↔ e ∈ s.environments ∧ e.project = p.id ∧
        ∀ wanted, state = some wanted → e.state = wanted := by
    intro e
    rw [List.mem_mergeSort, List.mem_filter, s.mem_environmentsOf_iff, and_assoc]
    cases state <;> simp
  refine ⟨_, ?_, hmem, ?_⟩
  · have hall := sift_of_reads (reads_after_readable hreads p.id) fun e he =>
      ((hmem e).mp he).2.1 ▸ hfound
    rw [listEnvironments]
    rcases hm : m.readable s caller p.id with ⟨d | q, roles⟩
    · simp [hm] at h
    · obtain rfl : q = p := by simpa [hm] using h
      simpa [hm] using hall
  · have hnames : (((s.environmentsOf p.id).filter fun e => state.all (e.state == ·)).map
        (·.name)).Nodup := nodup_map_filter (hs.nodup_names p.id) _
    have hsorted := (ordersBy_byName.pairwise_mergeSort ((s.environmentsOf p.id).filter
      fun e => state.all (e.state == ·))).and (List.pairwise_map.mp
        (OrdersBy.nodup_mergeSort hnames))
    apply hsorted.imp
    rintro a b ⟨hle, hne⟩
    exact String.not_le.mp fun h => hne (String.le_antisymm (of_decide_eq_true hle) h)

theorem getEnvironment_eq_ok_iff (hs : s.Constrained) (m : Roles) (caller : Option String)
    (project id : String) (e : Environment) :
    (m.getEnvironment s caller project id).1 = .ok e ↔
      (∃ p, (m.readable s caller project).1 = .ok p) ∧ e ∈ s.environments ∧ e.id = id ∧
        e.project = project := by
  rw [← hs.environment?_eq_some_iff, getEnvironment]
  rcases hm : m.readable s caller project with ⟨d | p, roles⟩
  · simp
  · have hread : (m.readable s caller project).1 = .ok p := by rw [hm]
    obtain ⟨hfound, hreads⟩ := (m.readable_eq_ok_iff s caller project p).mp hread
    obtain rfl := Store.project?_id hfound
    cases he : s.environment? p.id id with
    | none => simp [he]
    | some f =>
      have hanswer : (roles.allowed s caller .readEnvironment (.environment f)).1 = true := by
        have hhome := (Store.environment?_eq_some he).2.2
        have hafter := reads_after_readable hreads p.id
        rw [hm] at hafter
        rw [allowed_environment (hhome ▸ hfound)]
        exact hafter
      simp [he, hanswer]

/-- The check of a project and the check of its environments come to the same, so nothing that the
first lets through is rejected by the second. -/
theorem read_checks_agree (hs : s.Constrained) (m : Roles) (caller : Option String)
    (project : String) :
    ReadOnce m s caller project ∧ (m.Current s → Faithful m s caller project) := by
  constructor
  · refine ⟨fun p => ?_, ?_, ?_, ?_, ?_, ?_, ?_⟩
    · rw [readable_eq_ok_iff, hs.project?_eq_some_iff, and_assoc]
      rfl
    · exact readable_eq_ok_or_error m s caller project
    · rintro p hp rfl e he
      rw [allowed_environment ((hs.project?_eq_some_iff _ _).mpr ⟨hp, he.symm⟩)]
    · intro p h es hes
      obtain ⟨hfound, hreads⟩ := (m.readable_eq_ok_iff s caller project p).mp h
      exact sift_of_reads (reads_after_readable hreads project) fun e he => hes e he ▸ hfound
    · exact fun p state h => listEnvironments_of_readable hs h state
    · exact getEnvironment_eq_ok_iff hs m caller project
    · intro ε σ snapshots c host world
      rcases readable_eq_ok_or_error m s caller project with ⟨p, h⟩ | h
      · obtain ⟨hfound, hreads⟩ := (m.readable_eq_ok_iff s caller project p).mp h
        have halike : ReadAlike s caller p ⟨(m.readable s caller project).2, snapshots⟩
            ⟨(m.readable s caller project).2, snapshots⟩ :=
          ⟨reads_after_readable hreads project, rfl⟩
        have hsame := found_resolve hs.toKeyed (Store.project?_mem hfound) host c halike world
        rw [Recollection.find_of_ok _ _ c world h, Recollection.find_of_ok _ _ c world h]
        exact congrArg (Prod.map (Except.map Except.ok) id) hsame
      · rw [Recollection.find_of_error _ _ c world h, Recollection.find_of_error _ _ c world h]
  · intro h
    exact ⟨(readable_of_current h caller project).1, listEnvironments_of_current h caller project,
      getEnvironment_of_current h caller project, find_of_current hs.toKeyed h caller project⟩

theorem constrained_harbourStore : harbourStore.Constrained where
  toKeyed := keyed_harbourStore
  names := by decide

/-- Ana reads the project as its owner, unless it is remembered that she had no role in it. -/
theorem read_checks_agree_harbour :
    (ReadOnce Memo.empty harbourStore (some "ana") "p" ∧
      Faithful Memo.empty harbourStore (some "ana") "p" ∧
      ∃ p, (readable Memo.empty harbourStore (some "ana") "p").1 = .ok p) ∧
    ReadOnce ⟨[(("ana", "p"), none)]⟩ harbourStore (some "ana") "p" ∧
      (readable ⟨[(("ana", "p"), none)]⟩ harbourStore (some "ana") "p").1 = .error .noProject := by
  obtain ⟨hnew, hfaithful⟩ :=
    read_checks_agree constrained_harbourStore Memo.empty (some "ana") "p"
  obtain ⟨hold, _⟩ :=
    read_checks_agree constrained_harbourStore ⟨[(("ana", "p"), none)]⟩ (some "ana") "p"
  exact ⟨⟨hnew, hfaithful (current_empty harbourStore), _, rfl⟩, hold, rfl⟩

end Roles

end DeployRegistry
