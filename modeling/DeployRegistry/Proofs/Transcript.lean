import DeployRegistry.Resolution.Basic
import Mathlib.Data.List.Pairwise

/-!
# What a resolution asks

The checks of a resolution may do anything when they are asked: change the world they deal with, and
raise an error instead of giving an answer. Here every call of a check is written down with its
reply, candidate by candidate. The main statement says which calls a resolution makes, in which
order, where it stops, and what comes of it.
-/

namespace DeployRegistry

set_option autoImplicit false

/-- Computations that deal with a world and may raise an error, which does not undo what was done to
the world. -/
abbrev Raising (ε σ : Type) := ExceptT ε (StateM σ)

/-- A check that was asked for, and the answer or the error that it gave. -/
structure Call (ε : Type) where
  check : Check
  reply : Except ε Bool

def Call.passed {ε : Type} (call : Call ε) : Bool :=
  match call.reply with
  | .ok answer => answer
  | .error _ => false

/-- What a check costs, in the order in which checks are asked for: access is read off the store,
the last deployment too, and the history of a commit may be a question to a host. -/
def Check.cost : Check → Nat
  | .allowed _ _ _ => 0
  | .recentlyUpdated _ _ => 1
  | .includesCommit _ _ => 2

namespace Criteria

theorem pairwise_cost_checks (c : Criteria) (caller : Option String) (e : Environment) :
    (c.checks caller e).Pairwise fun a b => a.cost < b.cost := by
  cases hr : c.ref <;> cases hc : c.commit <;> cases hu : c.recentlyUpdated <;>
    simp [checks, hr, hc, hu, Check.cost]

section

variable {ε : Type}

/-- The calls that are made for one candidate: checks that are due, the cheapest first, each only
after all cheaper ones passed, and all of them unless one did not pass. -/
structure Row (c : Criteria) (caller : Option String) (e : Environment) (calls : List (Call ε)) :
    Prop where
  due : ∀ call ∈ calls, c.Due caller e call.check
  ordered : calls.Pairwise fun a b => a.check.cost < b.check.cost
  after : ∀ call ∈ calls, ∀ check, c.Due caller e check → check.cost < call.check.cost →
    ⟨check, .ok true⟩ ∈ calls
  complete : calls.all Call.passed = true → ∀ check, c.Due caller e check →
    ⟨check, .ok true⟩ ∈ calls

/-- The calls of a whole resolution, a row for each candidate that was examined, and its result. -/
structure Transcript (c : Criteria) (caller : Option String) (candidates : List Environment)
    (rows : List (Environment × List (Call ε))) (r : Except ε (List Environment)) : Prop where
  row : ∀ p ∈ rows, c.Row caller p.1 p.2
  order : rows.map Prod.fst <+: candidates
  /-- Where the latest alone is looked for, nothing is examined after a candidate that passed. -/
  latest : c.latestOnly = true → ∀ front p back, rows = front ++ p :: back →
    p.2.all Call.passed = true → back = []
  /-- An error ends the resolution with that error, and no other call is made. -/
  raised : ∀ front call back x, rows.flatMap Prod.snd = front ++ call :: back →
    call.reply = .error x → back = [] ∧ r = .error x
  /-- There are no other errors. -/
  error : ∀ x, r = .error x → ∃ call ∈ rows.flatMap Prod.snd, call.reply = .error x
  /-- Nothing else keeps a candidate from being examined. -/
  all : (∀ x, r ≠ .error x) → (c.latestOnly = true → ∀ p ∈ rows, p.2.all Call.passed = false) →
    rows.map Prod.fst = candidates
  found : ∀ es, r = .ok es →
    es = (rows.filter fun p => p.2.all Call.passed).map Prod.fst ∧
      (c.latestOnly = true → es.length ≤ 1)

end

end Criteria

section

variable {ε σ α β : Type}

/-- What comes of a computation in a world, and the world afterwards. -/
def upshot (x : Raising ε σ α) (world : σ) : Except ε α × σ := x.run.run world

@[simp] theorem upshot_pure (a : α) (world : σ) :
    upshot (pure a : Raising ε σ α) world = (.ok a, world) := rfl

theorem upshot_bind (x : Raising ε σ α) (f : α → Raising ε σ β) (world : σ) :
    upshot (x >>= f) world =
      match upshot x world with
      | (.ok a, world) => upshot (f a) world
      | (.error e, world) => (.error e, world) := by
  simp only [upshot, ExceptT.run_bind, StateT.run_bind]
  cases x.run.run world with
  | mk r world => cases r <;> rfl

/-! A world in which it is noted, beside everything else, which checks were asked for. -/

/-- The computation in such a world. It notes nothing. -/
def beside (x : Raising ε σ α) : Raising ε (σ × List Check) α :=
  fun world => ((upshot x world.1).1, ((upshot x world.1).2, world.2))

def noteDown (check : Check) : Raising ε (σ × List Check) Unit :=
  fun world => (.ok (), (world.1, world.2 ++ [check]))

/-- The checks, each of them noted when it is asked for. -/
def Checks.overheard (k : Checks (Raising ε σ)) : Checks (Raising ε (σ × List Check)) :=
  let silent : Checks (Raising ε (σ × List Check)) :=
    { allowed := fun caller action e => beside (k.allowed caller action e)
      recentlyUpdated := fun e ref => beside (k.recentlyUpdated e ref)
      includesCommit := fun e sha => beside (k.includesCommit e sha) }
  silent.noted noteDown

theorem upshot_overheard (k : Checks (Raising ε σ)) (check : Check) (world : σ)
    (log : List Check) : upshot (k.overheard.run check) (world, log) =
      ((upshot (k.run check) world).1, (upshot (k.run check) world).2, log ++ [check]) := by
  cases check <;> rfl

/-- The calls are made one after the other, each in the world that the one before has left. -/
inductive Replies (k : Checks (Raising ε σ)) : σ → List (Call ε) → σ → Prop
  | nil (world : σ) : Replies k world [] world
  | cons {world world₁ world₂ : σ} {check : Check} {reply : Except ε Bool} {calls : List (Call ε)}
      (h : upshot (k.run check) world = (reply, world₁)) (rest : Replies k world₁ calls world₂) :
      Replies k world (⟨check, reply⟩ :: calls) world₂

theorem Replies.append {k : Checks (Raising ε σ)} {world world₁ world₂ : σ}
    {calls calls' : List (Call ε)} (h : Replies k world calls world₁)
    (h' : Replies k world₁ calls' world₂) : Replies k world (calls ++ calls') world₂ := by
  induction h with
  | nil world => exact h'
  | cons hcheck _ ih => exact .cons hcheck (ih h')

/-- A computation that makes the calls and has the result, and does so where they are noted. -/
structure Makes (k : Checks (Raising ε σ)) (x : Raising ε σ α)
    (x' : Raising ε (σ × List Check) α) (world : σ) (calls : List (Call ε)) (r : Except ε α)
    (world' : σ) : Prop where
  replies : Replies k world calls world'
  upshot : upshot x world = (r, world')
  overheard : ∀ log, DeployRegistry.upshot x' (world, log) =
    (r, world', log ++ calls.map Call.check)

variable {k : Checks (Raising ε σ)} {x : Raising ε σ α} {x' : Raising ε (σ × List Check) α}
variable {f : α → Raising ε σ β} {f' : α → Raising ε (σ × List Check) β}
variable {world world₁ world₂ : σ} {calls calls' : List (Call ε)}

theorem Makes.pure (a : α) (world : σ) :
    Makes k (Pure.pure a) (Pure.pure a) world [] (.ok a) world :=
  ⟨.nil world, rfl, fun log => by simp⟩

theorem Makes.check (k : Checks (Raising ε σ)) (check : Check) (world : σ) :
    Makes k (k.run check) (k.overheard.run check) world
      [⟨check, (DeployRegistry.upshot (k.run check) world).1⟩]
      (DeployRegistry.upshot (k.run check) world).1
      (DeployRegistry.upshot (k.run check) world).2 :=
  ⟨.cons rfl (.nil _), rfl, fun log => upshot_overheard k check world log⟩

theorem Makes.bind {a : α} {r : Except ε β} (hx : Makes k x x' world calls (.ok a) world₁)
    (hf : Makes k (f a) (f' a) world₁ calls' r world₂) :
    Makes k (x >>= f) (x' >>= f') world (calls ++ calls') r world₂ := by
  refine ⟨hx.replies.append hf.replies, ?_, ?_⟩
  · rw [upshot_bind, hx.upshot]
    exact hf.upshot
  · intro log
    rw [upshot_bind, hx.overheard]
    dsimp only
    rw [hf.overheard, List.map_append, List.append_assoc]

theorem Makes.bind_error {e : ε} (hx : Makes k x x' world calls (.error e) world₁) :
    Makes k (x >>= f) (x' >>= f') world calls (.error e) world₁ := by
  refine ⟨hx.replies, ?_, ?_⟩
  · rw [upshot_bind, hx.upshot]
  · intro log
    rw [upshot_bind, hx.overheard]

end

/-! The checks of one candidate. -/

section

variable {ε σ : Type}

/-- The calls that a row of checks comes to, up to the first that does not pass. -/
inductive Answered : List Check → List (Call ε) → Except ε Bool → Prop
  | passed : Answered [] [] (.ok true)
  | next {check : Check} {rest : List Check} {calls : List (Call ε)} {r : Except ε Bool}
      (h : Answered rest calls r) : Answered (check :: rest) (⟨check, .ok true⟩ :: calls) r
  | rejected (check : Check) (rest : List Check) :
      Answered (check :: rest) [⟨check, .ok false⟩] (.ok false)
  | raised (check : Check) (rest : List Check) (x : ε) :
      Answered (check :: rest) [⟨check, .error x⟩] (.error x)

theorem makes_passes (k : Checks (Raising ε σ)) (checks : List Check) (world : σ) :
    ∃ calls r world', Makes k (k.passes checks) (k.overheard.passes checks) world calls r world' ∧
      Answered checks calls r := by
  induction checks generalizing world with
  | nil => exact ⟨[], .ok true, world, .pure true world, .passed⟩
  | cons check rest ih =>
    have hcheck := Makes.check k check world
    rcases hu : upshot (k.run check) world with ⟨x | answer, world₁⟩
    · rw [hu] at hcheck
      exact ⟨_, _, _, hcheck.bind_error, .raised check rest x⟩
    · rw [hu] at hcheck
      cases answer with
      | true =>
        obtain ⟨calls, r, world₂, hrest, hanswered⟩ := ih world₁
        exact ⟨_, _, _, hcheck.bind hrest, .next hanswered⟩
      | false => exact ⟨_, _, _, hcheck.bind (.pure false world₁), .rejected check rest⟩

namespace Answered

variable {checks : List Check} {calls : List (Call ε)} {r : Except ε Bool}

theorem map_check_prefix (h : Answered checks calls r) : calls.map Call.check <+: checks := by
  induction h with
  | passed => exact List.nil_prefix
  | next _ ih => exact (List.prefix_cons_inj _).mpr ih
  | rejected check rest => exact ⟨rest, rfl⟩
  | raised check rest x => exact ⟨rest, rfl⟩

theorem all_passed_iff (h : Answered checks calls r) :
    calls.all Call.passed = true ↔ r = .ok true := by
  induction h with
  | passed => simp
  | next _ ih => simpa [Call.passed] using ih
  | rejected check rest => simp [Call.passed]
  | raised check rest x => simp [Call.passed]

theorem mem_of_passed (h : Answered checks calls r) (hr : r = .ok true) {check : Check}
    (hc : check ∈ checks) : ⟨check, .ok true⟩ ∈ calls := by
  induction h with
  | passed => cases hc
  | next _ ih =>
    rcases List.mem_cons.mp hc with rfl | hc
    · exact List.mem_cons_self
    · exact List.mem_cons_of_mem _ (ih hr hc)
  | rejected check rest => cases hr
  | raised check rest x => cases hr

/-- A check is asked for only after all that cost less have passed. -/
theorem mem_of_cost_lt (h : Answered checks calls r)
    (hs : checks.Pairwise fun a b => a.cost < b.cost) {call : Call ε} (hcall : call ∈ calls)
    {check : Check} (hc : check ∈ checks) (hlt : check.cost < call.check.cost) :
    ⟨check, .ok true⟩ ∈ calls := by
  have hfirst : ∀ {a : Check} {rest : List Check}, check ∈ a :: rest →
      (a :: rest).Pairwise (fun a b => a.cost < b.cost) → ¬ check.cost < a.cost := by
    intro a rest hmem hsorted
    rcases List.mem_cons.mp hmem with rfl | hmem
    · exact Nat.lt_irrefl _
    · have hle := (List.pairwise_cons.mp hsorted).1 check hmem
      omega
  induction h with
  | passed => cases hcall
  | next _ ih =>
    rcases List.mem_cons.mp hcall with rfl | hcall
    · exact absurd hlt (hfirst hc hs)
    · rcases List.mem_cons.mp hc with rfl | hc
      · exact List.mem_cons_self
      · exact List.mem_cons_of_mem _ (ih (List.pairwise_cons.mp hs).2 hcall hc)
  | rejected a rest =>
    obtain rfl := List.mem_singleton.mp hcall
    exact absurd hlt (hfirst hc hs)
  | raised a rest x =>
    obtain rfl := List.mem_singleton.mp hcall
    exact absurd hlt (hfirst hc hs)

/-- An error is the reply of the last call. -/
theorem error_last (h : Answered checks calls r) {front back : List (Call ε)} {call : Call ε}
    {x : ε} (heq : calls = front ++ call :: back) (hx : call.reply = .error x) :
    back = [] ∧ r = .error x := by
  induction h generalizing front with
  | passed => simp at heq
  | next _ ih =>
    cases front with
    | nil =>
      obtain ⟨rfl, _⟩ := List.cons.inj heq
      cases hx
    | cons a front => exact ih (List.cons.inj heq).2
  | rejected check rest =>
    have hmem : call ∈ [⟨check, .ok false⟩] := by simp [heq]
    obtain rfl := List.mem_singleton.mp hmem
    cases hx
  | raised check rest y =>
    cases front with
    | nil =>
      obtain ⟨rfl, hback⟩ := List.cons.inj heq
      cases hx
      exact ⟨hback.symm, rfl⟩
    | cons a front => simp at heq

theorem exists_error (h : Answered checks calls r) {x : ε} (hr : r = .error x) :
    ∃ call ∈ calls, call.reply = .error x := by
  induction h with
  | passed => cases hr
  | next _ ih =>
    obtain ⟨call, hcall, hx⟩ := ih hr
    exact ⟨call, List.mem_cons_of_mem _ hcall, hx⟩
  | rejected check rest => cases hr
  | raised check rest y =>
    cases hr
    exact ⟨_, List.mem_cons_self, rfl⟩

theorem row {c : Criteria} {caller : Option String} {e : Environment}
    (h : Answered (c.checks caller e) calls r) : c.Row caller e calls := by
  have hsorted := c.pairwise_cost_checks caller e
  have hsub := h.map_check_prefix.sublist
  refine ⟨?_, ?_, ?_, ?_⟩
  · intro call hcall
    exact (c.mem_checks_iff_due caller e _).mp (hsub.subset (List.mem_map_of_mem hcall))
  · have hchecks := hsorted.sublist hsub
    rwa [List.pairwise_map] at hchecks
  · intro call hcall check hdue hlt
    exact h.mem_of_cost_lt hsorted hcall ((c.mem_checks_iff_due caller e check).mpr hdue) hlt
  · intro hall check hdue
    exact h.mem_of_passed (h.all_passed_iff.mp hall) ((c.mem_checks_iff_due caller e check).mpr hdue)

end Answered

end

/-! The candidates, one after the other. -/

section

variable {ε σ : Type}

/-- The rows that a walk through candidates comes to, and its result. -/
inductive Walk (c : Criteria) (caller : Option String) :
    List Environment → List (Environment × List (Call ε)) → Except ε (List Environment) → Prop
  | done : Walk c caller [] [] (.ok [])
  | raised {e : Environment} {calls : List (Call ε)} {x : ε} (rest : List Environment)
      (h : Answered (c.checks caller e) calls (.error x)) :
      Walk c caller (e :: rest) [(e, calls)] (.error x)
  | rejected {e : Environment} {calls : List (Call ε)} {rest : List Environment}
      {rows : List (Environment × List (Call ε))} {r : Except ε (List Environment)}
      (h : Answered (c.checks caller e) calls (.ok false)) (hw : Walk c caller rest rows r) :
      Walk c caller (e :: rest) ((e, calls) :: rows) r
  | first {e : Environment} {calls : List (Call ε)} (rest : List Environment)
      (hl : c.latestOnly = true) (h : Answered (c.checks caller e) calls (.ok true)) :
      Walk c caller (e :: rest) [(e, calls)] (.ok [e])
  | passed {e : Environment} {calls : List (Call ε)} {rest : List Environment}
      {rows : List (Environment × List (Call ε))} {r : Except ε (List Environment)}
      (hl : c.latestOnly = false) (h : Answered (c.checks caller e) calls (.ok true))
      (hw : Walk c caller rest rows r) :
      Walk c caller (e :: rest) ((e, calls) :: rows) (r.map (e :: ·))

theorem flatMap_single (e : Environment) (calls : List (Call ε)) :
    [(e, calls)].flatMap Prod.snd = calls := by
  simp

variable (k : Checks (Raising ε σ)) {c : Criteria} {caller : Option String}

theorem makes_selectFirst (hl : c.latestOnly = true) (es : List Environment) (world : σ) :
    ∃ rows r world',
      Makes k (selectFirst (fun e => k.passes (c.checks caller e)) es)
        (selectFirst (fun e => k.overheard.passes (c.checks caller e)) es) world
        (rows.flatMap Prod.snd) r world' ∧ Walk c caller es rows r := by
  induction es generalizing world with
  | nil => exact ⟨[], _, _, .pure [] world, .done⟩
  | cons e rest ih =>
    obtain ⟨calls, r, world₁, hmakes, hanswered⟩ := makes_passes k (c.checks caller e) world
    rcases r with x | answer
    · refine ⟨[(e, calls)], _, world₁, ?_, .raised rest hanswered⟩
      rw [flatMap_single]
      exact hmakes.bind_error
    · cases answer with
      | true =>
        refine ⟨[(e, calls)], _, world₁, ?_, .first rest hl hanswered⟩
        exact hmakes.bind (.pure [e] world₁)
      | false =>
        obtain ⟨rows, r, world₂, hrest, hwalk⟩ := ih world₁
        refine ⟨(e, calls) :: rows, r, world₂, ?_, .rejected hanswered hwalk⟩
        exact hmakes.bind hrest

theorem makes_selectAll (hl : c.latestOnly = false) (es : List Environment) (world : σ) :
    ∃ rows r world',
      Makes k (selectAll (fun e => k.passes (c.checks caller e)) es)
        (selectAll (fun e => k.overheard.passes (c.checks caller e)) es) world
        (rows.flatMap Prod.snd) r world' ∧ Walk c caller es rows r := by
  induction es generalizing world with
  | nil => exact ⟨[], _, _, .pure [] world, .done⟩
  | cons e rest ih =>
    obtain ⟨calls, r, world₁, hmakes, hanswered⟩ := makes_passes k (c.checks caller e) world
    rcases r with x | answer
    · refine ⟨[(e, calls)], _, world₁, ?_, .raised rest hanswered⟩
      rw [flatMap_single]
      exact hmakes.bind_error
    · obtain ⟨rows, r, world₂, hrest, hwalk⟩ := ih world₁
      cases answer with
      | true =>
        refine ⟨(e, calls) :: rows, _, world₂, ?_, .passed hl hanswered hwalk⟩
        rw [List.flatMap_cons]
        refine hmakes.bind ?_
        cases r with
        | error x => exact hrest.bind_error
        | ok others =>
          rw [← List.append_nil (rows.flatMap Prod.snd)]
          exact Makes.bind hrest (.pure (e :: others) world₂)
      | false =>
        refine ⟨(e, calls) :: rows, r, world₂, ?_, .rejected hanswered hwalk⟩
        exact hmakes.bind hrest

namespace Walk

variable {candidates : List Environment} {rows : List (Environment × List (Call ε))}
variable {r : Except ε (List Environment)}

theorem row (h : Walk c caller candidates rows r) : ∀ p ∈ rows, c.Row caller p.1 p.2 := by
  induction h with
  | done => simp
  | raised rest h => simpa using h.row
  | rejected h _ ih => exact List.forall_mem_cons.mpr ⟨h.row, ih⟩
  | first rest hl h => simpa using h.row
  | passed hl h _ ih => exact List.forall_mem_cons.mpr ⟨h.row, ih⟩

theorem map_fst_prefix (h : Walk c caller candidates rows r) :
    rows.map Prod.fst <+: candidates := by
  induction h with
  | done => exact List.nil_prefix
  | raised rest h => exact ⟨rest, rfl⟩
  | rejected _ _ ih => exact (List.prefix_cons_inj _).mpr ih
  | first rest hl h => exact ⟨rest, rfl⟩
  | passed hl h _ ih => exact (List.prefix_cons_inj _).mpr ih

theorem nil_of_passed (h : Walk c caller candidates rows r) (hl : c.latestOnly = true)
    {front back : List (Environment × List (Call ε))} {p : Environment × List (Call ε)}
    (heq : rows = front ++ p :: back) (hp : p.2.all Call.passed = true) : back = [] := by
  induction h generalizing front with
  | done => simp at heq
  | raised rest h =>
    cases front with
    | nil => exact (List.cons.inj heq).2.symm
    | cons q front => simp at heq
  | rejected h _ ih =>
    cases front with
    | nil =>
      obtain ⟨rfl, _⟩ := List.cons.inj heq
      cases h.all_passed_iff.mp hp
    | cons q front => exact ih (List.cons.inj heq).2
  | first rest _ h =>
    cases front with
    | nil => exact (List.cons.inj heq).2.symm
    | cons q front => simp at heq
  | passed hl' h _ ih => simp [hl] at hl'

/-- The calls for one candidate did not raise an error when others follow. -/
theorem error_later {calls later : List (Call ε)} {checks : List Check} {answer : Bool}
    (h : Answered checks calls (.ok answer)) {front back : List (Call ε)} {call : Call ε} {x : ε}
    (heq : calls ++ later = front ++ call :: back) (hx : call.reply = .error x) :
    ∃ front', later = front' ++ call :: back := by
  rcases List.append_eq_append_iff.mp heq with ⟨front', _, hlater⟩ | ⟨back', hcalls, hback⟩
  · exact ⟨front', hlater⟩
  · cases back' with
    | nil => exact ⟨[], by simpa using hback.symm⟩
    | cons call' back' =>
      obtain ⟨rfl, _⟩ := List.cons.inj hback
      cases (h.error_last hcalls hx).2

theorem error_last (h : Walk c caller candidates rows r) {front back : List (Call ε)}
    {call : Call ε} {x : ε} (heq : rows.flatMap Prod.snd = front ++ call :: back)
    (hx : call.reply = .error x) : back = [] ∧ r = .error x := by
  induction h generalizing front with
  | done => simp at heq
  | raised rest h =>
    rw [flatMap_single] at heq
    obtain ⟨hback, hr⟩ := h.error_last heq hx
    exact ⟨hback, by rw [Except.error.inj hr]⟩
  | rejected h _ ih =>
    rw [List.flatMap_cons] at heq
    obtain ⟨front', hlater⟩ := error_later h heq hx
    exact ih hlater
  | first rest hl h =>
    rw [flatMap_single] at heq
    cases (h.error_last heq hx).2
  | passed hl h _ ih =>
    rw [List.flatMap_cons] at heq
    obtain ⟨front', hlater⟩ := error_later h heq hx
    obtain ⟨hback, rfl⟩ := ih hlater
    exact ⟨hback, rfl⟩

theorem exists_error (h : Walk c caller candidates rows r) {x : ε} (hr : r = .error x) :
    ∃ call ∈ rows.flatMap Prod.snd, call.reply = .error x := by
  induction h with
  | done => cases hr
  | raised rest h =>
    cases hr
    rw [flatMap_single]
    exact h.exists_error rfl
  | rejected h _ ih =>
    obtain ⟨call, hcall, hx⟩ := ih hr
    exact ⟨call, List.mem_append_right _ hcall, hx⟩
  | first rest hl h => cases hr
  | @passed e calls rest rows r hl h hw ih =>
    cases r with
    | ok others => cases hr
    | error y =>
      obtain ⟨call, hcall, hx⟩ := ih hr
      exact ⟨call, List.mem_append_right _ hcall, hx⟩

theorem map_fst_eq (h : Walk c caller candidates rows r) (hr : ∀ x, r ≠ .error x)
    (hl : c.latestOnly = true → ∀ p ∈ rows, p.2.all Call.passed = false) :
    rows.map Prod.fst = candidates := by
  induction h with
  | done => rfl
  | raised rest h => exact absurd rfl (hr _)
  | rejected h _ ih =>
    have hrest := ih hr fun hlatest p hp => hl hlatest p (List.mem_cons_of_mem _ hp)
    rw [List.map_cons, hrest]
  | first rest hlatest h =>
    have hfalse := hl hlatest _ List.mem_cons_self
    rw [h.all_passed_iff.mpr rfl] at hfalse
    cases hfalse
  | @passed e calls rest rows r hall h hw ih =>
    have hrest : rows.map Prod.fst = rest := by
      apply ih
      · intro x hx
        subst hx
        exact hr x rfl
      · intro hlatest
        simp [hlatest] at hall
    rw [List.map_cons, hrest]

theorem found (h : Walk c caller candidates rows r) {es : List Environment} (hr : r = .ok es) :
    es = (rows.filter fun p => p.2.all Call.passed).map Prod.fst ∧
      (c.latestOnly = true → es.length ≤ 1) := by
  induction h generalizing es with
  | done =>
    cases hr
    simp
  | raised rest h => cases hr
  | @rejected e calls rest rows r h hw ih =>
    have hfalse : calls.all Call.passed = false := by
      rw [Bool.eq_false_iff]
      intro hall
      cases h.all_passed_iff.mp hall
    simpa [hfalse] using ih hr
  | @first e calls rest hl h =>
    cases hr
    have htrue : calls.all Call.passed = true := h.all_passed_iff.mpr rfl
    simp [htrue]
  | @passed e calls rest rows r hl h hw ih =>
    have htrue : calls.all Call.passed = true := h.all_passed_iff.mpr rfl
    cases r with
    | error x => cases hr
    | ok others =>
      cases hr
      constructor
      · have hothers := (ih rfl).1
        simpa [htrue] using hothers
      · intro hlatest
        simp [hlatest] at hl

theorem transcript (h : Walk c caller candidates rows r) :
    c.Transcript caller candidates rows r where
  row := h.row
  order := h.map_fst_prefix
  latest hl _ _ _ heq hp := h.nil_of_passed hl heq hp
  raised _ _ _ _ heq hx := h.error_last heq hx
  error _ hr := h.exists_error hr
  all hr hl := h.map_fst_eq hr hl
  found _ hr := h.found hr

end Walk

/-- What a resolution asks for and what comes of it, whatever the checks do. The calls are those of
the transcript, as the noted ones show; the checks are asked in the worlds that they leave one after
the other; and noting the calls changes neither the result nor the world. Without a ref and a commit
nothing is asked and nothing found. -/
theorem resolve_transcript (k : Checks (Raising ε σ)) (s : Store) (project : String)
    (caller : Option String) (c : Criteria) (world : σ) :
    ∃ rows r world',
      c.Transcript caller (s.candidates project c) rows r ∧
      Replies k world (rows.flatMap Prod.snd) world' ∧
      upshot (k.resolve s project caller c) world = (r, world') ∧
      upshot (k.overheard.resolve s project caller c) (world, []) =
        (r, world', (rows.flatMap Prod.snd).map Call.check) ∧
      (c.ref = none → c.commit = none → rows = [] ∧ r = .ok []) := by
  obtain ⟨rows, r, world', hmakes, hwalk⟩ : ∃ rows r world',
      Makes k (k.resolve s project caller c) (k.overheard.resolve s project caller c) world
        (rows.flatMap Prod.snd) r world' ∧ Walk c caller (s.candidates project c) rows r := by
    unfold Checks.resolve
    cases hl : c.latestOnly with
    | true => exact makes_selectFirst k hl (s.candidates project c) world
    | false => exact makes_selectAll k hl (s.candidates project c) world
  refine ⟨rows, r, world', hwalk.transcript, hmakes.replies, hmakes.upshot, ?_, ?_⟩
  · rw [hmakes.overheard, List.nil_append]
  · intro href hcommit
    have hnone : s.candidates project c = [] := by
      rw [List.eq_nil_iff_forall_not_mem]
      intro e he
      obtain ⟨_, _, _, d, _, _, _, hmatches⟩ := (s.mem_candidates_iff project c e).mp he
      simp [Criteria.matches, href, hcommit] at hmatches
    rw [hnone] at hwalk
    cases hwalk
    exact ⟨rfl, rfl⟩

end

end DeployRegistry
