/-!
# Memos

A memo keeps the first answer to each question and gives it again when the question is asked
again, even if a fresh answer would differ by then. The main statement is `ask_of_find?`: an
answer that was given once stays.
-/

namespace DeployRegistry

set_option autoImplicit false

structure Memo (κ α : Type) where
  answers : List (κ × α)

namespace Memo

variable {κ α : Type} [DecidableEq κ]

def empty : Memo κ α := ⟨[]⟩

instance : Inhabited (Memo κ α) := ⟨empty⟩

/-- The kept answer to a question. -/
def find? (m : Memo κ α) (question : κ) : Option α :=
  (m.answers.find? fun p => decide (p.1 = question)).map (·.2)

/-- The kept answer, or else the fresh one, which is kept from now on. -/
def ask (m : Memo κ α) (question : κ) (fresh : α) : α × Memo κ α :=
  match m.find? question with
  | some answer => (answer, m)
  | none => (fresh, ⟨(question, fresh) :: m.answers⟩)

@[simp] theorem find?_empty (question : κ) : (empty : Memo κ α).find? question = none := rfl

theorem find?_cons (question other : κ) (answer : α) (rest : List (κ × α)) :
    (Memo.mk ((question, answer) :: rest)).find? other =
      if question = other then some answer else (Memo.mk rest).find? other := by
  by_cases h : question = other <;> simp [find?, h]

theorem ask_of_find? {m : Memo κ α} {question : κ} {answer : α}
    (h : m.find? question = some answer) (fresh : α) : m.ask question fresh = (answer, m) := by
  simp [ask, h]

theorem ask_of_find?_none {m : Memo κ α} {question : κ} (h : m.find? question = none)
    (fresh : α) : m.ask question fresh = (fresh, ⟨(question, fresh) :: m.answers⟩) := by
  simp [ask, h]

theorem fst_ask (m : Memo κ α) (question : κ) (fresh : α) :
    (m.ask question fresh).1 = (m.find? question).getD fresh := by
  cases hq : m.find? question with
  | some answer => rw [ask_of_find? hq, Option.getD_some]
  | none => rw [ask_of_find?_none hq, Option.getD_none]

/-- A question that was answered keeps its answer, and the one that is asked now gets the fresh one. -/
theorem find?_ask (m : Memo κ α) (question other : κ) (fresh : α) :
    (m.ask question fresh).2.find? other =
      (m.find? other).or (if question = other then some fresh else none) := by
  cases hq : m.find? question with
  | some answer =>
    rw [ask_of_find? hq]
    by_cases h : question = other
    · subst h
      rw [hq]
      rfl
    · rw [if_neg h, Option.or_none]
  | none =>
    rw [ask_of_find?_none hq, find?_cons]
    by_cases h : question = other
    · subst h
      rw [if_pos rfl, if_pos rfl, hq]
      rfl
    · rw [if_neg h, if_neg h, Option.or_none]

end Memo

/-! What is kept when things come one after the other. -/

section

variable {ι : Type} {p : ι → Prop} {things : List ι} {first : ι}

/-- The first of some things that has a property. -/
def FirstOf (p : ι → Prop) (things : List ι) (first : ι) : Prop :=
  ∃ earlier later, things = earlier ++ first :: later ∧ p first ∧ ∀ i ∈ earlier, ¬ p i

theorem FirstOf.mem (h : FirstOf p things first) : first ∈ things := by
  obtain ⟨earlier, later, rfl, _⟩ := h
  exact List.mem_append_right _ List.mem_cons_self

theorem FirstOf.append (h : FirstOf p things first) (more : List ι) :
    FirstOf p (things ++ more) first := by
  obtain ⟨earlier, later, rfl, hfirst, hearlier⟩ := h
  exact ⟨earlier, later ++ more, List.append_assoc .., hfirst, hearlier⟩

variable [DecidablePred p]

theorem firstOf_iff (things : List ι) (first : ι) :
    FirstOf p things first ↔ things.find? (fun i => decide (p i)) = some first := by
  rw [List.find?_eq_some_iff_append]
  constructor
  · rintro ⟨earlier, later, rfl, hfirst, hearlier⟩
    exact ⟨decide_eq_true hfirst, earlier, later, rfl, fun i hi => by simp [hearlier i hi]⟩
  · rintro ⟨hfirst, earlier, later, rfl, hearlier⟩
    exact ⟨earlier, later, rfl, of_decide_eq_true hfirst, fun i hi => by simpa using hearlier i hi⟩

theorem FirstOf.unique {other : ι} (h : FirstOf p things first) (h' : FirstOf p things other) :
    first = other :=
  Option.some.inj (((firstOf_iff _ _).mp h).symm.trans ((firstOf_iff _ _).mp h'))

theorem exists_firstOf {i : ι} (hi : i ∈ things) (hp : p i) : ∃ first, FirstOf p things first := by
  simp only [firstOf_iff, ← Option.isSome_iff_exists, List.find?_isSome]
  exact ⟨i, hi, decide_eq_true hp⟩

theorem FirstOf.filter {kept : ι → Bool} (hkept : ∀ i, p i → kept i = true)
    (h : FirstOf p things first) : FirstOf p (things.filter kept) first := by
  have hsame : (fun i => decide (kept i = true ∧ decide (p i) = true)) = fun i => decide (p i) := by
    funext i
    by_cases hi : p i
    · simp [hi, hkept i hi]
    · simp [hi]
  rw [firstOf_iff, List.find?_filter, hsame]
  exact (firstOf_iff _ _).mp h

/-- Where each thing with the property brings an answer, and only the first answer is kept, what is
kept in the end is what there was before or else the answer of the first of them. -/
theorem kept_foldl {σ α : Type} (kept : σ → Option α) (step : σ → ι → σ) (answer : ι → α)
    (hstep : ∀ s i, kept (step s i) = (kept s).or (if p i then some (answer i) else none)) (s : σ)
    (things : List ι) :
    kept (things.foldl step s) =
      (kept s).or ((things.find? fun i => decide (p i)).map answer) := by
  induction things generalizing s with
  | nil => rw [List.foldl_nil, List.find?_nil, Option.map_none, Option.or_none]
  | cons i rest ih =>
    rw [List.foldl_cons, ih, hstep, Option.or_assoc, List.find?_cons]
    by_cases hi : p i <;> simp [hi]

end

end DeployRegistry
