import DeployRegistry.Form.Issue

/-!
# Checked values

The result of a check is a value or the issues that were found. Where several checks make one
value, the issues of all of them are reported, in the order of the checks.
-/

namespace DeployRegistry.Form

set_option autoImplicit false

inductive Checked (α : Type)
  | valid (a : α)
  | invalid (issues : List Issue)
  deriving Inhabited

namespace Checked

variable {α β : Type}

def map (f : α → β) : Checked α → Checked β
  | valid a => valid (f a)
  | invalid issues => invalid issues

/-- Both checks are made, whatever the first one found. -/
def seq (f : Checked (α → β)) (x : Unit → Checked α) : Checked β :=
  match f, x () with
  | valid g, valid a => valid (g a)
  | valid _, invalid issues => invalid issues
  | invalid issues, valid _ => invalid issues
  | invalid issues, invalid others => invalid (issues ++ others)

instance : Applicative Checked where
  pure := valid
  map := map
  seq := seq

def issue (cause : Cause) : Checked α := invalid [{ path := [], cause := cause }]

/-- The issues are those of a field. -/
def under (field : String) : Checked α → Checked α
  | valid a => valid a
  | invalid issues => invalid (issues.map (Issue.under field))

/-- The issues are those of a submitted value. -/
def about (v : Json) : Checked α → Checked α
  | valid a => valid a
  | invalid issues => invalid (issues.map (Issue.about v))

/-- A further check of a value that passed the first one. -/
def andThen (x : Checked α) (f : α → Checked β) : Checked β :=
  match x with
  | valid a => f a
  | invalid issues => invalid issues

@[simp] theorem map_eq (f : α → β) (x : Checked α) : f <$> x = x.map f := rfl

@[simp] theorem seq_eq (f : Checked (α → β)) (x : Checked α) : f <*> x = f.seq fun _ => x := rfl

/-- A combination is valid only when every part is. -/
theorem seq_eq_valid_iff (f : Checked (α → β)) (x : Unit → Checked α) (b : β) :
    f.seq x = valid b ↔ ∃ g a, f = valid g ∧ x () = valid a ∧ g a = b := by
  unfold seq
  split <;> simp_all

theorem map_eq_valid_iff (f : α → β) (x : Checked α) (b : β) :
    x.map f = valid b ↔ ∃ a, x = valid a ∧ f a = b := by
  cases x <;> simp [map]

theorem under_eq_valid_iff (field : String) (x : Checked α) (a : α) :
    x.under field = valid a ↔ x = valid a := by
  cases x <;> simp [under]

theorem about_eq_valid_iff (v : Json) (x : Checked α) (a : α) :
    x.about v = valid a ↔ x = valid a := by
  cases x <;> simp [about]

/-- A value that passes the checks has a property. -/
def Yields (c : Checked α) (P : α → Prop) : Prop := ∀ a, c = valid a → P a

variable {f : Checked (α → β)} {x : Checked α} {P : β → Prop}

theorem Yields.seq {Q : α → Prop} (hx : x.Yields Q) (hf : f.Yields fun g => ∀ a, Q a → P (g a)) :
    (f <*> x).Yields P := by
  intro b h
  obtain ⟨g, a, hg, ha, rfl⟩ := (seq_eq_valid_iff f _ b).mp h
  exact hf g hg a (hx a ha)

/-- A part that the property has nothing to do with. -/
theorem Yields.skip (hf : f.Yields fun g => ∀ a, P (g a)) : (f <*> x).Yields P := by
  intro b h
  obtain ⟨g, a, hg, _, rfl⟩ := (seq_eq_valid_iff f _ b).mp h
  exact hf g hg a

theorem Yields.map {g : α → β} (h : ∀ a, P (g a)) : (g <$> x).Yields P := by
  intro b hb
  obtain ⟨a, _, rfl⟩ := (map_eq_valid_iff g x b).mp hb
  exact h a

end Checked

end DeployRegistry.Form
