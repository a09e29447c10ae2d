import DeployRegistry.Proofs.Constraints

/-!
# Which projects a caller sees

A caller sees the projects that are open and those of which the caller is a member. Whatever the
registry shows of a project it shows to the callers who see it: the check of a project and that of
each of its environments come to the same.
-/

namespace DeployRegistry

set_option autoImplicit false

namespace Store

/-- A caller sees a project that is open or has the caller among its members. -/
def Shows (s : Store) (caller : Option String) (project : String) : Prop :=
  ∃ p ∈ s.projects, p.id = project ∧ (p.visibility = .everyone ∨
    ∃ user, caller = some user ∧ ∃ m ∈ s.memberships, m.user = user ∧ m.project = project)

theorem Shows.of_none {s : Store} {project : String} (h : s.Shows none project)
    (caller : Option String) : s.Shows caller project := by
  obtain ⟨p, hp, hid, hv | ⟨user, hu, _⟩⟩ := h
  · exact ⟨p, hp, hid, Or.inl hv⟩
  · cases hu

theorem isSome_callerRole?_iff (s : Store) (caller : Option String) (project : String) :
    (s.callerRole? caller project).isSome = true ↔
      ∃ user, caller = some user ∧ ∃ m ∈ s.memberships, m.user = user ∧ m.project = project := by
  cases caller with
  | none => simp
  | some user =>
    rw [callerRole?_some, isSome_role?_iff]
    constructor
    · exact fun h => ⟨user, rfl, h⟩
    · rintro ⟨_, hu, h⟩
      obtain rfl := Option.some.inj hu
      exact h

variable {s : Store}

theorem Keyed.shows_iff (hs : s.Keyed) {p : Project} (hp : p ∈ s.projects)
    (caller : Option String) :
    s.Shows caller p.id ↔ p.isOpen = true ∨ (s.callerRole? caller p.id).isSome = true := by
  rw [isSome_callerRole?_iff, Project.isOpen, beq_iff_eq]
  constructor
  · rintro ⟨q, hq, hid, h⟩
    obtain rfl := eq_of_key_eq hs.projects hq hp hid
    exact h
  · exact fun h => ⟨p, hp, rfl, h⟩

/-- The registry hands out a project exactly to those who see it. -/
theorem Keyed.readable_eq_ok_iff_shows (hs : s.Keyed) (caller : Option String)
    (project : String) (p : Project) :
    s.readable caller project = .ok p ↔
      p ∈ s.projects ∧ p.id = project ∧ s.Shows caller project := by
  rw [readable_eq_ok_iff, hs.project?_eq_some_iff]
  constructor
  · rintro ⟨⟨hp, rfl⟩, h⟩
    exact ⟨hp, rfl, (hs.shows_iff hp caller).mpr h⟩
  · rintro ⟨hp, rfl, h⟩
    exact ⟨⟨hp, rfl⟩, (hs.shows_iff hp caller).mp h⟩

theorem readable_eq_ok_or_error (s : Store) (caller : Option String) (project : String) :
    (∃ p, s.readable caller project = .ok p) ∨ s.readable caller project = .error .noProject := by
  rw [readable]
  split
  · exact Or.inr rfl
  · split
    · exact Or.inl ⟨_, rfl⟩
    · split
      · exact Or.inl ⟨_, rfl⟩
      · exact Or.inr rfl

theorem readable_eq_ok {s : Store} {caller : Option String} {project : String} {p : Project}
    (h : s.readable caller project = .ok p) : p ∈ s.projects ∧ p.id = project := by
  have hp := ((s.readable_eq_ok_iff caller project p).mp h).1
  exact ⟨project?_mem hp, project?_id hp⟩

/-- Who reads a project reads each of its environments. -/
theorem allowed_of_readable {caller : Option String} {project : String} {p : Project}
    (h : s.readable caller project = .ok p) {e : Environment} (he : e.project = project) :
    s.allowed caller .readEnvironment (.environment e) = true := by
  obtain ⟨hfound, hread⟩ := (s.readable_eq_ok_iff caller project p).mp h
  have hproject : s.projectOf? (.environment e) = some p := by
    rw [projectOf?, he]
    exact hfound
  simpa only [allowed, hproject, Action.permitted, Bool.or_eq_true] using hread

theorem Keyed.readable_of_shows (hs : s.Keyed) {caller : Option String} {project : String}
    (h : s.Shows caller project) : ∃ p, s.readable caller project = .ok p := by
  obtain ⟨p, hp, hid, hv⟩ := h
  exact ⟨p, (hs.readable_eq_ok_iff_shows caller project p).mpr ⟨hp, hid, p, hp, hid, hv⟩⟩

theorem Keyed.readable_of_not_shows (hs : s.Keyed) {caller : Option String} {project : String}
    (h : ¬ s.Shows caller project) : s.readable caller project = .error .noProject := by
  rcases s.readable_eq_ok_or_error caller project with ⟨p, hp⟩ | he
  · exact absurd ((hs.readable_eq_ok_iff_shows caller project p).mp hp).2.2 h
  · exact he

theorem Keyed.allowed_read_environment_iff (hs : s.Keyed) {p : Project} (hp : p ∈ s.projects)
    {e : Environment} (he : e.project = p.id) (caller : Option String) :
    s.allowed caller .readEnvironment (.environment e) = true ↔ s.Shows caller p.id := by
  have hfound : s.project? e.project = some p := (hs.project?_eq_some_iff _ _).mpr ⟨hp, he.symm⟩
  rw [hs.shows_iff hp caller]
  simp [allowed, projectOf?, hfound, Action.permitted]

end Store

end DeployRegistry
