import DeployRegistry.Proofs.Writes
import DeployRegistry.Proofs.Recording

/-!
# Integrity of the tables

The tables refer to each other only by ids, and nothing but the checks before a write sees to it
that such an id stands for a record. In a good store it does, texts are within their bounds and every
project has an owner. A write breaks none of this when it takes no key that is there (`Takes`) and
what it writes fits what is there in the end (`Fits`).
-/

namespace DeployRegistry

set_option autoImplicit false

open Form Text

/-- Seven to 64 hexadecimal digits, and no capital letter. -/
structure IsSha (s : String) : Prop where
  least : 7 ≤ s.length
  most : s.length ≤ 64
  digits : ∀ c ∈ s.toList, ('0' ≤ c ∧ c ≤ '9') ∨ ('a' ≤ c ∧ c ≤ 'f')

structure Membership.Fits (m : Membership) (s : Store) : Prop where
  project : ∃ p ∈ s.projects, p.id = m.project
  user : ∃ u ∈ s.users, u.id = m.user

structure Environment.Fits (e : Environment) (s : Store) : Prop where
  project : ∃ p ∈ s.projects, p.id = e.project
  name : IsName e.name

structure Deployment.Fits (d : Deployment) (s : Store) : Prop where
  project : ∃ p ∈ s.projects, p.id = d.project
  environment : ∃ e ∈ s.environments, e.id = d.environment ∧ e.project = d.project
  ref : IsName d.ref
  sha : IsSha d.sha

def Project.Owned (p : Project) (s : Store) : Prop :=
  ∃ m ∈ s.memberships, m.project = p.id ∧ m.role = .owner

/-- The constraints of the tables hold, and every record fits the others. -/
structure Store.Good (s : Store) : Prop extends s.Constrained where
  owned : ∀ p ∈ s.projects, p.Owned s
  membershipsFit : ∀ m ∈ s.memberships, m.Fits s
  environmentsFit : ∀ e ∈ s.environments, e.Fits s
  deploymentsFit : ∀ d ∈ s.deployments, d.Fits s

/-- What is asked of a written record, in the store as it is in the end. -/
def Write.Fits (s : Store) : Write → Prop
  | .project p => p.Owned s
  | .membership m => m.Fits s
  | .environment e => e.Fits s
  | .deployment d => d.Fits s
  | .state _ _ => True

theorem isSha_lowerAscii {s : String} (hleast : 7 ≤ s.length) (hmost : s.length ≤ 64)
    (hdigits : s.toList.all Hex.isDigit = true) : IsSha (lowerAscii s) := by
  refine ⟨?_, ?_, ?_⟩
  · rw [length_lowerAscii]
    exact hleast
  · rw [length_lowerAscii]
    exact hmost
  · intro c hc
    have hdigit : Hex.isDigit c = true := by
      rw [← all_isDigit_lowerAscii] at hdigits
      exact List.all_eq_true.mp hdigits c hc
    have hsmall : isUpperAscii c = false := by
      rw [toList_lowerAscii] at hc
      obtain ⟨a, _, rfl⟩ := List.mem_map.mp hc
      exact isUpperAscii_lowerChar a
    rcases (isDigit_iff c).mp hdigit with h | h | h
    · exact Or.inl h
    · exact Or.inr h
    · simp only [isUpperAscii, Bool.and_eq_false_iff, decide_eq_false_iff_not] at hsmall
      omega

theorem isSha_of_submitted {f : NewDeployment} {ms : Json.Members} (hf : f.Submitted ms) :
    IsSha f.sha := by
  obtain ⟨s, _, hleast, hmost, hdigits, hlower⟩ := hf.sha
  rw [hlower]
  exact isSha_lowerAscii hleast hmost hdigits

namespace Store

variable {s : Store}

theorem Good.homed (hs : s.Good) : s.Homed := fun d hd => (hs.deploymentsFit d hd).environment

theorem good_of_users {users : List User} (hu : (users.map (·.id)).Nodup) :
    ({ Store.empty with users := users } : Store).Good where
  users := hu
  projects := .nil
  memberships := .nil
  environments := .nil
  deployments := .nil
  roles := .nil
  names := .nil
  owned := by
    intro p hp
    cases hp
  membershipsFit := by
    intro m hm
    cases hm
  environmentsFit := by
    intro e he
    cases he
  deploymentsFit := by
    intro d hd
    cases hd

end Store

namespace Registry

variable {r : Registry} {ids : Ids} {now : WallTime} {user : String} {c : Http.Content}
variable {w : Http.Writing} {ws : List Write}

theorem sound_of_good (hs : r.store.Good) (hf : r.Fresh ids) : r.Sound ids :=
  ⟨hs.toConstrained, hs.homed, hf⟩

/-- No write of a request takes a key that is there. -/
theorem Writes.takesAll (hf : r.Fresh ids) (h : r.Writes ids now user c w ws) : r.TakesAll ws := by
  cases h with
  | project hc hsubmitted =>
    refine ⟨?_, takes_membership_of_fresh hf (Nat.le_succ _) rfl ?_, trivial⟩
    · intro q hq
      exact hf.project_ne (Nat.le_refl _) hq
    · -- The project is new, so nobody is a member of it.
      exact membership?_eq_none_of_fresh hf user
  | member hc hsubmitted hproject hinvited howner hnew =>
    exact ⟨takes_membership_of_fresh hf (Nat.le_refl _) rfl hnew, trivial⟩
  | environment hc hsubmitted hopen hnew =>
    exact ⟨takes_environment_of_fresh hf rfl hnew, trivial⟩
  | deployment hc hsubmitted hopen he hproject hname =>
    refine ⟨?_, trivial⟩
    intro d hd
    exact (hf.deployment_ne (Nat.le_refl _) hd).1
  | firstDeployment hc hsubmitted hopen hnew =>
    refine ⟨takes_environment_of_fresh hf rfl hnew, ?_, trivial⟩
    intro d hd
    exact (hf.deployment_ne (Nat.le_succ _) hd).1
  | still hw hopen he hproject hstate => exact trivial
  | moved hw hopen he hproject hne => exact ⟨trivial, trivial⟩

/-! What fitted before the writes still fits after them. -/

theorem fits_membership {m : Membership} (hm : m.Fits r.store) (ws : List Write) :
    m.Fits (r.writeAll ws).store := by
  obtain ⟨p, hp, hpid⟩ := hm.project
  refine ⟨⟨p, mem_projects_writeAll_iff.mpr (Or.inl hp), hpid⟩, ?_⟩
  rw [(r.grown_writeAll ws).users]
  exact hm.user

theorem fits_deployment {d : Deployment} (hd : d.Fits r.store) (ws : List Write) :
    d.Fits (r.writeAll ws).store := by
  obtain ⟨p, hp, hpid⟩ := hd.project
  obtain ⟨e, he, heid, heproject⟩ := hd.environment
  obtain ⟨f, hf, hfe⟩ := exists_environment_writeAll he ws
  exact ⟨⟨p, mem_projects_writeAll_iff.mpr (Or.inl hp), hpid⟩,
    ⟨f, hf, hfe.id.trans heid, hfe.project.trans heproject⟩, hd.ref, hd.sha⟩

/-- Writes that take no key twice, and whose records fit in the end, leave a good store good. -/
theorem good_writeAll (hs : r.store.Good) (htakes : r.TakesAll ws)
    (hfits : ∀ x ∈ ws, x.Fits (r.writeAll ws).store) : (r.writeAll ws).store.Good := by
  refine { constrained_writeAll hs.toConstrained htakes with
    owned := ?_, membershipsFit := ?_, environmentsFit := ?_, deploymentsFit := ?_ }
  · intro p hp
    rcases mem_projects_writeAll_iff.mp hp with hp | hp
    · obtain ⟨m, hm, howner⟩ := hs.owned p hp
      exact ⟨m, mem_memberships_writeAll_iff.mpr (Or.inl hm), howner⟩
    · exact hfits _ hp
  · intro m hm
    rcases mem_memberships_writeAll_iff.mp hm with hm | hm
    · exact fits_membership (hs.membershipsFit m hm) ws
    · exact hfits _ hm
  · intro f hf
    obtain ⟨e, hfe, he⟩ := environment_of_writeAll hf
    have hfits' : e.Fits (r.writeAll ws).store := by
      rcases he with he | he
      · obtain ⟨⟨p, hp, hpid⟩, hname⟩ := hs.environmentsFit e he
        exact ⟨⟨p, mem_projects_writeAll_iff.mpr (Or.inl hp), hpid⟩, hname⟩
      · exact hfits _ he
    refine ⟨?_, ?_⟩
    · rw [hfe.project]
      exact hfits'.project
    · rw [hfe.name]
      exact hfits'.name
  · intro d hd
    rcases mem_deployments_writeAll_iff.mp hd with hd | hd
    · exact fits_deployment (hs.deploymentsFit d hd) ws
    · exact hfits _ hd

/-- Every record that a request writes fits in the end. -/
theorem Writes.fits (hu : ∃ u ∈ r.store.users, u.id = user) (h : r.Writes ids now user c w ws) :
    ∀ x ∈ ws, x.Fits (r.writeAll ws).store := by
  cases h with
  | @project ms f hc hf =>
    let p : Project := ⟨ids r.issued, f.name, f.repository, f.visibility, false⟩
    let m : Membership := ⟨ids (r.issued + 1), user, ids r.issued, .owner⟩
    have hp : p ∈ (r.writeAll [.project p, .membership m]).store.projects :=
      mem_projects_writeAll_iff.mpr (Or.inr List.mem_cons_self)
    have hm : m ∈ (r.writeAll [.project p, .membership m]).store.memberships :=
      List.mem_append_right _ List.mem_cons_self
    rintro x (_ | ⟨_, _ | ⟨_, hx⟩⟩)
    · exact ⟨m, hm, rfl, rfl⟩
    · exact ⟨⟨p, hp, rfl⟩, hu⟩
    · cases hx
  | member hc hf hproject hinvited howner hnew =>
    rintro x (_ | ⟨_, hx⟩)
    · exact ⟨hproject, hinvited⟩
    · cases hx
  | environment hc hf hopen hnew =>
    rintro x (_ | ⟨_, hx⟩)
    · exact ⟨hopen.there, hf.name.toIsName⟩
    · cases hx
  | deployment hc hf hopen he hproject hname =>
    rintro x (_ | ⟨_, hx⟩)
    · exact ⟨hopen.there, ⟨_, he, rfl, hproject⟩, hf.ref.toIsName, isSha_of_submitted hf⟩
    · cases hx
  | @firstDeployment ms f project hc hf hopen hnew =>
    rintro x (_ | ⟨_, _ | ⟨_, hx⟩⟩)
    · exact ⟨hopen.there, hf.environment.toIsName⟩
    · refine ⟨hopen.there, ⟨_, List.mem_append_right _ List.mem_cons_self, rfl, rfl⟩,
        hf.ref.toIsName, isSha_of_submitted hf⟩
    · cases hx
  | still hw hopen he hproject hstate =>
    intro x hx
    cases hx
  | moved hw hopen he hproject hne =>
    rintro x (_ | ⟨_, hx⟩)
    · exact trivial
    · cases hx

theorem Writes.good (hs : r.store.Good) (hf : r.Fresh ids) (hu : ∃ u ∈ r.store.users, u.id = user)
    (h : r.Writes ids now user c w ws) : (r.writeAll ws).store.Good :=
  good_writeAll hs (h.takesAll hf) (h.fits hu)

end Registry

namespace Http.Site

variable {σ : Type} {site : Site σ} {sv : Serving σ}

theorem mem_of_holder {now : WallTime} {signer : Token.Signer} {s : Store} {token : String} {u : User}
    (h : Token.holder signer now s token = .ok u) : u ∈ s.users := by
  unfold Token.holder at h
  cases hv : Token.verify signer now "access" token with
  | error refusal =>
    rw [hv] at h
    cases h
  | ok claims =>
    rw [hv] at h
    dsimp only [bind, Except.bind] at h
    split at h
    · split at h
      · cases h
      · next id hid hfound =>
        cases h
        exact List.mem_of_find?_eq_some hfound
      · cases h
    · cases h

theorem mem_of_caller? {r : Request} {u : User} (h : site.caller? sv r = .ok (some u)) :
    u ∈ sv.registry.store.users := by
  unfold caller? Token.holder? at h
  cases hb : bearer? r with
  | none =>
    rw [hb] at h
    cases h
  | some token =>
    rw [hb] at h
    dsimp only at h
    cases hu : Token.holder site.signer sv.now sv.registry.store token with
    | error refusal =>
      rw [hu] at h
      cases h
    | ok v =>
      rw [hu] at h
      cases h
      exact mem_of_holder hu

theorem serve_good (hs : sv.registry.store.Good) (hf : sv.registry.Fresh site.ids) (v : Visit) :
    (site.serve sv v).2.registry.store.Good := by
  rcases site.respond_wrote_cases (sv.upon v) v.request with hsame | ⟨w, user, c, ws, hwrote⟩
  · rw [serve, hsame]
    exact hs
  · rw [serve, hwrote.after]
    exact hwrote.writes.good hs hf ⟨user, mem_of_caller? hwrote.caller, rfl⟩

theorem good_run (hs : sv.registry.store.Good) (hf : sv.registry.Fresh site.ids)
    (vs : List Visit) : (site.run sv vs).2.registry.store.Good := by
  induction vs generalizing sv with
  | nil => exact hs
  | cons v rest ih =>
    have hsound := serve_sound (Registry.sound_of_good hs hf) v
    exact ih (serve_good hs hf v) hsound.fresh

/-- The store with users and nothing else is good. Every run of requests that starts with a good
store ends with one, and whatever is requested next, no write of it fails on a key that is there. -/
theorem run_good (hs : sv.registry.store.Good) (hf : sv.registry.Fresh site.ids)
    (vs : List Visit) :
    (∀ users : List User, (users.map (·.id)).Nodup →
      ({ Store.empty with users := users } : Store).Good) ∧
    (site.run sv vs).2.registry.store.Good ∧
    ∀ v, (site.serve (site.run sv vs).2 v).2.registry = (site.run sv vs).2.registry ∨
      ∃ w user c ws, site.Wrote ((site.run sv vs).2.upon v) v.request w user c ws ∧
        (site.run sv vs).2.registry.TakesAll ws := by
  refine ⟨fun users => Store.good_of_users, good_run hs hf vs, ?_⟩
  intro v
  have hsound := run_sound (Registry.sound_of_good hs hf) vs
  rcases site.respond_wrote_cases ((site.run sv vs).2.upon v) v.request with
    hsame | ⟨w, user, c, ws, hwrote⟩
  · exact Or.inl hsame
  · exact Or.inr ⟨w, user, c, ws, hwrote, hwrote.writes.takesAll hsound.fresh⟩

theorem run_good_harbour :
    (∀ users : List User, (users.map (·.id)).Nodup →
      ({ Store.empty with users := users } : Store).Good) ∧
    (plainSite.run anaServing [projectVisit, deploymentVisit]).2.registry.store.Good ∧
    ∀ v, (plainSite.serve (plainSite.run anaServing [projectVisit, deploymentVisit]).2
        v).2.registry = (plainSite.run anaServing [projectVisit, deploymentVisit]).2.registry ∨
      ∃ w user c ws, plainSite.Wrote
          ((plainSite.run anaServing [projectVisit, deploymentVisit]).2.upon v) v.request w user
            c ws ∧
        (plainSite.run anaServing [projectVisit, deploymentVisit]).2.registry.TakesAll ws := by
  have husers : ([ana].map (·.id)).Nodup := by decide
  have hsound : anaServing.registry.Sound plainSite.ids :=
    sound_of_users plainIds_injective husers rfl
  exact run_good (Store.good_of_users husers) hsound.fresh [projectVisit, deploymentVisit]

end Http.Site

end DeployRegistry
