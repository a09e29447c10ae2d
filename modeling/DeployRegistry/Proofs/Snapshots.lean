import DeployRegistry.Proofs.Finding

/-!
# Snapshots of a history

A history is asked about environments again and again, while deployments are recorded. It looks the
live deployment of an environment up when it is asked about that environment first, and all its
answers about the environment speak of that deployment, or of none. The main statement is
`Consultation.answered_from_snapshots`.
-/

namespace DeployRegistry

set_option autoImplicit false

/-- What is asked about the live deployment of an environment. -/
inductive Topic
  | recentlyUpdated (ref : String)
  | includesCommit (sha : String)
  deriving DecidableEq

/-- A question to a history about an environment, with the records as they are when it is asked. -/
structure Consultation where
  records : Store
  environment : Environment
  topic : Topic

namespace Consultation

section

variable {ε σ : Type}

/-- The question as the records and the host answer it. -/
def check (q : Consultation) (host : Option (Question → ExceptT ε (StateM σ) Bool)) :
    Asking Recollection ε σ Bool :=
  match q.topic with
  | .recentlyUpdated ref => Recollection.recentlyUpdated q.records q.environment ref
  | .includesCommit sha => Recollection.includesCommit q.records host q.environment sha

/-- The live deployment that a question is answered from. -/
def subject (q : Consultation) (known : Recollection) : Option Deployment :=
  (known.snapshots.live q.records q.environment.id).1

/-- What is remembered once the live deployment was looked up for a question. -/
def recalled (q : Consultation) (known : Recollection) : Recollection :=
  { known with snapshots := (known.snapshots.live q.records q.environment.id).2 }

/-- The reply to a question, what is remembered after it, and what it leaves of the world. What was
looked up stays remembered when the host fails. -/
def pose (q : Consultation) (host : Option (Question → ExceptT ε (StateM σ) Bool))
    (known : Recollection) (world : σ) : Except ε Bool × Recollection × σ :=
  match outcome (q.check host) known world with
  | (.ok (answer, known), world) => (.ok answer, known, world)
  | (.error x, world) => (.error x, q.recalled known, world)

/-- What is remembered, and what is left of the world, after some questions to a new history. -/
def after (host : Option (Question → ExceptT ε (StateM σ) Bool)) (world : σ)
    (past : List Consultation) : Recollection × σ :=
  past.foldl (fun state q => (q.pose host state.1 state.2).2) (Recollection.empty, world)

/-- The reply to a question after some others, and what is left of the world. -/
def reply (host : Option (Question → ExceptT ε (StateM σ) Bool)) (world : σ)
    (past : List Consultation) (q : Consultation) : Except ε Bool × σ :=
  let (answer, _, world) := q.pose host (after host world past).1 (after host world past).2
  (answer, world)

/-- What a question comes to where the given deployment counts as the live one. The world is left
alone, except where the host has to be asked. -/
inductive Answered (host : Option (Question → ExceptT ε (StateM σ) Bool)) (q : Consultation)
    (live : Option Deployment) (world : σ) : Except ε Bool × σ → Prop
  | recent (ref : String) (answer : Bool) (ht : q.topic = .recentlyUpdated ref)
      (ha : answer = true ↔ ∃ d, live = some d ∧ d.ref = ref) :
      Answered host q live world (.ok answer, world)
  | nothing (sha : String) (ht : q.topic = .includesCommit sha) (hl : live = none) :
      Answered host q live world (.ok false, world)
  | deployed (d : Deployment) (ht : q.topic = .includesCommit d.sha) (hl : live = some d) :
      Answered host q live world (.ok true, world)
  | unasked (d : Deployment) (sha : String) (ht : q.topic = .includesCommit sha)
      (hl : live = some d) (hne : d.sha ≠ sha)
      (hno : host = none ∨ q.records.repository? q.environment.project = none) :
      Answered host q live world (.ok false, world)
  | asked (d : Deployment) (sha repository : String) (ht : q.topic = .includesCommit sha)
      (hl : live = some d) (hne : d.sha ≠ sha)
      (hr : q.records.repository? q.environment.project = some repository)
      (ask : Question → ExceptT ε (StateM σ) Bool) (hh : host = some ask) :
      Answered host q live world (((ask ⟨repository, sha, d.sha⟩).run).run world)

variable (host : Option (Question → ExceptT ε (StateM σ) Bool)) (q : Consultation)
  (known : Recollection) (world : σ)

theorem outcome_subject :
    outcome (Recollection.live q.records q.environment.id :
        Asking Recollection ε σ (Option Deployment)) known world =
      (.ok (q.subject known, q.recalled known), world) :=
  outcome_live ..

theorem pose_of_recentlyUpdated {ref : String} (ht : q.topic = .recentlyUpdated ref) :
    q.pose host known world = (.ok (cameFrom (q.subject known) ref), q.recalled known, world) := by
  rw [pose, check, ht]
  rfl

theorem pose_of_known {sha : String} (answer : Bool) (ht : q.topic = .includesCommit sha)
    (hi : q.records.inclusion host.isSome (q.subject known) q.environment sha = .known answer) :
    q.pose host known world = (.ok answer, q.recalled known, world) := by
  rw [pose, check, ht]
  simp only [Recollection.includesCommit, outcome_bind, outcome_subject, hi, outcome_pure]

theorem pose_of_ask {sha : String} {question : Question}
    {ask : Question → ExceptT ε (StateM σ) Bool} (ht : q.topic = .includesCommit sha)
    (hi : q.records.inclusion true (q.subject known) q.environment sha = .ask question) :
    q.pose (some ask) known world =
      ((((ask question).run).run world).1, q.recalled known,
        (((ask question).run).run world).2) := by
  rw [pose, check, ht]
  simp only [Recollection.includesCommit, outcome_bind, outcome_subject, Option.isSome_some, hi,
    outcome_liftM]
  rcases ((ask question).run).run world with ⟨e | b, world'⟩
  · rfl
  · rfl

/-- Whatever a question comes to, it is answered from the live deployment that is remembered, and
only the look-up changes what is remembered. -/
theorem answered_pose :
    ∃ r, q.pose host known world = (r.1, q.recalled known, r.2) ∧
      Answered host q (q.subject known) world r := by
  cases ht : q.topic with
  | recentlyUpdated ref =>
    refine ⟨_, pose_of_recentlyUpdated host q known world ht, .recent ref _ ht ?_⟩
    cases q.subject known <;> simp
  | includesCommit sha =>
    have hknown := fun answer => pose_of_known host q known world answer ht
    cases hl : q.subject known with
    | none =>
      refine ⟨_, hknown false ?_, .nothing sha ht rfl⟩
      rw [hl]
      rfl
    | some d =>
      by_cases hd : d.sha = sha
      · subst hd
        refine ⟨_, hknown true ?_, .deployed d ht rfl⟩
        rw [hl]
        exact q.records.inclusion_self _ d _
      · cases hr : q.records.repository? q.environment.project with
        | none =>
          refine ⟨_, hknown false ?_, .unasked d sha ht rfl hd (Or.inr hr)⟩
          simp [Store.inclusion, hl, hd, hr]
        | some repository =>
          cases host with
          | none =>
            refine ⟨_, hknown false ?_, .unasked d sha ht rfl hd (Or.inl rfl)⟩
            simp [Store.inclusion, hl, hd, hr]
          | some ask =>
            have hi : q.records.inclusion true (q.subject known) q.environment sha =
                .ask ⟨repository, sha, d.sha⟩ := by
              simp [Store.inclusion, hl, hd, hr]
            exact ⟨_, pose_of_ask q known world ht hi,
              .asked d sha repository ht rfl hd hr ask rfl⟩

theorem pose_memory : (q.pose host known world).2.1 = q.recalled known := by
  obtain ⟨r, hr, _⟩ := answered_pose host q known world
  rw [hr]

theorem find?_recalled (environment : String) :
    (q.recalled known).snapshots.find? environment =
      (known.snapshots.find? environment).or
        (if q.environment.id = environment then
          some (q.records.lastSuccess? q.environment.id) else none) :=
  Memo.find?_ask ..

/-- What is remembered is what was live when the environment was asked about first. -/
theorem find?_after (past : List Consultation) (environment : String) :
    (after host world past).1.snapshots.find? environment =
      (past.find? fun q => decide (q.environment.id = environment)).map
        fun first => first.records.lastSuccess? first.environment.id := by
  have hkept := kept_foldl (fun state : Recollection × σ => state.1.snapshots.find? environment)
    (fun state q => (q.pose host state.1 state.2).2)
    (fun first => first.records.lastSuccess? first.environment.id)
    (fun state q => by rw [pose_memory, find?_recalled]) (Recollection.empty, world) past
  exact hkept

variable {host q world}

/-- The look-up for a question gives what was live when its environment was asked about first. -/
theorem subject_after {past : List Consultation} {first : Consultation}
    (hfirst : FirstOf (fun b => b.environment.id = q.environment.id) (past ++ [q]) first) :
    q.subject (after host world past).1 = first.records.lastSuccess? q.environment.id := by
  have hsame : first.environment.id = q.environment.id := by
    obtain ⟨_, _, _, h, _⟩ := hfirst
    exact h
  have hmemory := find?_after host world past q.environment.id
  rw [firstOf_iff, List.find?_append] at hfirst
  rw [subject, Snapshots.live]
  cases hpast : past.find? fun b => decide (b.environment.id = q.environment.id) with
  | some b =>
    obtain rfl : b = first := by simpa [hpast] using hfirst
    rw [hpast, Option.map_some, hsame] at hmemory
    rw [Memo.ask_of_find? hmemory]
  | none =>
    obtain rfl : q = first := by simpa [hpast] using hfirst
    rw [hpast, Option.map_none] at hmemory
    rw [Memo.ask_of_find?_none hmemory]

theorem answered_reply (past : List Consultation) :
    Answered host q (q.subject (after host world past).1) (after host world past).2
      (reply host world past q) := by
  obtain ⟨r, hr, hanswered⟩ :=
    answered_pose host q (after host world past).1 (after host world past).2
  rw [reply, hr]
  exact hanswered

variable {live : Option Deployment} {r : Except ε Bool × σ}

theorem Answered.eq_of_recentlyUpdated {ref : String} (h : Answered host q live world r)
    (ht : q.topic = .recentlyUpdated ref) : r = (.ok (cameFrom live ref), world) := by
  cases h with
  | recent other answer ht' ha =>
    obtain rfl := Topic.recentlyUpdated.inj (ht.symm.trans ht')
    have hanswer : answer = cameFrom live ref := by
      rw [Bool.eq_iff_iff, ha]
      cases live <;> simp
    rw [hanswer]
  | nothing _ ht' | deployed _ ht' | unasked _ _ ht' | asked _ _ _ ht' => simp [ht] at ht'

theorem Answered.eq_of_nothing (h : Answered host q live world r) (hl : live = none) :
    r = (.ok false, world) := by
  cases h with
  | recent ref answer _ ha =>
    have hanswer : answer = false := by simp [← Bool.not_eq_true, ha, hl]
    rw [hanswer]
  | nothing => rfl
  | deployed _ _ hl' | unasked _ _ _ hl' | asked _ _ _ _ hl' => simp [hl] at hl'

theorem Answered.eq_of_own {d : Deployment} (h : Answered host q live world r)
    (ht : q.topic = .includesCommit d.sha) (hl : live = some d) : r = (.ok true, world) := by
  cases h with
  | recent _ _ ht' => simp [ht] at ht'
  | nothing _ _ hl' => simp [hl] at hl'
  | deployed => rfl
  | unasked c sha ht' hl' hne | asked c sha _ ht' hl' hne =>
    obtain rfl := Option.some.inj (hl.symm.trans hl')
    exact absurd (Topic.includesCommit.inj (ht.symm.trans ht')) hne

variable (host world)

/-- What holds of a history that is asked some questions one after the other, where the given
deployments are the live ones of the environments. At each place in the row, any question might be
asked. -/
structure Snapshotted (questions : List Consultation) (live : String → Option Deployment) :
    Prop where
  /-- The deployment of an environment is the live one when the environment is asked about first. -/
  taken : ∀ environment first,
    FirstOf (fun q => q.environment.id = environment) questions first →
      ∀ d, live environment = some d ↔ first.records.IsLive environment d
  /-- All answers speak of it. -/
  told : ∀ past q later topic, questions = past ++ q :: later →
    Answered host { q with topic := topic } (live q.environment.id) (after host world past).2
      (reply host world past { q with topic := topic })
  /-- It came from one ref, or there is none and it came from no ref at all. -/
  oneRef : ∀ past q later, questions = past ++ q :: later →
    (∃ ref, ∀ other, (reply host world past { q with topic := .recentlyUpdated other }).1 =
      .ok (decide (other = ref))) ∨
    ∀ other, (reply host world past { q with topic := .recentlyUpdated other }).1 = .ok false
  /-- It includes its own commit, and nobody is asked about that. -/
  own : ∀ past q later d, questions = past ++ q :: later → live q.environment.id = some d →
    reply host world past { q with topic := .includesCommit d.sha } =
      (.ok true, (after host world past).2)
  /-- Where there is none, the answer to everything is no. -/
  nothing : ∀ past q later topic, questions = past ++ q :: later →
    live q.environment.id = none →
      reply host world past { q with topic := topic } = (.ok false, (after host world past).2)

/-- The deployments that were looked up for some questions. -/
def looked (questions : List Consultation) (environment : String) : Option Deployment :=
  (questions.find? fun q => decide (q.environment.id = environment)).bind
    fun first => first.records.lastSuccess? environment

theorem looked_of_first {questions : List Consultation} {environment : String}
    {first : Consultation}
    (hfirst : FirstOf (fun q => q.environment.id = environment) questions first) :
    looked questions environment = first.records.lastSuccess? environment := by
  rw [looked, (firstOf_iff _ _).mp hfirst, Option.bind_some]

theorem told_of_looked (past : List Consultation) (q : Consultation) (later : List Consultation)
    (topic : Topic) :
    Answered host { q with topic := topic } (looked (past ++ q :: later) q.environment.id)
      (after host world past).2 (reply host world past { q with topic := topic }) := by
  obtain ⟨first, hfirst⟩ :
      ∃ first, FirstOf (fun b => b.environment.id = q.environment.id) (past ++ [q]) first := by
    apply exists_firstOf (List.mem_append_right past List.mem_cons_self)
    rfl
  have hall :
      FirstOf (fun b => b.environment.id = q.environment.id) (past ++ q :: later) first := by
    have hmore := hfirst.append later
    rwa [List.append_assoc, List.singleton_append] at hmore
  have hsubject : Consultation.subject { q with topic := topic } (after host world past).1 =
      looked (past ++ q :: later) q.environment.id :=
    (subject_after hfirst).trans (looked_of_first hall).symm
  rw [← hsubject]
  exact answered_reply past

/-- A history answers all questions about an environment from the deployment that was live there
when the first of them was asked, or from none, whatever is recorded later. -/
theorem answered_from_snapshots {questions : List Consultation}
    (hs : ∀ q ∈ questions, (q.records.deployments.map (·.id)).Nodup) :
    ∃ live, Snapshotted host world questions live := by
  refine ⟨looked questions, ?_, ?_, ?_, ?_, ?_⟩
  · intro environment first hfirst d
    rw [looked_of_first hfirst]
    exact Store.lastSuccess?_eq_some_iff_of_nodup (hs first hfirst.mem) environment d
  · rintro past q later topic rfl
    exact told_of_looked host world past q later topic
  · rintro past q later rfl
    have hrefs := fun other =>
      (told_of_looked host world past q later (.recentlyUpdated other)).eq_of_recentlyUpdated rfl
    cases hl : looked (past ++ q :: later) q.environment.id with
    | none =>
      refine Or.inr fun other => ?_
      rw [hrefs, hl, cameFrom_none]
    | some d =>
      refine Or.inl ⟨d.ref, fun other => ?_⟩
      rw [hrefs, hl, cameFrom_some, beq_eq_decide]
      simp only [eq_comm]
  · rintro past q later d rfl hl
    exact (told_of_looked host world past q later (.includesCommit d.sha)).eq_of_own rfl hl
  · rintro past q later topic rfl hl
    exact (told_of_looked host world past q later topic).eq_of_nothing hl

end

/-- A history is asked where the test environment comes from, -/
def firstConsultation : Consultation where
  records := harbourStore
  environment := ⟨"e1", "p", "test", .available, false⟩
  topic := .recentlyUpdated "main"

def nextSuccess : Deployment := ⟨"d5", "p", "e1", "next", false, "abcdef2", .success, ⟨5⟩⟩

/-- and then whether it includes a commit, which was deployed there with success in between. -/
def nextConsultation : Consultation where
  records := { harbourStore with deployments := harbourStore.deployments ++ [nextSuccess] }
  environment := ⟨"e1", "p", "test", .available, false⟩
  topic := .includesCommit "abcdef2"

theorem answered_from_snapshots_harbour :
    ∃ live, Snapshotted (some harbourHost) () [firstConsultation, nextConsultation] live ∧
      live "e1" = some ⟨"d1", "p", "e1", "main", false, "abcdef0", .success, ⟨1⟩⟩ ∧
      nextConsultation.records.IsLive "e1" nextSuccess := by
  obtain ⟨live, hlive⟩ :
      ∃ live, Snapshotted (some harbourHost) () [firstConsultation, nextConsultation] live :=
    answered_from_snapshots (some harbourHost) () (by decide)
  have hfirst : FirstOf (fun q : Consultation => q.environment.id = "e1")
      [firstConsultation, nextConsultation] firstConsultation :=
    ⟨[], [nextConsultation], rfl, rfl, by simp⟩
  exact ⟨live, hlive, (hlive.taken _ _ hfirst _).mpr ⟨by decide, rfl, rfl, by decide⟩,
    by decide, rfl, rfl, by decide⟩

end Consultation

end DeployRegistry
