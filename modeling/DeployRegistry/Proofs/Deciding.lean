import DeployRegistry.Proofs.Remembering

/-!
# The reply that decides

A request is made again while its replies are transient, but only so often. So the first reply that
is not transient decides on the answer, or the last one that is waited for. The main statements are
`attemptFrom_replies`, on the attempts, and `Client.ask_decided`, on a question that the cache has no
live answer to.
-/

namespace DeployRegistry

set_option autoImplicit false

open Number

/-- What the host sends when one request is made again and again; the first reply has the number
zero. -/
def replies {σ : Type} (send : HostRequest → StateM σ Delivery) (r : HostRequest) :
    σ → Nat → Delivery
  | host, 0 => ((send r).run host).1
  | host, n + 1 => replies send r ((send r).run host).2 n

namespace Delivery

/-- Whether it is worth another attempt. -/
def isTransient : Delivery → Bool
  | .reply status _ => isTransientStatus status
  | .fault f _ => f.isTransient

/-- The answer to a question when this reply decides. -/
def answer : Delivery → Except Unanswered Bool
  | .reply status body =>
    if status = 404 then .ok false
    else if isSuccess status = true then Client.readReply body
    else .error (.refused status)
  | .fault f message => .error (if f.isExchange then .unreachable message else .badAddress message)

/-- The answer that is stored when this reply decides. -/
def kept? : Delivery → Option Bool
  | .reply status body =>
    if status = 404 then none else (answer (.reply status body)).toOption
  | .fault _ _ => none

end Delivery

/-- Of so many replies, the one with number `k` is the first that is not transient, or else the
last. -/
structure Decides (reply : Nat → Delivery) (most k : Nat) : Prop where
  lt : k < most
  before : ∀ j < k, (reply j).isTransient = true
  stops : k + 1 < most → (reply k).isTransient = false

section

variable {a : Address}

theorem not_isTransientStatus {status : Nat} (h : status = 404 ∨ isSuccess status = true) :
    isTransientStatus status = false := by
  rw [← Bool.not_eq_true]
  intro htransient
  have hstatus := (isTransient_status_iff status).mp htransient
  simp only [isSuccess, Bool.and_eq_true, decide_eq_true_eq] at h
  omega

/-- A reply from a server is worth another attempt if what comes of it is. -/
theorem isTransient_of_sift_error (hplaced : a.isPlaced = true) {d : Delivery} {mishap : Mishap}
    (h : Client.sift a d = .error mishap) : mishap.isTransient = d.isTransient := by
  cases d with
  | fault f message =>
    cases h
    rfl
  | reply status body =>
    rw [Client.sift, if_neg (by simp [hplaced])] at h
    split at h
    · cases h
    · cases h
      rfl

theorem isTransient_of_sift_ok {d : Delivery} {reply : Nat × Body}
    (h : Client.sift a d = .ok reply) : d.isTransient = false := by
  obtain ⟨status, body⟩ := reply
  obtain ⟨rfl, _, hstatus⟩ := Client.sift_eq_ok h
  exact not_isTransientStatus hstatus

end

section

variable {σ : Type} (send : HostRequest → StateM σ Delivery)

/-- A transient reply puts off the decision. -/
theorem Decides.succ {r : HostRequest} {host : σ} {most k : Nat}
    (h : Decides (replies send r ((send r).run host).2) most k)
    (hfirst : (replies send r host 0).isTransient = true) :
    Decides (replies send r host) (most + 1) (k + 1) where
  lt := Nat.succ_lt_succ h.lt
  before := by
    intro j hj
    cases j with
    | zero => exact hfirst
    | succ j => exact h.before j (Nat.lt_of_succ_lt_succ hj)
  stops := fun hmore => h.stops (Nat.lt_of_succ_lt_succ hmore)

/-- The attempts of a request go up to the reply that decides, with a wait behind every other. -/
theorem attemptFrom_replies (p : RetryPolicy) (r : HostRequest) {a : Address}
    (hplaced : a.isPlaced = true) (left : Nat) :
    ∀ (number : Nat) (host : σ) (log : List Exchange), ∃ k host',
      Decides (replies send r host) (left + 1) k ∧
      (p.attemptFrom Mishap.isTransient
          (do return Client.sift a (← noting send r)) left number).run (host, log) =
        (⟨Client.sift a (replies send r host k),
            (List.range k).map fun j => p.wait (number + j)⟩,
          (host', log ++ (List.range (k + 1)).map fun j => ⟨r, replies send r host j⟩)) := by
  induction left with
  | zero =>
    intro number host log
    exact ⟨0, ((send r).run host).2,
      ⟨Nat.one_pos, fun j hj => absurd hj (Nat.not_lt_zero j), fun h => absurd h (by omega)⟩, rfl⟩
  | succ left ih =>
    intro number host log
    have hnoted : (do return Client.sift a (← noting send r) : StateM (σ × _) _).run (host, log) =
        (Client.sift a (replies send r host 0),
          (((send r).run host).2, log ++ [⟨r, replies send r host 0⟩])) := rfl
    have hdecides : (replies send r host 0).isTransient = false →
        Decides (replies send r host) (left + 1 + 1) 0 := fun hlast =>
      ⟨Nat.succ_pos _, fun j hj => absurd hj (Nat.not_lt_zero j), fun _ => hlast⟩
    simp only [RetryPolicy.run_attemptFrom_succ, hnoted]
    cases hs : Client.sift a (replies send r host 0) with
    | ok reply =>
      refine ⟨0, ((send r).run host).2, hdecides (isTransient_of_sift_ok hs), ?_⟩
      rw [hs]
      rfl
    | error mishap =>
      have hsame := isTransient_of_sift_error hplaced hs
      cases ht : mishap.isTransient with
      | false =>
        refine ⟨0, ((send r).run host).2, hdecides (hsame.symm.trans ht), ?_⟩
        rw [hs]
        simp [ht]
      | true =>
        obtain ⟨k, host', hk, hrest⟩ := ih (number + 1) ((send r).run host).2
          (log ++ [⟨r, replies send r host 0⟩])
        have hwaits : p.wait number :: ((List.range k).map fun j => p.wait (number + 1 + j)) =
            (List.range (k + 1)).map fun j => p.wait (number + j) := by
          simp only [List.range_succ_eq_map, List.map_cons, List.map_map, Function.comp_def,
            Nat.add_zero, Nat.add_assoc, Nat.one_add]
        have hlog : [⟨r, replies send r host 0⟩] ++
            ((List.range (k + 1)).map fun j =>
              Exchange.mk r (replies send r ((send r).run host).2 j)) =
            (List.range (k + 1 + 1)).map fun j => ⟨r, replies send r host j⟩ := by
          have hrange : List.range (k + 1 + 1) = 0 :: (List.range (k + 1)).map Nat.succ :=
            List.range_succ_eq_map
          rw [hrange, List.map_cons, List.map_map]
          rfl
        refine ⟨k + 1, host', hk.succ send (hsame.symm.trans ht), ?_⟩
        simp only [ht, if_true, hrest, hwaits, List.append_assoc, hlog]
        rfl

end

namespace Client

variable {c : Client} {a : Address}

/-- What comes of a reply, where it is a server that replies. -/
theorem conclude_fst (hplaced : a.isPlaced = true) (c : Client) (now stored : Binary64)
    (q : Question) (d : Delivery) : (c.conclude now stored q (sift a d)).1 = d.answer := by
  cases d with
  | fault f message => rfl
  | reply status body =>
    rw [sift, if_neg (by simp [hplaced]), Delivery.answer]
    by_cases h404 : status = 404
    · rw [if_pos (Or.inl h404), if_pos h404, conclude, if_pos h404]
    · rw [if_neg h404]
      by_cases hsuccess : isSuccess status = true
      · rw [if_pos (Or.inr hsuccess), if_pos hsuccess, conclude, if_neg h404]
        cases readReply body <;> rfl
      · rw [if_neg (by simp [h404, hsuccess]), if_neg hsuccess]
        rfl

/-- What is stored of a reply, where it is a server that replies. -/
theorem conclude_snd (hplaced : a.isPlaced = true) (c : Client) (now stored : Binary64)
    (q : Question) (d : Delivery) :
    (c.conclude now stored q (sift a d)).2 = d.kept?.elim c (c.keep now stored q) := by
  cases d with
  | fault f message => rfl
  | reply status body =>
    rw [sift, if_neg (by simp [hplaced]), Delivery.kept?, Delivery.answer]
    by_cases h404 : status = 404
    · rw [if_pos (Or.inl h404), if_pos h404, conclude, if_pos h404]
      rfl
    · rw [if_neg h404, if_neg h404]
      by_cases hsuccess : isSuccess status = true
      · rw [if_pos (Or.inr hsuccess), if_pos hsuccess, conclude, if_neg h404]
        cases readReply body <;> rfl
      · rw [if_neg (by simp [h404, hsuccess]), if_neg hsuccess]
        rfl

/-- What a question comes to when a reply decides on it. -/
structure Concludes (c : Client) (i : Inquiry) (d : Delivery) (asked : Asked) : Prop where
  alone : asked.answer = d.answer
  unknown : ∀ body, d = .reply 404 body → asked.answer = .ok false
  worded : ∀ status body ms word, d = .reply status body → isSuccess status = true →
    Json.readBytes body.bytes = .ok (.obj ms) →
    Json.Members.member? ms "status" = some (.str word) →
    asked.answer = .ok (decide (word = "identical" ∨ word = "ahead"))
  wordless : ∀ status body ms, d = .reply status body → isSuccess status = true →
    Json.readBytes body.bytes = .ok (.obj ms) →
    Json.Members.member? ms "status" = none → asked.answer = .ok false
  refused : ∀ status body, d = .reply status body → status ≠ 404 → isSuccess status = false →
    asked.answer = .error (.refused status)
  unreachable : ∀ f message, d = .fault f message → f.isExchange = true →
    asked.answer = .error (.unreachable message)
  stored : ∀ status body answer, d = .reply status body → status ≠ 404 →
    asked.answer = .ok answer → asked.client.cache.entries.getLast? =
      some ⟨i.question, answer, i.stored.add c.cache.lifetime⟩
  unstored : (∃ body, d = .reply 404 body) ∨ (∃ reason, asked.answer = .error reason) →
    asked.client.cache.entries = c.cache.others i.question

/-- The client after a question was not found in the cache. -/
def missing (c : Client) (q : Question) : Client :=
  { c with cache := { c.cache with
      entries := c.cache.others q, misses := c.cache.misses + 1 } }

theorem getLast?_keep (c : Client) (now stored : Binary64) (q : Question) (answer : Bool) :
    (c.keep now stored q answer).cache.entries.getLast? =
      some ⟨q, answer, stored.add c.cache.lifetime⟩ := by
  rw [keep, Cache.getLast?_store]
  split <;> rfl

theorem ne_notFound_of_isSuccess {status : Nat} (h : isSuccess status = true) : status ≠ 404 := by
  rintro rfl
  cases h

theorem answer_of_isSuccess {status : Nat} (h : isSuccess status = true) (body : Body) :
    (Delivery.reply status body).answer = readReply body := by
  rw [Delivery.answer, if_neg (ne_notFound_of_isSuccess h), if_pos h]

/-- Without an answer nothing is stored. -/
theorem kept?_of_error {d : Delivery} {reason : Unanswered} (h : d.answer = .error reason) :
    d.kept? = none := by
  cases d with
  | fault f message => rfl
  | reply status body =>
    rw [Delivery.kept?, h]
    exact ite_self none

theorem concludes_of_decided {i : Inquiry} (hplaced : a.isPlaced = true) (d : Delivery)
    (waits : List Binary64) :
    c.Concludes i d
      ⟨((c.missing i.question).conclude i.replied i.stored i.question (sift a d)).1, waits,
        ((c.missing i.question).conclude i.replied i.stored i.question (sift a d)).2⟩ := by
  have hanswer := conclude_fst hplaced (c.missing i.question) i.replied i.stored i.question d
  have hclient := conclude_snd hplaced (c.missing i.question) i.replied i.stored i.question d
  constructor
  case alone => exact hanswer
  case unknown =>
    rintro body rfl
    exact hanswer
  case worded =>
    rintro status body ms word rfl hsuccess hread hword
    simp only [hanswer, answer_of_isSuccess hsuccess, readReply, hread, hword, isReachable,
      Bool.decide_or, beq_eq_decide]
  case wordless =>
    rintro status body ms rfl hsuccess hread hword
    simp only [hanswer, answer_of_isSuccess hsuccess, readReply, hread, hword]
  case refused =>
    rintro status body rfl h404 hsuccess
    simp [hanswer, Delivery.answer, h404, hsuccess]
  case unreachable =>
    rintro f message rfl hexchange
    simp only [hanswer, Delivery.answer, hexchange, if_true]
  case stored =>
    rintro status body answer rfl h404 hok
    have hsaid : (Delivery.reply status body).answer = .ok answer := hanswer.symm.trans hok
    have hkept : (Delivery.reply status body).kept? = some answer := by
      rw [Delivery.kept?, if_neg h404, hsaid]
      rfl
    rw [hclient, hkept]
    exact getLast?_keep _ _ _ _ _
  case unstored =>
    intro hnothing
    have hkept : d.kept? = none := by
      rcases hnothing with ⟨body, rfl⟩ | ⟨reason, hreason⟩
      · rfl
      · exact kept?_of_error (hanswer.symm.trans hreason)
    rw [hclient, hkept]
    rfl

/-- A question without a live answer in the cache goes to the host, or fails before. -/
theorem ask_of_stale {m : Type → Type} [Monad m] {i : Inquiry}
    (hne : i.question.ancestor ≠ i.question.descendant)
    (hstale : ∀ e ∈ c.cache.entry? i.question, e.isLive i.asked = false)
    (send : HostRequest → m Delivery) :
    c.ask i.asked i.question send i.replied i.stored =
      (c.missing i.question).askHost i.replied i.stored i.question send := by
  rw [ask, if_neg hne, Cache.lookup_of_not_isLive hstale]
  rfl

section

variable {σ : Type} (send : HostRequest → StateM σ Delivery) (host : σ) {i : Inquiry}

/-- A request to a server is made up to the reply that decides. -/
theorem ask_of_placed (hne : i.question.ancestor ≠ i.question.descendant)
    (hstale : ∀ e ∈ c.cache.entry? i.question, e.isLive i.asked = false)
    (hdestination : c.destination i.question = .ok a) (hplaced : a.isPlaced = true) :
    ∃ k asked host', Decides (replies send (c.request a) host) c.retry.attempts k ∧
      (c.ask i.asked i.question (noting send) i.replied i.stored).run (host, []) =
        (asked, (host', (List.range (k + 1)).map fun j =>
          ⟨c.request a, replies send (c.request a) host j⟩)) ∧
      asked.waits.length = k ∧
      c.Concludes i (replies send (c.request a) host k) asked := by
  have hmissing : (c.missing i.question).destination i.question = .ok a := hdestination
  have hmost : c.retry.attempts - 1 + 1 = c.retry.attempts :=
    Nat.sub_add_cancel c.retry.attempts_pos
  obtain ⟨k, host', hdecides, hrun⟩ := attemptFrom_replies send c.retry (c.request a)
    hplaced (c.retry.attempts - 1) 1 host []
  rw [hmost] at hdecides
  obtain ⟨waits, hwaits⟩ : ∃ waits, waits = (List.range k).map fun j => c.retry.wait (1 + j) :=
    ⟨_, rfl⟩
  rw [← hwaits] at hrun
  refine ⟨k, ⟨_, waits, _⟩, host', hdecides, ?_, ?_, concludes_of_decided hplaced _ waits⟩
  · rw [ask_of_stale hne hstale]
    exact run_askHost hmissing hrun
  · rw [hwaits, List.length_map, List.length_range]

/-- An address without a server brings no answer, whatever comes of the requests. -/
theorem ask_of_not_isPlaced (hne : i.question.ancestor ≠ i.question.descendant)
    (hstale : ∀ e ∈ c.cache.entry? i.question, e.isLive i.asked = false)
    (hdestination : c.destination i.question = .ok a) (hplaced : a.isPlaced = false) :
    ∃ reason asked host' log,
      (c.ask i.asked i.question (noting send) i.replied i.stored).run (host, []) =
        (asked, (host', log)) ∧
      asked.answer = .error reason ∧
      asked.client.cache.entries = c.cache.others i.question := by
  have hmissing : (c.missing i.question).destination i.question = .ok a := hdestination
  obtain ⟨before, last, waits, host', -, hlogged⟩ :=
    attemptFrom_noting send c.retry (c.request a) a (c.retry.attempts - 1) 1 host
  obtain ⟨mishap, hmishap⟩ : ∃ mishap, sift a last = .error mishap := by
    cases last with
    | reply status body => exact ⟨_, by rw [sift, if_pos hplaced]⟩
    | fault f message => exact ⟨_, rfl⟩
  refine ⟨unanswered mishap, ⟨.error (unanswered mishap), waits, c.missing i.question⟩, host',
    [] ++ (before ++ [last]).map (Exchange.mk (c.request a)), ?_, rfl, rfl⟩
  rw [ask_of_stale hne hstale, run_askHost hmissing (hlogged []), hmishap]
  rfl

theorem ask_of_unwritten (hne : i.question.ancestor ≠ i.question.descendant)
    (hstale : ∀ e ∈ c.cache.entry? i.question, e.isLive i.asked = false)
    {reason : Unanswered} (hdestination : c.destination i.question = .error reason) :
    (c.ask i.asked i.question (noting send) i.replied i.stored).run (host, []) =
      (⟨.error reason, [], c.missing i.question⟩, (host, [])) := by
  have hmissing : (c.missing i.question).destination i.question = .error reason := hdestination
  rw [ask_of_stale hne hstale, askHost_of_error hmissing]
  rfl

/-- A question that the cache has no live answer to, on a client that is not closed. If a request
for it can be written that names a server, the first reply that is not transient decides, or the
last one: so many requests are made, all of them the same, with a wait between each and the next.
If the request names no server, there is no answer whatever comes of it; if none can be written,
none is made. Then only an expired answer to the question goes. -/
theorem ask_decided (hopen : c.connection ≠ .shared true)
    (hne : i.question.ancestor ≠ i.question.descendant)
    (hstale : ∀ e ∈ c.cache.entry? i.question, e.isLive i.asked = false) :
    (∀ address, Address.ofText (c.addressText i.question) = .ok address →
      c.headerFault? address = none →
      (address.isPlaced = true →
        ∃ k asked host', Decides (replies send (c.request address) host) c.retry.attempts k ∧
          (c.ask i.asked i.question (noting send) i.replied i.stored).run (host, []) =
            (asked, (host', (List.range (k + 1)).map fun j =>
              ⟨c.request address, replies send (c.request address) host j⟩)) ∧
          asked.waits.length = k ∧
          c.Concludes i (replies send (c.request address) host k) asked) ∧
      (address.isPlaced = false → ∃ reason asked host' log,
        (c.ask i.asked i.question (noting send) i.replied i.stored).run (host, []) =
          (asked, (host', log)) ∧
        asked.answer = .error reason ∧
        asked.client.cache.entries = c.cache.others i.question)) ∧
    (¬ c.CanWrite i.question → ∃ reason asked,
      (c.ask i.asked i.question (noting send) i.replied i.stored).run (host, []) =
        (asked, (host, [])) ∧
      asked.answer = .error reason ∧ asked.waits = [] ∧
      asked.client.cache.entries = c.cache.others i.question) := by
  constructor
  · intro address haddress hheaders
    have hdestination : c.destination i.question = .ok address := by
      rw [destination, haddress]
      simp only [hheaders, if_neg hopen]
    exact ⟨ask_of_placed send host hne hstale hdestination,
      ask_of_not_isPlaced send host hne hstale hdestination⟩
  · intro hnot
    cases hdestination : c.destination i.question with
    | ok address => exact absurd (canWrite_of_destination hdestination) hnot
    | error reason =>
      exact ⟨reason, _, ask_of_unwritten send host hne hstale hdestination, rfl, rfl, rfl⟩

end

/-- Up to three attempts, without a pause. -/
def patientClient : Client :=
  { harbourClient with retry := ⟨3, by decide, .finite 0, .finite 0, .finite 0⟩ }

/-- The host fails before it answers. -/
def lateReplies : List Delivery := .reply 503 "" :: harbourReplies

def harbourAddress : Address where
  scheme := "https"
  user := ""
  server := "host.test"
  port := none
  path := "/repos/acme/web/compare/a...b"
  query := none
  fragment := none

theorem ask_decided_harbour : ∃ asked host',
    (patientClient.ask harbourInquiry.asked harbourQuestion (noting scripted)
        harbourInquiry.replied harbourInquiry.stored).run (lateReplies, []) =
      (asked, (host', lateReplies.map (Exchange.mk (patientClient.request harbourAddress)))) ∧
    asked.waits.length = 1 ∧ asked.answer = .ok true := by
  have haddress : Address.ofText (patientClient.addressText harbourQuestion) =
      .ok harbourAddress := by
    apply eq_ok_of_toOption
    decide +kernel
  have hdecided := ask_decided (c := patientClient) (i := harbourInquiry) scripted lateReplies
    (by decide) (by decide) (by intro e he; cases he)
  obtain ⟨k, asked, host', hdecides, hrun, hwaits, hconcludes⟩ :=
    (hdecided.1 harbourAddress haddress (by decide +kernel)).1 (by decide)
  obtain ⟨reply, hreply⟩ : ∃ reply, reply = replies scripted
      (patientClient.request harbourAddress) lateReplies := ⟨_, rfl⟩
  rw [← hreply] at hdecides hrun hconcludes
  have hzero : reply 0 = .reply 503 "" := by rw [hreply]; rfl
  have hone : reply 1 = .reply 200 "\x7b\"status\": \"ahead\"\x7d" := by rw [hreply]; rfl
  -- The first reply is transient and the second one is not.
  obtain rfl : k = 1 := by
    have hfirst := hdecides.stops
    have hsecond := hdecides.before 1
    rcases Nat.lt_trichotomy k 1 with hk | hk | hk
    · obtain rfl := Nat.lt_one_iff.mp hk
      rw [hzero] at hfirst
      exact absurd (hfirst (by decide)) (by decide)
    · exact hk
    · rw [hone] at hsecond
      exact absurd (hsecond hk) (by decide)
  refine ⟨asked, host', ?_, hwaits, ?_⟩
  · rw [show harbourQuestion = harbourInquiry.question from rfl, hrun]
    simp only [List.range_succ, List.range_zero, List.map_append, List.map_cons, List.map_nil,
      hzero, hone]
    rfl
  · rw [hconcludes.alone, hone]
    apply eq_ok_of_toOption
    decide +kernel

/-- Where no request can be written, the host has no say. -/
theorem undecided_of_unwritten : strayClient.cache.entries = [] ∧
    strayClient.connection ≠ .shared true ∧
    harbourQuestion.ancestor ≠ harbourQuestion.descendant ∧
    (∀ r, Decides (replies scripted r harbourReplies) strayClient.retry.attempts 0) ∧
    ∃ reason asked,
      (strayClient.ask harbourInquiry.asked harbourQuestion (noting scripted)
        harbourInquiry.replied harbourInquiry.stored).run (harbourReplies, []) =
          (asked, (harbourReplies, [])) ∧
      asked.answer = .error reason := by
  have hdestination : ∃ reason, strayClient.destination harbourQuestion = .error reason := by
    apply exists_error_of_toOption
    decide +kernel
  obtain ⟨reason, hreason⟩ := hdestination
  refine ⟨rfl, by decide, by decide, ?_, reason,
    ⟨.error reason, [], strayClient.missing harbourQuestion⟩, ?_, rfl⟩
  · intro r
    exact ⟨by decide, fun j hj => absurd hj (Nat.not_lt_zero j), fun _ => rfl⟩
  · exact ask_of_unwritten (i := harbourInquiry) scripted harbourReplies (by decide)
      (by intro e he; cases he) hreason

end Client

end DeployRegistry
