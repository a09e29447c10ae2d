import DeployRegistry.Ancestry.Client

/-!
# Runs of inquiries

A client takes one turn after the other: it answers a question from its cache, or asks the host and
every exchange is written down. `Client.Takes` lists the ways in which a turn can go. The main
statements are `Client.takes_turn`, by which there are no others, and `Client.Takes.learns`: a
turn changes nothing of the client but its cache, and that gains an entry only from a successful
reply.
-/

namespace DeployRegistry

set_option autoImplicit false

open Number

/-- A request to the host with what came back. -/
structure Exchange where
  request : HostRequest
  delivery : Delivery
  deriving DecidableEq

/-- A question, with what the clock shows when it is asked, when the host has replied, and when the
answer is stored. -/
structure Inquiry where
  question : Question
  asked : Binary64
  replied : Binary64
  stored : Binary64
  deriving DecidableEq

/-- An inquiry with the exchanges it took, its answer, and the client afterwards. -/
structure Turn extends Inquiry where
  exchanges : List Exchange
  answer : Except Unanswered Bool
  client : Client

/-- One attempt, and those after it while they are worth making. -/
theorem RetryPolicy.run_attemptFrom_succ {σ ε α : Type} (p : RetryPolicy) (transient : ε → Bool)
    (attempt : StateM σ (Except ε α)) (left number : Nat) (world : σ) :
    (p.attemptFrom transient attempt (left + 1) number).run world =
      match attempt.run world with
      | (.ok a, world) => (⟨.ok a, []⟩, world)
      | (.error e, world) =>
        if transient e then
          let (later, world) := (p.attemptFrom transient attempt left (number + 1)).run world
          (⟨later.result, p.wait number :: later.waits⟩, world)
        else (⟨.error e, []⟩, world) := by
  rw [attemptFrom, StateT.run_bind]
  cases attempt.run world with
  | mk result world =>
    cases result with
    | ok a => rfl
    | error e =>
      change StateT.run (if transient e = true then _ else _) world =
        if transient e = true then _ else _
      cases transient e <;> rfl

section

variable {σ : Type} (send : HostRequest → StateM σ Delivery)

/-- The host, with every exchange written down. -/
def noting (r : HostRequest) : StateM (σ × List Exchange) Delivery :=
  fun (host, log) =>
    let (delivery, host) := (send r).run host
    (delivery, (host, log ++ [⟨r, delivery⟩]))

/-- The attempts of a request are exchanges of that request, and the last one decides. -/
theorem attemptFrom_noting (p : RetryPolicy) (r : HostRequest) (a : Address) (left : Nat) :
    ∀ number host, ∃ before last waits host',
      (p.attemptFrom Mishap.isTransient (do return Client.sift a (← send r)) left number).run host
        = (⟨Client.sift a last, waits⟩, host') ∧
      ∀ log : List Exchange, (p.attemptFrom Mishap.isTransient
          (do return Client.sift a (← noting send r)) left number).run (host, log)
        = (⟨Client.sift a last, waits⟩, (host', log ++ (before ++ [last]).map (Exchange.mk r))) := by
  induction left with
  | zero =>
    intro number host
    exact ⟨[], ((send r).run host).1, [], ((send r).run host).2, rfl, fun log => rfl⟩
  | succ left ih =>
    intro number host
    obtain ⟨delivery, hdelivery⟩ : ∃ d, d = ((send r).run host).1 := ⟨_, rfl⟩
    obtain ⟨host₁, hhost₁⟩ : ∃ h, h = ((send r).run host).2 := ⟨_, rfl⟩
    have hplain : (do return Client.sift a (← send r) : StateM σ _).run host =
        (Client.sift a delivery, host₁) := by
      rw [hdelivery, hhost₁]
      rfl
    have hnoted : ∀ log, (do return Client.sift a (← noting send r) : StateM (σ × _) _).run
        (host, log) = (Client.sift a delivery, (host₁, log ++ [⟨r, delivery⟩])) := by
      intro log
      rw [hdelivery, hhost₁]
      rfl
    simp only [RetryPolicy.run_attemptFrom_succ, hplain, hnoted]
    cases hs : Client.sift a delivery with
    | ok reply =>
      exact ⟨[], delivery, [], host₁, by rw [hs], fun log => by rw [hs]; rfl⟩
    | error mishap =>
      cases ht : mishap.isTransient with
      | false =>
        exact ⟨[], delivery, [], host₁, by simp [hs, ht], fun log => by simp [hs, ht]⟩
      | true =>
        obtain ⟨before, last, waits, host', hrest, hlogged⟩ := ih (number + 1) host₁
        refine ⟨delivery :: before, last, p.wait number :: waits, host', ?_, fun log => ?_⟩
        · simp only [ht, if_true, hrest]
        · simp only [ht, if_true, hlogged, List.cons_append, List.map_cons, List.append_assoc,
            List.nil_append]

end

namespace Client

/-- Where the request for a question goes, or why there is no request. -/
def destination (c : Client) (q : Question) : Except Unanswered Address :=
  match Address.ofText (c.addressText q) with
  | .error (.loneUnit message) => .error (.unencodable message)
  | .error flaw => .error (.badAddress flaw.message)
  | .ok address =>
    match c.headerFault? address with
    | some message => .error (.unencodable message)
    | none => if c.connection = .shared true then .error .closed else .ok address

theorem askHost_of_error {m : Type → Type} [Monad m] {c : Client} {q : Question}
    {reason : Unanswered} (h : c.destination q = .error reason) (now stored : Binary64)
    (send : HostRequest → m Delivery) :
    c.askHost now stored q send = pure ⟨.error reason, [], c⟩ := by
  unfold destination at h
  unfold askHost
  cases ha : Address.ofText (c.addressText q) with
  | error flaw => cases flaw <;> simp_all
  | ok address =>
    cases hf : c.headerFault? address with
    | some message => simp_all
    | none => by_cases hc : c.connection = .shared true <;> simp_all

theorem askHost_of_ok {m : Type → Type} [Monad m] {c : Client} {q : Question} {address : Address}
    (h : c.destination q = .ok address) (now stored : Binary64)
    (send : HostRequest → m Delivery) :
    c.askHost now stored q send = (do
      let attempts ← c.retry.run Mishap.isTransient (do
        return sift address (← send (c.request address)))
      let (answer, client) := c.conclude now stored q attempts.result
      pure ⟨answer, attempts.waits, client⟩) := by
  unfold destination at h
  unfold askHost
  cases ha : Address.ofText (c.addressText q) with
  | error flaw => cases flaw <;> simp_all
  | ok address' =>
    cases hf : c.headerFault? address' with
    | some message => simp_all
    | none => by_cases hc : c.connection = .shared true <;> simp_all

theorem run_askHost {σ : Type} {c : Client} {q : Question} {address : Address}
    {now stored : Binary64} {send : HostRequest → StateM σ Delivery} {host host' : σ}
    {result : Except Mishap (Nat × Body)} {waits : List Binary64}
    (h : c.destination q = .ok address)
    (hrun : (c.retry.run Mishap.isTransient
      (do return sift address (← send (c.request address)))).run host =
        (⟨result, waits⟩, host')) :
    (c.askHost now stored q send).run host =
      (⟨(c.conclude now stored q result).1, waits, (c.conclude now stored q result).2⟩,
        host') := by
  rw [askHost_of_ok h, StateT.run_bind, hrun]
  rfl

/-- The exchanges of one request. -/
def exchanges (c : Client) (address : Address) (deliveries : List Delivery) : List Exchange :=
  deliveries.map (Exchange.mk (c.request address))

/-- How a turn can go: about a commit and itself there is nothing to ask, a live entry is the
answer, or no request can be written; else the last of some exchanges decides. -/
inductive Takes (c : Client) : Turn → Prop
  | same {i : Inquiry} (h : i.question.ancestor = i.question.descendant) :
      c.Takes ⟨i, [], .ok true, c⟩
  | recalled {i : Inquiry} {answer : Bool} {cache : Cache Question Bool}
      (h : i.question.ancestor ≠ i.question.descendant)
      (hfound : c.cache.lookup i.asked i.question = (some answer, cache)) :
      c.Takes ⟨i, [], .ok answer, { c with cache := cache }⟩
  | unsent {i : Inquiry} {reason : Unanswered} {cache : Cache Question Bool}
      (h : i.question.ancestor ≠ i.question.descendant)
      (hmissed : c.cache.lookup i.asked i.question = (none, cache))
      (hnowhere : c.destination i.question = .error reason) :
      c.Takes ⟨i, [], .error reason, { c with cache := cache }⟩
  | learned {i : Inquiry} {cache : Cache Question Bool} {address : Address}
      {before : List Delivery} {status : Nat} {body : Body} {answer : Bool}
      (h : i.question.ancestor ≠ i.question.descendant)
      (hmissed : c.cache.lookup i.asked i.question = (none, cache))
      (haddress : c.destination i.question = .ok address) (hplaced : address.isPlaced = true)
      (hstatus : isSuccess status = true) (hbody : readReply body = .ok answer) :
      c.Takes ⟨i, c.exchanges address (before ++ [.reply status body]), .ok answer,
        Client.keep { c with cache := cache } i.replied i.stored i.question answer⟩
  | unknown {i : Inquiry} {cache : Cache Question Bool} {address : Address}
      {before : List Delivery} {body : Body}
      (h : i.question.ancestor ≠ i.question.descendant)
      (hmissed : c.cache.lookup i.asked i.question = (none, cache))
      (haddress : c.destination i.question = .ok address) (hplaced : address.isPlaced = true) :
      c.Takes ⟨i, c.exchanges address (before ++ [.reply 404 body]), .ok false,
        { c with cache := cache }⟩
  | unreadable {i : Inquiry} {cache : Cache Question Bool} {address : Address}
      {before : List Delivery} {status : Nat} {body : Body} {reason : Unanswered}
      (h : i.question.ancestor ≠ i.question.descendant)
      (hmissed : c.cache.lookup i.asked i.question = (none, cache))
      (haddress : c.destination i.question = .ok address) (hplaced : address.isPlaced = true)
      (hstatus : isSuccess status = true) (hbody : readReply body = .error reason) :
      c.Takes ⟨i, c.exchanges address (before ++ [.reply status body]), .error reason,
        { c with cache := cache }⟩
  | failed {i : Inquiry} {cache : Cache Question Bool} {address : Address}
      {before : List Delivery} {last : Delivery} {mishap : Mishap}
      (h : i.question.ancestor ≠ i.question.descendant)
      (hmissed : c.cache.lookup i.asked i.question = (none, cache))
      (haddress : c.destination i.question = .ok address)
      (hlast : sift address last = .error mishap) :
      c.Takes ⟨i, c.exchanges address (before ++ [last]), .error (unanswered mishap),
        { c with cache := cache }⟩

theorem sift_eq_ok {a : Address} {d : Delivery} {status : Nat} {body : Body}
    (h : sift a d = .ok (status, body)) :
    d = .reply status body ∧ a.isPlaced = true ∧ (status = 404 ∨ isSuccess status = true) := by
  cases d with
  | fault f message => cases h
  | reply s b =>
    simp only [sift] at h
    split at h
    · cases h
    next hplaced =>
    split at h
    · next hstatus =>
      cases h
      exact ⟨rfl, by simpa using hplaced, hstatus⟩
    · cases h

/-- What comes of the last exchange. -/
theorem takes_of_sent {c : Client} {i : Inquiry} {cache : Cache Question Bool}
    {address : Address} (before : List Delivery) (last : Delivery)
    (h : i.question.ancestor ≠ i.question.descendant)
    (hmissed : c.cache.lookup i.asked i.question = (none, cache))
    (haddress : c.destination i.question = .ok address) :
    c.Takes ⟨i, c.exchanges address (before ++ [last]),
      (Client.conclude { c with cache := cache } i.replied i.stored i.question
        (sift address last)).1,
      (Client.conclude { c with cache := cache } i.replied i.stored i.question
        (sift address last)).2⟩ := by
  cases hs : sift address last with
  | error mishap => exact .failed h hmissed haddress hs
  | ok reply =>
    obtain ⟨status, body⟩ := reply
    obtain ⟨rfl, hplaced, hstatus⟩ := sift_eq_ok hs
    by_cases h404 : status = 404
    · subst h404
      exact .unknown h hmissed haddress hplaced
    · have hsuccess := hstatus.resolve_left h404
      simp only [conclude, if_neg h404]
      cases hb : readReply body with
      | ok answer => exact .learned h hmissed haddress hplaced hsuccess hb
      | error reason => exact .unreadable h hmissed haddress hplaced hsuccess hb

section

variable {σ : Type} (send : HostRequest → StateM σ Delivery)

/-- One inquiry at the host, which may be in any state and change it with every request. -/
def turn (c : Client) (host : σ) (i : Inquiry) : Turn × σ :=
  let (asked, host, log) :=
    (c.ask i.asked i.question (noting send) i.replied i.stored).run (host, [])
  (⟨i, log, asked.answer, asked.client⟩, host)

/-- The inquiries of a list one after the other. -/
def run : Client → σ → List Inquiry → List Turn
  | _, _, [] => []
  | c, host, i :: rest =>
    let (t, host) := c.turn send host i
    t :: t.client.run host rest

theorem run_cons (c : Client) (host : σ) (i : Inquiry) (rest : List Inquiry) :
    c.run send host (i :: rest) = (c.turn send host i).1 ::
      (c.turn send host i).1.client.run send (c.turn send host i).2 rest := rfl

theorem turn_eq {c client : Client} {host host' : σ} {i : Inquiry}
    {answer : Except Unanswered Bool} {waits : List Binary64} {log : List Exchange}
    (h : (c.ask i.asked i.question (noting send) i.replied i.stored).run (host, []) =
      (⟨answer, waits, client⟩, (host', log))) :
    c.turn send host i = (⟨i, log, answer, client⟩, host') := by
  simp only [turn, h]

/-- The question of a turn goes alike with notes and without, and the exchanges of the turn are added
to the notes. -/
structure Goes (c : Client) (host : σ) (t : Turn) (waits : List Binary64) (host' : σ) : Prop where
  takes : c.Takes t
  plain : (c.ask t.asked t.question send t.replied t.stored).run host =
    (⟨t.answer, waits, t.client⟩, host')
  noted : ∀ log, (c.ask t.asked t.question (noting send) t.replied t.stored).run (host, log) =
    (⟨t.answer, waits, t.client⟩, (host', log ++ t.exchanges))

/-- Where there is nothing to ask of the host, there is nothing to note. -/
theorem goes_of_pure {c : Client} {t : Turn} (host : σ) (htakes : c.Takes t)
    (hsilent : t.exchanges = [])
    (hask : ∀ {m : Type → Type} [Monad m] (send : HostRequest → m Delivery),
      c.ask t.asked t.question send t.replied t.stored = pure ⟨t.answer, [], t.client⟩) :
    c.Goes send host t [] host where
  takes := htakes
  plain := by
    rw [hask]
    rfl
  noted log := by
    rw [hask, hsilent, List.append_nil]
    rfl

/-- Every question goes in one of these ways. -/
theorem exists_goes (c : Client) (host : σ) (i : Inquiry) :
    ∃ t host' waits, t.toInquiry = i ∧ c.Goes send host t waits host' := by
  by_cases h : i.question.ancestor = i.question.descendant
  · refine ⟨⟨i, [], .ok true, c⟩, host, [], rfl, goes_of_pure send host (.same h) rfl ?_⟩
    intro m _ send
    exact if_pos h
  rcases hl : c.cache.lookup i.asked i.question with ⟨found, cache⟩
  cases found with
  | some answer =>
    refine ⟨⟨i, [], .ok answer, { c with cache := cache }⟩, host, [], rfl,
      goes_of_pure send host (.recalled h hl) rfl ?_⟩
    intro m _ send
    rw [ask, if_neg h, hl]
  | none =>
    have hask : ∀ {m : Type → Type} [Monad m] (send : HostRequest → m Delivery),
        c.ask i.asked i.question send i.replied i.stored =
          askHost { c with cache := cache } i.replied i.stored i.question send := by
      intro m _ send
      rw [ask, if_neg h, hl]
    cases hd : c.destination i.question with
    | error reason =>
      have hd' : Client.destination { c with cache := cache } i.question = .error reason := hd
      refine ⟨⟨i, [], .error reason, { c with cache := cache }⟩, host, [], rfl,
        goes_of_pure send host (.unsent h hl hd) rfl ?_⟩
      intro m _ send
      exact (hask send).trans (askHost_of_error hd' _ _ send)
    | ok address =>
      have hd' : Client.destination { c with cache := cache } i.question = .ok address := hd
      obtain ⟨before, last, waits, host', hplain, hlogged⟩ :=
        attemptFrom_noting send c.retry (c.request address) address (c.retry.attempts - 1) 1 host
      refine ⟨_, host', waits, rfl, takes_of_sent before last h hl hd, ?_, fun log => ?_⟩
      · exact (congrArg (StateT.run · host) (hask send)).trans (run_askHost hd' hplain)
      · exact (congrArg (StateT.run · (host, log)) (hask (noting send))).trans
          (run_askHost hd' (hlogged log))

/-- Every turn goes in one of these ways. -/
theorem takes_turn (c : Client) (host : σ) (i : Inquiry) :
    ∃ t host', c.turn send host i = (t, host') ∧ t.toInquiry = i ∧ c.Takes t := by
  obtain ⟨t, host', waits, rfl, hgoes⟩ := c.exists_goes send host i
  exact ⟨t, host', turn_eq send (hgoes.noted []), rfl, hgoes.takes⟩

end

end Client

/-! What a turn learns, and what it leaves in the cache. -/

namespace Turn

/-- The delivery that decided. -/
def last? (t : Turn) : Option Delivery := t.exchanges.getLast?.map (·.delivery)

/-- The answer was read from a successful reply. -/
def Learned (t : Turn) (answer : Bool) : Prop :=
  t.answer = .ok answer ∧ ∃ status body, t.last? = some (.reply status body) ∧
    isSuccess status = true ∧ Client.readReply body = .ok answer

/-- The host did not know one of the commits. -/
def Unknown (t : Turn) : Prop := ∃ body, t.last? = some (.reply 404 body)

theorem not_learned_of_error {t : Turn} {reason : Unanswered} (h : t.answer = .error reason)
    (answer : Bool) : ¬ t.Learned answer := by
  rintro ⟨hanswer, _⟩
  rw [h] at hanswer
  cases hanswer

theorem not_learned_of_unsent {t : Turn} (h : t.exchanges = []) (answer : Bool) :
    ¬ t.Learned answer := by
  rintro ⟨_, status, body, hlast, _⟩
  rw [last?, h] at hlast
  cases hlast

theorem not_learned_of_unknown {t : Turn} (h : t.Unknown) (answer : Bool) :
    ¬ t.Learned answer := by
  rintro ⟨_, status, body, hlast, hsuccess, _⟩
  obtain ⟨text, htext⟩ := h
  rw [htext] at hlast
  cases hlast
  cases hsuccess

theorem Unknown.sent {t : Turn} (h : t.Unknown) : t.exchanges ≠ [] := by
  intro hnone
  obtain ⟨body, hlast⟩ := h
  rw [last?, hnone] at hlast
  cases hlast

end Turn

namespace Client

variable {c : Client} {t : Turn}

theorem last?_exchanges (address : Address) (before : List Delivery) (last : Delivery)
    (h : t.exchanges = c.exchanges address (before ++ [last])) : t.last? = some last := by
  simp [Turn.last?, h, exchanges]

/-- An answer that is learned is stored; without one no entry is gained. -/
theorem Takes.learns (h : c.Takes t) :
    (∃ (answer : Bool) (cache : Cache Question Bool), t.Learned answer ∧
      cache.Subcache c.cache ∧
      t.client = { c with cache := cache.store t.stored t.question answer }) ∨
    (∀ answer, ¬ t.Learned answer) ∧ ∃ cache : Cache Question Bool,
      cache.Subcache c.cache ∧ t.client = { c with cache := cache } := by
  cases h with
  | same h => exact Or.inr ⟨Turn.not_learned_of_unsent rfl, c.cache, .refl _, rfl⟩
  | @recalled i answer cache h hfound =>
    exact Or.inr ⟨Turn.not_learned_of_unsent rfl, cache, Cache.subcache_of_lookup hfound, rfl⟩
  | @unsent i reason cache h hmissed =>
    exact Or.inr ⟨Turn.not_learned_of_unsent rfl, cache, Cache.subcache_of_lookup hmissed, rfl⟩
  | @learned i cache address before status body answer h hmissed haddress hplaced hstatus hbody =>
    have hcache := Cache.subcache_of_lookup hmissed
    refine Or.inl ⟨answer, if cache.capacity ≤ cache.size then (cache.purge i.replied).2 else cache,
      ⟨rfl, status, body, last?_exchanges address before _ rfl, hstatus, hbody⟩, ?_, rfl⟩
    split
    · exact (cache.subcache_purge i.replied).trans hcache
    · exact hcache
  | @unknown i cache address before body h hmissed =>
    exact Or.inr ⟨Turn.not_learned_of_unknown ⟨body, last?_exchanges address before _ rfl⟩, cache,
      Cache.subcache_of_lookup hmissed, rfl⟩
  | @unreadable i cache address before status body reason h hmissed =>
    exact Or.inr ⟨Turn.not_learned_of_error rfl, cache, Cache.subcache_of_lookup hmissed, rfl⟩
  | @failed i cache address before last mishap h hmissed =>
    exact Or.inr ⟨Turn.not_learned_of_error rfl, cache, Cache.subcache_of_lookup hmissed, rfl⟩

/-- The cache holds nothing about a commit that is unknown, or after an error. -/
theorem Takes.forgets (h : c.Takes t) (hbad : t.Unknown ∨ ∃ reason, t.answer = .error reason) :
    t.client.cache.entry? t.question = none := by
  have hmiss : ∀ {i : Inquiry} {cache : Cache Question Bool},
      c.cache.lookup i.asked i.question = (none, cache) → cache.entry? i.question = none := by
    intro i cache hmissed
    obtain rfl := Cache.lookup_eq_none hmissed
    exact c.cache.entry?_others i.question _ _
  have hanswered : ∀ answer, t.answer = .ok answer → t.exchanges = [] → False := by
    intro answer hanswer hunsent
    rcases hbad with hunknown | ⟨reason, hreason⟩
    · exact hunknown.sent hunsent
    · rw [hanswer] at hreason
      cases hreason
  have hnot : ∀ answer, ¬ t.Learned answer := by
    rcases hbad with hunknown | ⟨reason, hreason⟩
    · exact Turn.not_learned_of_unknown hunknown
    · exact Turn.not_learned_of_error hreason
  cases h with
  | same h => exact (hanswered true rfl rfl).elim
  | recalled h hfound => exact (hanswered _ rfl rfl).elim
  | unsent h hmissed => exact hmiss hmissed
  | @learned i cache address before status body answer h hmissed haddress hplaced hstatus hbody =>
    exact (hnot answer
      ⟨rfl, status, body, last?_exchanges address before _ rfl, hstatus, hbody⟩).elim
  | unknown h hmissed => exact hmiss hmissed
  | unreadable h hmissed => exact hmiss hmissed
  | failed h hmissed => exact hmiss hmissed

/-- Without an entry there is a request, or an error where none can be written. -/
theorem Takes.sends (h : c.Takes t) (hne : t.question.ancestor ≠ t.question.descendant)
    (hnone : c.cache.entry? t.question = none) :
    match c.destination t.question with
    | .ok _ => t.exchanges ≠ []
    | .error reason => t.exchanges = [] ∧ t.answer = .error reason := by
  cases h with
  | same h => exact (hne h).elim
  | recalled h hfound =>
    obtain ⟨e, he, _⟩ := Cache.lookup_eq_some hfound
    rw [hnone] at he
    cases he
  | unsent h hmissed hnowhere => simp [hnowhere]
  | learned h hmissed haddress => simp [haddress, exchanges]
  | unknown h hmissed haddress => simp [haddress, exchanges]
  | unreadable h hmissed haddress => simp [haddress, exchanges]
  | failed h hmissed haddress => simp [haddress, exchanges]

/-- A live entry is the answer. -/
theorem Takes.recalls (h : c.Takes t) (hne : t.question.ancestor ≠ t.question.descendant)
    {e : Entry Question Bool} (he : c.cache.entry? t.question = some e)
    (hlive : e.isLive t.asked = true) : t.exchanges = [] ∧ t.answer = .ok e.value := by
  have hfound := Cache.lookup_of_isLive he hlive
  cases h with
  | same h => exact (hne h).elim
  | recalled h hrecalled =>
    have hvalue := (Prod.mk.inj (hfound.symm.trans hrecalled)).1
    exact ⟨rfl, congrArg Except.ok (Option.some.inj hvalue).symm⟩
  | unsent h hmissed => cases hfound.symm.trans hmissed
  | learned h hmissed => cases hfound.symm.trans hmissed
  | unknown h hmissed => cases hfound.symm.trans hmissed
  | unreadable h hmissed => cases hfound.symm.trans hmissed
  | failed h hmissed => cases hfound.symm.trans hmissed

/-- An answer without an exchange was in the cache. -/
theorem Takes.recalled_of_unsent (h : c.Takes t)
    (hne : t.question.ancestor ≠ t.question.descendant) (hunsent : t.exchanges = [])
    {answer : Bool} (hanswer : t.answer = .ok answer) :
    ∃ e, c.cache.entry? t.question = some e ∧ e.isLive t.asked = true ∧ e.value = answer := by
  cases h with
  | same h => exact (hne h).elim
  | recalled h hfound =>
    obtain ⟨e, he, hlive, hvalue, _⟩ := Cache.lookup_eq_some hfound
    cases hanswer
    exact ⟨e, he, hlive, hvalue⟩
  | unsent h hmissed hnowhere => cases hanswer
  | learned => simp [exchanges] at hunsent
  | unknown => simp [exchanges] at hunsent
  | unreadable => cases hanswer
  | failed => cases hanswer

theorem Takes.of_same (h : c.Takes t) (heq : t.question.ancestor = t.question.descendant) :
    t.answer = .ok true ∧ t.exchanges = [] ∧ t.client = c := by
  cases h with
  | same h => exact ⟨rfl, rfl, rfl⟩
  | recalled h hfound => exact (h heq).elim
  | unsent h => exact (h heq).elim
  | learned h => exact (h heq).elim
  | unknown h => exact (h heq).elim
  | unreadable h => exact (h heq).elim
  | failed h => exact (h heq).elim

theorem Takes.client_eq (h : c.Takes t) : ∃ cache : Cache Question Bool,
    t.client = { c with cache := cache } ∧ cache.lifetime = c.cache.lifetime ∧
      cache.capacity = c.cache.capacity := by
  rcases h.learns with ⟨answer, cache, _, hcache, hclient⟩ | ⟨_, cache, hcache, hclient⟩
  · exact ⟨_, hclient, hcache.lifetime, hcache.capacity⟩
  · exact ⟨cache, hclient, hcache.lifetime, hcache.capacity⟩

/-! Rows of turns. -/

/-- Each turn is taken by the client that the turn before it left. -/
inductive Follows : Client → List Turn → Prop
  | nil (c : Client) : c.Follows []
  | cons {c : Client} {t : Turn} {rest : List Turn} (h : c.Takes t)
      (hrest : t.client.Follows rest) : c.Follows (t :: rest)

/-- The client after a row of turns. -/
def after (c : Client) : List Turn → Client
  | [] => c
  | t :: rest => t.client.after rest

theorem follows_run {σ : Type} (send : HostRequest → StateM σ Delivery)
    (inquiries : List Inquiry) : ∀ (c : Client) (host : σ),
      c.Follows (c.run send host inquiries) ∧
        (c.run send host inquiries).map (·.toInquiry) = inquiries := by
  induction inquiries with
  | nil =>
    intro c host
    rw [run]
    exact ⟨.nil c, rfl⟩
  | cons i rest ih =>
    intro c host
    obtain ⟨t, host', hturn, hi, htakes⟩ := takes_turn send c host i
    have hrun : c.run send host (i :: rest) = t :: t.client.run send host' rest := by
      rw [run, hturn]
    obtain ⟨hfollows, hrest⟩ := ih t.client host'
    rw [hrun]
    exact ⟨.cons htakes hfollows, by rw [List.map_cons, hrest, hi]⟩

theorem Follows.uncons {c : Client} {t : Turn} {rest : List Turn} (h : c.Follows (t :: rest)) :
    c.Takes t ∧ t.client.Follows rest := by
  cases h with
  | cons htakes hrest => exact ⟨htakes, hrest⟩

theorem Follows.split {c : Client} {front back : List Turn} (h : c.Follows (front ++ back)) :
    c.Follows front ∧ (c.after front).Follows back := by
  induction front generalizing c with
  | nil => exact ⟨.nil c, h⟩
  | cons t rest ih =>
    obtain ⟨htakes, hrest⟩ := h.uncons
    obtain ⟨hfront, hback⟩ := ih hrest
    exact ⟨.cons htakes hfront, hback⟩

theorem Follows.client_eq {c : Client} {turns : List Turn} (h : c.Follows turns) :
    ∃ cache : Cache Question Bool, c.after turns = { c with cache := cache } ∧
      cache.lifetime = c.cache.lifetime ∧ cache.capacity = c.cache.capacity := by
  induction h with
  | nil c => exact ⟨c.cache, rfl, rfl, rfl⟩
  | @cons c t rest htakes hrest ih =>
    obtain ⟨cache, hclient, hlifetime, hcapacity⟩ := htakes.client_eq
    obtain ⟨cache', hafter, hlifetime', hcapacity'⟩ := ih
    rw [hclient] at hafter hlifetime' hcapacity'
    exact ⟨cache', by rw [after, hclient, hafter], hlifetime'.trans hlifetime,
      hcapacity'.trans hcapacity⟩

theorem Follows.concat {c : Client} {turns : List Turn} {t : Turn} (h : c.Follows turns)
    (ht : (c.after turns).Takes t) :
    c.Follows (turns ++ [t]) ∧ c.after (turns ++ [t]) = t.client := by
  induction h with
  | nil c => exact ⟨.cons ht (.nil _), rfl⟩
  | cons htakes hrest ih =>
    obtain ⟨hfollows, hafter⟩ := ih ht
    exact ⟨.cons htakes hfollows, hafter⟩

theorem Follows.lifetime_eq {c : Client} {turns : List Turn} (h : c.Follows turns) :
    (c.after turns).cache.lifetime = c.cache.lifetime := by
  obtain ⟨cache, hafter, hlifetime, _⟩ := h.client_eq
  rw [hafter]
  exact hlifetime

theorem Follows.capacity_eq {c : Client} {turns : List Turn} (h : c.Follows turns) :
    (c.after turns).cache.capacity = c.cache.capacity := by
  obtain ⟨cache, hafter, _, hcapacity⟩ := h.client_eq
  rw [hafter]
  exact hcapacity

/-- Where a request goes does not depend on what is in the cache. -/
theorem Follows.destination_eq {c : Client} {turns : List Turn} (h : c.Follows turns)
    (q : Question) : (c.after turns).destination q = c.destination q := by
  obtain ⟨cache, hafter, _⟩ := h.client_eq
  rw [hafter]
  rfl

end Client

end DeployRegistry
