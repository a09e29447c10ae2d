import DeployRegistry.Proofs.Addressing
import DeployRegistry.Proofs.Answers
import DeployRegistry.Proofs.Remembering
import DeployRegistry.Proofs.Shadowing

/-!
# How failures of the host surface

A question that can be asked of the host has an answer, or fails for a reason that is known as a
failure of the host, or the last delivery is one that escapes: a successful reply that cannot be
read, or an address that is none. In a search every other check succeeds, so a search breaks down in
no other way, and the last of its exchanges shows it. The main statements are
`Client.Takes.surfaces`, `Http.Site.question_echoes` and `Http.Site.failures_surface`.
-/

namespace DeployRegistry

set_option autoImplicit false

open Form Number Text

/-- A delivery for which a question fails without being known as a failure of the host: a successful
reply that says nothing, or the way to it leads to what is no address. -/
inductive Delivery.Escapes (reason : Unanswered) : Delivery → Prop
  | unreadable {status : Nat} {body : Body} (hstatus : isSuccess status = true)
      (hbody : Client.readReply body = .error reason) : Escapes reason (.reply status body)
  | misplaced {message : String} (h : reason = .badAddress message) :
      Escapes reason (.fault .address message)

theorem Fault.eq_address {f : Fault} (h : f.isExchange = false) : f = .address := by
  cases f <;> first | rfl | cases h

namespace Client

/-- What cannot be read is not known as a failure of the host. -/
theorem not_isHostFailure_of_readReply {body : Body} {reason : Unanswered}
    (h : readReply body = .error reason) : reason.isHostFailure = false := by
  unfold readReply at h
  split at h
  · cases h
    rfl
  · split at h <;> cases h <;> rfl
  · cases h
    rfl

/-- Where it is a server that replies, a mishap is known as a failure of the host unless it
escapes. -/
theorem surfaces_of_sift {address : Address} {d : Delivery} {mishap : Mishap}
    (hplaced : address.isPlaced = true) (h : sift address d = .error mishap) :
    (unanswered mishap).isHostFailure = true ∨ d.Escapes (unanswered mishap) := by
  cases d with
  | fault f message =>
    cases h
    cases hf : f.isExchange with
    | true =>
      left
      simp only [unanswered, hf, if_true]
      rfl
    | false =>
      obtain rfl := Fault.eq_address hf
      exact Or.inr (.misplaced rfl)
  | reply status body =>
    rw [sift, if_neg (by simp [hplaced])] at h
    split at h
    · cases h
    · cases h
      exact Or.inl rfl

end Client

theorem Delivery.Escapes.not_isHostFailure {d : Delivery} {reason : Unanswered}
    (h : d.Escapes reason) : reason.isHostFailure = false := by
  cases h with
  | unreadable hstatus hbody => exact Client.not_isHostFailure_of_readReply hbody
  | misplaced h =>
    rw [h]
    rfl

namespace Client

variable {c : Client} {t : Turn}

/-- The ways in which a question that may be asked goes without an answer. -/
theorem Takes.surfaces (h : c.Takes t) (hready : c.Ready) (hq : t.question.Accepted)
    {reason : Unanswered} (hanswer : t.answer = .error reason) :
    reason.isHostFailure = true ∨ ∃ d, t.last? = some d ∧ d.Escapes reason := by
  obtain ⟨place, hplace, hplaced⟩ := hready.destination hq
  cases h with
  | same h => cases hanswer
  | recalled h hfound => cases hanswer
  | unsent h hmissed hnowhere =>
    rw [hplace] at hnowhere
    cases hnowhere
  | learned => cases hanswer
  | unknown => cases hanswer
  | @unreadable i cache address before status body reason' h hmissed haddress _ hstatus hbody =>
    cases hanswer
    exact Or.inr ⟨_, last?_exchanges address before _ rfl, .unreadable hstatus hbody⟩
  | @failed i cache address before last mishap h hmissed haddress hlast =>
    cases hanswer
    have hsame : address = place := Except.ok.inj (haddress.symm.trans hplace)
    rcases surfaces_of_sift (hsame ▸ hplaced) hlast with hhost | hescapes
    · exact Or.inl hhost
    · exact Or.inr ⟨last, last?_exchanges address before last rfl, hescapes⟩

theorem Ready.of_cache (h : c.Ready) (cache : Cache Question Bool) :
    Client.Ready { c with cache := cache } :=
  ⟨h.isOpen, h.base, h.whole, h.room⟩

theorem Ready.of_takes (h : c.Ready) (ht : c.Takes t) : t.client.Ready := by
  obtain ⟨cache, hclient, _⟩ := ht.client_eq
  rw [hclient]
  exact h.of_cache cache

theorem Ready.of_follows {turns : List Turn} (h : c.Ready) (ht : c.Follows turns) :
    (c.after turns).Ready := by
  obtain ⟨cache, hafter, _⟩ := ht.client_eq
  rw [hafter]
  exact h.of_cache cache

end Client

/-! The names in the records and in a query. -/

/-- All repositories and commits in the records are named as callers may name them. -/
structure Store.WellNamed (s : Store) : Prop where
  repositories : ∀ p ∈ s.projects, ∀ repository ∈ p.repository,
    repositoryBounds.broken? repository = none
  commits : ∀ d ∈ s.deployments, (shaBounds 1).broken? d.sha = none

theorem Store.Poses.accepted {s : Store} {sha : String} {q : Question} (h : s.Poses sha q)
    (hs : s.WellNamed) (hsha : (shaBounds 1).broken? sha = none) : q.Accepted := by
  obtain ⟨rfl, ⟨p, hp, hrepository⟩, d, hd, hdescendant⟩ := h
  exact ⟨hs.repositories p hp _ hrepository, hsha, hdescendant ▸ hs.commits d hd⟩

theorem broken?_of_soughtSha {v : Json} {t : String} (h : soughtSha v = .valid t) :
    (shaBounds 1).broken? t = none := by
  obtain ⟨s, _, hleast, hmost, hne, hdigits, rfl⟩ := (sha_eq_valid_iff 1 v t).mp h
  rw [← length_lowerAscii] at hleast hmost
  rw [← all_isDigit_lowerAscii] at hdigits
  refine (broken?_shaBounds_iff 1 _).mpr ⟨hleast, hmost, ?_, hdigits⟩
  intro hnil
  rw [← String.length_toList, hnil] at hleast
  cases hleast

theorem broken?_of_criteriaQuery {ms : Json.Members} {c : Criteria}
    (h : Http.criteriaQuery ms = .valid c) {sha : String} (hc : c.commit = some sha) :
    (shaBounds 1).broken? sha = none := by
  unfold Http.criteriaQuery at h
  dsimp only at h
  unfold Checked.andThen at h
  split at h
  · next asked _ =>
    dsimp only at h
    split at h
    · next hnone =>
      cases h
      rw [hnone] at hc
      cases hc
    · next written _ =>
      obtain ⟨found, hfound, rfl⟩ := (Checked.map_eq_valid_iff _ _ _).mp h
      have hrequired : required [("sha", .str written)] "sha" soughtSha = .valid found :=
        (Checked.under_eq_valid_iff "commit" _ found).mp hfound
      obtain ⟨v, hv⟩ := required_eq_valid hrequired
      cases hc
      exact broken?_of_soughtSha hv
  · cases h

namespace Http

/-- The same state with notes of exchanges. -/
def Serving.noted {σ : Type} (sv : Serving σ) (log : List Exchange) :
    Serving (σ × List Exchange) := { sv with host := (sv.host, log) }

end Http

namespace Http.Site

variable {σ : Type} {site : Site σ} {sv : Serving σ}

/-- The site with a host whose every exchange is written down. -/
def noted (site : Site σ) : Site (σ × List Exchange) := { site with send := noting site.send }

/-- The same world with notes of the exchanges, and a client that can ask. -/
structure Beside (world : Client × σ) (other : Client × σ × List Exchange) : Prop where
  client : world.1 = other.1
  host : world.2 = other.2.1
  ready : world.1.Ready

/-- Why a search goes without an answer, as the notes tell: a failure of the host, or the last
delivery escaped; or a record has a name that no caller may give. -/
inductive Failure (s : Store) (reason : Unanswered) (other : Client × σ × List Exchange) : Prop
  | host (h : reason.isHostFailure = true)
  | escaped (x : Exchange) (hlast : other.2.2.getLast? = some x) (h : x.delivery.Escapes reason)
  | misnamed (h : ¬ s.WellNamed)

theorem question_eq (ticks : Number.Binary64) (q : Question) (client : Client) (host : σ) :
    ((site.question ticks q).run).run (client, host) =
      ((match ((client.ask ticks q site.send).run host).1.answer with
      | .ok answer => pure answer
      | .error u => throw u : ExceptT Unanswered (StateM (Client × σ)) Bool).run).run
        (((client.ask ticks q site.send).run host).1.client,
          ((client.ask ticks q site.send).run host).2) := rfl

theorem question_run (ticks : Number.Binary64) (q : Question) (client : Client) (host : σ) :
    ((site.question ticks q).run).run (client, host) =
      match (client.ask ticks q site.send).run host with
      | (asked, host') => (asked.answer, (asked.client, host')) := by
  rw [question_eq]
  rcases (client.ask ticks q site.send).run host with ⟨⟨answer, waits, client'⟩, host'⟩
  cases answer <;> rfl

/-- A question comes to the same with notes and without, and the notes tell why it fails. -/
theorem question_echoes {s : Store} (ticks : Number.Binary64) {sha : String}
    (hsha : (shaBounds 1).broken? sha = none) {q : Question} (hq : s.Poses sha q) :
    Echoes Beside (Failure s) (site.question ticks q) (site.noted.question ticks q) := by
  rintro ⟨client, host⟩ ⟨_, _, log⟩ ⟨rfl, rfl, hready⟩
  obtain ⟨t, host', waits, hinquiry, hgoes⟩ :=
    client.exists_goes site.send host ⟨q, ticks, ticks, ticks⟩
  obtain ⟨hquestion, hasked, hreplied, hstored⟩ := Inquiry.mk.inj hinquiry
  have hplain := hgoes.plain
  have hnoted := hgoes.noted log
  rw [hquestion, hasked, hreplied, hstored] at hplain hnoted
  refine ⟨t.answer, (t.client, host'), (t.client, host', log ++ t.exchanges), ?_, ?_,
    ⟨rfl, rfl, hready.of_takes hgoes.takes⟩, ?_⟩
  · rw [question_run, hplain]
  · rw [question_run]
    exact congrArg (fun r => (r.1.answer, r.1.client, r.2)) hnoted
  · intro reason hreason
    by_cases hs : s.WellNamed
    · have haccepted : t.question.Accepted := hquestion ▸ hq.accepted hs hsha
      rcases hgoes.takes.surfaces hready haccepted hreason with hhost | ⟨d, hlast, hd⟩
      · exact .host hhost
      · obtain ⟨x, hx, rfl⟩ := Option.map_eq_some_iff.mp hlast
        refine .escaped x ?_ hd
        rw [List.getLast?_append, hx]
        rfl
    · exact .misnamed hs

/-- What is answered to a search, by a caller who sees the project. -/
theorem respond_search (hready : sv.client.Ready) {r : Request} {project : String}
    (hroute : route site.settings.apiRoot r.method r.path = .endpoint (.reading (.search project)))
    {asking : Option User} (hcaller : site.caller? sv r = .ok asking) {c : Criteria}
    (hc : criteriaQuery r.queryMembers = .valid c) {p : Project}
    (hp : sv.registry.store.readable (asking.map (·.id)) project = .ok p) :
    ∃ log, site.noted.respond (sv.noted []) r =
        ((site.respond sv r).1, (site.respond sv r).2.noted log) ∧
      ((site.respond sv r).1.status = 200 ∨
      (site.respond sv r).1 = site.sent r
        (Response.detail 502 "Repository history is temporarily unavailable") ∨
      (site.respond sv r).1 = Response.broken ∧ (¬ sv.registry.store.WellNamed ∨
        ∃ x reason, log.getLast? = some x ∧ x.delivery.Escapes reason)) := by
  have hechoes : Echoes Beside (Failure sv.registry.store)
      (sv.registry.store.findEnvironments (asking.map (·.id)) project c
        (some (site.question sv.ticks)))
      (sv.registry.store.findEnvironments (asking.map (·.id)) project c
        (some (site.noted.question sv.ticks))) :=
    echoes_findEnvironments fun sha hsha q hq =>
      question_echoes sv.ticks (broken?_of_criteriaQuery hc hsha) hq
  obtain ⟨result, ⟨client, host⟩, ⟨_, _, log⟩, hplain, hnoted, ⟨rfl, rfl, _⟩, hfailure⟩ :=
    hechoes (sv.client, sv.host) (sv.client, sv.host, []) ⟨rfl, rfl, hready⟩
  have hperform := perform_search project hcaller hc
  have hroute' : route site.noted.settings.apiRoot r.method r.path =
      .endpoint (.reading (.search project)) := hroute
  have hcaller' : site.noted.caller? (sv.noted []) r = .ok asking := hcaller
  have hperform' := perform_search project hcaller' hc
  rw [find_eq] at hperform hperform'
  rw [hplain] at hperform
  have hnoted' : (((sv.noted []).registry.store.findEnvironments (asking.map (·.id)) project c
      (some (site.noted.question (sv.noted []).ticks))).run).run
        ((sv.noted []).client, (sv.noted []).host) = (result, client, host, log) := hnoted
  rw [hnoted'] at hperform'
  refine ⟨log, ?_⟩
  rcases result with u | d | es
  · rw [respond_of_error hroute hperform, respond_of_error hroute' hperform']
    refine ⟨rfl, ?_⟩
    cases hu : u.isHostFailure with
    | true => exact Or.inr (Or.inl rfl)
    | false =>
      refine Or.inr (Or.inr ⟨rfl, ?_⟩)
      cases hfailure u rfl with
      | host h =>
        rw [hu] at h
        cases h
      | escaped x hlast h => exact Or.inr ⟨x, u, hlast, h⟩
      | misnamed h => exact Or.inl h
  · -- The project is there for the caller, so a search is not denied.
    rw [findEnvironments_run, hp] at hplain
    dsimp only at hplain
    split at hplain <;> cases hplain
  · rw [respond_of_ok hroute hperform, respond_of_ok hroute' hperform']
    refine ⟨rfl, Or.inl ?_⟩
    simp [sent, (plain_of_route hroute).2, Response.structured]

/-- With a client that can ask, whatever the host does: a question that may be asked has an answer,
or fails as a failure of the host, or its last delivery escapes, and it fails as none. A search by a
caller who sees the project goes the same way with notes and without. It is answered, or the failure
of the host is reported; it breaks down only where the last exchange that was written down escapes,
or over records with names that no caller may give. -/
theorem failures_surface (hready : sv.client.Ready) :
    (∀ inquiries, ∀ t ∈ sv.client.run site.send sv.host inquiries, t.question.Accepted →
      (∃ answer, t.answer = .ok answer) ∨
      ∃ reason, t.answer = .error reason ∧ (reason.isHostFailure = true ∨
        reason.isHostFailure = false ∧ ∃ d, t.last? = some d ∧ d.Escapes reason)) ∧
    ∀ r project asking c p,
      route site.settings.apiRoot r.method r.path = .endpoint (.reading (.search project)) →
      site.caller? sv r = .ok asking → criteriaQuery r.queryMembers = .valid c →
      sv.registry.store.readable (asking.map (·.id)) project = .ok p →
      ∃ log, site.noted.respond (sv.noted []) r =
          ((site.respond sv r).1, (site.respond sv r).2.noted log) ∧
        ((site.respond sv r).1.status = 200 ∨
        (site.respond sv r).1 = site.sent r
          (Response.detail 502 "Repository history is temporarily unavailable") ∨
        (site.respond sv r).1 = Response.broken ∧ (¬ sv.registry.store.WellNamed ∨
          ∃ x reason, log.getLast? = some x ∧ x.delivery.Escapes reason)) := by
  constructor
  · intro inquiries t ht hquestion
    obtain ⟨hfollows, _⟩ := sv.client.follows_run site.send inquiries sv.host
    obtain ⟨front, back, hsplit⟩ := List.append_of_mem ht
    rw [hsplit] at hfollows
    obtain ⟨hfront, hrest⟩ := hfollows.split
    cases ha : t.answer with
    | ok answer => exact Or.inl ⟨answer, rfl⟩
    | error reason =>
      refine Or.inr ⟨reason, rfl, ?_⟩
      rcases hrest.uncons.1.surfaces (hready.of_follows hfront) hquestion ha with
        hhost | ⟨d, hlast, hd⟩
      · exact Or.inl hhost
      · exact Or.inr ⟨hd.not_isHostFailure, d, hlast, hd⟩
  · intro r project asking c p hroute hcaller hc hp
    exact respond_search hready hroute hcaller hc hp

/-- A project that everyone sees, with one live commit. -/
def openStore : Store where
  users := []
  projects := [⟨"p", "Harbour", some "acme/harbour", .everyone, false⟩]
  memberships := []
  environments := [⟨"e", "p", "live", .available, false⟩]
  deployments := [⟨"d", "p", "e", "main", false, "abcdef1", .success, ⟨1⟩⟩]

def openServing : Serving Unit := plainServing openStore 0

theorem ready_openServing : openServing.client.Ready := by
  have hbase : (match Address.ofText openServing.client.base with
      | .ok a => a.isPlaced && (openServing.client.headerFault? a).isNone
      | .error _ => false) = true := by
    decide +kernel
  refine ⟨by decide, ?_, by decide +kernel, by decide +kernel⟩
  split at hbase
  · next a ha =>
    rw [Bool.and_eq_true, Option.isNone_iff_eq_none] at hbase
    exact ⟨a, ha, hbase⟩
  · cases hbase

/-- A search for a commit that only the host can decide on. -/
def openSearch : Request :=
  (plainVisit "GET" "/api/v1/projects/p/environments/by-deployments"
    [("ref", "main"), ("sha", "ABCDEF0")] [] "").request

/-- The host of this site sends the deliveries that it has. -/
def scriptedSite : Site (List Delivery) := { plainSite with send := Client.scripted }

/-- The host is down when it is asked first, and a second attempt is made. -/
def risingServing : Serving (List Delivery) where
  registry := openServing.registry
  client := { openServing.client with retry := ⟨2, Nat.two_pos, .finite 0, .finite 0, .finite 0⟩ }
  now := openServing.now
  ticks := openServing.ticks
  host := .reply 503 "" :: Client.harbourReplies

theorem failures_surface_harbour : ∃ log,
    scriptedSite.noted.respond (risingServing.noted []) openSearch =
      ((scriptedSite.respond risingServing openSearch).1,
        (scriptedSite.respond risingServing openSearch).2.noted log) ∧
    log.map (·.delivery) = risingServing.host ∧
    ((scriptedSite.respond risingServing openSearch).1.status = 200 ∨
      (scriptedSite.respond risingServing openSearch).1 = scriptedSite.sent openSearch
        (Response.detail 502 "Repository history is temporarily unavailable")) := by
  have hready : risingServing.client.Ready :=
    ⟨ready_openServing.isOpen, ready_openServing.base, ready_openServing.whole,
      ready_openServing.room⟩
  have hroute : route scriptedSite.settings.apiRoot openSearch.method openSearch.path =
      .endpoint (.reading (.search "p")) := by
    decide +kernel
  have hcaller : scriptedSite.caller? risingServing openSearch = .ok none := rfl
  obtain ⟨c, hc⟩ : ∃ c, criteriaQuery openSearch.queryMembers = .valid c := by
    have hvalid : (match criteriaQuery openSearch.queryMembers with
        | .valid _ => true
        | .invalid _ => false) = true := by
      decide +kernel
    split at hvalid
    · next c hc => exact ⟨c, hc⟩
    · cases hvalid
  have hreadable : risingServing.registry.store.readable none "p" =
      .ok ⟨"p", "Harbour", some "acme/harbour", .everyone, false⟩ := rfl
  have hnamed : risingServing.registry.store.WellNamed := ⟨by decide +kernel, by decide +kernel⟩
  obtain ⟨log, hnoted, hanswer⟩ :=
    (failures_surface hready).2 openSearch "p" none c _ hroute hcaller hc hreadable
  have hlog : log.map (·.delivery) = risingServing.host := by
    have hdeliveries : (scriptedSite.noted.respond (risingServing.noted []) openSearch).2.host.2.map
        (·.delivery) = risingServing.host := by
      decide +kernel
    rwa [hnoted] at hdeliveries
  refine ⟨log, hnoted, hlog, ?_⟩
  rcases hanswer with hfound | hdown | ⟨_, hbad | ⟨x, reason, hlast, hescapes⟩⟩
  · exact Or.inl hfound
  · exact Or.inr hdown
  · exact absurd hnamed hbad
  · -- The last reply can be read.
    have hdelivery : (log.map (·.delivery)).getLast? = some x.delivery := by
      rw [List.getLast?_map, hlast]
      rfl
    rw [hlog] at hdelivery
    have hreply : x.delivery = .reply 200 "\x7b\"status\": \"ahead\"\x7d" :=
      (Option.some.inj hdelivery).symm
    have hread : (Client.readReply "\x7b\"status\": \"ahead\"\x7d").toOption = some true := by
      decide +kernel
    rw [hreply] at hescapes
    cases hescapes with
    | unreadable _ hbody =>
      rw [hbody] at hread
      cases hread

def openInquiry : Inquiry :=
  ⟨⟨"acme/harbour", "abcdef0", "abcdef1"⟩, .finite 0, .finite 0, .finite 0⟩

theorem exists_escape {d : Delivery}
    (hfails : (openServing.client.turn Client.scripted [d] openInquiry).1.answer.toOption = none)
    (hescapes : ((openServing.client.turn Client.scripted [d] openInquiry).1.answer.tryCatch
      fun reason => .ok reason.isHostFailure).toOption = some false) :
    ∃ t, openServing.client.run Client.scripted [d] [openInquiry] = [t] ∧
      ∃ reason, t.answer = .error reason ∧ reason.isHostFailure = false := by
  obtain ⟨t, ht⟩ : ∃ t, t = (openServing.client.turn Client.scripted [d] openInquiry).1 := ⟨_, rfl⟩
  rw [← ht] at hfails hescapes
  obtain ⟨reason, hreason⟩ := exists_error_of_toOption hfails
  rw [hreason] at hescapes
  refine ⟨t, ?_, reason, hreason, Option.some.inj hescapes⟩
  rw [Client.run_cons, ← ht]
  rfl

/-- A success that is no document is not reported as a failure of the host, and neither is a way
that leads to no address. -/
theorem unread_reply_escapes :
    (∃ t, openServing.client.run Client.scripted [.reply 200 "<html>"] [openInquiry] = [t] ∧
      ∃ reason, t.answer = .error reason ∧ reason.isHostFailure = false) ∧
    ∃ t, openServing.client.run Client.scripted [.fault .address "no path"] [openInquiry] = [t] ∧
      ∃ reason, t.answer = .error reason ∧ reason.isHostFailure = false :=
  ⟨exists_escape (by decide +kernel) (by decide +kernel),
    exists_escape (by decide +kernel) (by decide +kernel)⟩

end Http.Site

end DeployRegistry
