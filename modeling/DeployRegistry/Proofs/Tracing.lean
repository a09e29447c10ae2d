import DeployRegistry.Http.Tracing
import DeployRegistry.Proofs.Visits

/-!
# The id of a request

Whatever a caller sends along, a request is served under one id: it is kept with the request, bound
to the log, written with every line and returned. A caller's own id is taken when it is well formed,
and also with one line break behind it. The main statements are `isAccepted_iff` and
`Site.traced_by_one_id`.
-/

namespace DeployRegistry.RequestId

set_option autoImplicit false

/-- A letter or digit of ASCII, a dot, an underscore or a dash. -/
def IsPlainChar (c : Char) : Prop :=
  ('A' ≤ c ∧ c ≤ 'Z') ∨ ('a' ≤ c ∧ c ≤ 'z') ∨ ('0' ≤ c ∧ c ≤ '9') ∨ c = '.' ∨ c = '_' ∨ c = '-'

structure WellFormed (s : String) : Prop where
  least : 1 ≤ s.length
  most : s.length ≤ 128
  chars : ∀ c ∈ s.toList, IsPlainChar c

/-- A well-formed id, or one with a line break behind it. -/
inductive Accepted (s : String) : Prop
  | whole (h : WellFormed s)
  | broken (w : String) (hw : WellFormed w) (h : s = w ++ "\n")

theorem isIdChar_iff (c : Char) : isIdChar c = true ↔ IsPlainChar c := by
  have hupper : c.isUpper = decide ('A' ≤ c ∧ c ≤ 'Z') := rfl
  have hlower : c.isLower = (decide ('a' ≤ c) && decide (c ≤ 'z')) := rfl
  have hdigit : c.isDigit = (decide ('0' ≤ c) && decide (c ≤ '9')) := rfl
  have hword : c.isAlphanum = ((c.isUpper || c.isLower) || c.isDigit) := rfl
  simp only [isIdChar, IsPlainChar, hword, hupper, hlower, hdigit, Bool.or_eq_true,
    Bool.and_eq_true, decide_eq_true_eq, beq_iff_eq, or_assoc]

theorem isPlain_iff (s : String) : isPlain s.toList = true ↔ WellFormed s := by
  have hne : s.toList ≠ [] ↔ 1 ≤ s.length := by
    rw [← String.length_toList, Nat.one_le_iff_ne_zero, ne_eq, ne_eq, List.length_eq_zero_iff]
  simp only [isPlain, Bool.and_eq_true, decide_eq_true_eq, List.all_eq_true, isIdChar_iff, hne,
    String.length_toList]
  exact ⟨fun h => ⟨h.1.1, h.1.2, h.2⟩, fun h => ⟨⟨h.least, h.most⟩, h.chars⟩⟩

theorem not_isPlainChar_break : ¬ IsPlainChar '\n' := by
  rw [← isIdChar_iff]
  decide

/-- Which ids of callers are taken. -/
theorem isAccepted_iff (s : String) : isAccepted s = true ↔ Accepted s := by
  unfold isAccepted withoutBreak
  split
  · next hlast =>
    -- The text ends with a line break, so that it cannot be well formed itself.
    obtain ⟨front, hfront⟩ := List.getLast?_eq_some_iff.mp hlast
    have hs : s = String.ofList front ++ "\n" := by
      rw [← String.toList_inj, hfront]
      simp
    have hplain : isPlain s.toList.dropLast = true ↔ WellFormed (String.ofList front) := by
      rw [hfront, List.dropLast_concat, ← isPlain_iff, String.toList_ofList]
    rw [hplain]
    constructor
    · intro h
      exact .broken _ h hs
    · rintro (h | ⟨w, hw, h⟩)
      · exact absurd (h.chars '\n' (hfront ▸ List.mem_append_right _ List.mem_cons_self))
          not_isPlainChar_break
      · have hchars : s.toList = w.toList ++ ['\n'] := by simp [h]
        rw [hfront, List.append_left_inj] at hchars
        rw [hchars, String.ofList_toList]
        exact hw
  · next hlast =>
    rw [isPlain_iff]
    constructor
    · exact .whole
    · rintro (h | ⟨w, hw, rfl⟩)
      · exact h
      · exact absurd (by simp) hlast

/-- Which id a request gets. -/
theorem resolve_eq (given : List String) (fresh : String) :
    (∀ id, given.head? = some id → Accepted id → resolve given fresh = id) ∧
    (∀ id, given.head? = some id → ¬ Accepted id → resolve given fresh = fresh) ∧
    (given.head? = none → resolve given fresh = fresh) := by
  cases given with
  | nil => exact ⟨by rintro _ ⟨⟩, by rintro _ ⟨⟩, fun _ => rfl⟩
  | cons first rest =>
    refine ⟨?_, ?_, by rintro ⟨⟩⟩
    · rintro id ⟨⟩ h
      exact if_pos ((isAccepted_iff first).mpr h)
    · rintro id ⟨⟩ h
      exact if_neg (mt (isAccepted_iff first).mp h)

end DeployRegistry.RequestId

namespace DeployRegistry.Http

set_option autoImplicit false

open RequestId

/-- Everything that is left of a request names it by one id, and the log is as it was before. The
text that stands for no request is also a well-formed id: lines that are written under it name
none. -/
structure Traced.Under {σ : Type} (t : Traced σ) (log : Log.Session) (id : String) : Prop where
  stored : t.id = id
  bound : t.bound.current = id
  lines : ∀ line ∈ t.lines, line.request = if id = Log.noRequest then none else some id
  returned : ∀ answer ∈ t.answer, answer.requestId = some id
  after : t.after = log

@[simp] theorem requestId_mark (allowed : List String) (r : Request) (answer : Response) :
    (Origin.mark allowed r answer).requestId = answer.requestId := by
  unfold Origin.mark
  split <;> rfl

theorem request_of_mem_write {log : Log.Session} {logger message : String} {level : Int}
    {failure : Option (String × String)} {line : Log.Line}
    (h : line ∈ log.write logger level message failure) : line.request = log.request? := by
  unfold Log.Session.write at h
  split at h
  · obtain rfl := List.mem_singleton.mp h
    rfl
  · cases h

namespace Site

variable {σ : Type} (site : Site σ) (sv : Serving σ)

theorem trace_under (log : Log.Session) (p : Passage) (r : Request) :
    (site.trace sv log p r).Under log
      (RequestId.resolve (r.headerValues "x-request-id") site.freshRequestId) where
  stored := rfl
  bound := rfl
  lines := by
    intro line hline
    obtain ⟨m, _, hwritten⟩ := List.mem_flatMap.mp hline
    exact request_of_mem_write hwritten
  returned := by
    intro answer hanswer
    obtain ⟨a, _, rfl⟩ := Option.map_eq_some_iff.mp hanswer
    rfl
  after := Log.Session.leave_enter log _

/-- A request is served under one id, whatever is answered and written meanwhile. It is the caller's
own id, unchanged, if that is well formed, or well formed but for one line break at its end; it is a
fresh one if the caller has none, or any other. Every answer returns it that is neither given
beforehand nor that of a breakdown. -/
theorem traced_by_one_id (log : Log.Session) (p : Passage) (r : Request) :
    ∃ id, (site.trace sv log p r).Under log id ∧
      (Origin.Question.ofRequest? r = none →
        (site.respond sv r).1.requestId = (site.trace sv log p r).answer.map fun _ => id) ∧
      (∀ given, r.header? "x-request-id" = some given → WellFormed given → id = given) ∧
      (∀ given w, r.header? "x-request-id" = some given → WellFormed w → given = w ++ "\n" →
        id = given) ∧
      (∀ given, r.header? "x-request-id" = some given → ¬ WellFormed given →
        (¬ ∃ w, WellFormed w ∧ given = w ++ "\n") → id = site.freshRequestId) ∧
      (r.header? "x-request-id" = none → id = site.freshRequestId) := by
  have hunder := site.trace_under sv log p r
  obtain ⟨hown, hother, hnone⟩ := resolve_eq (r.headerValues "x-request-id") site.freshRequestId
  refine ⟨_, hunder, ?_, ?_, ?_, ?_, hnone⟩
  · intro hq
    rw [site.respond_eq_trace sv hq log p]
    cases hanswer : (site.trace sv log p r).answer with
    | none => rfl
    | some answer => simp [hunder.returned answer hanswer]
  · exact fun given hgiven h => hown given hgiven (.whole h)
  · exact fun given w hgiven hw h => hown given hgiven (.broken w hw h)
  · rintro given hgiven hnot hbreak
    apply hother given hgiven
    rintro (h | ⟨w, hw, h⟩)
    · exact hnot h
    · exact hbreak ⟨w, hw, h⟩

/-- A request that shows whether the service is up, with an id that ends with a line break. -/
def brokenIdVisit : Visit :=
  plainVisit "GET" "/health" [] [("X-Request-ID", "ci-run-42\n")] ""

/-- An id that is not well formed is kept, bound and returned. -/
theorem broken_id_echoed :
    ¬ WellFormed "ci-run-42\n" ∧
    brokenIdVisit.request.header? "x-request-id" = some "ci-run-42\n" ∧
    "ci-run-42\n" ≠ plainSite.freshRequestId ∧
    (plainSite.trace (plainServing Store.empty 0) (.start .info) ⟨[], "/health", "0.1", ""⟩
      brokenIdVisit.request).Under (.start .info) "ci-run-42\n" ∧
    (plainSite.respond (plainServing Store.empty 0) brokenIdVisit.request).1.requestId =
      some "ci-run-42\n" := by
  have hheader : brokenIdVisit.request.headerValues "x-request-id" = ["ci-run-42\n"] := by
    decide +kernel
  have hresolve : RequestId.resolve ["ci-run-42\n"] plainSite.freshRequestId = "ci-run-42\n" := by
    decide +kernel
  have hunder := plainSite.trace_under (plainServing Store.empty 0) (.start .info)
    ⟨[], "/health", "0.1", ""⟩ brokenIdVisit.request
  rw [hheader, hresolve] at hunder
  refine ⟨fun h => not_isPlainChar_break (h.chars '\n' (by decide)), ?_, by decide, hunder, ?_⟩
  · rw [Request.header?, hheader]
    rfl
  · decide +kernel

end Site

end DeployRegistry.Http
