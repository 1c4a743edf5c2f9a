import DoxAsdlc.Hitl.Dispatcher
import DoxAsdlc.Interaction.Pool

/-!
# Decisions racing on one request

Any number of `recordDecision` calls on one request and of `checkExpired` sweeps,
interleaved command by command.  Each call tests the status it read and later writes
the status it decided; `FindsPending` says that the request is still pending when it
is written to, and it is exactly the condition under which the request is decided at
most once.

What a call does to the request is a list of marks, a prefix of its plan, and what
the server holds for the request is a function of the marks of the one call that
moved it.

## Main definitions

* `GateCall`, `Decision` — the calls and their pool.
* `moved` — the status that a call has written to the request.
* `DecidedOnce`, `LeavesPendingOnce` — the property of the states and of the steps.
* `FindsPending` — the condition on the steps.
* `Mark`, `marks`, `Reflects` — what a call has done, and what the server holds then.
-/

namespace DoxAsdlc.Hitl

open Interaction Interaction.Program

/-- A call that may decide a request. -/
inductive GateCall where
  | recordDecision (now : Time) (decisionId : String) (args : DecisionArgs)
  | checkExpired (now : Time)

variable (tenancy : Tenancy) (requestId : String)

/-- The coroutine of a call; decisions are on the request `requestId`. -/
def GateCall.program : GateCall → Async (GateDecision ⊕ List GateRequest)
  | .recordDecision now decisionId args => do
      return .inl (← Hitl.recordDecision tenancy now decisionId requestId args)
  | .checkExpired now => do
      return .inr (← Hitl.checkExpired tenancy now)

/-- The status that a call moves a pending request to. -/
def GateCall.target : GateCall → GateStatus
  | .recordDecision _ _ args => decidedStatus args.approved
  | .checkExpired _ => .expired

/-- The exchanges of one call. -/
abbrev History := List (Exchange interface Error)

/-- The calls together with the store they share. -/
abbrev Decision (ι : Type) := Config interface Store Error (GateDecision ⊕ List GateRequest) ι

/-- The status that a call has written to the request. -/
def moved (h : History) : Option GateStatus :=
  (h.filterMap fun x => written tenancy requestId x.cmd).head?

/-- Is this the event of a decision on the request, or of its expiry? -/
def decides (event : ASDLCEvent) : Bool :=
  (event.eventType = .gateApproved ∨ event.eventType = .gateRejected ∨
    event.eventType = .gateExpired) ∧ event.metadata.lookup "request_id" = some requestId

/-- The types of the events published on the decision of the request. -/
def decisionEvents (w : Store) : List EventType :=
  (w.published.filter (decides requestId)).map ASDLCEvent.eventType

/-- Is this the log entry of a decision on the request? -/
def recordsDecision : LogEntry → Bool
  | .gateDecision r .. => r = requestId
  | .gateRequested .. => false

/-- A request that was created and is not decided yet. -/
structure Undecided (w : Store) : Prop where
  pending : storedStatus tenancy requestId w = some .pending
  session : ∃ sid : SessionId,
    Redis.hget (w.requests (requestKey tenancy requestId)) .sessionId = some sid.val
  events : decisionEvents requestId w = []
  logged : ∀ key, (w.decisionLog key).countP (recordsDecision requestId) = 0
  audited : ∀ key, (w.audit key).countP (recordsDecision requestId) = 0

section

variable {ι : Type}

/-- Every call at its beginning. -/
def begin (w : Store) (calls : ι → GateCall) : Decision ι :=
  Config.start w fun j => (calls j).program tenancy requestId

/-- **Decided at most once.**  One call at most has moved the request, the status
stored is the one it wrote, and there is one event, of that status, once it has come
to its end; every decision that was returned is of that call. -/
structure DecidedOnce (cfg : Decision ι) : Prop where
  once : ∀ i j, moved tenancy requestId (cfg.history i) ≠ none →
    moved tenancy requestId (cfg.history j) ≠ none → i = j
  undecided : (∀ j, moved tenancy requestId (cfg.history j) = none) →
    Undecided tenancy requestId cfg.store
  stored : ∀ j s, moved tenancy requestId (cfg.history j) = some s →
    storedStatus tenancy requestId cfg.store = some s
  announced : ∀ j s, moved tenancy requestId (cfg.history j) = some s →
    decisionEvents requestId cfg.store = [announcement s] ∨
      decisionEvents requestId cfg.store = [] ∧ (cfg.threads j).finished = false
  logged : ∀ key, (cfg.store.decisionLog key).countP (recordsDecision requestId) ≤ 1
  audited : ∀ key, (cfg.store.audit key).countP (recordsDecision requestId) ≤ 1
  returned : ∀ j decision, cfg.threads j = .ret (.inl decision) →
    moved tenancy requestId (cfg.history j) = some (decidedStatus decision.approved)

/-- A step changes the stored status only if it was pending. -/
def LeavesPendingOnce (cfg : Decision ι) (_ : ι) (cfg' : Decision ι) : Prop :=
  storedStatus tenancy requestId cfg'.store = storedStatus tenancy requestId cfg.store ∨
    storedStatus tenancy requestId cfg.store = some .pending

/-- If call `j` is about to write a status to the request, the request is pending. -/
def FindsPending (cfg : Decision ι) (j : ι) : Prop :=
  ∀ c, (cfg.threads j).head? = some c → written tenancy requestId c ≠ none →
    storedStatus tenancy requestId cfg.store = some .pending

end

/-! ## What one call does -/

/-- What a command does to the request. -/
inductive Mark where
  | wrote (status : GateStatus)
  | logged
  | audited
  | announced (eventType : EventType)
  deriving DecidableEq, Repr

/-- The mark of a command. -/
def mark? : Cmd → Option Mark
  | .hset key mapping => (written tenancy requestId (.hset key mapping)).map .wrote
  | .rpush _ (.gateDecision ..) => some .logged
  | .xadd _ (.gateDecision ..) => some .audited
  | .publish event => if decides requestId event then some (.announced event.eventType) else none
  | _ => none

/-- What a call has done to the request. -/
def marks (h : History) : List Mark := h.filterMap fun x => mark? tenancy requestId x.cmd

@[simp] theorem marks_nil : marks tenancy requestId [] = [] := rfl
@[simp] theorem marks_append (h h' : History) :
    marks tenancy requestId (h ++ h') = marks tenancy requestId h ++ marks tenancy requestId h' :=
  List.filterMap_append
@[simp] theorem marks_cons (x : Exchange interface Error) (h : History) :
    marks tenancy requestId (x :: h)
      = (mark? tenancy requestId x.cmd).toList ++ marks tenancy requestId h := by
  cases hx : mark? tenancy requestId x.cmd <;> simp [marks, hx]

/-- All that a call does to a request that it finds pending. -/
def GateCall.plan : GateCall → List Mark
  | .recordDecision _ _ args =>
    [.wrote (decidedStatus args.approved), .logged, .audited,
      .announced (announcement (decidedStatus args.approved))]
  | .checkExpired _ => [.wrote .expired, .announced .gateExpired]

/-- The calls write no field of the request but its status. -/
def Clean : Cmd → Prop
  | .hset _ mapping => mapping .sessionId = none
  | _ => True

/-- The answers that the store gives as long as the request has its session id. -/
def Genuine (x : Exchange interface Error) : Prop :=
  match x with
  | ⟨.hgetall key, .ok (some data), _⟩ => key = requestKey tenancy requestId →
      ∃ sid : SessionId, data .sessionId = some sid.val
  | ⟨.zrangebyscore _ _ _, .ok ids, _⟩ => ids.Nodup
  | _ => True

/-- A call has done a part of its plan, and nothing else to the request. -/
def Trace (c : GateCall) (h : History) : Prop :=
  marks tenancy requestId h <+: c.plan ∧ ∀ x ∈ h, Clean x.cmd

/-- A call that came to its end has done nothing or all of its plan, and all of it if
it returned a decision. -/
def Finished (c : GateCall) (r : Except Error (GateDecision ⊕ List GateRequest)) (h : History) :
    Prop :=
  (marks tenancy requestId h = [] ∨ marks tenancy requestId h = c.plan) ∧
    ∀ decision, r = .ok (.inl decision) →
      marks tenancy requestId h = c.plan ∧ decidedStatus decision.approved = c.target

theorem decides_announcement {e : ASDLCEvent} {s : GateStatus} (hs : s ≠ .pending)
    (htype : e.eventType = announcement s) (hid : e.metadata.lookup "request_id" = some requestId) :
    decides requestId e = true := by
  cases s with
  | pending => exact absurd rfl hs
  | approved => simp [decides, htype, announcement, hid]
  | rejected => simp [decides, htype, announcement, hid]
  | expired => simp [decides, htype, announcement, hid]

section

variable {tenancy requestId} {c : GateCall} {h : History}

theorem Trace.snoc {x : Exchange interface Error} (ht : Trace tenancy requestId c h)
    (hclean : Clean x.cmd)
    (hplan : marks tenancy requestId h ++ (mark? tenancy requestId x.cmd).toList <+: c.plan) :
    Trace tenancy requestId c (h ++ [x]) := by
  refine ⟨by simpa using hplan, fun y hy => ?_⟩
  rcases List.mem_append.mp hy with hy | hy
  · exact ht.2 y hy
  · rw [List.mem_singleton.mp hy]; exact hclean

variable {α : Type} {B : Exchange interface Error → Prop} {Q : Except Error α → History → Prop}

/-- What does nothing to the request leaves its marks as they are. -/
theorem silent_obeys {p : Async α}
    (hp : p.Uses fun cmd => mark? tenancy requestId cmd = none ∧ Clean cmd)
    (ht : Trace tenancy requestId c h)
    (hQ : ∀ r h', Trace tenancy requestId c h' →
      marks tenancy requestId h' = marks tenancy requestId h → Q r h') :
    p.Obeys B (Trace tenancy requestId c) Q h := by
  induction p generalizing h with
  | ret a => exact ⟨ht, hQ _ _ ht rfl⟩
  | raise e => exact ⟨ht, hQ _ _ ht rfl⟩
  | call cmd k ih =>
    obtain ⟨⟨hmark, hclean⟩, hrest⟩ := hp
    refine ⟨ht, fun r b _ => ih r (hrest r) ?_ fun r' h' ht' hh' => hQ r' h' ht' ?_⟩
    · exact ht.snoc hclean (by simpa [hmark] using ht.1)
    · simpa [hmark] using hh'

variable {Q : Except Error Unit → History → Prop}

/-- Writing the status is the first mark of a plan. -/
theorem markRequest_obeys {s : GateStatus} (ht : Trace tenancy requestId c h)
    (hnone : marks tenancy requestId h = []) (hplan : [.wrote s] <+: c.plan)
    (hQ : ∀ h', Trace tenancy requestId c h' → marks tenancy requestId h' = [.wrote s] →
      Q (.ok ()) h') :
    (markRequest tenancy requestId s).Obeys (Exchange.AnsweredWith B) (Trace tenancy requestId c)
      Q h := by
  simp only [markRequest, send, command_eq, bind_eq, elim_call, obeys_call_answeredWith, answer_ok,
    elim_ret, obeys_ret]
  have hwrote : mark? tenancy requestId
      (.hset (requestKey tenancy requestId) (.field .status s)) = some (.wrote s) := by
    simp [mark?, written]
  refine ⟨ht, fun a _ => ?_⟩
  have ht' := ht.snoc (x := ⟨.hset (requestKey tenancy requestId) (.field .status s), .ok a, true⟩)
    (Redis.Hash.field_of_ne _ (by decide)) (by simpa [hwrote, hnone] using hplan)
  refine ⟨ht', fun b _ => ?_⟩
  have ht'' := ht'.snoc (x := ⟨.zrem (pendingSet tenancy) requestId, .ok b, true⟩) trivial
    (by simpa [mark?] using ht'.1)
  exact ⟨ht'', hQ _ ht'' (by simp [mark?, written, hnone])⟩

/-- The log entries come next. -/
theorem logDecision_obeys {request : GateRequest} {decision : GateDecision} {ms : List Mark}
    (ht : Trace tenancy requestId c h) (hms : marks tenancy requestId h = ms)
    (hplan : ms ++ [.logged, .audited] <+: c.plan)
    (hQ : ∀ h', Trace tenancy requestId c h' →
      marks tenancy requestId h' = ms ++ [.logged, .audited] → Q (.ok ()) h') :
    (logDecision tenancy request decision).Obeys (Exchange.AnsweredWith B)
      (Trace tenancy requestId c) Q h := by
  simp only [logDecision, log, send, command_eq, bind_eq, elim_call, obeys_call_answeredWith,
    answer_ok, elim_ret, obeys_ret]
  set entry := LogEntry.gateDecision request.requestId decision.decisionId request.taskId
    request.gateType decision.approved decision.reviewer decision.reason decision.decidedAt
  refine ⟨ht, fun a _ => ?_⟩
  have ht' := ht.snoc (x := ⟨.rpush (logKey tenancy request.taskId) entry, .ok a, true⟩) trivial
    (by
      refine List.IsPrefix.trans ?_ hplan
      simp [mark?, entry, hms])
  refine ⟨ht', fun b _ => ?_⟩
  have ht'' := ht'.snoc (x := ⟨.xadd (auditStream tenancy) entry, .ok b, true⟩) trivial
    (by simpa [mark?, entry, hms] using hplan)
  exact ⟨ht'', hQ _ ht'' (by simp [mark?, entry, hms])⟩

/-- The event is the last mark; it is made since the request has a session id. -/
theorem announce_obeys {now : Time} {request : GateRequest} {metadata : List (String × String)}
    {s : GateStatus} {ms : List Mark} (ht : Trace tenancy requestId c h)
    (hms : marks tenancy requestId h = ms) (hs : s ≠ .pending)
    (hsession : ∃ sid : SessionId, request.sessionId = sid.val)
    (hid : metadata.lookup "request_id" = some requestId)
    (hplan : ms ++ [.announced (announcement s)] = c.plan)
    (hQ : ∀ h', Trace tenancy requestId c h' → marks tenancy requestId h' = c.plan →
      Q (.ok ()) h') :
    (announce (announcement s) now request metadata).Obeys (Exchange.AnsweredWith B)
      (Trace tenancy requestId c) Q h := by
  obtain ⟨sid, hsid⟩ := hsession
  have hevent : gateEvent (announcement s) now request metadata = .ok
      { eventType := announcement s, sessionId := sid, timestamp := now,
        taskId := some request.taskId, metadata := metadata } := by
    simp only [gateEvent, hsid, SessionId.validate_val]
    rfl
  set event : ASDLCEvent :=
    { eventType := announcement s, sessionId := sid, timestamp := now,
      taskId := some request.taskId, metadata := metadata }
  have hmark : mark? tenancy requestId (.publish event) = some (.announced (announcement s)) := by
    simp [mark?, decides_announcement requestId hs (e := event) rfl hid, event]
  have hrun : announce (announcement s) now request metadata
      = .call (.publish event) fun r => (answer r).elim (fun _ => .ret ()) .raise := by
    simp only [announce, hevent, bind_eq, answer_ok, elim_ret]
    rfl
  rw [hrun, obeys_call_answeredWith]
  refine ⟨ht, fun a _ => ?_⟩
  have hmarks : marks tenancy requestId (h ++ [⟨.publish event, .ok a, true⟩]) = c.plan := by
    simp [hmark, hms, hplan]
  have ht' := ht.snoc (x := ⟨.publish event, .ok a, true⟩) trivial
    (by simp [hmark, hms, hplan])
  exact ⟨ht', hQ _ ht' hmarks⟩

end

section

variable {tenancy requestId} {h : History}

/-- A command without a mark on this request leaves the trace as it is. -/
theorem Trace.silent {c : GateCall} (ht : Trace tenancy requestId c h) (cmd : Cmd)
    (r : Except Error (Reply cmd)) (b : Bool) (hmark : mark? tenancy requestId cmd = none)
    (hclean : Clean cmd) :
    Trace tenancy requestId c (h ++ [⟨cmd, r, b⟩]) ∧
      marks tenancy requestId (h ++ [⟨cmd, r, b⟩]) = marks tenancy requestId h :=
  ⟨ht.snoc hclean (by simpa [hmark] using ht.1), by simp [hmark]⟩

/-- The session id of a request that was read back. -/
theorem session_fromDict (now : Time) {data : GateHash} {sid : SessionId}
    (h : data .sessionId = some sid.val) : (GateRequest.fromDict now data).sessionId = sid.val := by
  simp [GateRequest.fromDict, h]

theorem recordDecision_obeys (now : Time) (decisionId : String) (args : DecisionArgs) :
    (recordDecision tenancy now decisionId requestId args).Obeys
      (Exchange.AnsweredWith (Genuine tenancy requestId))
      (Trace tenancy requestId (.recordDecision now decisionId args))
      (fun r h => (∀ decision, r = .ok decision →
          marks tenancy requestId h = (GateCall.recordDecision now decisionId args).plan ∧
            decision.approved = args.approved) ∧
        ∀ e, r = .error e → marks tenancy requestId h = []) [] := by
  have hstart : Trace tenancy requestId (.recordDecision now decisionId args) [] :=
    ⟨List.nil_prefix, fun _ hx => nomatch hx⟩
  simp only [recordDecision, decideRequest, send, command_eq, bind_eq, pure_eq, throw_eq, elim_call,
    obeys_call_answeredWith, answer_ok, elim_ret, List.nil_append]
  refine ⟨hstart, fun r hgenuine => ?_⟩
  obtain ⟨ht, hmarks⟩ := hstart.silent (.hgetall (requestKey tenancy requestId)) (.ok r)
    true rfl trivial
  simp only [List.nil_append, marks_nil] at ht hmarks
  rcases r with _ | data
  · exact ⟨ht, nofun, fun _ _ => hmarks⟩
  · obtain ⟨sid, hsid⟩ := hgenuine rfl
    simp only
    split
    · refine obeys_elim _ _ _ _ (markRequest_obeys ht hmarks (by simp [GateCall.plan]) ?_)
      intro h₁ ht₁ hmarks₁
      refine obeys_elim _ _ _ _ (logDecision_obeys ht₁ hmarks₁ (by simp [GateCall.plan]) ?_)
      intro h₂ ht₂ hmarks₂
      have hsession := session_fromDict now hsid
      refine obeys_elim _ _ _ _ (announce_obeys ht₂ hmarks₂ ?_ ⟨sid, hsession⟩ rfl
        (by simp [GateCall.plan]) ?_)
      · cases hargs : args.approved <;> simp [decidedStatus]
      · intro h₃ ht₃ hmarks₃
        refine ⟨ht₃, fun decision hd => ⟨hmarks₃, ?_⟩, nofun⟩
        cases hd
        rfl
    · exact ⟨ht, nofun, fun _ _ => hmarks⟩

/-- Expiring another request does nothing to this one. -/
theorem uses_expireRequest {r : String} (hr : r ≠ requestId) (now : Time) :
    (expireRequest tenancy now r).Uses
      fun cmd => mark? tenancy requestId cmd = none ∧ Clean cmd := by
  refine uses_bind (uses_command ⟨rfl, trivial⟩) fun data => ?_
  rcases data with _ | data
  · trivial
  · simp only
    split
    · refine uses_bind ?_ fun _ => uses_bind ?_ fun _ => uses_ret _
      · refine uses_bind (uses_command ⟨?_, Redis.Hash.field_of_ne _ (by decide)⟩) fun _ =>
          uses_command ⟨rfl, trivial⟩
        simp [mark?, written, hr]
      · unfold announce
        cases hevent : gateEvent (announcement .expired) now
            { GateRequest.fromDict now data with status := .expired } [("request_id", r)] with
        | error e => trivial
        | ok event =>
          have hmeta := (gateEvent_eq_ok hevent).2
          have hother : mark? tenancy requestId (.publish event) = none := by
            simp [mark?, decides, hmeta, hr]
          exact ⟨⟨hother, trivial⟩, fun reply => by cases reply <;> trivial⟩
    · trivial

/-- A sweep, at a request it has come to: nothing is done to request `requestId`, or
all of the plan. -/
def Swept (tenancy : Tenancy) (requestId : String) (now : Time) (h : History) : Prop :=
  marks tenancy requestId h = [] ∨
    marks tenancy requestId h = (GateCall.checkExpired now).plan

theorem expireRequest_obeys (now : Time) (ht : Trace tenancy requestId (.checkExpired now) h)
    (hnone : marks tenancy requestId h = []) :
    (expireRequest tenancy now requestId).Obeys
      (Exchange.AnsweredWith (Genuine tenancy requestId))
      (Trace tenancy requestId (.checkExpired now))
      (fun _ => Swept tenancy requestId now) h := by
  simp only [expireRequest, send, command_eq, bind_eq, pure_eq, elim_call,
    obeys_call_answeredWith, answer_ok, elim_ret]
  refine ⟨ht, fun r hgenuine => ?_⟩
  obtain ⟨ht', hmarks⟩ := ht.silent (.hgetall (requestKey tenancy requestId)) (.ok r)
    true rfl trivial
  rw [hnone] at hmarks
  rcases r with _ | data
  · exact ⟨ht', .inl hmarks⟩
  · obtain ⟨sid, hsid⟩ := hgenuine rfl
    simp only
    split
    · refine obeys_elim _ _ _ _ (markRequest_obeys ht' hmarks (by simp [GateCall.plan]) ?_)
      intro h₁ ht₁ hmarks₁
      have hsession := session_fromDict now hsid
      refine obeys_elim _ _ _ _ (announce_obeys ht₁ hmarks₁ nofun ⟨sid, hsession⟩ rfl rfl ?_)
      intro h₂ ht₂ hmarks₂
      exact ⟨ht₂, .inr hmarks₂⟩
    · exact ⟨ht', .inl hmarks⟩

/-- The sweep comes to each request once: what it has done to this one before, it does
not do again. -/
theorem expireRequests_obeys (now : Time) {ids : List String} (hnodup : ids.Nodup)
    (ht : Trace tenancy requestId (.checkExpired now) h)
    (hstart : marks tenancy requestId h = [] ∨
      marks tenancy requestId h = (GateCall.checkExpired now).plan ∧ requestId ∉ ids) :
    (expireRequests tenancy now ids).Obeys
      (Exchange.AnsweredWith (Genuine tenancy requestId))
      (Trace tenancy requestId (.checkExpired now))
      (fun _ => Swept tenancy requestId now) h := by
  induction ids generalizing h with
  | nil => exact ⟨ht, hstart.imp_right And.left⟩
  | cons r ids ih =>
    obtain ⟨hr, hrest⟩ := List.nodup_cons.mp hnodup
    refine obeys_bind _ _ _ ?_
    have hcontinue : ∀ (o : Option GateRequest) h', Trace tenancy requestId (.checkExpired now) h' →
        (marks tenancy requestId h' = [] ∨
          marks tenancy requestId h' = (GateCall.checkExpired now).plan ∧ requestId ∉ ids) →
        ((expireRequests tenancy now ids >>= fun rest => pure (o.toList ++ rest)).Obeys
          (Exchange.AnsweredWith (Genuine tenancy requestId))
          (Trace tenancy requestId (.checkExpired now))
          (fun _ => Swept tenancy requestId now) h') := by
      intro o h' ht' hh'
      refine obeys_bind _ _ _ ((ih hrest ht' hh').mono (fun _ h => h) ?_)
      intro res h'' ht'' hswept
      cases res with
      | ok a => exact ⟨ht'', hswept⟩
      | error e => exact ⟨ht'', hswept⟩
    by_cases hreq : r = requestId
    · subst hreq
      have hnone : marks tenancy r h = [] := hstart.resolve_right fun hs => hs.2 (.head _)
      refine (expireRequest_obeys now ht hnone).mono (fun _ h => h) ?_
      intro res h' ht' hswept
      cases res with
      | ok a => exact hcontinue a h' ht' (hswept.imp_right fun hs => ⟨hs, hr⟩)
      | error e => exact ⟨ht', hswept⟩
    · refine silent_obeys (uses_expireRequest hreq now) ht fun res h' ht' hsame => ?_
      have hh' : marks tenancy requestId h' = [] ∨
          marks tenancy requestId h' = (GateCall.checkExpired now).plan ∧ requestId ∉ ids := by
        rw [hsame]
        exact hstart.imp_right fun hs => ⟨hs.1, fun hmem => hs.2 (.tail _ hmem)⟩
      cases res with
      | ok a => exact hcontinue a h' ht' hh'
      | error e => exact ⟨ht', hh'.imp_right And.left⟩

theorem checkExpired_obeys (now : Time) :
    (checkExpired tenancy now).Obeys (Exchange.AnsweredWith (Genuine tenancy requestId))
      (Trace tenancy requestId (.checkExpired now))
      (fun _ => Swept tenancy requestId now) [] := by
  have hstart : Trace tenancy requestId (.checkExpired now) [] :=
    ⟨List.nil_prefix, fun _ hx => nomatch hx⟩
  simp only [checkExpired, send, command_eq, bind_eq, elim_call, obeys_call_answeredWith,
    answer_ok, elim_ret, List.nil_append]
  refine ⟨hstart, fun ids hgenuine => ?_⟩
  obtain ⟨ht, hmarks⟩ := hstart.silent
    (.zrangebyscore (pendingSet tenancy) (0 : Time) (now : Time)) (.ok ids) true rfl trivial
  exact expireRequests_obeys now hgenuine ht (.inl hmarks)

/-- Every call keeps its contract. -/
theorem program_obeys (c : GateCall) :
    (c.program tenancy requestId).Obeys (Exchange.AnsweredWith (Genuine tenancy requestId))
      (Trace tenancy requestId c) (Finished tenancy requestId c) [] := by
  cases c with
  | recordDecision now decisionId args =>
    refine obeys_bind _ _ _ ((recordDecision_obeys now decisionId args).mono (fun _ h => h) ?_)
    rintro (e | decision) h ht ⟨hok, herror⟩
    · exact ⟨ht, .inl (herror e rfl), nofun⟩
    · obtain ⟨hplan, happroved⟩ := hok decision rfl
      refine ⟨ht, .inr hplan, ?_⟩
      intro _ hd
      cases hd
      exact ⟨hplan, by rw [happroved]; rfl⟩
  | checkExpired now =>
    refine obeys_bind _ _ _ ((checkExpired_obeys now).mono (fun _ h => h) ?_)
    rintro (e | expired) h ht hswept
    · exact ⟨ht, hswept, nofun⟩
    · exact ⟨ht, hswept, nofun⟩

end

/-! ## What the server holds -/

/-- The status that a mark wrote. -/
def Mark.status? : Mark → Option GateStatus
  | .wrote s => some s
  | _ => none

/-- The type of the event that a mark published. -/
def Mark.event? : Mark → Option EventType
  | .announced t => some t
  | _ => none

/-- What a plan does after it has written the status. -/
def GateCall.rest : GateCall → List Mark
  | .recordDecision _ _ args =>
    [.logged, .audited, .announced (announcement (decidedStatus args.approved))]
  | .checkExpired _ => [.announced .gateExpired]

theorem GateCall.plan_eq (c : GateCall) : c.plan = .wrote c.target :: c.rest := by cases c <;> rfl

theorem GateCall.target_ne_pending (c : GateCall) : c.target ≠ .pending := by
  cases c with
  | recordDecision now decisionId args =>
    cases h : args.approved <;> simp [GateCall.target, decidedStatus, h]
  | checkExpired now => exact nofun

theorem GateCall.status?_rest (c : GateCall) : ∀ m ∈ c.rest, m.status? = none := by
  cases c <;> simp [GateCall.rest, Mark.status?]

/-- A call that has begun its plan has written its target, once. -/
theorem GateCall.filterMap_status? {c : GateCall} {ms : List Mark} (hms : ms <+: c.plan)
    (hne : ms ≠ []) : ms.filterMap Mark.status? = [c.target] := by
  rw [c.plan_eq, List.prefix_cons_iff] at hms
  obtain rfl | ⟨ms', rfl, hms'⟩ := hms
  · exact absurd rfl hne
  · have hnone : ms'.filterMap Mark.status? = [] :=
      List.filterMap_eq_nil_iff.mpr fun m hm => c.status?_rest m (hms'.subset hm)
    simp [Mark.status?, hnone]

/-- What the server holds for the request when this much has been done to it. -/
structure Reflects (ms : List Mark) (w : Store) : Prop where
  status : storedStatus tenancy requestId w
    = some ((ms.filterMap Mark.status?).getLastD .pending)
  session : ∃ sid : SessionId,
    Redis.hget (w.requests (requestKey tenancy requestId)) .sessionId = some sid.val
  events : decisionEvents requestId w = ms.filterMap Mark.event?
  logged : ∀ key, (w.decisionLog key).countP (recordsDecision requestId) ≤ ms.count .logged
  audited : ∀ key, (w.audit key).countP (recordsDecision requestId) ≤ ms.count .audited

section

variable {tenancy requestId} {ms : List Mark} {w : Store} {cmd : Cmd}

theorem reflects_nil : Reflects tenancy requestId [] w ↔ Undecided tenancy requestId w := by
  constructor
  · intro h
    exact ⟨h.status, h.session, h.events, fun key => Nat.le_zero.mp (h.logged key),
      fun key => Nat.le_zero.mp (h.audited key)⟩
  · intro h
    exact ⟨h.pending, h.session, h.events, fun key => (h.logged key).le,
      fun key => (h.audited key).le⟩

/-- The mark of a command says which status it writes. -/
theorem status?_mark? : (mark? tenancy requestId cmd).bind Mark.status?
    = written tenancy requestId cmd := by
  cases cmd with
  | hset key mapping =>
    cases h : written tenancy requestId (.hset key mapping) <;> simp [mark?, h, Mark.status?]
  | rpush key entry => cases entry <;> rfl
  | xadd key entry => cases entry <;> rfl
  | publish event =>
    by_cases h : decides requestId event = true <;> simp [mark?, h, Mark.status?, written]
  | _ => rfl

theorem mark?_of_written {s : GateStatus} (h : written tenancy requestId cmd = some s) :
    mark? tenancy requestId cmd = some (.wrote s) := by
  cases cmd with
  | hset key mapping => simp [mark?, h]
  | _ => cases h

/-- The session id is never written again. -/
theorem session_serve (hclean : Clean cmd) :
    Redis.hget ((Store.serve cmd w).1.requests (requestKey tenancy requestId)) .sessionId
      = Redis.hget (w.requests (requestKey tenancy requestId)) .sessionId := by
  cases cmd with
  | hset key mapping =>
    by_cases hkey : key = requestKey tenancy requestId
    · subst hkey
      have hnone : mapping .sessionId = none := hclean
      simp [Store.serve, Redis.hget_hset, hnone]
    · simp [Store.serve, Ne.symm hkey]
  | _ => rfl

variable (tenancy) in
/-- The events of a decision grow by the one that is published. -/
theorem decisionEvents_serve : decisionEvents requestId (Store.serve cmd w).1
    = decisionEvents requestId w
      ++ ((mark? tenancy requestId cmd).bind Mark.event?).toList := by
  cases cmd with
  | publish event =>
    by_cases hd : decides requestId event = true <;>
      simp [decisionEvents, Store.serve, mark?, hd, Mark.event?]
  | hset key mapping =>
    cases hw : written tenancy requestId (.hset key mapping) <;>
      simp [mark?, hw, Mark.event?, decisionEvents, Store.serve]
  | rpush key entry => cases entry <;> simp [mark?, Mark.event?, decisionEvents, Store.serve]
  | xadd key entry => cases entry <;> simp [mark?, Mark.event?, decisionEvents, Store.serve]
  | _ => simp [mark?, decisionEvents, Store.serve]

variable (requestId) in
/-- One more entry under one key, if it counts. -/
theorem countP_update_append (log : String → List LogEntry) (key key' : String)
    (entry : LogEntry) :
    (Function.update log key (log key ++ [entry]) key').countP (recordsDecision requestId)
      ≤ (log key').countP (recordsDecision requestId)
        + if recordsDecision requestId entry = true then 1 else 0 := by
  by_cases hkey : key' = key
  · subst hkey
    simp [List.countP_append, List.countP_singleton]
  · simp [hkey]

variable (tenancy requestId w cmd) in
theorem logged_serve (key : String) :
    ((Store.serve cmd w).1.decisionLog key).countP (recordsDecision requestId)
      ≤ (w.decisionLog key).countP (recordsDecision requestId)
        + (mark? tenancy requestId cmd).toList.count .logged := by
  cases cmd with
  | rpush key' entry =>
    refine (countP_update_append requestId w.decisionLog key' key entry).trans ?_
    cases entry with
    | gateRequested => simp [recordsDecision]
    | gateDecision r =>
      by_cases hr : r = requestId <;> simp [mark?, recordsDecision, hr]
  | _ => exact Nat.le_add_right _ _

variable (tenancy requestId w cmd) in
theorem audited_serve (key : String) :
    ((Store.serve cmd w).1.audit key).countP (recordsDecision requestId)
      ≤ (w.audit key).countP (recordsDecision requestId)
        + (mark? tenancy requestId cmd).toList.count .audited := by
  cases cmd with
  | xadd key' entry =>
    refine (countP_update_append requestId w.audit key' key entry).trans ?_
    cases entry with
    | gateRequested => simp [recordsDecision]
    | gateDecision r =>
      by_cases hr : r = requestId <;> simp [mark?, recordsDecision, hr]
  | _ => exact Nat.le_add_right _ _

/-- **A command does to the request what its mark says.** -/
theorem Reflects.serve (h : Reflects tenancy requestId ms w) (hclean : Clean cmd) :
    Reflects tenancy requestId (ms ++ (mark? tenancy requestId cmd).toList)
      (Store.serve cmd w).1 where
  status := by
    rw [storedStatus_serve, ← status?_mark?, h.status]
    cases mark? tenancy requestId cmd with
    | none => simp
    | some m => cases m <;> simp [Mark.status?]
  session := by rw [session_serve hclean]; exact h.session
  events := by
    rw [decisionEvents_serve tenancy, h.events]
    cases mark? tenancy requestId cmd with
    | none => simp
    | some m => cases m <;> simp [Mark.event?]
  logged := fun key => by
    have hlog := h.logged key
    have hstep := logged_serve tenancy requestId w cmd key
    rw [List.count_append]
    omega
  audited := fun key => by
    have hlog := h.audited key
    have hstep := audited_serve tenancy requestId w cmd key
    rw [List.count_append]
    omega

end

/-! ## The pool -/

section

variable {ι : Type} {tenancy requestId} {calls : ι → GateCall} {cfg : Decision ι}

/-- Every call keeps its contract. -/
def Running (tenancy : Tenancy) (requestId : String) (calls : ι → GateCall) (cfg : Decision ι) :
    Prop :=
  cfg.Obeying (Exchange.AnsweredWith (Genuine tenancy requestId))
    (fun j => Trace tenancy requestId (calls j)) fun j => Finished tenancy requestId (calls j)

/-- One call at most has marks, and the server holds what they say. -/
structure Settled (tenancy : Tenancy) (requestId : String) (cfg : Decision ι) : Prop where
  once : ∀ i j, marks tenancy requestId (cfg.history i) ≠ [] →
    marks tenancy requestId (cfg.history j) ≠ [] → i = j
  untouched : (∀ j, marks tenancy requestId (cfg.history j) = []) →
    Reflects tenancy requestId [] cfg.store
  touched : ∀ j, marks tenancy requestId (cfg.history j) ≠ [] →
    Reflects tenancy requestId (marks tenancy requestId (cfg.history j)) cfg.store

theorem Settled.session (h : Settled tenancy requestId cfg) : ∃ sid : SessionId,
    Redis.hget (cfg.store.requests (requestKey tenancy requestId)) .sessionId = some sid.val := by
  by_cases hall : ∀ j, marks tenancy requestId (cfg.history j) = []
  · exact (h.untouched hall).session
  · obtain ⟨j, hj⟩ := not_forall.mp hall
    exact (h.touched j hj).session

/-- The store answers genuinely. -/
theorem genuine_exchange (h : Settled tenancy requestId cfg) (c : Cmd) :
    Exchange.AnsweredWith (Genuine tenancy requestId)
      (Store.serve.exchange (.ok : Outcome Error) c cfg.store) := by
  refine ⟨Server.exchange_answered _ _ _, ?_⟩
  cases c with
  | hgetall key =>
    cases hdata : cfg.store.requests key with
    | none => simp [Genuine, Store.serve, hdata]
    | some data =>
      have hgenuine : key = requestKey tenancy requestId →
          ∃ sid : SessionId, data .sessionId = some sid.val := by
        rintro rfl
        simpa [hdata] using h.session
      simpa [Genuine, Store.serve, hdata] using hgenuine
  | zrangebyscore key lo hi => exact Redis.SortedSet.zrangebyscore_nodup _ _ _
  | _ => trivial

theorem Trace.moved {c : GateCall} {h : History} (ht : Trace tenancy requestId c h) :
    moved tenancy requestId h = if marks tenancy requestId h = [] then none else some c.target := by
  have hmoved : Hitl.moved tenancy requestId h
      = ((marks tenancy requestId h).filterMap Mark.status?).head? := by
    simp only [Hitl.moved, marks, List.filterMap_filterMap, status?_mark?]
  rw [hmoved]
  split
  · rename_i hnil
    rw [hnil]
    rfl
  · rename_i hne
    rw [GateCall.filterMap_status? ht.1 hne]
    rfl

theorem Trace.moved_eq_none {c : GateCall} {h : History} (ht : Trace tenancy requestId c h) :
    Hitl.moved tenancy requestId h = none ↔ marks tenancy requestId h = [] := by
  rw [ht.moved]
  split <;> simp_all

theorem Running.trace (h : Running tenancy requestId calls cfg) (j : ι) :
    Trace tenancy requestId (calls j) (cfg.history j) := (h j).here

theorem GateCall.event?_dropLast (c : GateCall) : ∀ m ∈ c.plan.dropLast, m.event? = none := by
  cases c <;> simp [GateCall.plan, Mark.event?]

/-- A part of a plan announces its target if it is all of the plan, and else nothing. -/
theorem GateCall.filterMap_event? {c : GateCall} {ms : List Mark} (hms : ms <+: c.plan) :
    ms.filterMap Mark.event? = [announcement c.target] ∧ ms = c.plan ∨
      ms.filterMap Mark.event? = [] ∧ ms ≠ c.plan := by
  have hplan : c.plan = c.plan.dropLast ++ [.announced (announcement c.target)] := by
    cases c <;> rfl
  rw [hplan, List.prefix_concat_iff, ← hplan] at hms
  obtain rfl | hms := hms
  · left
    exact ⟨by cases c <;> rfl, rfl⟩
  · right
    constructor
    · exact List.filterMap_eq_nil_iff.mpr fun m hm => c.event?_dropLast m (hms.subset hm)
    · intro heq
      have hlength := hms.length_le
      rw [heq, hplan] at hlength
      simp at hlength

/-- A part of a plan has at most one of each log entry. -/
theorem GateCall.count_le {c : GateCall} {ms : List Mark} (hms : ms <+: c.plan) (m : Mark) :
    ms.count m ≤ 1 := by
  have hnodup : c.plan.Nodup := by cases c <;> simp [GateCall.plan]
  exact (hms.sublist.count_le m).trans (List.nodup_iff_count_le_one.mp hnodup m)

/-- The property of the states, read off the marks. -/
theorem Settled.decidedOnce (hrun : Running tenancy requestId calls cfg)
    (h : Settled tenancy requestId cfg) : DecidedOnce tenancy requestId cfg where
  once := fun i j hi hj =>
    h.once i j (mt (hrun.trace i).moved_eq_none.mpr hi) (mt (hrun.trace j).moved_eq_none.mpr hj)
  undecided := fun hall =>
    reflects_nil.mp (h.untouched fun j => (hrun.trace j).moved_eq_none.mp (hall j))
  stored := fun j s hj => by
    have hne : marks tenancy requestId (cfg.history j) ≠ [] := fun hnil => by
      rw [(hrun.trace j).moved_eq_none.mpr hnil] at hj
      cases hj
    rw [(hrun.trace j).moved, if_neg hne] at hj
    rw [(h.touched j hne).status, GateCall.filterMap_status? (hrun.trace j).1 hne]
    exact hj
  announced := fun j s hj => by
    have hne : marks tenancy requestId (cfg.history j) ≠ [] := by
      intro hnil
      rw [(hrun.trace j).moved_eq_none.mpr hnil] at hj
      cases hj
    rw [(hrun.trace j).moved, if_neg hne] at hj
    cases hj
    rw [(h.touched j hne).events]
    obtain ⟨hevents, -⟩ | ⟨hevents, hpart⟩ := GateCall.filterMap_event? (hrun.trace j).1
    · exact .inl hevents
    · refine .inr ⟨hevents, Bool.eq_false_iff.mpr fun hf => ?_⟩
      obtain ⟨a, -, hend, -⟩ | ⟨e, -, hend, -⟩ := (hrun j).finished hf
      · exact hend.elim hne hpart
      · exact hend.elim hne hpart
  logged := fun key => by
    by_cases hall : ∀ j, marks tenancy requestId (cfg.history j) = []
    · exact ((h.untouched hall).logged key).trans zero_le_one
    · obtain ⟨j, hj⟩ := not_forall.mp hall
      exact ((h.touched j hj).logged key).trans (GateCall.count_le (hrun.trace j).1 _)
  audited := fun key => by
    by_cases hall : ∀ j, marks tenancy requestId (cfg.history j) = []
    · exact ((h.untouched hall).audited key).trans zero_le_one
    · obtain ⟨j, hj⟩ := not_forall.mp hall
      exact ((h.touched j hj).audited key).trans (GateCall.count_le (hrun.trace j).1 _)
  returned := fun j decision hj => by
    have hend := hrun j
    rw [hj, obeys_ret] at hend
    obtain ⟨hplan, htarget⟩ := hend.2.2 decision rfl
    have hne : marks tenancy requestId (cfg.history j) ≠ [] := by
      rw [hplan, GateCall.plan_eq]
      exact List.cons_ne_nil _ _
    rw [(hrun.trace j).moved, if_neg hne, htarget]

variable [DecidableEq ι]

/-- Calls keep their contracts as the pool runs. -/
theorem Running.turn (hrun : Running tenancy requestId calls cfg)
    (hset : Settled tenancy requestId cfg) (j : ι) :
    Running tenancy requestId calls (cfg.turn Store.serve j) := by
  obtain ⟨c, k, hp, he⟩ | ⟨-, he⟩ := Config.turn_cases Store.serve cfg j
  · rw [he]
    exact hrun.exchange Store.serve hp (genuine_exchange hset c)
  · rw [he]
    exact hrun

/-- **A turn** adds the mark of its command to the marks of its call. -/
theorem turn_marks (hrun : Running tenancy requestId calls cfg)
    (hset : Settled tenancy requestId cfg) (j : ι) :
    (cfg.threads j).finished = true ∧ cfg.turn Store.serve j = cfg ∨ ∃ c, (cfg.threads j).head? = some c ∧ Clean c ∧
      (cfg.turn Store.serve j).store = (Store.serve c cfg.store).1 ∧
      marks tenancy requestId (cfg.history j) ++ (mark? tenancy requestId c).toList
        <+: (calls j).plan ∧
      ∀ i, marks tenancy requestId ((cfg.turn Store.serve j).history i)
        = marks tenancy requestId (cfg.history i)
          ++ if i = j then (mark? tenancy requestId c).toList else [] := by
  obtain ⟨c, k, hp, he⟩ | ⟨hf, he⟩ := Config.turn_cases Store.serve cfg j
  · have htrace : Trace tenancy requestId (calls j)
        (cfg.history j ++ [Store.serve.exchange (.ok : Outcome Error) c cfg.store]) :=
      hrun.next hp Store.serve (genuine_exchange hset c)
    have hclean : Clean c := htrace.2 _ (List.mem_append_right _ (.head _))
    refine .inr ⟨c, by rw [hp]; rfl, hclean, by rw [he]; rfl, by simpa using htrace.1,
      fun i => ?_⟩
    rw [he]
    by_cases hi : i = j
    · subst hi
      simp [Config.exchange]
    · simp [Config.exchange, hi]
  · exact .inl ⟨hf, he⟩

/-- A turn that finds the request pending, if it writes to it, keeps to one call. -/
theorem Settled.turn (hrun : Running tenancy requestId calls cfg)
    (hset : Settled tenancy requestId cfg) {j : ι} (hC : FindsPending tenancy requestId cfg j) :
    Settled tenancy requestId (cfg.turn Store.serve j) := by
  obtain ⟨-, he⟩ | ⟨c, hnext, hclean, hstore, hplan, hmarks⟩ := turn_marks hrun hset j
  · rw [he]
    exact hset
  cases hm : mark? tenancy requestId c with
  | none =>
    have hsame : ∀ i, marks tenancy requestId ((cfg.turn Store.serve j).history i)
        = marks tenancy requestId (cfg.history i) := by
      intro i
      simp [hmarks, hm]
    have hreflects : ∀ {ms}, Reflects tenancy requestId ms cfg.store →
        Reflects tenancy requestId ms (cfg.turn Store.serve j).store := by
      intro ms h
      simpa [hstore, hm] using h.serve hclean
    refine ⟨?_, ?_, ?_⟩ <;> simp only [hsame]
    · exact hset.once
    · exact fun hall => hreflects (hset.untouched hall)
    · exact fun i hi => hreflects (hset.touched i hi)
  | some m =>
    -- The call that makes a mark is the only one with marks: if it had none before,
    -- this one is the status, and the request is pending only when nobody has any.
    have hothers : ∀ i, i ≠ j → marks tenancy requestId (cfg.history i) = [] := by
      intro i hij
      by_contra hi
      have hj : marks tenancy requestId (cfg.history j) = [] := by
        by_contra hj
        exact hij (hset.once i j hi hj)
      have hwrote : written tenancy requestId c = some (calls j).target := by
        have hfirst := GateCall.filterMap_status? hplan (by simp [hm])
        rw [← status?_mark?, hm]
        cases hs : m.status? <;> simp [hj, hm, hs] at hfirst ⊢
        exact hfirst
      have hpending := hC c hnext (by simp [hwrote])
      rw [(hset.touched i hi).status, GateCall.filterMap_status? (hrun.trace i).1 hi] at hpending
      exact (calls i).target_ne_pending (Option.some.inj hpending)
    have hreflects : Reflects tenancy requestId
        (marks tenancy requestId (cfg.history j) ++ [m]) (cfg.turn Store.serve j).store := by
      have hbefore : Reflects tenancy requestId (marks tenancy requestId (cfg.history j))
          cfg.store := by
        by_cases hj : marks tenancy requestId (cfg.history j) = []
        · rw [hj]
          refine hset.untouched fun i => ?_
          by_cases hij : i = j
          · rw [hij, hj]
          · exact hothers i hij
        · exact hset.touched j hj
      simpa [hstore, hm] using hbefore.serve hclean
    have hafter : ∀ i, marks tenancy requestId ((cfg.turn Store.serve j).history i) ≠ [] →
        i = j := by
      intro i hi
      by_contra hij
      exact hi (by simp [hmarks, hij, hothers i hij])
    have hj : marks tenancy requestId ((cfg.turn Store.serve j).history j)
        = marks tenancy requestId (cfg.history j) ++ [m] := by simp [hmarks, hm]
    refine ⟨fun i i' hi hi' => (hafter i hi).trans (hafter i' hi').symm, fun hall => ?_,
      fun i hi => ?_⟩
    · have hnil := hall j
      rw [hj] at hnil
      simp at hnil
    · rw [hafter i hi, hj]
      exact hreflects

/-- From a state in which one call at most has moved the request, a turn keeps it so
exactly when what it writes to is pending. -/
theorem turn_exact (hrun : Running tenancy requestId calls cfg)
    (hset : Settled tenancy requestId cfg) (j : ι) :
    (LeavesPendingOnce tenancy requestId cfg j (cfg.turn Store.serve j) ∧
      DecidedOnce tenancy requestId (cfg.turn Store.serve j)) ↔
    FindsPending tenancy requestId cfg j := by
  constructor
  · rintro ⟨-, honce⟩ c hc hwritten
    by_contra hpending
    -- Somebody has moved the request already, and it was not `j`, which writes once.
    obtain ⟨i, hi⟩ : ∃ i, marks tenancy requestId (cfg.history i) ≠ [] := by
      by_contra hnone
      exact hpending (hset.untouched (by simpa using hnone)).status
    obtain ⟨hf, -⟩ | ⟨c', hnext, hclean, hstore, hplan, hmarks⟩ := turn_marks hrun hset j
    · rw [head?_of_finished hf] at hc
      cases hc
    obtain rfl : c' = c := Option.some.inj (hnext.symm.trans hc)
    obtain ⟨s, hs⟩ := Option.ne_none_iff_exists'.mp hwritten
    have hm : mark? tenancy requestId c' = some (.wrote s) := mark?_of_written hs
    have hrun' := hrun.turn hset j
    have hij : i = j := by
      refine honce.once i j ?_ ?_
      · rw [Ne, (hrun'.trace i).moved_eq_none, hmarks]
        simp [hi]
      · rw [Ne, (hrun'.trace j).moved_eq_none, hmarks]
        simp [hm]
    subst hij
    have hfirst := GateCall.filterMap_status? (hrun.trace i).1 hi
    have hagain := GateCall.filterMap_status? hplan (by simp [hi])
    rw [List.filterMap_append, hfirst, hm] at hagain
    simp [Mark.status?] at hagain
  · intro hC
    refine ⟨?_, (hset.turn hrun hC).decidedOnce (hrun.turn hset j)⟩
    obtain ⟨-, he⟩ | ⟨c, hnext, -, hstore, -, -⟩ := turn_marks hrun hset j
    · exact .inl (by rw [he])
    · by_cases hwritten : written tenancy requestId c = none
      · left
        rw [hstore, storedStatus_serve, hwritten, Option.none_or]
      · exact .inr (hC c hnext hwritten)

/-- **Decisions racing on one request.**  However any number of decisions and sweeps are
interleaved, the request is decided at most once exactly when every status that is
written to it finds it pending. -/
theorem decided_once_iff_finds_pending (calls : ι → GateCall) (w : Store)
    (hw : Undecided tenancy requestId w) (js : List ι) :
    Along (Config.turn Store.serve) (DecidedOnce tenancy requestId)
        (LeavesPendingOnce tenancy requestId) (begin tenancy requestId w calls) js ↔
      Each (Config.turn Store.serve) (FindsPending tenancy requestId)
        (begin tenancy requestId w calls) js := by
  have hrun : Running tenancy requestId calls (begin tenancy requestId w calls) :=
    fun j => program_obeys (calls j)
  have hset : Settled tenancy requestId (begin tenancy requestId w calls) :=
    ⟨fun i j hi => absurd rfl hi, fun _ => reflects_nil.mpr hw, fun j hj => absurd rfl hj⟩
  exact along_iff_each
    (I := fun cfg => Running tenancy requestId calls cfg ∧ Settled tenancy requestId cfg)
    (fun cfg j h _ hC => ⟨h.1.turn h.2 j, h.2.turn h.1 hC⟩)
    (fun cfg j h _ => turn_exact h.1 h.2 j) ⟨hrun, hset⟩ (hset.decidedOnce hrun) js

end

/-! ## A request that is decided twice -/

section

variable {tenancy requestId}

/-- A request that `requestGate` has returned is undecided, if nothing was published or
logged under its id before. -/
theorem undecided_requestGate {now : Time} {args : GateArgs} {request : GateRequest} {w w' : Store}
    (h : eval Store.serve (requestGate tenancy now requestId args) w = (.ok request, w'))
    (hevents : decisionEvents requestId w = [])
    (hlogged : ∀ key, (w.decisionLog key).countP (recordsDecision requestId) = 0)
    (haudited : ∀ key, (w.audit key).countP (recordsDecision requestId) = 0) :
    Undecided tenancy requestId w' := by
  cases hv : validateEvidenceForGate args.evidenceBundle with
  | error e => simp [requestGate, hv] at h
  | ok u =>
    simp only [requestGate, announceRequest, logRequest, log, announce, gateEvent, hv, send, command_eq, bind_eq,
      pure_eq, answer_ok, elim_ret, elim_call, eval_call] at h
    cases hsid : SessionId.validate (args.request now requestId).sessionId with
    | error e =>
      rw [hsid] at h
      cases h
    | ok sid =>
      rw [hsid] at h
      cases h
      have hsession := SessionId.validate_eq_ok.mp hsid
      have hentry : recordsDecision requestId
          (.gateRequested requestId args.taskId args.gateType args.requestedBy now) = false := rfl
      refine ⟨?_, ⟨sid, ?_⟩, ?_, fun key => ?_, fun key => ?_⟩
      · simp [storedStatus, Store.serve, Redis.hget_hset, GateArgs.request]
      · simp [Store.serve, Redis.hget_hset, hsession]
      · simpa [decisionEvents, Store.serve, decides] using hevents
      · have hle := countP_update_append requestId w.decisionLog (logKey tenancy args.taskId) key
          (.gateRequested requestId args.taskId args.gateType args.requestedBy now)
        rw [hentry, hlogged] at hle
        exact Nat.le_zero.mp hle
      · have hle := countP_update_append requestId w.audit (auditStream tenancy) key
          (.gateRequested requestId args.taskId args.gateType args.requestedBy now)
        rw [hentry, haudited] at hle
        exact Nat.le_zero.mp hle

end

/-- The store in which the review was requested, under the id `r`. -/
def requested : Store :=
  (eval Store.serve (requestGate plain 0 "r" codeGate) Store.empty).2

theorem undecided_requested : Undecided plain "r" requested := by
  have hrequest : eval Store.serve (requestGate plain 0 "r" codeGate) Store.empty
      = (.ok (codeGate.request 0 "r"), requested) := Prod.ext rfl rfl
  exact undecided_requestGate hrequest rfl (fun _ => rfl) fun _ => rfl

/-- An approval and a rejection. -/
def verdicts : Bool → GateCall := fun approved =>
  .recordDecision 1 "d" ⟨approved, "reviewer", "reason", []⟩

/-- Both reviewers read the request before either writes. -/
def bothRead : List Bool :=
  [true, false, true, true, true, true, true, false, false, false, false, false]

/-- What the theorem says of them. -/
theorem decided_once_requested :
    Along (Config.turn Store.serve) (DecidedOnce plain "r") (LeavesPendingOnce plain "r")
        (begin plain "r" requested verdicts) bothRead ↔
      Each (Config.turn Store.serve) (FindsPending plain "r")
        (begin plain "r" requested verdicts) bothRead :=
  decided_once_iff_finds_pending verdicts requested undecided_requested bothRead

/-- Both calls return a decision, both events are published, and the approval that was
announced is stored as a rejection. -/
theorem approved_and_rejected :
    storedStatus plain "r" requested = some .pending ∧
    (let cfg := run (Config.turn Store.serve) (begin plain "r" requested verdicts) bothRead
     (∀ approved, (cfg.threads approved).finished = true ∧
        moved plain "r" (cfg.history approved) = some (decidedStatus approved)) ∧
      storedStatus plain "r" cfg.store = some .rejected ∧
      decisionEvents "r" cfg.store = [.gateApproved, .gateRejected] ∧
      (cfg.store.decisionLog (logKey plain "t")).countP (recordsDecision "r") = 2) := by
  decide

end DoxAsdlc.Hitl
