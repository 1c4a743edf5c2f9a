import DoxAsdlc.Infrastructure.EventConsumer
import DoxAsdlc.Interaction.Pool

/-!
# The worker pool

Workers take `AGENT_STARTED` entries from the stream.  A worker first claims the
idempotency key of the event with an atomic SET NX, then dispatches it to an agent,
publishes the result and acknowledges; one `except` covers all of it and publishes an
error instead.

A delivery is followed by a machine of phases, one for each place between two of its
commands.

## Main definitions

* `processEvent`, `deliverEntry` — the handling of one event, and of one delivery.
* `Phase`, `worker` — where a delivery stands, and the machine that follows it.
* `Job`, `Pool` — deliveries and coroutines of the manager, run together.
-/

namespace DoxAsdlc

open Interaction Interaction.Program Async

/-! ## Keys and names -/

/-- A name with the prefix of the pool's tenant, if it has one. -/
def workerName (env : Env) (base : String) : String :=
  match given env.workerTenant with
  | none => base
  | some tenant => "tenant:" ++ tenant ++ ":" ++ base

/-- `_get_key` of the worker pool's idempotency tracker. -/
def markKey (env : Env) (idempotencyKey : String) : String :=
  workerName env ("asdlc:worker:processed:" ++ idempotencyKey)

/-- `_get_event_idempotency_key`: the event's own key, or else the generated one. -/
def eventIdempotencyKey (env : Env) (event : ASDLCEvent) : String :=
  (given event.idempotencyKey).getD (event.generatedKey env.digest)

theorem markKey_inj (env : Env) {k k' : String} : markKey env k = markKey env k' ↔ k = k' := by
  unfold markKey workerName
  cases given env.workerTenant <;> simp [String.append_right_inj]

/-! ## One event -/

/-- `check_and_mark_if_new`: claim the key of the event. -/
def checkAndMarkIfNew (env : Env) (event : ASDLCEvent) : Async Bool :=
  send (.setNx (markKey env (eventIdempotencyKey env event)) event.eventId)

/-- Acknowledge an entry for the pool's group. -/
def acknowledge (env : Env) (eventId : Option ℕ) : Async Bool :=
  try send (.xack .workers eventId)
  catch e => throw (acknowledgeFailed (workerName env env.streamBase) eventId e)

/-- The context in which an agent works on an event. -/
def agentContext (env : Env) (event : ASDLCEvent) : AgentContext where
  sessionId := event.sessionId.val
  taskId := (given event.taskId).getD "unknown"
  tenantId := (given env.workerTenant).getD ((given event.tenantId).getD "default")
  workspacePath := env.workspacePath
  gitSha := event.gitSha
  epicId := event.epicId
  mode := event.mode

/-- The event that announces an agent's result. -/
def resultEvent (now : Time) (event : ASDLCEvent) (result : AgentResult) : ASDLCEvent where
  eventType := if result.success then .agentCompleted else .agentError
  sessionId := event.sessionId
  taskId := event.taskId
  epicId := event.epicId
  gitSha := event.gitSha
  artifactPaths := result.artifactPaths
  mode := event.mode
  tenantId := event.tenantId
  timestamp := now
  -- An entry of the result's own metadata goes before the pool's of the same name.
  metadata := result.metadata ++ [("agent_type", result.agentType),
    ("success", toString result.success)] ++
    result.errorMessage.toList.map (("error_message", ·)) ++
    [("should_retry", toString result.shouldRetry)]

/-- The event that announces that an event could not be processed. -/
def errorEvent (now : Time) (event : ASDLCEvent) (message : String) : ASDLCEvent where
  eventType := .agentError
  sessionId := event.sessionId
  taskId := event.taskId
  epicId := event.epicId
  gitSha := event.gitSha
  mode := event.mode
  tenantId := event.tenantId
  timestamp := now
  metadata := [("agent_type", event.meta "agent_type" "unknown"), ("success", "false"),
    ("error_message", message), ("should_retry", "false")]

/-- `_publish_event`: the event goes out as it is, without a key or a tenant of its own. -/
def publishEvent (event : ASDLCEvent) : Async ℕ := send (.xadd event.toStreamDict)

/-- `_publish_result`. -/
def publishResult (now : Time) (event : ASDLCEvent) (result : AgentResult) : Async Unit := do
  let _ ← publishEvent (resultEvent now event result)

/-- `_publish_error`. -/
def publishError (now : Time) (event : ASDLCEvent) (message : String) : Async Unit := do
  let _ ← publishEvent (errorEvent now event message)

/-- The body of both `except` clauses: publish the error and acknowledge. -/
def reportError (env : Env) (now : Time) (event : ASDLCEvent) (e : Error) : Async Unit := do
  publishError now event e.str
  let _ ← acknowledge env event.eventId

/-- Publish the result of an agent and acknowledge. -/
def finishEvent (env : Env) (now : Time) (event : ASDLCEvent) (result : AgentResult) :
    Async Unit := do
  publishResult now event result
  let _ ← acknowledge env event.eventId

/-- Dispatch to an agent, publish and acknowledge. -/
def executeEvent (env : Env) (now : Time) (event : ASDLCEvent) : Async Unit := do
  let result ← send (.dispatch event (agentContext env event))
  finishEvent env now event result

/-- `_process_event`. -/
def processEvent (env : Env) (now : Time) (event : ASDLCEvent) : Async Unit :=
  try do
    if ← checkAndMarkIfNew env event then
      executeEvent env now event
    else
      let _ ← acknowledge env event.eventId
  catch e => reportError env now event e

/-- A delivery of an entry to the pool, read for the first time or claimed again. -/
structure Receipt where
  entry : ℕ
  fresh : Bool
  now : Time
  deriving DecidableEq, Repr

/-- One delivery. Events of other types are acknowledged when they are read and left
when they are claimed; an entry that does not parse is left. -/
def deliverEntry (env : Env) (r : Receipt) : Async Unit := do
  match ← send (.claim .workers r.entry) with
  | none => pure ()
  | some data =>
    match ASDLCEvent.fromStreamDict r.now r.entry data with
    | .error e => throw e
    | .ok event =>
      if event.eventType = .agentStarted then processEvent env r.now event
      else if r.fresh then
        let _ ← acknowledge env event.eventId
      else pure ()

/-! ## The phases of a delivery -/

/-- Why an event could not be processed. -/
inductive Cause where
  | marking
  | duplicateAck
  | dispatch
  | publication (effective : Bool)
  | acknowledgement
  deriving DecidableEq, Repr

/-- Where a delivery stands: each phase but the last is named for what has just
happened. -/
inductive Phase where
  | claiming
  | received (event : ASDLCEvent)
  | duplicate (event : ASDLCEvent)
  | taken (event : ASDLCEvent)
  | ran (event : ASDLCEvent) (result : AgentResult)
  | announced (event : ASDLCEvent)
  | failed (event : ASDLCEvent) (e : Error) (cause : Cause)
  | reported (event : ASDLCEvent)
  | skipped (event : ASDLCEvent)
  | closed (result : Except Error Unit)

namespace Phase

/-- What is left to do in a phase. -/
def program (env : Env) (r : Receipt) : Phase → Async Unit
  | claiming => deliverEntry env r
  | received event => processEvent env r.now event
  | duplicate event | announced event =>
    try do let _ ← acknowledge env event.eventId
    catch e => reportError env r.now event e
  | taken event =>
    try executeEvent env r.now event
    catch e => reportError env r.now event e
  | ran event result =>
    try finishEvent env r.now event result
    catch e => reportError env r.now event e
  | failed event e _ => reportError env r.now event e
  | reported event | skipped event => do
      let _ ← acknowledge env event.eventId
  | closed result => answer result

/-- The phase after the claim was answered. -/
def receive (r : Receipt) : Option StreamEntry → Phase
  | none => closed (.ok ())
  | some data =>
    match ASDLCEvent.fromStreamDict r.now r.entry data with
    | .error e => closed (.error e)
    | .ok event =>
      if event.eventType = .agentStarted then received event
      else if r.fresh then skipped event else closed (.ok ())

/-- The end of an acknowledgement outside the `try`. -/
def ended (env : Env) (event : ASDLCEvent) : Except Error Bool → Phase
  | .ok _ => closed (.ok ())
  | .error e => closed (.error (acknowledgeFailed (workerName env env.streamBase) event.eventId e))

/-- The phase after an acknowledgement inside the `try`. -/
def acknowledged (env : Env) (event : ASDLCEvent) (cause : Cause) : Except Error Bool → Phase
  | .ok _ => closed (.ok ())
  | .error e =>
    failed event (acknowledgeFailed (workerName env env.streamBase) event.eventId e) cause

/-- The phase after an exchange with the server. -/
def next (env : Env) (r : Receipt) : Phase → Exchange interface Error → Phase
  | claiming, ⟨.claim _ _, .ok data, _⟩ => receive r data
  | claiming, ⟨.claim _ _, .error e, _⟩ => closed (.error e)
  | received event, ⟨.setNx _ _, .ok isNew, _⟩ => if isNew then taken event else duplicate event
  | received event, ⟨.setNx _ _, .error e, _⟩ => failed event e .marking
  | duplicate event, ⟨.xack _ _, reply, _⟩ => acknowledged env event .duplicateAck reply
  | taken event, ⟨.dispatch _ _, .ok result, _⟩ => ran event result
  | taken event, ⟨.dispatch _ _, .error e, _⟩ => failed event e .dispatch
  | ran event _, ⟨.xadd _, .ok _, _⟩ => announced event
  | ran event _, ⟨.xadd _, .error e, effective⟩ => failed event e (.publication effective)
  | announced event, ⟨.xack _ _, reply, _⟩ => acknowledged env event .acknowledgement reply
  | failed event _ _, ⟨.xadd _, .ok _, _⟩ => reported event
  | failed _ _ _, ⟨.xadd _, .error e, _⟩ => closed (.error e)
  | reported event, ⟨.xack _ _, reply, _⟩ | skipped event, ⟨.xack _ _, reply, _⟩ =>
    ended env event reply
  | phase, _ => phase

/-- The command that comes next. -/
def command (env : Env) (r : Receipt) : Phase → Option Cmd
  | claiming => some (.claim .workers r.entry)
  | received event =>
    some (.setNx (markKey env (eventIdempotencyKey env event)) event.eventId)
  | taken event => some (.dispatch event (agentContext env event))
  | ran event result => some (.xadd (resultEvent r.now event result).toStreamDict)
  | failed event e _ => some (.xadd (errorEvent r.now event e.str).toStreamDict)
  | duplicate event | announced event | reported event | skipped event =>
    some (.xack .workers event.eventId)
  | closed _ => none

/-- The event a phase is about. -/
def event? : Phase → Option ASDLCEvent
  | claiming | closed _ => none
  | received event | duplicate event | taken event | ran event _ | announced event
  | failed event _ _ | reported event | skipped event => some event

theorem program_command {env : Env} {r : Receipt} {p : Phase} {c : Cmd}
    {k : Except Error (Reply c) → Async Unit} (h : p.program env r = .call c k) :
    p.command env r = some c := by
  cases p with
  | closed result => cases result <;> cases h
  | _ => cases h; rfl

theorem head?_program (env : Env) (r : Receipt) (p : Phase) :
    (p.program env r).head? = p.command env r := by
  cases p with
  | closed result => cases result <;> rfl
  | _ => rfl

theorem finished_iff {env : Env} {r : Receipt} {p : Phase} :
    (p.program env r).finished = true ↔ p.command env r = none := by
  cases p with
  | closed result => cases result <;> simp [program, command]
  | _ => simp [command]; rfl

end Phase

/-- The machine that follows a delivery. -/
def worker (env : Env) (r : Receipt) : Tracker interface Error Unit Phase where
  program := Phase.program env r
  next := Phase.next env r
  follows := by
    intro p c k h reply b
    cases p with
    | closed result => cases result <;> cases h
    | claiming =>
      cases h
      rcases reply with e | _ | data
      · rfl
      · rfl
      · simp only [Phase.next, Phase.receive, answer_ok, elim_ret]
        cases hread : ASDLCEvent.fromStreamDict r.now r.entry data with
        | error e => rfl
        | ok event =>
          by_cases htype : event.eventType = .agentStarted
          · simp only [htype, if_true, Phase.program]
          · cases hfresh : r.fresh with
            | false => simp [htype, Phase.program]
            | true => simp [htype, Phase.program]
    | received event =>
      cases h
      rcases reply with e | _ | _ <;> rfl
    | _ =>
      cases h
      cases reply <;> rfl

/-! ## The pool and the manager together -/

/-- A coroutine of the pool or of the manager. -/
inductive Job where
  | deliver (r : Receipt)
  | manage (now : Time) (event : ASDLCEvent)
  | assign (now : Time) (task : Task) (agentType mode : String)

/-- What a job does. -/
def Job.program (env : Env) : Job → Async Unit
  | .deliver r => deliverEntry env r
  | .manage now event => do
      let _ ← handle env now event
  | .assign now task agentType mode => dispatchToWorker env now task agentType mode

/-- What happens to the store besides: somebody else publishes an event, a key of the
worker pool expires, the stream is trimmed. -/
inductive Happening where
  | append (event : ASDLCEvent)
  | expire (key : String)
  | trim (n : ℕ)

/-- The store after it. -/
def Happening.apply : Happening → Store → Store
  | .append event, w => { w with stream := w.stream ++ [event.toStreamDict] }
  | .expire key, w => w.expire none (some key)
  | .trim n, w => { w with trimmed := max w.trimmed (min n w.stream.length) }

/-- Jobs that run together. -/
abbrev Pool (ι : Type) := Config interface Store Error Unit ι

/-- A step of the pool. -/
abbrev PoolAction (ι : Type) := Action ι Error Happening

section

variable {ι : Type} [DecidableEq ι]

/-- The pool before its first step. -/
def Pool.start (env : Env) (w : Store) (jobs : ι → Job) : Pool ι :=
  Config.start w fun j => (jobs j).program env

/-- What a step does. -/
def poolStep (env : Env) : Pool ι → PoolAction ι → Pool ι :=
  Config.step (Store.serve env) Happening.apply

/-- The phase of delivery `j`. -/
def phaseOf (env : Env) (cfg : Pool ι) (r : Receipt) (j : ι) : Phase :=
  (worker env r).after .claiming (cfg.history j)

end

/-- Coroutines of the manager use its commands only. -/
theorem uses_job {env : Env} {job : Job} (h : ∀ r, job ≠ .deliver r) :
    Uses HandlerCommand (job.program env) := by
  cases job with
  | deliver r => exact absurd rfl (h r)
  | manage now event => exact uses_bind uses_handle fun _ => uses_ret _
  | assign now task agentType mode =>
    exact uses_bind uses_updateState fun _ => uses_bind (uses_answer _) fun _ =>
      uses_bind uses_publishEventModel fun _ => uses_ret _

/-! ## Entries -/

/-- The key by which an `AGENT_STARTED` entry is deduplicated. Neither the position nor
the clock matter to it. -/
def startedKey (env : Env) (data : StreamEntry) : Option String :=
  match ASDLCEvent.fromStreamDict 0 0 data with
  | .error _ => none
  | .ok event =>
    if event.eventType = .agentStarted then some (eventIdempotencyKey env event) else none

/-- The key of entry `i`, if it is an `AGENT_STARTED` entry. -/
def startedAt (env : Env) (w : Store) (i : ℕ) : Option String :=
  (w.stream[i]?).bind (startedKey env)

theorem startedKey_of_read {env : Env} {now : Time} {i : ℕ} {data : StreamEntry}
    {event : ASDLCEvent} (h : ASDLCEvent.fromStreamDict now i data = .ok event) :
    startedKey env data
      = if event.eventType = .agentStarted then some (eventIdempotencyKey env event) else none := by
  cases hsid : SessionId.validate ((data .sessionId).getD "") with
  | error e =>
    simp only [ASDLCEvent.fromStreamDict, hsid] at h
    cases h
  | ok sid =>
    simp only [ASDLCEvent.fromStreamDict, hsid] at h
    cases h
    simp only [startedKey, ASDLCEvent.fromStreamDict, hsid]
    rfl

/-- Other events have no such key. -/
theorem startedKey_of_ne (env : Env) {event : ASDLCEvent} (h : event.eventType ≠ .agentStarted) :
    startedKey env event.toStreamDict = none := by
  rw [startedKey_of_read (event.fromStreamDict_toStreamDict 0 0)]
  exact if_neg h

/-- A redelivery of entry `i` without faults runs an agent on it. -/
def Redeliverable (env : Env) (w : Store) (i : ℕ) : Prop :=
  ∀ fresh now, ∃ event : ASDLCEvent, event.eventId = some i ∧
    (eval (Store.serve env) (deliverEntry env ⟨i, fresh, now⟩) w).2.executed = w.executed ++ [event]

/-- An entry is redelivered while it is in the stream, not acknowledged and not marked. -/
theorem redeliverable {env : Env} {w : Store} {i : ℕ} {key : String}
    (hstarted : startedAt env w i = some key) (hacked : w.acked .workers i = false)
    (htrimmed : ¬ i < w.trimmed) (hmarks : w.marks (markKey env key) = none) :
    Redeliverable env w i := by
  intro fresh now
  cases hdata : w.stream[i]? with
  | none => simp [startedAt, hdata] at hstarted
  | some data =>
    simp only [startedAt, hdata, Option.bind_some] at hstarted
    cases hread : ASDLCEvent.fromStreamDict now i data with
    | error e =>
      simp [startedKey, ASDLCEvent.fromStreamDict_error hread] at hstarted
    | ok event =>
      rw [startedKey_of_read hread] at hstarted
      have htype : event.eventType = .agentStarted := by
        by_contra hne
        simp [hne] at hstarted
      rw [if_pos htype, Option.some.injEq] at hstarted
      subst hstarted
      refine ⟨event, (ASDLCEvent.fromStreamDict_eq_ok hread).1, ?_⟩
      simp [deliverEntry, Store.serve, hacked, Store.entry?, htrimmed, hdata, hread, htype,
        processEvent, checkAndMarkIfNew, hmarks, executeEvent, finishEvent, publishResult,
        publishEvent, acknowledge]
      cases event.eventId <;> rfl

end DoxAsdlc
