import DoxAsdlc.Orchestrator.ManagerAgent

/-!
# The consumer of the manager's group

The consumer reads an entry, checks whether its idempotency key was processed
already, hands it to the manager, and then marks the key and acknowledges.  The two
are separate commands: an entry that was marked and not acknowledged is delivered
again and skipped, one that was handled and not marked is handled again.

## Main definitions

* `acknowledgeEvent`, `isProcessed`, `markProcessed` — the consumer's own commands.
* `handleEvent` — what it does with one event.
* `receiveEntry` — the same for one entry of the stream.
-/

namespace DoxAsdlc

open Interaction Interaction.Program Async

/-- The error of an acknowledgement that the server refused. -/
def acknowledgeFailed (stream : String) (eventId : Option ℕ) (e : Error) : Error :=
  if e.isRedis then
    { cls := .streamError
      message := "Failed to acknowledge event: " ++ e.str
      details := [("event_id", .text (eventId.elim "None" toString)), ("stream", .text stream)] }
  else e

/-- Acknowledge an entry for a consumer group. -/
def acknowledgeEvent (env : Env) (group : Group) (eventId : Option ℕ) : Async Bool :=
  try send (.xack group eventId)
  catch e => throw (acknowledgeFailed (streamName env) eventId e)

/-- `_get_key` of the consumer's idempotency tracker. -/
def processedKey (env : Env) (idempotencyKey : String) : String :=
  env.tenancy.key ("asdlc:processed:" ++ idempotencyKey)

@[simp] theorem processedKey_inj (env : Env) {k k' : String} :
    processedKey env k = processedKey env k' ↔ k = k' := by
  simp [processedKey, String.append_right_inj]

/-- Was an event with this key processed? -/
def isProcessed (env : Env) (idempotencyKey : String) : Async Bool :=
  send (.exists (processedKey env idempotencyKey))

/-- Mark an event as processed. -/
def markProcessed (env : Env) (idempotencyKey : String) (eventId : Option ℕ) : Async Unit :=
  send (.set (processedKey env idempotencyKey) eventId)

/-- `idempotency_key and await tracker.is_processed(idempotency_key)`. -/
def alreadyProcessed (env : Env) (event : ASDLCEvent) : Async Bool :=
  match given event.idempotencyKey with
  | none => pure false
  | some key => isProcessed env key

/-- Mark the key, if there is one, and acknowledge. -/
def settle (env : Env) (event : ASDLCEvent) : Async Unit := do
  match given event.idempotencyKey with
  | none => pure ()
  | some key => markProcessed env key event.eventId
  let _ ← acknowledgeEvent env .manager event.eventId

/-- What becomes of an event after the handler's answer. -/
def conclude (env : Env) (event : ASDLCEvent) (result : HandlerResult) : Async Unit :=
  if result.success then settle env event
  else if result.shouldRetry then pure ()
  else do let _ ← acknowledgeEvent env .manager event.eventId

/-- Handle an event that was not processed before. Whatever raises, the event stays
unacknowledged. -/
def process (env : Env) (now : Time) (event : ASDLCEvent) : Async Unit :=
  try do
    let result ← handle env now event
    conclude env event result
  catch _ => pure ()

/-- Handle a single event. -/
def handleEvent (env : Env) (now : Time) (event : ASDLCEvent) : Async Unit := do
  if canHandle event.eventType then
    if ← alreadyProcessed env event then
      let _ ← acknowledgeEvent env .manager event.eventId
    else process env now event
  else
    let _ ← acknowledgeEvent env .manager event.eventId

/-- The event of entry `i`, when it is still pending for the manager's group. -/
def pendingEvent (w : Store) (now : Time) (i : ℕ) : Option ASDLCEvent :=
  if w.acked .manager i then none
  else (w.entry? i).bind fun data => (ASDLCEvent.fromStreamDict now i data).toOption

/-- One delivery of entry `i`: it happens only while the entry is pending, and it may
fail or stop at any command. -/
def receiveEntry (env : Env) (w : Store) (i : ℕ) (now : Time) (outcomes : List (Outcome Error)) :
    Store :=
  match pendingEvent w now i with
  | none => w
  | some event => (play (Store.serve env) outcomes (handleEvent env now event) w).2

/-! ## The commands of the manager -/

/-- The commands that handlers use: they leave acknowledgements and keys alone. -/
def HandlerCommand : Cmd → Prop
  | .hgetall _ | .hset _ _ | .hincrby _ _ | .hsetSession _ _ | .applyPatch _ _ | .xadd _ => True
  | _ => False

section

variable {env : Env} {now : Time} {event : ASDLCEvent}

theorem uses_getTask {taskId : String} : Uses HandlerCommand (getTask env now taskId) :=
  uses_bind (uses_command trivial) fun _ => uses_ret _

theorem uses_updateState {taskId : String} {newState : TaskState} {updates : List TaskUpdate} :
    Uses HandlerCommand (updateState env now taskId newState updates) := by
  refine uses_bind uses_getTask fun r => ?_
  cases r with
  | none => trivial
  | some task =>
    exact uses_bind (uses_answer _) fun _ => uses_bind (uses_command trivial) fun _ =>
      uses_ret _

theorem uses_incrementFailCount {taskId : String} :
    Uses HandlerCommand (incrementFailCount env now taskId) :=
  uses_bind (uses_command trivial) fun _ => uses_bind (uses_command trivial) fun _ => uses_ret _

theorem uses_publishEventModel : Uses HandlerCommand (publishEventModel env event) :=
  uses_tryCatch (uses_command trivial) fun _ => uses_raise _

theorem uses_handleTaskFailure {task : Task} {message : String} :
    Uses HandlerCommand (handleTaskFailure env now task message) := by
  refine uses_bind uses_incrementFailCount fun n => ?_
  split
  · exact uses_bind (uses_answer _) fun _ => uses_bind uses_publishEventModel fun _ => uses_ret _
  · trivial

theorem uses_applyPatches {taskId : String} {task : Task} (patches : List String) :
    Uses HandlerCommand (applyPatches env now event taskId task patches) := by
  induction patches with
  | nil => trivial
  | cons patchPath rest ih =>
    refine uses_bind (uses_tryCatch (uses_bind (uses_command trivial) fun _ =>
      uses_bind (uses_command trivial) fun _ => uses_ret _) fun _ => uses_ret _) fun r => ?_
    cases r with
    | none => exact ih
    | some e => exact uses_bind uses_handleTaskFailure fun _ => uses_ret _

theorem uses_bind_getTask {taskId : String} {k : Option Task → Async Unit}
    (hnone : Uses HandlerCommand (k none)) (hsome : ∀ task, Uses HandlerCommand (k (some task))) :
    Uses HandlerCommand (getTask env now taskId >>= k) := by
  refine uses_bind uses_getTask fun found => ?_
  cases found with
  | none => exact hnone
  | some task => exact hsome task

theorem uses_handleTaskDispatched : Uses HandlerCommand (handleTaskDispatched env now event) := by
  unfold handleTaskDispatched
  split
  · trivial
  · exact uses_bind_getTask trivial fun _ => uses_bind uses_updateState fun _ => uses_ret _

theorem uses_handleAgentCompleted : Uses HandlerCommand (handleAgentCompleted env now event) := by
  unfold handleAgentCompleted
  split
  · trivial
  · refine uses_bind_getTask trivial fun _ => uses_bind (uses_applyPatches _) fun b => ?_
    split
    · exact uses_bind uses_updateState fun _ => uses_bind uses_publishEventModel fun _ => uses_ret _
    · trivial

theorem uses_handleReportedFailure {message : String} :
    Uses HandlerCommand (handleReportedFailure message env now event) := by
  unfold handleReportedFailure
  split
  · trivial
  · exact uses_bind_getTask trivial fun _ => uses_handleTaskFailure

theorem uses_handleGateApproved : Uses HandlerCommand (handleGateApproved env now event) := by
  unfold handleGateApproved
  split
  · trivial
  · refine uses_bind_getTask trivial fun task => ?_
    change Uses HandlerCommand (ite (task.state = .blockedHitl) (_ : Async Unit) _)
    split
    · exact uses_bind uses_updateState fun _ => uses_bind uses_publishEventModel fun _ => uses_ret _
    · trivial

theorem uses_handleGateRejected : Uses HandlerCommand (handleGateRejected env now event) := by
  unfold handleGateRejected
  split
  · trivial
  · exact uses_bind_getTask trivial fun _ => uses_bind uses_incrementFailCount fun _ =>
      uses_bind uses_updateState fun _ => uses_bind uses_publishEventModel fun _ => uses_ret _

theorem uses_handlePatchCreated : Uses HandlerCommand (handlePatchCreated env now event) := by
  unfold handlePatchCreated
  split
  · trivial
  · trivial
  · split
    · exact uses_tryCatch (uses_bind (uses_command trivial) fun _ =>
        uses_bind uses_publishEventModel fun _ => uses_ret _) fun _ =>
          uses_bind uses_publishEventModel fun _ => uses_ret _
    · trivial

/-- Every handler uses handler commands only. -/
theorem uses_handler {handler : ASDLCEvent → Async Unit}
    (hh : getHandler env now event.eventType = some handler) :
    Uses HandlerCommand (handler event) := by
  cases ht : event.eventType <;> rw [ht] at hh <;> simp only [getHandler, Option.some.injEq,
    reduceCtorEq] at hh <;> subst hh
  case taskCreated =>
    exact uses_bind (uses_bind (uses_command trivial) fun _ => uses_ret _) fun _ => uses_ret _
  case taskDispatched => exact uses_handleTaskDispatched
  case agentCompleted => exact uses_handleAgentCompleted
  case agentError => exact uses_handleReportedFailure
  case taskFailed => exact uses_handleReportedFailure
  case gateApproved => exact uses_handleGateApproved
  case gateRejected => exact uses_handleGateRejected
  case patchCreated => exact uses_handlePatchCreated

theorem uses_handle : Uses HandlerCommand (handle env now event) := by
  unfold handle
  split
  · trivial
  · rename_i handler hh
    exact uses_tryCatch (uses_bind (uses_handler hh) fun _ => uses_ret _) fun _ => uses_ret _

end

end DoxAsdlc
