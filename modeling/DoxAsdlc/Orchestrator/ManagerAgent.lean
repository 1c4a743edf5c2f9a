import DoxAsdlc.Orchestrator.TaskManager

/-!
# The manager agent

The manager consumes events, moves tasks through the state machine, counts failures,
applies patches and dispatches work.  Every handler is a sequence of commands on the
shared store; whatever one of them raises, `handle` turns into a result that asks for
the event to be delivered again.

## Main definitions

* `publishEventModel` — publication, with tenant and idempotency key filled in.
* `handleTaskFailure` and the `handle…` coroutines — the handlers.
* `handle` — the entry point of the consumer.
* `dispatchToWorker` — the first dispatch of a task.
-/

namespace DoxAsdlc

open Interaction Interaction.Program Async

/-! ## Publication -/

/-- The name of the event stream. -/
def streamName (env : Env) : String := env.tenancy.key env.streamBase

/-- The event as it is published: the tenant and the key are filled in unless given. -/
def ASDLCEvent.prepared (env : Env) (event : ASDLCEvent) : ASDLCEvent :=
  { event with
    tenantId := if env.tenancy.enabled && (given event.tenantId).isNone then
      some env.tenancy.tenantId else event.tenantId
    idempotencyKey := some ((given event.idempotencyKey).getD (event.generatedKey env.digest)) }

/-- The error of a publication that the server refused. -/
def publishFailed (env : Env) (event : ASDLCEvent) (e : Error) : Error :=
  if e.isRedis then
    { cls := .streamError
      message := "Failed to publish event: " ++ e.str
      details := [("event_type", .text event.eventType.value), ("stream", .text (streamName env))] }
  else e

/-- Publish a validated event. -/
def publishEventModel (env : Env) (event : ASDLCEvent) : Async ℕ :=
  try send (.xadd (event.prepared env).toStreamDict)
  catch e => throw (publishFailed env event e)

/-! ## Handlers -/

/-- Fail count threshold for RLM mode. -/
def rlmFailThreshold : ℤ := 4

/-- Does the manager handle events of this type? -/
def canHandle : EventType → Bool
  | .taskCreated | .taskDispatched | .agentCompleted | .agentError | .taskFailed
  | .gateApproved | .gateRejected | .patchCreated => true
  | _ => false

/-- The task that `TASK_CREATED` stands for. -/
def createdTask (now : Time) (event : ASDLCEvent) : Task where
  taskId := event.taskId.getD ""
  sessionId := event.sessionId.val
  epicId := event.epicId.getD ""
  state := .pending
  gitSha := event.gitSha
  createdAt := now
  updatedAt := now

/-- `TASK_CREATED`: create the task. -/
def handleTaskCreated (env : Env) (now : Time) (event : ASDLCEvent) : Async Unit := do
  let _ ← createTask env (createdTask now event)

/-- `TASK_DISPATCHED`: an agent starts on the task. -/
def handleTaskDispatched (env : Env) (now : Time) (event : ASDLCEvent) : Async Unit := do
  match given event.taskId with
  | none => return
  | some taskId =>
    match ← getTask env now taskId with
    | none => return
    | some _ =>
      let _ ← updateState env now taskId .inProgress
        [.currentAgent (some (event.meta "agent_type" "unknown"))]

/-- The dispatch of the debugger after repeated failures. -/
def debugEvent (now : Time) (task : Task) (sessionId : SessionId) (failCount : ℤ)
    (errorMessage : String) : ASDLCEvent where
  eventType := .agentStarted
  sessionId := sessionId
  taskId := some task.taskId
  epicId := some task.epicId
  mode := "rlm"
  timestamp := now
  metadata := [("agent_type", "debugger"), ("fail_count", toString failCount),
    ("error_message", errorMessage)]

/-- Count a failure, and dispatch the debugger when the threshold is exceeded. -/
def handleTaskFailure (env : Env) (now : Time) (task : Task) (errorMessage : String) :
    Async Unit := do
  let failCount ← incrementFailCount env now task.taskId
  if failCount > rlmFailThreshold then
    let sessionId ← answer (SessionId.validate task.sessionId)
    let _ ← publishEventModel env (debugEvent now task sessionId failCount errorMessage)

/-- Is this artifact a patch? -/
def isPatch (path : String) : Bool := ".patch".toList.isSuffixOf path.toList

/-- The commit message of a patch. -/
def patchMessage (taskId : String) : String := "Apply patch for task " ++ taskId

/-- Apply one patch and move the session on. It answers with the exception, if any. -/
def applyOnePatch (env : Env) (event : ASDLCEvent) (taskId patchPath : String) :
    Async (Option Error) :=
  try do
    let newSha ← send (.applyPatch patchPath (patchMessage taskId))
    updateGitSha env event.sessionId.val newSha
    pure none
  catch e => pure (some e)

/-- Apply patches until one fails, which counts as a failure of the task. The answer is
whether all were applied. -/
def applyPatches (env : Env) (now : Time) (event : ASDLCEvent) (taskId : String) (task : Task) :
    List String → Async Bool
  | [] => return true
  | patchPath :: rest => do
      match ← applyOnePatch env event taskId patchPath with
      | some e => do
          handleTaskFailure env now task e.str
          return false
      | none => applyPatches env now event taskId task rest

/-- The dispatch of the test runner. -/
def testEvent (now : Time) (event : ASDLCEvent) (taskId : String) : ASDLCEvent where
  eventType := .taskDispatched
  sessionId := event.sessionId
  taskId := some taskId
  timestamp := now
  metadata := [("agent_type", "test-runner")]

/-- The patches to apply for an event: none without write access. -/
def patchesToApply (env : Env) (event : ASDLCEvent) : List String :=
  if env.gitWriteAccess then event.artifactPaths.filter isPatch else []

/-- `AGENT_COMPLETED`: apply the patches, then send the task to testing. -/
def handleAgentCompleted (env : Env) (now : Time) (event : ASDLCEvent) : Async Unit := do
  match given event.taskId with
  | none => return
  | some taskId =>
    match ← getTask env now taskId with
    | none => return
    | some task =>
      if ← applyPatches env now event taskId task (patchesToApply env event) then
        let _ ← updateState env now taskId .testing
        let _ ← publishEventModel env (testEvent now event taskId)

/-- A reported failure of the task. -/
def handleReportedFailure (defaultMessage : String) (env : Env) (now : Time)
    (event : ASDLCEvent) : Async Unit := do
  match given event.taskId with
  | none => return
  | some taskId =>
    match ← getTask env now taskId with
    | none => return
    | some task => handleTaskFailure env now task (event.meta "error_message" defaultMessage)

/-- `AGENT_ERROR`. -/
def handleAgentError : Env → Time → ASDLCEvent → Async Unit := handleReportedFailure "Agent error"

/-- `TASK_FAILED`. -/
def handleTaskFailed : Env → Time → ASDLCEvent → Async Unit := handleReportedFailure "Task failed"

/-- The announcement that a task is done. -/
def completeEvent (now : Time) (event : ASDLCEvent) (taskId : String) : ASDLCEvent where
  eventType := .taskCompleted
  sessionId := event.sessionId
  taskId := some taskId
  timestamp := now

/-- `GATE_APPROVED`: a task that waits for approval is complete. -/
def handleGateApproved (env : Env) (now : Time) (event : ASDLCEvent) : Async Unit := do
  match given event.taskId with
  | none => return
  | some taskId =>
    match ← getTask env now taskId with
    | none => return
    | some task =>
      if task.state = .blockedHitl then
        let _ ← updateState env now taskId .complete
        let _ ← publishEventModel env (completeEvent now event taskId)

/-- The mode in which a task that failed this often is worked on. -/
def retryMode (failCount : ℤ) : String := if failCount > rlmFailThreshold then "rlm" else "normal"

/-- The dispatch back to the agent after a rejection. -/
def retryEvent (now : Time) (event : ASDLCEvent) (taskId : String) (task : Task)
    (failCount : ℤ) : ASDLCEvent where
  eventType := .agentStarted
  sessionId := event.sessionId
  taskId := some taskId
  epicId := some task.epicId
  mode := retryMode failCount
  timestamp := now
  metadata := [("agent_type", (given task.currentAgent).getD "coding-agent"), ("retry", "true"),
    ("fail_count", toString failCount), ("feedback", event.meta "feedback" "Gate rejected")]

/-- `GATE_REJECTED`: count a failure and send the task back to its agent. -/
def handleGateRejected (env : Env) (now : Time) (event : ASDLCEvent) : Async Unit := do
  match given event.taskId with
  | none => return
  | some taskId =>
    match ← getTask env now taskId with
    | none => return
    | some task =>
      let failCount ← incrementFailCount env now taskId
      let _ ← updateState env now taskId .inProgress
      let _ ← publishEventModel env (retryEvent now event taskId task failCount)

/-- The announcement of an applied patch. -/
def appliedEvent (now : Time) (event : ASDLCEvent) (taskId newSha : String) : ASDLCEvent where
  eventType := .patchApplied
  sessionId := event.sessionId
  taskId := some taskId
  gitSha := some newSha
  timestamp := now

/-- The announcement of a patch that was not applied. -/
def rejectedEvent (now : Time) (event : ASDLCEvent) (taskId error : String) : ASDLCEvent where
  eventType := .patchRejected
  sessionId := event.sessionId
  taskId := some taskId
  timestamp := now
  metadata := [("error", error)]

/-- Apply a patch and announce it; whatever goes wrong is announced as a rejection. -/
def applyAndAnnounce (env : Env) (now : Time) (event : ASDLCEvent) (taskId patchPath : String) :
    Async Unit :=
  try do
    let newSha ← send (.applyPatch patchPath (patchMessage taskId))
    let _ ← publishEventModel env (appliedEvent now event taskId newSha)
  catch e => do
    let _ ← publishEventModel env (rejectedEvent now event taskId e.str)

/-- `PATCH_CREATED`: apply the first artifact if writing is allowed. -/
def handlePatchCreated (env : Env) (now : Time) (event : ASDLCEvent) : Async Unit := do
  match given event.taskId, event.artifactPaths with
  | none, _ => return
  | some _, [] => return
  | some taskId, patchPath :: _ =>
    if env.gitWriteAccess then applyAndAnnounce env now event taskId patchPath

/-- The handler of each event type. -/
def getHandler (env : Env) (now : Time) : EventType → Option (ASDLCEvent → Async Unit)
  | .taskCreated => some (handleTaskCreated env now)
  | .taskDispatched => some (handleTaskDispatched env now)
  | .agentCompleted => some (handleAgentCompleted env now)
  | .agentError => some (handleAgentError env now)
  | .taskFailed => some (handleTaskFailed env now)
  | .gateApproved => some (handleGateApproved env now)
  | .gateRejected => some (handleGateRejected env now)
  | .patchCreated => some (handlePatchCreated env now)
  | _ => none

/-- The result of an event that was dealt with. -/
def handled : HandlerResult where success := true

/-- The result of an event that is to be delivered again. -/
def retryLater (e : Error) : HandlerResult where
  success := false
  shouldRetry := true
  errorMessage := some e.str

/-- Process an event. -/
def handle (env : Env) (now : Time) (event : ASDLCEvent) : Async HandlerResult :=
  match getHandler env now event.eventType with
  | none => return handled
  | some handler =>
    try do
      handler event
      pure handled
    catch e => pure (retryLater e)

/-- The first dispatch of a task to an agent. -/
def dispatchEvent (now : Time) (task : Task) (sessionId : SessionId) (agentType mode : String) :
    ASDLCEvent where
  eventType := .agentStarted
  sessionId := sessionId
  taskId := some task.taskId
  epicId := some task.epicId
  gitSha := task.gitSha
  mode := mode
  timestamp := now
  metadata := [("agent_type", agentType),
    ("context_pack", "/context/packs/" ++ task.taskId ++ ".json")]

/-- Dispatch a task to a worker agent. -/
def dispatchToWorker (env : Env) (now : Time) (task : Task) (agentType mode : String) :
    Async Unit := do
  let _ ← updateState env now task.taskId .inProgress [.currentAgent (some agentType)]
  let sessionId ← answer (SessionId.validate task.sessionId)
  let _ ← publishEventModel env (dispatchEvent now task sessionId agentType mode)

/-- The manager handles exactly the types it has a handler for. -/
theorem canHandle_iff (env : Env) (now : Time) (t : EventType) :
    canHandle t = (getHandler env now t).isSome := by
  cases t <;> rfl

end DoxAsdlc
