import DoxAsdlc.Core.Events
import DoxAsdlc.Interaction.Program

/-!
# The shared store of the orchestrator and the workers

The states of a task and the transitions between them.  `complete` is the one
terminal state, and it is entered from `blockedHitl` alone.

Everything the manager agent, the consumers and the worker pool share: the task and
session hashes, the event stream with the acknowledgements of its two consumer
groups, the two families of deduplication keys, and the commits of the repository.
Each command is one indivisible step of the server.

An entry of the stream is known by its position.  The stream is only ever appended
to; `trimmed` is the number of entries that `MAXLEN` has cut off its front.  A patch
application either commits or raises, so it is one command as well.

## Main definitions

* `TaskState`, `TaskState.transitions` — the states and the transition table.
* `canTransition`, `validateTransition` — the check and the raising check.
* `TaskHash`, `SessionHash`, `Commit`, `Store` — the state.
* `Cmd`, `interface`, `serve` — the commands, and what each does.
* `Env`, `Async` — the fixed surroundings of a program, and programs over the store.
-/

namespace DoxAsdlc

/-- All possible states of a task. -/
inductive TaskState where
  | pending | inProgress | testing | review | blockedHitl | complete | failed
  deriving DecidableEq, Repr

namespace TaskState

/-- The text that stands for a state in a task's hash. -/
def value : TaskState → String
  | .pending => "pending"
  | .inProgress => "in_progress"
  | .testing => "testing"
  | .review => "review"
  | .blockedHitl => "blocked_hitl"
  | .complete => "complete"
  | .failed => "failed"

/-- Valid transitions from each state. -/
def transitions : TaskState → List TaskState
  | .pending => [.inProgress, .failed]
  | .inProgress => [.testing, .failed, .blockedHitl]
  | .testing => [.review, .inProgress, .failed]
  | .review => [.blockedHitl, .inProgress, .failed]
  | .blockedHitl => [.complete, .inProgress, .failed]
  | .complete => []
  | .failed => [.pending]

end TaskState

/-- Is the transition valid? -/
def canTransition (fromState toState : TaskState) : Bool := toState ∈ fromState.transitions

/-- Raise unless the transition is valid. -/
def validateTransition (fromState toState : TaskState) : Except Error Unit :=
  if canTransition fromState toState then .ok ()
  else .error {
    cls := .taskStateError
    message := "Invalid transition: " ++ fromState.value ++ " → " ++ toState.value
    details := [("from_state", .text fromState.value), ("to_state", .text toState.value),
      ("valid_targets", .texts (fromState.transitions.map TaskState.value))] }

/-- No transition leads out of a terminal state. -/
def isTerminal (state : TaskState) : Bool := state.transitions.length == 0

/-- Is the task awaiting external action? -/
def isBlocked (state : TaskState) : Bool := state == .blockedHitl

@[simp] theorem not_canTransition_self (s : TaskState) : canTransition s s = false := by
  cases s <;> rfl

@[simp] theorem not_canTransition_complete (s : TaskState) :
    canTransition .complete s = false := by
  cases s <;> rfl

/-- Work is finished only by an approval. -/
theorem canTransition_to_complete (s : TaskState) :
    canTransition s .complete = true ↔ s = .blockedHitl := by
  cases s <;> decide

@[simp] theorem validateTransition_eq_ok (s t : TaskState) (u : Unit) :
    validateTransition s t = .ok u ↔ canTransition s t = true := by
  unfold validateTransition
  split <;> simp_all

theorem validateTransition_of_can {s t : TaskState} (h : canTransition s t = true) :
    validateTransition s t = .ok () := by
  simp [validateTransition, h]

/-- Whatever an invalid transition raises is a `TaskStateError` that names both states. -/
theorem validateTransition_error {s t : TaskState} {e : Error}
    (h : validateTransition s t = .error e) :
    canTransition s t = false ∧ e.cls = .taskStateError ∧
      ("from_state", .text s.value) ∈ e.details ∧ ("to_state", .text t.value) ∈ e.details := by
  unfold validateTransition at h
  split at h
  · cases h
  · rename_i hcan
    injection h with h
    subst h
    simp [Bool.eq_false_iff.mpr hcan]

end DoxAsdlc

/-! ## The shared store of the orchestrator and the workers -/

namespace DoxAsdlc

/-- The fields of a task's hash. -/
inductive TaskField where
  | taskId | sessionId | epicId | state | failCount | createdAt | updatedAt | currentAgent
  | gitSha | artifactPaths
  deriving DecidableEq, Repr

/-- What each field of a task's hash holds. -/
abbrev TaskValue : TaskField → Type
  | .state => TaskState
  | .failCount => ℤ
  | .createdAt | .updatedAt => Time
  | _ => String

/-- A stored task. -/
abbrev TaskHash := Redis.Hash TaskValue

/-- The fields of a session's hash that the manager writes. -/
inductive SessionField where
  | sessionId | tenantId | currentGitSha | activeEpicIds | createdAt | status
  deriving DecidableEq, Repr

/-- What each field of a session's hash holds. -/
abbrev SessionValue : SessionField → Type
  | .createdAt => Time
  | _ => String

/-- A stored session. -/
abbrev SessionHash := Redis.Hash SessionValue

/-- A commit of the repository, by the patch it applied and its message. -/
structure Commit where
  patchPath : String
  message : String
  deriving DecidableEq, Repr

/-- What a worker tells an agent about its task. -/
structure AgentContext where
  sessionId : String
  taskId : String
  tenantId : String
  workspacePath : String
  gitSha : Option String
  epicId : Option String
  mode : String
  deriving DecidableEq, Repr

/-- What an agent answers. -/
structure AgentResult where
  success : Bool
  agentType : String
  taskId : String
  errorMessage : Option String := none
  shouldRetry : Bool := false
  artifactPaths : List String := []
  metadata : List (String × String) := []
  deriving DecidableEq, Repr

/-- The consumer groups of the stream. -/
inductive Group where
  | manager | workers
  deriving DecidableEq, Repr

/-- The store. -/
structure Store where
  tasks : Redis.Keys String TaskHash
  sessions : Redis.Keys String SessionHash
  commits : List Commit
  stream : List StreamEntry
  trimmed : ℕ
  acked : Group → ℕ → Bool
  /-- `asdlc:processed:` keys, with the id of the event that was processed. -/
  processed : Redis.Keys String (Option ℕ)
  /-- `asdlc:worker:processed:` keys, with the id of the event that was taken. -/
  marks : Redis.Keys String (Option ℕ)
  /-- The events that agents were run on. -/
  executed : List ASDLCEvent

/-- The store before anything was written. -/
def Store.empty : Store where
  tasks := fun _ => none
  sessions := fun _ => none
  commits := []
  stream := []
  trimmed := 0
  acked := fun _ _ => false
  processed := fun _ => none
  marks := fun _ => none
  executed := []

/-- The commands. -/
inductive Cmd where
  | hgetall (key : String)
  | hset (key : String) (mapping : TaskHash)
  | hincrby (key : String) (n : ℤ)
  | hsetSession (key : String) (mapping : SessionHash)
  | applyPatch (patchPath message : String)
  | xadd (data : StreamEntry)
  | claim (group : Group) (id : ℕ)
  | xack (group : Group) (id : Option ℕ)
  | exists (key : String)
  | set (key : String) (eventId : Option ℕ)
  | setNx (key : String) (eventId : Option ℕ)
  | dispatch (event : ASDLCEvent) (context : AgentContext)

/-- The answers. -/
abbrev Reply : Cmd → Type
  | .hgetall _ => Option TaskHash
  | .hset _ _ | .hsetSession _ _ | .set _ _ => Unit
  | .hincrby _ _ => ℤ
  | .applyPatch _ _ => String
  | .xadd _ => ℕ
  | .claim _ _ => Option StreamEntry
  | .xack _ _ | .exists _ | .setNx _ _ => Bool
  | .dispatch _ _ => AgentResult

/-- The commands of the store and their answers. -/
abbrev interface : Interaction.Interface := ⟨Cmd, Reply⟩

/-- What stays fixed while programs run. -/
structure Env where
  tenancy : Tenancy
  /-- The base name of the event stream. -/
  streamBase : String
  /-- `sha256(content).hexdigest()[:32]`. -/
  digest : String → String
  /-- `GIT_WRITE_ACCESS`. -/
  gitWriteAccess : Bool
  /-- The hash of the last of some commits. -/
  sha : List Commit → String
  /-- The worker pool's own tenant, and its workspace. -/
  workerTenant : Option String
  workspacePath : String
  /-- The result of the last of some runs of agents. -/
  agents : List ASDLCEvent → AgentResult

namespace Store

/-- The entry `id`, when it is still in the stream. -/
def entry? (w : Store) (id : ℕ) : Option StreamEntry :=
  if id < w.trimmed then none else w.stream[id]?

/-- Acknowledge entry `i` for a group. -/
def ack (w : Store) (group : Group) (i : ℕ) : Store :=
  { w with acked := fun g j => if g = group ∧ j = i then true else w.acked g j }

/-- What each command does.  `claim` is the delivery of one entry to a consumer of
the group, new or redelivered: an acknowledged entry is delivered no more. -/
def serve (env : Env) : Interaction.Server interface Store
  | .hgetall key, w => (w, w.tasks key)
  | .hset key mapping, w =>
    ({ w with tasks := w.tasks.modify key (Redis.hset · mapping) }, ())
  | .hincrby key n, w =>
    let count := (Redis.hget (w.tasks key) .failCount).getD 0 + n
    ({ w with tasks := w.tasks.modify key (Redis.hset · (.field .failCount count)) }, count)
  | .hsetSession key mapping, w =>
    ({ w with sessions := w.sessions.modify key (Redis.hset · mapping) }, ())
  | .applyPatch patchPath message, w =>
    ({ w with commits := w.commits ++ [⟨patchPath, message⟩] },
      env.sha (w.commits ++ [⟨patchPath, message⟩]))
  | .xadd data, w => ({ w with stream := w.stream ++ [data] }, w.stream.length)
  | .claim group id, w => (w, if w.acked group id then none else w.entry? id)
  | .xack group id, w =>
    match id with
    | none => (w, false)
    | some i => (w.ack group i, !w.acked group i)
  | .exists key, w => (w, (w.processed key).isSome)
  | .set key eventId, w =>
    ({ w with processed := w.processed.modify key fun _ => some eventId }, ())
  | .setNx key eventId, w =>
    match w.marks key with
    | some _ => (w, false)
    | none => ({ w with marks := w.marks.modify key fun _ => some eventId }, true)
  | .dispatch event _, w =>
    ({ w with executed := w.executed ++ [event] }, env.agents (w.executed ++ [event]))

/-- Forget the marks of the consumers that have expired. -/
def expire (w : Store) (processedKey? markKey? : Option String) : Store :=
  { w with
    processed := fun k => if processedKey? = some k then none else w.processed k
    marks := fun k => if markKey? = some k then none else w.marks k }

end Store

/-! ## Programs over the store -/

/-- A coroutine of the orchestrator or of a worker. -/
abbrev Async (α : Type) := Interaction.Program interface Error α

namespace Async

/-- Issue one command. -/
abbrev send (c : Cmd) : Async (Reply c) := Interaction.Program.command (I := interface) c

end Async
end DoxAsdlc
