import DoxAsdlc.Orchestrator.Store

/-!
# The task and session managers

Tasks live in Redis hashes.  `updateState` reads the whole task, checks the
transition against what it read, and writes every field back; `incrementFailCount`
lets the server do the addition.

## Main definitions

* `Task`, `Task.toDict`, `Task.fromDict` — the task and its hash.
* `createTask`, `getTask`, `updateState`, `incrementFailCount` — the task manager.
* `updateGitSha` — the session manager's part in applying patches.
-/

namespace DoxAsdlc

open Interaction Interaction.Program Async

/-- A task. -/
structure Task where
  taskId : String
  sessionId : String
  epicId : String
  state : TaskState
  createdAt : Time
  updatedAt : Time
  failCount : ℤ := 0
  currentAgent : Option String := none
  gitSha : Option String := none
  artifactPaths : List String := []
  deriving DecidableEq, Repr

namespace Task

/-- `to_dict`: optional fields that are empty are left out. -/
def toDict (t : Task) : TaskHash
  | .taskId => some t.taskId
  | .sessionId => some t.sessionId
  | .epicId => some t.epicId
  | .state => some t.state
  | .failCount => some t.failCount
  | .createdAt => some t.createdAt
  | .updatedAt => some t.updatedAt
  | .currentAgent => given t.currentAgent
  | .gitSha => given t.gitSha
  | .artifactPaths => joinPaths t.artifactPaths

/-- `from_dict`: absent fields take their defaults. -/
def fromDict (now : Time) (data : TaskHash) : Task where
  taskId := (data .taskId).getD ""
  sessionId := (data .sessionId).getD ""
  epicId := (data .epicId).getD ""
  state := (data .state).getD .pending
  failCount := (data .failCount).getD 0
  currentAgent := data .currentAgent
  gitSha := data .gitSha
  artifactPaths := splitPaths (data .artifactPaths)
  createdAt := (data .createdAt).getD now
  updatedAt := (data .updatedAt).getD now

@[simp] theorem toDict_state (t : Task) : t.toDict .state = some t.state := rfl
@[simp] theorem toDict_failCount (t : Task) : t.toDict .failCount = some t.failCount := rfl
@[simp] theorem toDict_taskId (t : Task) : t.toDict .taskId = some t.taskId := rfl
@[simp] theorem toDict_sessionId (t : Task) : t.toDict .sessionId = some t.sessionId := rfl
@[simp] theorem toDict_epicId (t : Task) : t.toDict .epicId = some t.epicId := rfl
@[simp] theorem toDict_currentAgent (t : Task) : t.toDict .currentAgent = given t.currentAgent := rfl

end Task

/-- One of the `**updates` of `update_state`: an attribute and its new value. A name
that is no attribute of a task is ignored. -/
inductive TaskUpdate where
  | taskId (value : String)
  | sessionId (value : String)
  | epicId (value : String)
  | state (value : TaskState)
  | createdAt (value : Time)
  | updatedAt (value : Time)
  | failCount (value : ℤ)
  | currentAgent (value : Option String)
  | gitSha (value : Option String)
  | artifactPaths (value : List String)
  | unknown (name : String)
  deriving DecidableEq, Repr

/-- `setattr(task, field_name, value)` for the attributes that a task has. -/
def Task.setattr (t : Task) : TaskUpdate → Task
  | .taskId v => { t with taskId := v }
  | .sessionId v => { t with sessionId := v }
  | .epicId v => { t with epicId := v }
  | .state v => { t with state := v }
  | .createdAt v => { t with createdAt := v }
  | .updatedAt v => { t with updatedAt := v }
  | .failCount v => { t with failCount := v }
  | .currentAgent v => { t with currentAgent := v }
  | .gitSha v => { t with gitSha := v }
  | .artifactPaths v => { t with artifactPaths := v }
  | .unknown _ => t

/-- What `update_state` makes of the task it read. -/
def Task.updated (t : Task) (now : Time) (newState : TaskState) (updates : List TaskUpdate) :
    Task :=
  updates.foldl Task.setattr { t with state := newState, updatedAt := now }

@[simp] theorem Task.updated_nil (t : Task) (now : Time) (newState : TaskState) :
    t.updated now newState [] = { t with state := newState, updatedAt := now } := rfl
@[simp] theorem Task.updated_currentAgent (t : Task) (now : Time) (newState : TaskState)
    (agent : Option String) : t.updated now newState [.currentAgent agent]
      = { t with state := newState, updatedAt := now, currentAgent := agent } := rfl

/-! ## The task manager -/

/-- `_get_key` of the task manager. -/
def taskKey (env : Env) (taskId : String) : String := env.tenancy.key ("asdlc:task:" ++ taskId)

@[simp] theorem taskKey_inj (env : Env) {t t' : String} :
    taskKey env t = taskKey env t' ↔ t = t' := by
  simp [taskKey, String.append_right_inj]

/-- Create a task. -/
def createTask (env : Env) (task : Task) : Async Task := do
  send (.hset (taskKey env task.taskId) task.toDict)
  return task

/-- Get a task by id. -/
def getTask (env : Env) (now : Time) (taskId : String) : Async (Option Task) := do
  let data ← send (.hgetall (taskKey env taskId))
  return data.map (Task.fromDict now)

/-- The error of an update of a task that does not exist. -/
def taskNotFound (taskId : String) : Error where
  cls := .taskNotFoundError
  message := "Task not found: " ++ taskId
  details := [("task_id", .text taskId)]

/-- Update the state of a task, with validation. -/
def updateState (env : Env) (now : Time) (taskId : String) (newState : TaskState)
    (updates : List TaskUpdate := []) : Async Task := do
  match ← getTask env now taskId with
  | none => throw (taskNotFound taskId)
  | some task =>
    answer (validateTransition task.state newState)
    let task := task.updated now newState updates
    send (.hset (taskKey env taskId) task.toDict)
    return task

/-- Increment the fail count on the server, then touch the task. -/
def incrementFailCount (env : Env) (now : Time) (taskId : String) : Async ℤ := do
  let count ← send (.hincrby (taskKey env taskId) 1)
  send (.hset (taskKey env taskId) (.field .updatedAt now))
  return count

/-! ## The session manager -/

/-- `_get_key` of the session manager. -/
def sessionKey (env : Env) (sessionId : String) : String :=
  env.tenancy.key ("asdlc:session:" ++ sessionId)

/-- Update a session's current Git SHA. -/
def updateGitSha (env : Env) (sessionId gitSha : String) : Async Unit :=
  send (.hsetSession (sessionKey env sessionId) (.field .currentGitSha gitSha))

/-! ## What the server holds for a task -/

/-- The fail count that the server holds for a task. -/
def storedCount (env : Env) (taskId : String) (w : Store) : ℤ :=
  (Redis.hget (w.tasks (taskKey env taskId)) .failCount).getD 0

/-- The state that the server holds for a task. -/
def storedState (env : Env) (taskId : String) (w : Store) : Option TaskState :=
  Redis.hget (w.tasks (taskKey env taskId)) .state

/-- The store after a write to a task's hash. -/
def Store.writeTask (w : Store) (key : String) (mapping : TaskHash) : Store :=
  { w with tasks := w.tasks.modify key (Redis.hset · mapping) }

@[simp] theorem serve_hgetall (env : Env) (key : String) (w : Store) :
    Store.serve env (.hgetall key) w = (w, w.tasks key) := rfl

@[simp] theorem serve_hset (env : Env) (key : String) (mapping : TaskHash) (w : Store) :
    Store.serve env (.hset key mapping) w = (w.writeTask key mapping, ()) := rfl

@[simp] theorem serve_xadd (env : Env) (data : StreamEntry) (w : Store) :
    Store.serve env (.xadd data) w
      = ({ w with stream := w.stream ++ [data] }, w.stream.length) := rfl

theorem serve_hincrby (env : Env) (taskId : String) (n : ℤ) (w : Store) :
    Store.serve env (.hincrby (taskKey env taskId) n) w
      = (w.writeTask (taskKey env taskId) (.field .failCount (storedCount env taskId w + n)),
        storedCount env taskId w + n) := rfl

/-- A write to one task sets its state, if it writes one, and no other task's. -/
theorem storedState_writeTask (env : Env) (t t' : String) (m : TaskHash) (w : Store) :
    storedState env t (w.writeTask (taskKey env t') m)
      = if t = t' then (m .state).or (storedState env t w) else storedState env t w := by
  by_cases h : t = t'
  · subst h
    simp [storedState, Store.writeTask, Redis.hget_hset]
  · simp [storedState, Store.writeTask, h]

/-- A write to one task sets its count, if it writes one, and no other task's. -/
theorem storedCount_writeTask (env : Env) (t t' : String) (m : TaskHash) (w : Store) :
    storedCount env t (w.writeTask (taskKey env t') m)
      = if t = t' then (m .failCount).getD (storedCount env t w) else storedCount env t w := by
  by_cases h : t = t'
  · subst h
    cases hm : m .failCount <;> simp [storedCount, Store.writeTask, Redis.hget_hset, hm]
  · simp [storedCount, Store.writeTask, h]

/-! ## Command by command -/

/-- A state change is a read, the check of what was read, and a write. -/
theorem updateState_eq (env : Env) (now : Time) (taskId : String) (newState : TaskState)
    (updates : List TaskUpdate) :
    updateState env now taskId newState updates
      = .call (.hgetall (taskKey env taskId)) fun
        | .error e => .raise e
        | .ok none => .raise (taskNotFound taskId)
        | .ok (some data) =>
          match validateTransition (Task.fromDict now data).state newState with
          | .error e => .raise e
          | .ok () =>
            let task := (Task.fromDict now data).updated now newState updates
            .call (.hset (taskKey env taskId) task.toDict) fun r =>
              (answer r).elim (fun _ => .ret task) .raise := by
  simp only [updateState, getTask, send, command_eq, bind_eq, pure_eq, throw_eq, elim_elim, elim_call]
  congr 1
  funext r
  rcases r with e | _ | data
  · rfl
  · rfl
  · simp only [answer_ok, elim_ret, Option.map_some]
    cases validateTransition (Task.fromDict now data).state newState <;> rfl

/-- A store with one task. -/
def Store.ofTask (env : Env) (task : Task) : Store :=
  Store.empty.writeTask (taskKey env task.taskId) task.toDict

/-- An environment with one tenant, whose keys are their own digests. -/
def plainEnv : Env where
  tenancy := ⟨false, "default", none⟩
  streamBase := "asdlc:events"
  digest := id
  gitWriteAccess := false
  sha := fun _ => "0"
  workerTenant := none
  workspacePath := "/workspace"
  agents := fun _ => { success := true, agentType := "coding-agent", taskId := "t" }

/-! ## Rules for the task manager -/

section

variable {env : Env} {now : Time} {taskId : String} {newState : TaskState}
  {updates : List TaskUpdate} {S : Store → Prop}

theorem keeps_getTask : Keeps (Store.serve env) S (getTask env now taskId) :=
  keeps_bind (keeps_command fun _ h => h) fun _ => keeps_ret _

/-- A state change starts in a state it reads; if the transition from what it reads is
allowed, it may end in the state with the write. -/
theorem wp_updateState {Q : Task → Store → Prop} {E : Error → Store → Prop} {w : Store}
    (hS : S w) (hE : ∀ e, E e w)
    (hwrite : ∀ data, w.tasks (taskKey env taskId) = some data →
      canTransition (Task.fromDict now data).state newState = true →
      let task := (Task.fromDict now data).updated now newState updates
      let w' := w.writeTask (taskKey env taskId) task.toDict
      S w' ∧ (∀ e, E e w') ∧ Q task w') :
    wp (Store.serve env) Q E S (updateState env now taskId newState updates) w := by
  rw [updateState_eq, wp_call]
  refine ⟨hS, ?_, fun e => ⟨hS, hE e⟩, fun e => ⟨hS, hE e⟩⟩
  simp only [serve_hgetall]
  cases hdata : w.tasks (taskKey env taskId) with
  | none => exact ⟨hS, hE _⟩
  | some data =>
    cases hv : validateTransition (Task.fromDict now data).state newState with
    | error e => simpa [hv] using ⟨hS, hE e⟩
    | ok u =>
      obtain ⟨hS', hE', hQ'⟩ := hwrite data hdata ((validateTransition_eq_ok _ _ _).mp hv)
      simp only [hv, wp_call, serve_hset]
      exact ⟨hS, ⟨hS', hQ'⟩, fun e => ⟨hS, hE e⟩, fun e => ⟨hS', hE' e⟩⟩

theorem keeps_updateState
    (hwrite : ∀ w data, S w → w.tasks (taskKey env taskId) = some data →
      canTransition (Task.fromDict now data).state newState = true →
      S (w.writeTask (taskKey env taskId)
        ((Task.fromDict now data).updated now newState updates).toDict)) :
    Keeps (Store.serve env) S (updateState env now taskId newState updates) := by
  intro w hS
  refine wp_updateState hS (fun _ => hS) fun data hdata hcan => ?_
  have h := hwrite w data hS hdata hcan
  exact ⟨h, fun _ => h, h⟩

theorem keeps_incrementFailCount
    (hwrite : ∀ w m, S w → m .state = none → S (w.writeTask (taskKey env taskId) m)) :
    Keeps (Store.serve env) S (incrementFailCount env now taskId) :=
  keeps_bind (keeps_command fun w h => by
      rw [serve_hincrby]; exact hwrite w _ h (Redis.Hash.field_of_ne _ (by decide)))
    fun _ => keeps_bind (keeps_command fun w h => hwrite w _ h
      (Redis.Hash.field_of_ne _ (by decide))) fun _ => keeps_ret _

end

end DoxAsdlc
