import DoxAsdlc.Orchestrator.TaskLifecycle

/-!
# What a failed delivery leaves behind

When a handler raises, the manager asks for the event to be delivered again.  Nothing
is rolled back, so the store is as before exactly when no command of the attempt that
changes it had reached the server.  `RetryClean` says for each handler at which
command an attempt has to fail for that; after such attempts, and only such, handling
the event once more is handling it once.

## Main definitions

* `Retried` — the attempt ended in a result that asks for a retry.
* `RetryClean` — the attempt failed early enough.
-/

namespace DoxAsdlc

open Interaction Interaction.Program Async

/-- The attempt ended, and asks for the event to be delivered again. -/
def Retried (env : Env) (w : Store) (d : Delivery) : Prop :=
  ∃ res : HandlerResult,
    (play (Store.serve env) d.outcomes (handle env d.now d.event) w).1 = .ret res ∧
      res.shouldRetry = true

/-! ## Where an attempt may fail -/

/-- A single write: if it was lost, it wrote what was there. -/
def createClean (same : Prop) : List (Outcome Error) → Prop
  | .lost _ :: _ => same
  | _ => True

/-- Two reads, then a write if the transition is allowed: the write was refused. -/
def updateClean (allowed : Bool) : List (Outcome Error) → Prop
  | .ok :: .ok :: .refused _ :: _ => True
  | .ok :: .ok :: _ => allowed = false
  | _ => True

/-- A read, then the count: the read failed or the count was refused. -/
def countClean : List (Outcome Error) → Prop
  | .ok :: .refused _ :: _ => True
  | .ok :: _ => False
  | _ => True

/-- A read, then a patch, whose failure is counted: patch and count were refused. -/
def patchClean : List (Outcome Error) → Prop
  | .ok :: .refused _ :: .refused _ :: _ => True
  | .ok :: _ => False
  | _ => True

/-- A patch, whose failure is announced: patch and announcement were refused. -/
def announceClean : List (Outcome Error) → Prop
  | .refused _ :: .refused _ :: _ => True
  | _ => False

/-- The state in which a stored task is read. -/
def readState (env : Env) (taskId : String) (w : Store) : TaskState :=
  (storedState env taskId w).getD .pending

/-- The attempt failed before anything that it does not find again. -/
def RetryClean (env : Env) (w : Store) (d : Delivery) : Prop :=
  let taskId := d.event.taskId.getD ""
  match d.event.eventType with
  | .taskCreated => createClean
      (w.writeTask (taskKey env taskId) (createdTask d.now d.event).toDict = w) d.outcomes
  | .taskDispatched => updateClean (canTransition (readState env taskId w) .inProgress) d.outcomes
  | .agentCompleted =>
    if patchesToApply env d.event = [] then
      updateClean (canTransition (readState env taskId w) .testing) d.outcomes
    else patchClean d.outcomes
  | .agentError | .taskFailed | .gateRejected => countClean d.outcomes
  | .gateApproved => updateClean (canTransition (readState env taskId w) .complete) d.outcomes
  | .patchCreated => announceClean d.outcomes
  | _ => True

/-! ## One handler at a time -/

section

variable {env : Env} {now : Time} {event : ASDLCEvent} {w : Store} {os : List (Outcome Error)}
  {taskId message : String} {e : Error}

/-- The stored count of a task is `n`. -/
def CountIs (env : Env) (t : String) (n : ℤ) (w : Store) : Prop := storedCount env t w = n

theorem countIs_tasksOnly {t : String} {n : ℤ} : TasksOnly (CountIs env t n) := by
  intro w w' hw h
  unfold CountIs storedCount at h ⊢
  rwa [hw]

/-- Reading the count and writing it back changes nothing about it. -/
theorem keeps_countIs_updateState {newState : TaskState} {updates : List TaskUpdate} {t : String}
    {n : ℤ} (hu : ∀ task : Task, (task.updated now newState updates).failCount = task.failCount) :
    Keeps (Store.serve env) (CountIs env t n) (updateState env now taskId newState updates) := by
  refine keeps_updateState fun w data h hdata _ => ?_
  unfold CountIs at h ⊢
  rw [storedCount_writeTask]
  by_cases ht : t = taskId
  · subst ht
    rw [storedCount, hdata] at h
    simpa [Task.fromDict, hu] using h
  · simpa [ht] using h

/-- The touch that follows a count does not change it. -/
theorem CountIs.touch {t t' : String} {n : ℤ} (h : CountIs env t n w) :
    CountIs env t n (w.writeTask (taskKey env t') (.field .updatedAt now)) := by
  unfold CountIs at h ⊢
  rw [storedCount_writeTask, Redis.Hash.field_of_ne _ (by decide)]
  simpa using h

/-- A count that went up. -/
theorem countIs_succ (w : Store) (t : String) : CountIs env t (storedCount env t w + 1)
    (w.writeTask (taskKey env t) (.field .failCount (storedCount env t w + 1))) := by
  simp [CountIs, storedCount_writeTask]

theorem CountIs.ne (env : Env) (t : String) {w' : Store} (h : CountIs env t (storedCount env t w + 1) w') :
    w' ≠ w := by
  rintro rfl
  unfold CountIs at h
  omega

theorem countClean_ok : countClean (.ok :: os) ↔ ∃ e' os', os = .refused e' :: os' := by
  rcases os with _ | ⟨_ | e' | e', os⟩ <;> simp [countClean]

/-- A failure that could not be handled to the end has been counted, unless the count
itself was refused. -/
theorem taskFailure_retry {task : Task}
    (h : (play (Store.serve env) os (handleTaskFailure env now task message) w).1 = .raise e) :
    (play (Store.serve env) os (handleTaskFailure env now task message) w).2 = w ↔
      ∃ e' os', os = .refused e' :: os' := by
  rcases os with _ | ⟨o, os⟩
  · simp [handleTaskFailure, incrementFailCount] at h
  · cases o with
    | refused e' => simp [handleTaskFailure, incrementFailCount]
    | lost e' =>
      refine iff_of_false (CountIs.ne env task.taskId ?_) (by simp)
      simpa [handleTaskFailure, incrementFailCount, serve_hincrby] using countIs_succ w _
    | ok =>
      simp only [handleTaskFailure, incrementFailCount, Async.send, command_eq, bind_eq,
        elim_call, play_call, Server.perform_ok, serve_hincrby, answer_ok, elim_ret]
      refine iff_of_false (CountIs.ne env task.taskId (Keeps.play ?_ (countIs_succ w _) os)) (by simp)
      refine keeps_call (fun w h => h.touch) fun r =>
        keeps_elim (keeps_elim (keeps_answer _) (fun _ => keeps_ret _) keeps_raise)
          (fun n => ?_) keeps_raise
      split
      · exact keeps_bind (keeps_answer _) fun _ =>
          keeps_bind (keeps_publishEventModel countIs_tasksOnly) fun _ => keeps_ret _
      · exact keeps_ret _

theorem reportedFailure_retry
    (h : (play (Store.serve env) os (handleReportedFailure message env now event) w).1 = .raise e) :
    (play (Store.serve env) os (handleReportedFailure message env now event) w).2 = w ↔
      countClean os := by
  cases ht : given event.taskId with
  | none => simp [handleReportedFailure, ht] at h
  | some taskId =>
    rcases os with _ | ⟨o, os⟩
    · simp [handleReportedFailure, ht, getTask] at h
    · cases o with
      | refused e' => simp [handleReportedFailure, ht, getTask, countClean]
      | lost e' => simp [handleReportedFailure, ht, getTask, countClean]
      | ok =>
        cases hdata : w.tasks (taskKey env taskId) with
        | none => simp [handleReportedFailure, ht, getTask, hdata] at h
        | some data =>
          simp only [handleReportedFailure, ht, getTask, Async.send, command_eq, bind_eq,
            pure_eq, elim_call, elim_elim, elim_ret, play_call, Server.perform_ok,
            serve_hgetall, answer_ok, hdata, Option.map_some] at h ⊢
          rw [countClean_ok]
          exact taskFailure_retry h

/-- A rejection that could not be handled to the end has been counted, unless the
count itself was refused. -/
theorem gateRejected_retry
    (h : (play (Store.serve env) os (handleGateRejected env now event) w).1 = .raise e) :
    (play (Store.serve env) os (handleGateRejected env now event) w).2 = w ↔ countClean os := by
  cases ht : given event.taskId with
  | none => simp [handleGateRejected, ht] at h
  | some taskId =>
    rcases os with _ | ⟨_ | e' | e', os⟩
    · simp [handleGateRejected, ht, getTask] at h
    · cases hdata : w.tasks (taskKey env taskId) with
      | none => simp [handleGateRejected, ht, getTask, hdata] at h
      | some data =>
        rw [countClean_ok]
        simp only [handleGateRejected, ht, getTask, incrementFailCount, Async.send,
          command_eq, bind_eq, pure_eq, elim_call, elim_elim, elim_ret, play_call,
          Server.perform_ok, serve_hgetall, answer_ok, hdata, Option.map_some] at h ⊢
        rcases os with _ | ⟨_ | e' | e', os⟩
        · simp at h
        · simp only [play_call, Server.perform_ok, serve_hincrby, answer_ok, elim_ret]
          refine iff_of_false (CountIs.ne env taskId (Keeps.play ?_ (countIs_succ w _) os)) (by simp)
          exact keeps_call (fun w h => h.touch) fun r =>
            keeps_elim (keeps_answer _) (fun _ => keeps_elim (keeps_countIs_updateState fun _ => rfl)
              (fun _ => keeps_elim (keeps_publishEventModel countIs_tasksOnly)
                (fun _ => keeps_ret _) keeps_raise) keeps_raise) keeps_raise
        · simp
        · refine iff_of_false (CountIs.ne env taskId ?_) (by simp)
          simpa [serve_hincrby] using countIs_succ w taskId
    · simp [handleGateRejected, ht, getTask, countClean]
    · simp [handleGateRejected, ht, getTask, countClean]

/-! ## Handlers that change the state -/

/-- The stored state of a task is `s`. -/
def StateIs (env : Env) (t : String) (s : TaskState) (w : Store) : Prop :=
  storedState env t w = some s

theorem stateIs_tasksOnly {t : String} {s : TaskState} : TasksOnly (StateIs env t s) := by
  intro w w' hw h
  unfold StateIs storedState at h ⊢
  rwa [hw]

/-- A read, then a write if the transition is allowed: the write was refused. -/
def writeClean (allowed : Bool) : List (Outcome Error) → Prop
  | .ok :: .refused _ :: _ => True
  | .ok :: _ => allowed = false
  | _ => True

theorem updateClean_ok (allowed : Bool) : updateClean allowed (.ok :: os) ↔ writeClean allowed os := by
  rcases os with _ | ⟨_ | e' | e', _ | ⟨_ | e' | e', os⟩⟩ <;> simp [updateClean, writeClean]

/-- A stored task is read in its stored state. -/
theorem fromDict_state (now : Time) {data : TaskHash} (hdata : w.tasks (taskKey env taskId) = some data) :
    (Task.fromDict now data).state = readState env taskId w := by
  rw [readState, storedState, hdata]
  rfl

/-- A state change, with whatever follows it, that could not be carried to its end has
left the store alone if it was not allowed or its write was refused, and only then. -/
theorem updateState_retry {newState : TaskState} {updates : List TaskUpdate}
    {rest : Task → Async Unit} {data : TaskHash}
    (hdata : w.tasks (taskKey env taskId) = some data)
    (hu : ∀ t : Task, (t.updated now newState updates).state = newState)
    (hrest : ∀ t, Keeps (Store.serve env) (StateIs env taskId newState) (rest t))
    (h : (play (Store.serve env) os
      ((updateState env now taskId newState updates).elim rest .raise) w).1 = .raise e) :
    (play (Store.serve env) os
      ((updateState env now taskId newState updates).elim rest .raise) w).2 = w ↔
      writeClean (canTransition (readState env taskId w) newState) os := by
  rw [updateState_eq] at h ⊢
  rcases os with _ | ⟨_ | e' | e', os⟩
  · simp at h
  · simp only [elim_call, play_call, Server.perform_ok, serve_hgetall, hdata] at h ⊢
    rw [← fromDict_state now hdata]
    cases hv : validateTransition (Task.fromDict now data).state newState with
    | error e' =>
      have hcan := (validateTransition_error hv).1
      rcases os with _ | ⟨_ | _ | _, os⟩ <;> simp [hcan, writeClean]
    | ok u =>
      have hcan := (validateTransition_eq_ok _ _ _).mp hv
      have hold : storedState env taskId w ≠ some newState := by
        intro hs
        rw [fromDict_state now hdata, readState, hs] at hcan
        simp at hcan
      have hnew : StateIs env taskId newState (w.writeTask (taskKey env taskId)
          ((Task.fromDict now data).updated now newState updates).toDict) := by
        simp [StateIs, storedState_writeTask, hu]
      simp only [hv, elim_call] at h ⊢
      rcases os with _ | ⟨_ | e' | e', os⟩
      · simp at h
      · simp only [play_call, Server.perform_ok, serve_hset, answer_ok, elim_ret]
        exact iff_of_false (Keeps.play_ne (hrest _) hnew hold os) (by simp [writeClean, hcan])
      · simp [writeClean]
      · simp only [play_call, Server.perform_lost, serve_hset, answer_error, elim_raise,
          play_raise]
        refine iff_of_false (fun hw => hold ?_) (by simp [writeClean, hcan])
        rw [hw] at hnew
        exact hnew
  · simp [writeClean]
  · simp [writeClean]

theorem taskDispatched_retry
    (h : (play (Store.serve env) os (handleTaskDispatched env now event) w).1 = .raise e) :
    (play (Store.serve env) os (handleTaskDispatched env now event) w).2 = w ↔
      updateClean (canTransition (readState env (event.taskId.getD "") w) .inProgress) os := by
  cases ht : given event.taskId with
  | none => simp [handleTaskDispatched, ht] at h
  | some taskId =>
    obtain rfl : event.taskId.getD "" = taskId := by rw [(given_eq_some.mp ht).1]; rfl
    rcases os with _ | ⟨_ | e' | e', os⟩
    · simp [handleTaskDispatched, ht, getTask] at h
    · cases hdata : w.tasks (taskKey env (event.taskId.getD "")) with
      | none => simp [handleTaskDispatched, ht, getTask, hdata] at h
      | some data =>
        rw [updateClean_ok]
        simp only [handleTaskDispatched, ht, getTask, Async.send, command_eq, bind_eq,
          pure_eq, elim_call, elim_elim, elim_ret, play_call, Server.perform_ok,
          serve_hgetall, answer_ok, hdata, Option.map_some] at h ⊢
        exact updateState_retry hdata (fun _ => rfl) (fun _ => keeps_ret _) h
    · simp [handleTaskDispatched, ht, getTask, updateClean]
    · simp [handleTaskDispatched, ht, getTask, updateClean]

theorem gateApproved_retry
    (h : (play (Store.serve env) os (handleGateApproved env now event) w).1 = .raise e) :
    (play (Store.serve env) os (handleGateApproved env now event) w).2 = w ↔
      updateClean (canTransition (readState env (event.taskId.getD "") w) .complete) os := by
  cases ht : given event.taskId with
  | none => simp [handleGateApproved, ht] at h
  | some taskId =>
    obtain rfl : event.taskId.getD "" = taskId := by rw [(given_eq_some.mp ht).1]; rfl
    rcases os with _ | ⟨_ | e' | e', os⟩
    · simp [handleGateApproved, ht, getTask] at h
    · cases hdata : w.tasks (taskKey env (event.taskId.getD "")) with
      | none => simp [handleGateApproved, ht, getTask, hdata] at h
      | some data =>
        by_cases hb : (Task.fromDict now data).state = .blockedHitl
        · rw [updateClean_ok]
          simp only [handleGateApproved, ht, getTask, Async.send, command_eq, bind_eq,
            pure_eq, elim_call, elim_elim, elim_ret, play_call, Server.perform_ok,
            serve_hgetall, answer_ok, hdata, Option.map_some, hb, if_true] at h ⊢
          exact updateState_retry hdata (fun _ => rfl) (fun _ =>
            keeps_bind (keeps_publishEventModel stateIs_tasksOnly) fun _ => keeps_ret _) h
        · simp [handleGateApproved, ht, getTask, hdata, hb] at h
    · simp [handleGateApproved, ht, getTask, updateClean]
    · simp [handleGateApproved, ht, getTask, updateClean]

/-! ## Handlers that apply patches -/

/-- Commits and publications are never taken back by a command. -/
theorem serve_grows (c : Cmd) (w' : Store) (m n : ℕ)
    (h : m < w'.commits.length ∨ n < w'.stream.length) :
    m < (Store.serve env c w').1.commits.length ∨ n < (Store.serve env c w').1.stream.length := by
  cases c with
  | applyPatch patchPath message =>
    simp only [Store.serve, List.length_append, List.length_singleton]
    omega
  | xadd data =>
    simp only [Store.serve, List.length_append, List.length_singleton]
    omega
  | xack group id => cases id <;> exact h
  | setNx key eventId => cases hk : w'.marks key <;> simpa [Store.serve, hk] using h
  | _ => exact h

/-- After a commit or a publication no program comes back to the store before. -/
theorem ne_of_grown {α : Type} (p : Async α) {w' : Store}
    (h : w.commits.length < w'.commits.length ∨ w.stream.length < w'.stream.length) :
    (play (Store.serve env) os p w').2 ≠ w :=
  (keeps_of_server (S := fun w' => w.commits.length < w'.commits.length ∨
      w.stream.length < w'.stream.length)
    (fun c s hs => serve_grows c s _ _ hs) p).play_ne h (by simp) os

theorem patchClean_ok : patchClean (.ok :: os) ↔
    ∃ e' os', os = .refused e' :: os' ∧ ∃ e'' os'', os' = .refused e'' :: os'' := by
  rcases os with _ | ⟨_ | e' | e', _ | ⟨_ | e'' | e'', os⟩⟩ <;> simp [patchClean]

/-- A patch that was not refused has been committed; one that was has been counted,
unless the count was refused too. -/
theorem applyPatches_retry {task : Task} {patchPath : String} {rest : List String}
    {next : Async Unit}
    (h : (play (Store.serve env) os ((applyPatches env now event taskId task (patchPath :: rest)).elim
      (fun b => if b then next else .ret ()) .raise) w).1 = .raise e) :
    (play (Store.serve env) os ((applyPatches env now event taskId task (patchPath :: rest)).elim
      (fun b => if b then next else .ret ()) .raise) w).2 = w ↔
      ∃ e' os', os = .refused e' :: os' ∧ ∃ e'' os'', os' = .refused e'' :: os'' := by
  have hgrown (w' : Store) (hw : w'.commits = w.commits ++ [⟨patchPath, patchMessage taskId⟩]) :
      w.commits.length < w'.commits.length ∨ w.stream.length < w'.stream.length := by
    simp [hw]
  simp only [applyPatches, applyOnePatch, Async.send, command_eq, bind_eq, pure_eq, tryCatch_eq,
    elim_call, elim_elim] at h ⊢
  rcases os with _ | ⟨_ | e' | e', os⟩
  · simp at h
  · rw [play_call]
    exact iff_of_false (ne_of_grown _ (hgrown _ rfl)) (by simp)
  · simp only [play_call, Server.perform_refused, answer_error, elim_raise, elim_ret,
      elim_elim, Bool.false_eq_true, if_false] at h ⊢
    rw [play_elim_finished _ _ _ _ _ _ (fun _ => rfl) (fun _ => rfl)] at h ⊢
    have hraise : ∃ e'', (play (Store.serve env) os
        (handleTaskFailure env now task e'.str) w).1 = .raise e'' := by
      cases hp : (play (Store.serve env) os (handleTaskFailure env now task e'.str) w).1 with
      | ret a => simp [hp] at h
      | raise e'' => exact ⟨e'', rfl⟩
      | call c k => simp [hp] at h
    obtain ⟨e'', he''⟩ := hraise
    simpa using taskFailure_retry he''
  · rw [play_call]
    exact iff_of_false (ne_of_grown _ (hgrown _ rfl)) (by simp)

theorem agentCompleted_retry
    (h : (play (Store.serve env) os (handleAgentCompleted env now event) w).1 = .raise e) :
    (play (Store.serve env) os (handleAgentCompleted env now event) w).2 = w ↔
      if patchesToApply env event = [] then
        updateClean (canTransition (readState env (event.taskId.getD "") w) .testing) os
      else patchClean os := by
  cases ht : given event.taskId with
  | none => simp [handleAgentCompleted, ht] at h
  | some taskId =>
    obtain rfl : event.taskId.getD "" = taskId := by rw [(given_eq_some.mp ht).1]; rfl
    rcases os with _ | ⟨_ | e' | e', os⟩
    · simp [handleAgentCompleted, ht, getTask] at h
    · cases hdata : w.tasks (taskKey env (event.taskId.getD "")) with
      | none => simp [handleAgentCompleted, ht, getTask, hdata] at h
      | some data =>
        rw [updateClean_ok, patchClean_ok]
        simp only [handleAgentCompleted, ht, getTask, Async.send, command_eq, bind_eq,
          pure_eq, elim_call, elim_elim, elim_ret, play_call, Server.perform_ok,
          serve_hgetall, answer_ok, hdata, Option.map_some] at h ⊢
        cases hpatches : patchesToApply env event with
        | nil =>
          simp only [hpatches, applyPatches, pure_eq, elim_ret, if_true] at h ⊢
          exact updateState_retry hdata (fun _ => rfl) (fun _ =>
            keeps_bind (keeps_publishEventModel stateIs_tasksOnly) fun _ => keeps_ret _) h
        | cons patchPath rest =>
          rw [hpatches] at h
          rw [if_neg (List.cons_ne_nil _ _)]
          exact applyPatches_retry h
    · by_cases hp : patchesToApply env event = [] <;>
        simp [handleAgentCompleted, ht, getTask, updateClean, patchClean, hp]
    · by_cases hp : patchesToApply env event = [] <;>
        simp [handleAgentCompleted, ht, getTask, updateClean, patchClean, hp]

theorem patchCreated_retry
    (h : (play (Store.serve env) os (handlePatchCreated env now event) w).1 = .raise e) :
    (play (Store.serve env) os (handlePatchCreated env now event) w).2 = w ↔ announceClean os := by
  cases ht : given event.taskId with
  | none => simp [handlePatchCreated, ht] at h
  | some taskId =>
    cases hpaths : event.artifactPaths with
    | nil => simp [handlePatchCreated, ht, hpaths] at h
    | cons patchPath rest =>
      cases hwrite : env.gitWriteAccess with
      | false => simp [handlePatchCreated, ht, hpaths, hwrite] at h
      | true =>
        have hgrown (w' : Store)
            (hw : w'.commits = w.commits ++ [⟨patchPath, patchMessage taskId⟩]) :
            w.commits.length < w'.commits.length ∨ w.stream.length < w'.stream.length := by
          simp [hw]
        simp only [handlePatchCreated, ht, hpaths, hwrite, if_true, applyAndAnnounce,
          publishEventModel, Async.send, command_eq, bind_eq, pure_eq, throw_eq, tryCatch_eq,
          elim_call, elim_elim] at h ⊢
        rcases os with _ | ⟨_ | e' | e', os⟩
        · simp at h
        · rw [play_call]
          exact iff_of_false (ne_of_grown _ (hgrown _ rfl)) (by simp [announceClean])
        · simp only [play_call, Server.perform_refused, answer_error, elim_raise] at h ⊢
          rcases os with _ | ⟨_ | e'' | e'', os⟩
          · simp at h
          · simp at h
          · simp [announceClean]
          · rw [play_call]
            refine iff_of_false (ne_of_grown _ (.inr ?_)) (by simp [announceClean])
            simp [Store.serve]
        · rw [play_call]
          exact iff_of_false (ne_of_grown _ (hgrown _ rfl)) (by simp [announceClean])

theorem taskCreated_retry
    (h : (play (Store.serve env) os (handleTaskCreated env now event) w).1 = .raise e) :
    (play (Store.serve env) os (handleTaskCreated env now event) w).2 = w ↔
      createClean (w.writeTask (taskKey env (event.taskId.getD ""))
        (createdTask now event).toDict = w) os := by
  rcases os with _ | ⟨_ | e' | e', os⟩
  · simp [handleTaskCreated, createTask] at h
  · simp [handleTaskCreated, createTask] at h
  · simp [handleTaskCreated, createTask, createClean]
  · simp [handleTaskCreated, createTask, createdTask, createClean]

end

/-! ## Every event -/

/-- An attempt at a handled event is an attempt at its handler. -/
theorem handle_play {env : Env} {now : Time} {event : ASDLCEvent}
    {handler : ASDLCEvent → Async Unit} (hh : getHandler env now event.eventType = some handler)
    (os : List (Outcome Error)) (w : Store) :
    play (Store.serve env) os (handle env now event) w
      = ((play (Store.serve env) os (handler event) w).1.elim (fun _ => .ret handled)
          fun e => .ret (retryLater e),
        (play (Store.serve env) os (handler event) w).2) := by
  simp only [handle, hh, tryCatch_eq, bind_eq, pure_eq, elim_elim, elim_ret, elim_raise]
  exact play_elim_finished _ _ _ _ _ _ (fun _ => rfl) (fun _ => rfl)

/-- A retry is asked for exactly when the handler raises. -/
theorem Retried.raised {env : Env} {w : Store} {d : Delivery} (h : Retried env w d) :
    ∃ handler e, getHandler env d.now d.event.eventType = some handler ∧
      (play (Store.serve env) d.outcomes (handler d.event) w).1 = .raise e := by
  obtain ⟨res, hres, hretry⟩ := h
  cases hh : getHandler env d.now d.event.eventType with
  | none =>
    simp only [handle, hh, pure_eq, play_ret, ret.injEq] at hres
    subst hres
    cases hretry
  | some handler =>
    rw [handle_play hh] at hres
    cases hp : (play (Store.serve env) d.outcomes (handler d.event) w).1 with
    | raise e => exact ⟨handler, e, rfl, hp⟩
    | ret u =>
      simp only [hp, elim_ret, ret.injEq] at hres
      subst hres
      cases hretry
    | call c k => simp [hp] at hres

/-- **One retry.**  An attempt that asks for a retry has left the store as it was
exactly when it failed early enough. -/
theorem deliver_eq_self_iff {env : Env} {w : Store} {d : Delivery} (h : Retried env w d) :
    deliver env w d = w ↔ RetryClean env w d := by
  obtain ⟨handler, e, hh, hraise⟩ := h.raised
  rw [deliver, handle_play hh]
  unfold RetryClean
  cases ht : d.event.eventType <;> rw [ht] at hh <;> simp only [getHandler, Option.some.injEq,
    reduceCtorEq] at hh <;> subst hh
  case taskCreated => exact taskCreated_retry hraise
  case taskDispatched => exact taskDispatched_retry hraise
  case agentCompleted => exact agentCompleted_retry hraise
  case agentError => exact reportedFailure_retry hraise
  case taskFailed => exact reportedFailure_retry hraise
  case gateApproved => exact gateApproved_retry hraise
  case gateRejected => exact gateRejected_retry hraise
  case patchCreated => exact patchCreated_retry hraise

/-- **Retries.**  A retry has changed nothing exactly when its attempt failed early
enough, and after any number of such attempts handling the event has the effect of
handling it once. -/
theorem retries_leave_no_trace (env : Env) (w : Store) :
    (∀ d, Retried env w d → (deliver env w d = w ↔ RetryClean env w d)) ∧
    ∀ (ds : List Delivery) (last : Delivery),
      (∀ d ∈ ds, d.event = last.event ∧ Retried env w d ∧ RetryClean env w d) →
      run (deliver env) w (ds ++ [last]) = deliver env w last := by
  refine ⟨fun d h => deliver_eq_self_iff h, fun ds last hds => ?_⟩
  induction ds with
  | nil => rfl
  | cons d ds ih =>
    obtain ⟨-, hretried, hclean⟩ := hds d List.mem_cons_self
    rw [List.cons_append, run_cons, (deliver_eq_self_iff hretried).mpr hclean]
    exact ih fun d' hd' => hds d' (List.mem_cons_of_mem _ hd')

/-- A rejection of a task that is already in progress raises after the count, without
any fault, and counts again with every delivery. -/
theorem rejection_counted_again :
    let w := Store.ofTask plainEnv ⟨"t", "s", "e", .inProgress, 0, 0, 0, none, none, []⟩
    let rejected : ASDLCEvent :=
      { eventType := .gateRejected, sessionId := ⟨"s", by decide⟩, timestamp := 0, taskId := some "t" }
    let d : Delivery := ⟨rejected, 1, [.ok, .ok, .ok, .ok]⟩
    Retried plainEnv w d ∧ Retried plainEnv (deliver plainEnv w d) d ∧
      storedCount plainEnv "t" w = 0 ∧ storedCount plainEnv "t" (deliver plainEnv w d) = 1 ∧
      storedCount plainEnv "t" (deliver plainEnv (deliver plainEnv w d) d) = 2 := by
  refine ⟨⟨_, rfl, rfl⟩, ⟨_, rfl, rfl⟩, ?_⟩
  decide

end DoxAsdlc
