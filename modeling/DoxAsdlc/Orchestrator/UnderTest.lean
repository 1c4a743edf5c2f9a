import DoxAsdlc.Orchestrator.Retry

/-!
# Tasks under test

When an agent has completed a task, the manager sends the task to testing and publishes a
dispatch of the test runner.  The manager consumes the stream it publishes to: its own dispatch
comes back as `TASK_DISPATCHED`, and the handler of that event puts any task it may back in
progress.

## Main definitions

* `Moves` — a delivery takes a task out of testing; `stateIs_deliver` — exactly then.
* `Testing`, `advance` — the store, the tasks under test, and what the manager has published for
  them, with the delivery of one event.
* `Stays` — what is promised of a delivery; `stays_iff` — exactly when it is kept.
-/

namespace DoxAsdlc

open Interaction Interaction.Program Async

/-! ## What takes a task out of testing -/

/-- So many commands are answered, and the next one reaches the server. -/
def Reaches : ℕ → List (Outcome Error) → Prop
  | _, [] => False
  | 0, o :: _ => o.effective = true
  | n + 1, o :: os => o = .ok ∧ Reaches n os

/-- The handling of the event writes another state than `testing` for the task: it is created
anew, dispatched, or sent back by a gate. -/
def Moves (t : String) (d : Delivery) : Prop :=
  match d.event.eventType with
  | .taskCreated => d.event.taskId.getD "" = t ∧ Reaches 0 d.outcomes
  | .taskDispatched => given d.event.taskId = some t ∧ Reaches 2 d.outcomes
  | .gateRejected => given d.event.taskId = some t ∧ Reaches 4 d.outcomes
  | _ => False

section

variable {env : Env} {now : Time} {event : ASDLCEvent} {t taskId message : String} {w : Store}
  {os : List (Outcome Error)}

/-- A write without a state leaves the state of every task. -/
theorem StateIs.write {s : TaskState} (h : StateIs env t s w) {m : TaskHash}
    (hm : m .state = none) (t' : String) : StateIs env t s (w.writeTask (taskKey env t') m) := by
  rw [StateIs, storedState_writeTask]
  simpa [hm, StateIs] using h

/-- A state change that is not allowed from the state of a task, or is one of another task,
leaves it. -/
theorem keeps_stateIs_updateState {s newState : TaskState} {updates : List TaskUpdate}
    (h : t = taskId → canTransition s newState = false) :
    Keeps (Store.serve env) (StateIs env t s) (updateState env now taskId newState updates) := by
  refine keeps_updateState fun w data hw hdata hcan => ?_
  by_cases ht : t = taskId
  · subst ht
    rw [fromDict_state now hdata, readState, show storedState env t w = some s from hw] at hcan
    simp [h rfl] at hcan
  · rw [StateIs, storedState_writeTask, if_neg ht]
    exact hw

theorem keeps_stateIs_handleReportedFailure {s : TaskState} :
    Keeps (Store.serve env) (StateIs env t s) (handleReportedFailure message env now event) := by
  unfold handleReportedFailure
  split
  · exact keeps_ret _
  · refine keeps_bind keeps_getTask fun r => ?_
    cases r with
    | none => exact keeps_ret _
    | some task => exact keeps_handleTaskFailure stateIs_tasksOnly fun _ _ h hm => h.write hm _

theorem keeps_stateIs_handleAgentCompleted :
    Keeps (Store.serve env) (StateIs env t .testing) (handleAgentCompleted env now event) := by
  unfold handleAgentCompleted
  split
  · exact keeps_ret _
  · refine keeps_bind keeps_getTask fun r => ?_
    cases r with
    | none => exact keeps_ret _
    | some task =>
      refine keeps_bind (keeps_applyPatches stateIs_tasksOnly (fun _ _ h hm => h.write hm _) _)
        fun b => ?_
      split
      · exact keeps_bind (keeps_stateIs_updateState fun _ => rfl) fun _ =>
          keeps_bind (keeps_publishEventModel stateIs_tasksOnly) fun _ => keeps_ret _
      · exact keeps_ret _

theorem keeps_stateIs_handleGateApproved :
    Keeps (Store.serve env) (StateIs env t .testing) (handleGateApproved env now event) := by
  unfold handleGateApproved
  split
  · exact keeps_ret _
  · refine keeps_bind keeps_getTask fun r => ?_
    cases r with
    | none => exact keeps_ret _
    | some task =>
      dsimp only
      split
      · exact keeps_bind (keeps_stateIs_updateState fun _ => rfl) fun _ =>
          keeps_bind (keeps_publishEventModel stateIs_tasksOnly) fun _ => keeps_ret _
      · exact keeps_ret _

theorem keeps_stateIs_handlePatchCreated {s : TaskState} :
    Keeps (Store.serve env) (StateIs env t s) (handlePatchCreated env now event) := by
  unfold handlePatchCreated
  split
  · exact keeps_ret _
  · exact keeps_ret _
  · split
    · exact keeps_applyAndAnnounce stateIs_tasksOnly _
    · exact keeps_ret _

/-- A dispatch leaves the state of other tasks. -/
theorem keeps_stateIs_handleTaskDispatched {s : TaskState} (ht : given event.taskId ≠ some t) :
    Keeps (Store.serve env) (StateIs env t s) (handleTaskDispatched env now event) := by
  unfold handleTaskDispatched
  split
  · exact keeps_ret _
  · rename_i taskId htask
    refine keeps_bind keeps_getTask fun r => ?_
    cases r with
    | none => exact keeps_ret _
    | some task =>
      exact keeps_bind (keeps_stateIs_updateState fun h => absurd (h ▸ htask) ht) fun _ =>
        keeps_ret _

/-- A rejection leaves the state of other tasks. -/
theorem keeps_stateIs_handleGateRejected {s : TaskState} (ht : given event.taskId ≠ some t) :
    Keeps (Store.serve env) (StateIs env t s) (handleGateRejected env now event) := by
  unfold handleGateRejected
  split
  · exact keeps_ret _
  · rename_i taskId htask
    refine keeps_bind keeps_getTask fun r => ?_
    cases r with
    | none => exact keeps_ret _
    | some task =>
      exact keeps_bind (keeps_incrementFailCount fun _ _ h hm => h.write hm _) fun _ =>
        keeps_bind (keeps_stateIs_updateState fun h => absurd (h ▸ htask) ht) fun _ =>
          keeps_bind (keeps_publishEventModel stateIs_tasksOnly) fun _ => keeps_ret _

/-! ## Where the task itself is written -/

/-- A stored task has a hash. -/
theorem StateIs.exists_hash {s : TaskState} (h : StateIs env t s w) :
    ∃ data, w.tasks (taskKey env t) = some data := by
  cases hdata : w.tasks (taskKey env t) with
  | none => simp [StateIs, storedState, hdata] at h
  | some data => exact ⟨data, rfl⟩

/-- A state change from `testing`, with whatever follows it, is made when its read is answered
and its write reaches the server. -/
theorem stateIs_updateState (newState : TaskState) (updates : List TaskUpdate)
    (rest : Task → Async Unit) (os : List (Outcome Error)) (h : StateIs env t .testing w)
    (hcan : canTransition .testing newState = true)
    (hu : ∀ task : Task, (task.updated now newState updates).state = newState)
    (hrest : ∀ task, Keeps (Store.serve env) (StateIs env t newState) (rest task)) :
    StateIs env t .testing (play (Store.serve env) os
      ((updateState env now t newState updates).elim rest .raise) w).2 ↔ ¬ Reaches 1 os := by
  have hne : newState ≠ .testing := by
    rintro rfl
    simp at hcan
  obtain ⟨data, hdata⟩ := h.exists_hash
  have hstate : (Task.fromDict now data).state = .testing := by
    rw [fromDict_state now hdata, readState, show storedState env t w = some .testing from h]
    rfl
  have hnew : StateIs env t newState (w.writeTask (taskKey env t)
      ((Task.fromDict now data).updated now newState updates).toDict) := by
    simp [StateIs, storedState_writeTask, hu]
  have hmoved : ∀ w', StateIs env t newState w' → ¬ StateIs env t .testing w' := by
    intro w' hw' htest
    rw [StateIs, show storedState env t w' = some newState from hw'] at htest
    exact hne (Option.some.inj htest)
  rw [updateState_eq]
  rcases os with _ | ⟨_ | e | e, os⟩
  · simpa [Reaches] using h
  · simp only [elim_call, play_call, Server.perform_ok, serve_hgetall, hdata, hstate,
      validateTransition_of_can hcan]
    rcases os with _ | ⟨_ | e | e, os⟩
    · simpa [Reaches] using h
    · simp only [play_call, Server.perform_ok, serve_hset, answer_ok, elim_ret]
      exact iff_of_false (hmoved _ (((hrest _).play hnew os))) (by simp [Reaches, Outcome.effective])
    · simpa [Reaches, Outcome.effective] using h
    · simp only [play_call, Server.perform_lost, serve_hset, answer_error, elim_raise, play_raise]
      exact iff_of_false (hmoved _ hnew) (by simp [Reaches, Outcome.effective])
  · simpa [Reaches] using h
  · simpa [Reaches] using h

/-- A dispatch takes its task out of testing with its third command. -/
theorem stateIs_handleTaskDispatched (h : StateIs env t .testing w)
    (ht : given event.taskId = some t) :
    StateIs env t .testing (play (Store.serve env) os (handleTaskDispatched env now event) w).2 ↔
      ¬ Reaches 2 os := by
  obtain ⟨data, hdata⟩ := h.exists_hash
  rcases os with _ | ⟨_ | e | e, os⟩
  · simpa [Reaches] using h
  · have hlater := stateIs_updateState .inProgress
      [.currentAgent (some (event.meta "agent_type" "unknown"))] (fun _ => .ret ()) os h rfl
      (fun task => (rfl : (task.updated now _ _).state = _)) fun _ => keeps_ret _
    simpa [handleTaskDispatched, ht, getTask, hdata, Reaches] using hlater
  · simpa [handleTaskDispatched, ht, getTask, Reaches] using h
  · simpa [handleTaskDispatched, ht, getTask, Reaches] using h

/-- A rejection takes its task out of testing with its fifth command. -/
theorem stateIs_handleGateRejected (h : StateIs env t .testing w)
    (ht : given event.taskId = some t) :
    StateIs env t .testing (play (Store.serve env) os (handleGateRejected env now event) w).2 ↔
      ¬ Reaches 4 os := by
  obtain ⟨data, hdata⟩ := h.exists_hash
  have hcount : StateIs env t .testing (Store.serve env (.hincrby (taskKey env t) 1) w).1 := by
    rw [serve_hincrby]
    exact h.write (Redis.Hash.field_of_ne _ (by decide)) t
  have htouched : StateIs env t .testing ((Store.serve env (.hincrby (taskKey env t) 1) w).1.writeTask
      (taskKey env t) (.field .updatedAt now)) :=
    hcount.write (Redis.Hash.field_of_ne _ (by decide)) t
  rcases os with _ | ⟨_ | e | e, os⟩
  · simpa [Reaches] using h
  · rcases os with _ | ⟨_ | e | e, os⟩
    · simpa [handleGateRejected, ht, getTask, hdata, Reaches] using h
    · rcases os with _ | ⟨_ | e | e, os⟩
      · simpa [handleGateRejected, ht, getTask, hdata, incrementFailCount, Reaches] using hcount
      · -- what follows is the state change, whatever the count
        have hlater := fun rest hrest => stateIs_updateState .inProgress [] rest os htouched rfl
          (fun task => (rfl : (task.updated now _ _).state = _)) hrest
        simpa [handleGateRejected, ht, getTask, hdata, incrementFailCount, Reaches] using
          hlater _ fun task => keeps_bind (keeps_publishEventModel stateIs_tasksOnly)
            fun _ => keeps_ret _
      · simpa [handleGateRejected, ht, getTask, hdata, incrementFailCount, Reaches] using hcount
      · simpa [handleGateRejected, ht, getTask, hdata, incrementFailCount, Reaches] using htouched
    · simpa [handleGateRejected, ht, getTask, hdata, incrementFailCount, Reaches] using h
    · simpa [handleGateRejected, ht, getTask, hdata, incrementFailCount, Reaches] using hcount
  · simpa [handleGateRejected, ht, getTask, Reaches] using h
  · simpa [handleGateRejected, ht, getTask, Reaches] using h

/-- A creation takes its task out of testing with its one command. -/
theorem stateIs_handleTaskCreated (h : StateIs env t .testing w) :
    StateIs env t .testing (play (Store.serve env) os (handleTaskCreated env now event) w).2 ↔
      ¬ (event.taskId.getD "" = t ∧ Reaches 0 os) := by
  have hcreated : (createdTask now event).toDict .state = some .pending := rfl
  have hid : (createdTask now event).taskId = event.taskId.getD "" := rfl
  have hwrite : StateIs env t .testing (w.writeTask (taskKey env (createdTask now event).taskId)
      (createdTask now event).toDict) ↔ event.taskId.getD "" ≠ t := by
    rw [StateIs, storedState_writeTask, hid, hcreated]
    by_cases ht : t = event.taskId.getD ""
    · simp [ht]
    · simpa [ht, eq_comm, StateIs] using h
  rcases os with _ | ⟨_ | e | e, os⟩
  · simpa [Reaches] using h
  · simpa [handleTaskCreated, createTask, Reaches, Outcome.effective] using hwrite
  · simpa [handleTaskCreated, createTask, Reaches, Outcome.effective] using h
  · simpa [handleTaskCreated, createTask, Reaches, Outcome.effective] using hwrite

/-- **What takes a task out of testing.** -/
theorem stateIs_deliver (h : StateIs env t .testing w) (d : Delivery) :
    StateIs env t .testing (deliver env w d) ↔ ¬ Moves t d := by
  cases hh : getHandler env d.now d.event.eventType with
  | none =>
    have hmoves : ¬ Moves t d := by
      cases ht : d.event.eventType <;> simp [ht, getHandler] at hh <;> simp [Moves, ht]
    refine iff_of_true ?_ hmoves
    simpa [deliver, handle, hh] using h
  | some handler =>
    rw [deliver, handle_play hh]
    have hkeeps : Keeps (Store.serve env) (StateIs env t .testing) (handler d.event) →
        ¬ Moves t d → (StateIs env t .testing
          (play (Store.serve env) d.outcomes (handler d.event) w).2 ↔ ¬ Moves t d) :=
      fun hkeeps hmoves => iff_of_true (hkeeps.play h d.outcomes) hmoves
    cases ht : d.event.eventType <;> rw [ht] at hh <;> simp only [getHandler, Option.some.injEq,
      reduceCtorEq] at hh <;> subst hh
    case taskCreated =>
      simp only [Moves, ht]
      exact stateIs_handleTaskCreated h
    case taskDispatched =>
      simp only [Moves, ht]
      by_cases hid : given d.event.taskId = some t
      · simpa [hid] using stateIs_handleTaskDispatched h hid
      · exact iff_of_true ((keeps_stateIs_handleTaskDispatched hid).play h d.outcomes)
          (by simp [hid])
    case gateRejected =>
      simp only [Moves, ht]
      by_cases hid : given d.event.taskId = some t
      · simpa [hid] using stateIs_handleGateRejected h hid
      · exact iff_of_true ((keeps_stateIs_handleGateRejected hid).play h d.outcomes)
          (by simp [hid])
    case agentCompleted => exact hkeeps keeps_stateIs_handleAgentCompleted (by simp [Moves, ht])
    case agentError => exact hkeeps keeps_stateIs_handleReportedFailure (by simp [Moves, ht])
    case taskFailed => exact hkeeps keeps_stateIs_handleReportedFailure (by simp [Moves, ht])
    case gateApproved => exact hkeeps keeps_stateIs_handleGateApproved (by simp [Moves, ht])
    case patchCreated => exact hkeeps keeps_stateIs_handlePatchCreated (by simp [Moves, ht])

end

/-! ## Runs -/

/-- The event tells how the tests of the task came out, or that the task has failed. -/
def Concludes (t : String) (event : ASDLCEvent) : Prop :=
  given event.taskId = some t ∧
    (event.eventType = .agentError ∨ event.eventType = .taskFailed ∨
      event.eventType = .agentCompleted ∧ event.meta "agent_type" "" = "test-runner")

instance (t : String) (event : ASDLCEvent) : Decidable (Concludes t event) :=
  inferInstanceAs (Decidable (_ ∧ _))

/-- The handling of the event has sent the task to testing. -/
def Completes (env : Env) (t : String) (d : Delivery) (w w' : Store) : Prop :=
  d.event.eventType = .agentCompleted ∧ given d.event.taskId = some t ∧
    storedState env t w ≠ some .testing ∧ storedState env t w' = some .testing

instance (env : Env) (t : String) (d : Delivery) (w w' : Store) :
    Decidable (Completes env t d w w') :=
  inferInstanceAs (Decidable (_ ∧ _))

/-- The store; the tasks that have been sent to testing and whose tests are not concluded; and
what the manager has published while it handled `AGENT_COMPLETED`. -/
structure Testing where
  store : Store
  underTest : String → Bool
  own : List StreamEntry

/-- Nothing has been handled yet. -/
def Testing.start (w : Store) : Testing := ⟨w, fun _ => false, []⟩

/-- The manager handles one event. -/
def advance (env : Env) (s : Testing) (d : Delivery) : Testing where
  store := deliver env s.store d
  underTest t := decide (Completes env t d s.store (deliver env s.store d)) ||
    s.underTest t && !decide (Concludes t d.event)
  own := s.own ++ if d.event.eventType = .agentCompleted then
    (deliver env s.store d).stream.drop s.store.stream.length else []

/-- The event is one that the manager has published while handling `AGENT_COMPLETED`. -/
def Testing.FromOwn (s : Testing) (event : ASDLCEvent) : Prop :=
  ∃ entry ∈ s.own, ∃ now i, ASDLCEvent.fromStreamDict now i entry = .ok event

/-- The tests are not over with this event: it does not conclude them, or it is the manager's
own. -/
def Testing.Awaits (s : Testing) (t : String) (event : ASDLCEvent) : Prop :=
  s.underTest t = true ∧ (¬ Concludes t event ∨ s.FromOwn event)

/-- A task under test stays in testing, until an event concludes the tests; no event moves it
that the manager has itself published while handling `AGENT_COMPLETED`. -/
def Stays (env : Env) (s : Testing) (d : Delivery) (s' : Testing) : Prop :=
  ∀ t, s.Awaits t d.event → storedState env t s'.store = some .testing

/-- The delivery does not take a task under test out of testing. -/
def Spares (s : Testing) (d : Delivery) : Prop :=
  ∀ t, s.Awaits t d.event → ¬ Moves t d

/-- The tasks under test are in testing. -/
def Tested (env : Env) (s : Testing) : Prop :=
  ∀ t, s.underTest t = true → StateIs env t .testing s.store

/-- **When tasks stay in testing.**  Along a run of the manager the tasks under test stay in
testing until an event concludes the tests exactly when no delivery before writes another state
for one of them. -/
theorem stays_iff (env : Env) (w : Store) (ds : List Delivery) :
    Along (advance env) (fun _ => True) (Stays env) (Testing.start w) ds ↔
      Each (advance env) Spares (Testing.start w) ds := by
  refine along_iff_each (I := Tested env) ?_ ?_ ?_ trivial ds
  · intro s d htested _ hspares t hunder
    simp only [advance, Bool.or_eq_true, Bool.and_eq_true, Bool.not_eq_true',
      decide_eq_true_eq, decide_eq_false_iff_not] at hunder
    rcases hunder with hcompletes | ⟨hbefore, hopen⟩
    · exact hcompletes.2.2.2
    · exact (stateIs_deliver (htested t hbefore) d).mpr (hspares t ⟨hbefore, .inl hopen⟩)
  · intro s d htested _
    rw [and_iff_left trivial]
    apply forall_congr'
    intro t
    constructor
    · intro hstays hawaits
      exact (stateIs_deliver (htested t hawaits.1) d).mp (hstays hawaits)
    · intro hspares hawaits
      exact (stateIs_deliver (htested t hawaits.1) d).mpr (hspares hawaits)
  · intro t hunder
    cases hunder

/-- **The manager's own dispatch comes back.**  The agent has completed a task; the dispatch of
the test runner, as it is read from the stream, puts the task back in progress. -/
theorem not_stays_testEvent :
    let w := Store.ofTask plainEnv ⟨"t", "s", "e", .inProgress, 0, 0, 0, none, none, []⟩
    let completed : ASDLCEvent :=
      { eventType := .agentCompleted, sessionId := ⟨"s", by decide⟩, timestamp := 0,
        taskId := some "t" }
    let dispatched := ((testEvent 1 completed "t").prepared plainEnv).received 0
    ¬ Along (advance plainEnv) (fun _ => True) (Stays plainEnv) (Testing.start w)
      [⟨completed, 1, [.ok, .ok, .ok, .ok]⟩, ⟨dispatched, 2, [.ok, .ok, .ok]⟩] := by
  intro w completed dispatched h
  have hown : (advance plainEnv (Testing.start w) ⟨completed, 1, [.ok, .ok, .ok, .ok]⟩).own
      = [((testEvent 1 completed "t").prepared plainEnv).toStreamDict] := rfl
  have hmine : Testing.FromOwn (advance plainEnv (Testing.start w)
      ⟨completed, 1, [.ok, .ok, .ok, .ok]⟩) dispatched := by
    refine ⟨_, ?_, 0, 0, ASDLCEvent.fromStreamDict_toStreamDict _ 0 0⟩
    rw [hown]
    exact List.mem_singleton_self _
  have hstays := h.2.2.2.1 "t" ⟨by decide, .inr hmine⟩
  revert hstays
  decide

end DoxAsdlc
