import DoxAsdlc.Interaction.Run
import DoxAsdlc.Orchestrator.ManagerAgent

/-!
# When a task is complete

Runs of the manager over any events in any order, each delivery with its own faults.
Every handler but one changes states through the validated update, which neither
enters `complete` from anywhere but `blockedHitl` nor leaves it.  The exception is the
creation of a task, which writes the whole record without looking at what is stored.

## Main definitions

* `Delivery`, `deliver` — one event handed to the manager, and the store it leaves.
* `CompletesByApproval` — the law of one delivery.
* `KeepsFinished` — the delivery does not create a task that is complete already.
-/

namespace DoxAsdlc

open Interaction Interaction.Program Async

/-- One event handed to the manager: when, and with what outcome of each command. -/
structure Delivery where
  event : ASDLCEvent
  now : Time
  outcomes : List (Outcome Error)

/-- The store that the handling of one event leaves. -/
def deliver (env : Env) (w : Store) (d : Delivery) : Store :=
  (play (Store.serve env) d.outcomes (handle env d.now d.event) w).2

/-- A task becomes complete only by an approval that found it waiting for one, and a
complete task stays complete. -/
def CompletesByApproval (env : Env) (w : Store) (d : Delivery) (w' : Store) : Prop :=
  ∀ t,
    (storedState env t w' = some .complete → storedState env t w ≠ some .complete →
      d.event.eventType = .gateApproved ∧ d.event.taskId = some t ∧
        storedState env t w = some .blockedHitl) ∧
    (storedState env t w = some .complete → storedState env t w' = some .complete)

/-- If the event creates a task that is stored as complete, the write does not reach
the server. -/
def KeepsFinished (env : Env) (w : Store) (d : Delivery) : Prop :=
  d.event.eventType = .taskCreated →
    storedState env (d.event.taskId.getD "") w = some .complete →
    ∀ o os, d.outcomes = o :: os → o.effective = false

/-! ## Assertions about tasks alone -/

/-- An assertion that sessions, commits and the stream have no part in. -/
def TasksOnly (S : Store → Prop) : Prop := ∀ w w', w'.tasks = w.tasks → S w → S w'

section

variable {env : Env} {now : Time} {S : Store → Prop} {event : ASDLCEvent} {task : Task}
  {taskId message : String}

theorem keeps_publishEventModel (hS : TasksOnly S) :
    Keeps (Store.serve env) S (publishEventModel env event) :=
  keeps_tryCatch (keeps_command fun w h => hS w _ rfl h) fun _ => keeps_raise _

theorem keeps_handleTaskFailure (hS : TasksOnly S)
    (hwrite : ∀ w m, S w → m .state = none → S (w.writeTask (taskKey env task.taskId) m)) :
    Keeps (Store.serve env) S (handleTaskFailure env now task message) := by
  refine keeps_bind (keeps_incrementFailCount hwrite) fun n => ?_
  split
  · exact keeps_bind (keeps_answer _) fun _ =>
      keeps_bind (keeps_publishEventModel hS) fun _ => keeps_ret _
  · exact keeps_ret _

theorem keeps_applyOnePatch (hS : TasksOnly S) (patchPath : String) :
    Keeps (Store.serve env) S (applyOnePatch env event taskId patchPath) :=
  keeps_tryCatch (keeps_bind (keeps_command fun w h => hS w _ rfl h) fun _ =>
    keeps_bind (keeps_command fun w h => hS w _ rfl h) fun _ => keeps_ret _) fun _ => keeps_ret _

theorem keeps_applyPatches (hS : TasksOnly S)
    (hwrite : ∀ w m, S w → m .state = none → S (w.writeTask (taskKey env task.taskId) m))
    (patches : List String) :
    Keeps (Store.serve env) S (applyPatches env now event taskId task patches) := by
  induction patches with
  | nil => exact keeps_ret _
  | cons patchPath rest ih =>
    refine keeps_bind (keeps_applyOnePatch hS patchPath) fun r => ?_
    cases r with
    | none => exact ih
    | some e =>
      exact keeps_bind (keeps_handleTaskFailure hS hwrite) fun _ => keeps_ret _

theorem keeps_applyAndAnnounce (hS : TasksOnly S) (patchPath : String) :
    Keeps (Store.serve env) S (applyAndAnnounce env now event taskId patchPath) :=
  keeps_tryCatch (keeps_bind (keeps_command fun w h => hS w _ rfl h) fun _ =>
      keeps_bind (keeps_publishEventModel hS) fun _ => keeps_ret _)
    fun _ => keeps_bind (keeps_publishEventModel hS) fun _ => keeps_ret _

/-! ## The handlers that neither complete nor reopen -/

/-- The complete tasks are those of an earlier store. -/
def SameFinished (env : Env) (w₀ w : Store) : Prop :=
  ∀ t, storedState env t w = some .complete ↔ storedState env t w₀ = some .complete

variable {w₀ : Store}

theorem sameFinished_tasksOnly : TasksOnly (SameFinished env w₀) := by
  intro w w' hw h t
  rw [← h t, storedState, hw, storedState]

/-- A write without a state finishes and reopens nothing. -/
theorem SameFinished.write {w : Store} (h : SameFinished env w₀ w) {m : TaskHash}
    (hm : m .state = none) (t : String) : SameFinished env w₀ (w.writeTask (taskKey env t) m) := by
  intro t'
  simp only [storedState_writeTask, hm, Option.none_or, ite_self]
  exact h t'

/-- The state of a stored task is the one its record is read with. -/
theorem storedState_of_fromDict {w : Store} {data : TaskHash} {s : TaskState}
    (hdata : w.tasks (taskKey env taskId) = some data)
    (hs : (Task.fromDict now data).state = s) (hp : s ≠ .pending) :
    storedState env taskId w = some s := by
  rw [storedState, hdata, Redis.hget_some]
  change (data .state).getD .pending = s at hs
  cases h : data .state with
  | none => rw [h] at hs; exact absurd hs.symm hp
  | some s' => rw [h] at hs; exact congrArg some hs

/-- An allowed change to anything but `complete` finishes and reopens nothing. -/
theorem SameFinished.update {w : Store} (h : SameFinished env w₀ w) {data : TaskHash}
    {newState : TaskState} {updated : Task}
    (hdata : w.tasks (taskKey env taskId) = some data)
    (hcan : canTransition (Task.fromDict now data).state newState = true)
    (hu : updated.state = newState) (hnew : newState ≠ .complete) :
    SameFinished env w₀ (w.writeTask (taskKey env taskId) updated.toDict) := by
  intro t
  rw [← h t, storedState_writeTask]
  by_cases ht : t = taskId
  · subst ht
    have hold : storedState env t w ≠ some .complete := by
      intro hc
      have hdone : (Task.fromDict now data).state = .complete := by
        rw [storedState, hdata, Redis.hget_some] at hc
        simp [Task.fromDict, hc]
      rw [hdone, not_canTransition_complete] at hcan
      cases hcan
    simp [hu, hnew, hold]
  · simp [ht]

theorem keeps_sameFinished_updateState {newState : TaskState} {updates : List TaskUpdate}
    (hnew : newState ≠ .complete)
    (hu : ∀ t : Task, (t.updated now newState updates).state = newState) :
    Keeps (Store.serve env) (SameFinished env w₀)
      (updateState env now taskId newState updates) :=
  keeps_updateState fun _ _ h hdata hcan => h.update hdata hcan (hu _) hnew

theorem keeps_sameFinished_handleReportedFailure :
    Keeps (Store.serve env) (SameFinished env w₀)
      (handleReportedFailure message env now event) := by
  unfold handleReportedFailure
  split
  · exact keeps_ret _
  · refine keeps_bind keeps_getTask fun r => ?_
    cases r with
    | none => exact keeps_ret _
    | some task =>
      exact keeps_handleTaskFailure sameFinished_tasksOnly fun _ _ h hm => h.write hm _

theorem keeps_sameFinished_handleTaskDispatched :
    Keeps (Store.serve env) (SameFinished env w₀) (handleTaskDispatched env now event) := by
  unfold handleTaskDispatched
  split
  · exact keeps_ret _
  · refine keeps_bind keeps_getTask fun r => ?_
    cases r with
    | none => exact keeps_ret _
    | some task =>
      exact keeps_bind (keeps_sameFinished_updateState (by decide) fun _ => rfl) fun _ =>
        keeps_ret _

theorem keeps_sameFinished_handleAgentCompleted :
    Keeps (Store.serve env) (SameFinished env w₀) (handleAgentCompleted env now event) := by
  unfold handleAgentCompleted
  split
  · exact keeps_ret _
  · refine keeps_bind keeps_getTask fun r => ?_
    cases r with
    | none => exact keeps_ret _
    | some task =>
      refine keeps_bind (keeps_applyPatches sameFinished_tasksOnly
        (fun _ _ h hm => h.write hm _) _) fun b => ?_
      split
      · exact keeps_bind (keeps_sameFinished_updateState (by decide) fun _ => rfl) fun _ =>
          keeps_bind (keeps_publishEventModel sameFinished_tasksOnly) fun _ => keeps_ret _
      · exact keeps_ret _

theorem keeps_sameFinished_handleGateRejected :
    Keeps (Store.serve env) (SameFinished env w₀) (handleGateRejected env now event) := by
  unfold handleGateRejected
  split
  · exact keeps_ret _
  · refine keeps_bind keeps_getTask fun r => ?_
    cases r with
    | none => exact keeps_ret _
    | some task =>
      exact keeps_bind (keeps_incrementFailCount fun _ _ h hm => h.write hm _) fun _ =>
        keeps_bind (keeps_sameFinished_updateState (by decide) fun _ => rfl) fun _ =>
          keeps_bind (keeps_publishEventModel sameFinished_tasksOnly) fun _ => keeps_ret _

theorem keeps_sameFinished_handlePatchCreated :
    Keeps (Store.serve env) (SameFinished env w₀) (handlePatchCreated env now event) := by
  unfold handlePatchCreated
  split
  · exact keeps_ret _
  · exact keeps_ret _
  · split
    · exact keeps_applyAndAnnounce sameFinished_tasksOnly _
    · exact keeps_ret _

/-- A handler is wrapped so that it always answers. -/
theorem keeps_handle (h : ∀ handler, getHandler env now event.eventType = some handler →
      Keeps (Store.serve env) S (handler event)) :
    Keeps (Store.serve env) S (handle env now event) := by
  unfold handle
  split
  · exact keeps_ret _
  · rename_i handler hh
    exact keeps_tryCatch (keeps_bind (h handler hh) fun _ => keeps_ret _) fun _ => keeps_ret _

theorem keeps_sameFinished_handle (hc : event.eventType ≠ .taskCreated)
    (ha : event.eventType ≠ .gateApproved) :
    Keeps (Store.serve env) (SameFinished env w₀) (handle env now event) := by
  refine keeps_handle fun handler hh => ?_
  cases ht : event.eventType <;> rw [ht] at hh <;> simp only [getHandler, Option.some.injEq,
    reduceCtorEq] at hh <;> subst hh
  case taskCreated => exact absurd ht hc
  case gateApproved => exact absurd ht ha
  case taskDispatched => exact keeps_sameFinished_handleTaskDispatched
  case agentCompleted => exact keeps_sameFinished_handleAgentCompleted
  case agentError => exact keeps_sameFinished_handleReportedFailure
  case taskFailed => exact keeps_sameFinished_handleReportedFailure
  case gateRejected => exact keeps_sameFinished_handleGateRejected
  case patchCreated => exact keeps_sameFinished_handlePatchCreated

/-! ## Approval and creation -/

/-- At most the named task has changed, from waiting for approval to complete. -/
def ApprovedFrom (env : Env) (taskId : String) (w₀ w : Store) : Prop :=
  ∀ t, storedState env t w = storedState env t w₀ ∨
    (t = taskId ∧ storedState env t w₀ = some .blockedHitl ∧
      storedState env t w = some .complete)

theorem approvedFrom_tasksOnly : TasksOnly (ApprovedFrom env taskId w₀) := by
  intro w w' hw h t
  simp only [storedState, hw] at h ⊢
  exact h t

/-- An allowed change to `complete` finds the task waiting for approval. -/
theorem ApprovedFrom.update {w : Store} (h : ApprovedFrom env taskId w₀ w) {data : TaskHash}
    {updated : Task} (hdata : w.tasks (taskKey env taskId) = some data)
    (hcan : canTransition (Task.fromDict now data).state .complete = true)
    (hu : updated.state = .complete) :
    ApprovedFrom env taskId w₀ (w.writeTask (taskKey env taskId) updated.toDict) := by
  intro t
  rw [storedState_writeTask]
  by_cases ht : t = taskId
  · subst ht
    have hblocked : storedState env t w = some .blockedHitl :=
      storedState_of_fromDict hdata ((canTransition_to_complete _).mp hcan) (by decide)
    rcases h t with hsame | ⟨-, -, hdone⟩
    · exact .inr ⟨rfl, hsame.symm.trans hblocked, by simp [hu]⟩
    · rw [hblocked] at hdone
      cases hdone
  · simpa [ht] using h t

theorem keeps_approvedFrom_handleGateApproved (ht : given event.taskId = some taskId) :
    Keeps (Store.serve env) (ApprovedFrom env taskId w₀) (handleGateApproved env now event) := by
  unfold handleGateApproved
  simp only [ht]
  refine keeps_bind keeps_getTask fun r => ?_
  cases r with
  | none => exact keeps_ret _
  | some task =>
    dsimp only
    split
    · exact keeps_bind (keeps_updateState fun _ _ h hdata hcan => h.update hdata hcan rfl)
        fun _ => keeps_bind (keeps_publishEventModel approvedFrom_tasksOnly) fun _ => keeps_ret _
    · exact keeps_ret _

/-- The creation of a task is one write. -/
theorem deliver_taskCreated (w : Store) (d : Delivery) (h : d.event.eventType = .taskCreated) :
    deliver env w d = match d.outcomes with
      | [] => w
      | o :: _ => if o.effective then
          w.writeTask (taskKey env (d.event.taskId.getD "")) (createdTask d.now d.event).toDict
        else w := by
  rw [deliver, handle, h]
  cases d.outcomes with
  | nil => rfl
  | cons o os => cases o <;> simp [getHandler, handleTaskCreated, createTask, createdTask,
      Outcome.effective]

end

/-! ## Runs -/

variable {env : Env}

theorem completesByApproval_refl (w : Store) (d : Delivery) : CompletesByApproval env w d w :=
  fun _ => ⟨fun h h' => absurd h h', id⟩

/-- Without a creation, one delivery keeps the law. -/
theorem completesByApproval_of_ne (w : Store) (d : Delivery)
    (hc : d.event.eventType ≠ .taskCreated) : CompletesByApproval env w d (deliver env w d) := by
  by_cases ha : d.event.eventType = .gateApproved
  · cases ht : given d.event.taskId with
    | none =>
      have hw : deliver env w d = w := by
        simp [deliver, handle, ha, getHandler, handleGateApproved, ht]
      rw [hw]
      exact completesByApproval_refl w d
    | some taskId =>
      have hkeep : Keeps (Store.serve env) (ApprovedFrom env taskId w)
          (handle env d.now d.event) := by
        refine keeps_handle fun handler hh => ?_
        rw [ha] at hh
        obtain rfl := Option.some.inj hh
        exact keeps_approvedFrom_handleGateApproved ht
      have hfrom : ApprovedFrom env taskId w (deliver env w d) :=
        hkeep.play (fun _ => .inl rfl) d.outcomes
      intro t
      rcases hfrom t with hsame | ⟨rfl, hblocked, hdone⟩
      · rw [hsame]
        exact ⟨fun h h' => absurd h h', id⟩
      · exact ⟨fun _ _ => ⟨ha, (given_eq_some.mp ht).1, hblocked⟩, fun _ => hdone⟩
  · have hsame : SameFinished env w (deliver env w d) :=
      (keeps_sameFinished_handle hc ha).play (fun _ => Iff.rfl) d.outcomes
    exact fun t => ⟨fun h h' => absurd ((hsame t).mp h) h', (hsame t).mpr⟩

/-- One delivery keeps the law exactly when it does not create a complete task anew. -/
theorem completesByApproval_iff (w : Store) (d : Delivery) :
    CompletesByApproval env w d (deliver env w d) ↔ KeepsFinished env w d := by
  by_cases hc : d.event.eventType = .taskCreated
  · have hcreated : (createdTask d.now d.event).toDict .state = some .pending := rfl
    rw [deliver_taskCreated w d hc]
    cases hos : d.outcomes with
    | nil =>
      refine iff_of_true (completesByApproval_refl w d) fun _ _ o os h => ?_
      cases hos.symm.trans h
    | cons o os =>
      cases ho : o.effective with
      | false =>
        simp only [ho, Bool.false_eq_true, if_false]
        refine iff_of_true (completesByApproval_refl w d) fun _ _ o' os' h => ?_
        obtain ⟨rfl, -⟩ := List.cons.inj (hos.symm.trans h)
        exact ho
      | true =>
        simp only [ho, if_true]
        constructor
        · intro hlaw _ hdone
          have hstill := (hlaw _).2 hdone
          rw [storedState_writeTask, if_pos rfl, hcreated] at hstill
          cases hstill
        · intro hkeep t
          rw [storedState_writeTask]
          by_cases ht : t = d.event.taskId.getD ""
          · subst ht
            rw [if_pos rfl, hcreated]
            refine ⟨fun h => (by cases h), fun hdone => ?_⟩
            rw [hkeep hc hdone o os hos] at ho
            cases ho
          · rw [if_neg ht]
            exact ⟨fun h h' => absurd h h', id⟩
  · exact iff_of_true (completesByApproval_of_ne w d hc) fun h => absurd h hc

/-- **Completion.**  Along a run of the manager tasks become complete by approvals
only and stay complete, exactly when no delivery creates a complete task anew. -/
theorem completes_iff_keepsFinished (env : Env) (w : Store) (ds : List Delivery) :
    Along (deliver env) (fun _ => True) (CompletesByApproval env) w ds ↔
      Each (deliver env) (KeepsFinished env) w ds :=
  along_iff_each (I := fun _ => True) (fun _ _ _ _ _ => trivial)
    (fun w d _ _ => (and_iff_left trivial).trans (completesByApproval_iff w d))
    trivial trivial ds

/-- The approval completes the task; the creation delivered once more reopens it. -/
theorem finished_task_reopened :
    let waiting := Store.ofTask plainEnv ⟨"t", "s", "e", .blockedHitl, 0, 0, 0, none, none, []⟩
    let event (t : EventType) : ASDLCEvent :=
      { eventType := t, sessionId := ⟨"s", by decide⟩, timestamp := 0, taskId := some "t" }
    let approved := deliver plainEnv waiting ⟨event .gateApproved, 1, [.ok, .ok, .ok, .ok]⟩
    let redelivered := deliver plainEnv approved ⟨event .taskCreated, 2, [.ok]⟩
    storedState plainEnv "t" approved = some .complete ∧
      storedState plainEnv "t" redelivered = some .pending := by
  decide

end DoxAsdlc
