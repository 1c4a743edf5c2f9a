import DoxAsdlc.Interaction.Semaphore
import DoxAsdlc.Workers.WorkerPool

/-!
# The concurrency of the worker pool

The event loop takes a slot of the semaphore before it creates a task, and the callback of
the task gives the slot back, however the task ends.  `start` may be called again while a
stopped pool still finishes its work, and then two event loops share the slots.

A step goes from one place where a coroutine may be interrupted to the next, or less far.
What the consumer reads, how the server and the agents answer, and who is cancelled when is
up to the environment.

## Main definitions

* `EventTask`, `LoopPhase` — one task, and where an event loop stands.
* `ActivePool`, `PoolEvent`, `ActivePool.step` — the pool and its steps.
* `ActivePool.Kept` — the invariant of every run.
-/

namespace DoxAsdlc

open Interaction

/-- `WorkerPoolState`. -/
inductive WorkerPoolState where
  | stopped
  | running
  | shuttingDown
  deriving DecidableEq, Repr

/-- The counters of `get_stats`. -/
structure PoolStats where
  eventsProcessed : ℕ := 0
  eventsSucceeded : ℕ := 0
  eventsFailed : ℕ := 0
  deriving DecidableEq, Repr

namespace PoolStats

/-- What the counters gain when `_process_event` comes to a phase: it counts once after the
agent answered, and once in each `except`. -/
def count (stats : PoolStats) : Phase → PoolStats
  | .ran _ result =>
    if result.success then
      { stats with
        eventsProcessed := stats.eventsProcessed + 1
        eventsSucceeded := stats.eventsSucceeded + 1 }
    else
      { stats with
        eventsProcessed := stats.eventsProcessed + 1
        eventsFailed := stats.eventsFailed + 1 }
  | .failed _ _ _ =>
    { stats with
      eventsProcessed := stats.eventsProcessed + 1
      eventsFailed := stats.eventsFailed + 1 }
  | _ => stats

/-- Every event that was counted has succeeded or failed. -/
def Balanced (stats : PoolStats) : Prop :=
  stats.eventsProcessed = stats.eventsSucceeded + stats.eventsFailed

theorem Balanced.count {stats : PoolStats} (h : stats.Balanced) (phase : Phase) :
    (stats.count phase).Balanced := by
  unfold Balanced at h ⊢
  unfold PoolStats.count
  split
  · split
    · simp only
      omega
    · simp only
      omega
  · simp only
    omega
  · exact h

end PoolStats

/-! ## Tasks and loops -/

/-- A task of `_process_event`; it is registered until its callback has run. -/
structure EventTask where
  now : Time
  phase : Phase
  cancelled : Bool := false
  registered : Bool := true

namespace EventTask

/-- The delivery the task follows, which has been read already. -/
def receipt (t : EventTask) : Receipt := ⟨0, true, t.now⟩

/-- The command the task waits for. -/
def command (env : Env) (t : EventTask) : Option Cmd :=
  if t.cancelled then none else t.phase.command env t.receipt

/-- The task has ended: it returned, raised or was cancelled. -/
def ended (env : Env) (t : EventTask) : Bool := (t.command env).isNone

end EventTask

/-- Where an event loop stands. -/
inductive LoopPhase where
  | checking
  | reading
  | yielding (events : List ASDLCEvent)
  | handling (events : List ASDLCEvent)
  | waiting (event : ASDLCEvent) (events : List ASDLCEvent)
  | backingOff
  | ended

/-- A worker pool; `acquired` and `released` only count what has been done to the
semaphore. -/
structure ActivePool where
  state : WorkerPoolState := .stopped
  shutdown : Bool := false
  semaphore : Semaphore ℕ
  loops : List LoopPhase := []
  tasks : List EventTask := []
  stats : PoolStats := {}
  acquired : ℕ := 0
  released : ℕ := 0

/-- What may happen to a pool. -/
inductive PoolEvent where
  | start
  | stop
  | turn (i : ℕ) (now : Time) (reply : Except Error (List ASDLCEvent))
  | answer (j : ℕ) (reply : ∀ c : Cmd, Except Error (Reply c)) (effective : Bool)
  | cancelTask (j : ℕ)
  | cancelLoop (i : ℕ)
  | taskDone (j : ℕ)
  | claimStaleEvents (reply : Except Error (List ASDLCEvent))

namespace ActivePool

/-- A new pool. -/
def init (poolSize : ℕ) : ActivePool where
  semaphore := ⟨poolSize, []⟩

/-- `active_workers`. -/
def active (s : ActivePool) : ℕ := s.tasks.countP fun t => t.registered

/-- The tasks that have not ended. -/
def runningTasks (env : Env) (s : ActivePool) : ℕ := s.tasks.countP fun t => !t.ended env

/-- `start`, up to its event loop. -/
def start (s : ActivePool) : ActivePool :=
  if s.state = .running then s
  else { s with state := .running, shutdown := false, loops := s.loops ++ [.checking] }

/-- `stop`, up to where it waits for the tasks; when the time is up it cancels them. -/
def stop (s : ActivePool) : ActivePool :=
  if s.state = .running then { s with state := .shuttingDown, shutdown := true } else s

/-- Loop `i` goes on to a phase. -/
def goTo (s : ActivePool) (i : ℕ) (phase : LoopPhase) : ActivePool :=
  { s with loops := s.loops.set i phase }

/-- Loop `i` ends, and with it its `start`. -/
def endLoop (s : ActivePool) (i : ℕ) : ActivePool :=
  { s.goTo i .ended with state := .stopped }

/-- Create a task for an event, with the slot taken from the semaphore. -/
def createTask (s : ActivePool) (semaphore : Semaphore ℕ) (now : Time) (event : ASDLCEvent) :
    ActivePool :=
  { s with
    semaphore := semaphore
    tasks := s.tasks ++ [{ now := now, phase := .received event }]
    acquired := s.acquired + 1 }

/-- A turn of event loop `i`; `reply` is what `read_events` comes back with. -/
def turn (s : ActivePool) (i : ℕ) (now : Time) (reply : Except Error (List ASDLCEvent)) :
    LoopPhase → ActivePool
  | .checking =>
    if s.state = .running ∧ s.shutdown = false then s.goTo i .reading else s.endLoop i
  | .reading =>
    match reply with
    | .ok events => s.goTo i (.yielding events)
    | .error _ => s.goTo i .backingOff
  | .yielding events => s.goTo i (.handling events)
  | .handling [] => s.goTo i .checking
  | .handling (event :: events) =>
    if s.state = .running then
      match s.semaphore.acquire? with
      | some semaphore => (s.createTask semaphore now event).goTo i (.handling events)
      | none => { s.goTo i (.waiting event events) with semaphore := s.semaphore.wait i }
    else s.goTo i .checking
  | .waiting event events =>
    if (i, true) ∈ s.semaphore.waiters then
      (s.createTask (s.semaphore.resume i) now event).goTo i (.handling events)
    else s
  | .backingOff => s.goTo i .checking
  | .ended => s

/-- A cancelled loop stops at the place where it waits. -/
def cancelLoop (s : ActivePool) (i : ℕ) : LoopPhase → ActivePool
  | .reading | .yielding _ | .backingOff => s.endLoop i
  | .waiting _ _ => { s.endLoop i with semaphore := s.semaphore.cancel i }
  | .checking | .handling _ | .ended => s

/-- Task `j` becomes `t`. -/
def setTask (s : ActivePool) (j : ℕ) (t : EventTask) : ActivePool :=
  { s with tasks := s.tasks.set j t }

/-- A task is answered, and counts what it has come to. -/
def answer (env : Env) (s : ActivePool) (j : ℕ) (reply : ∀ c : Cmd, Except Error (Reply c))
    (effective : Bool) (t : EventTask) : ActivePool :=
  match t.command env with
  | none => s
  | some c =>
    let phase := t.phase.next env t.receipt ⟨c, reply c, effective⟩
    { s.setTask j { t with phase := phase } with stats := s.stats.count phase }

/-- A task that has not ended is cancelled where it waits; no `except` clause sees that. -/
def cancelTask (env : Env) (s : ActivePool) (j : ℕ) (t : EventTask) : ActivePool :=
  if t.ended env then s else s.setTask j { t with cancelled := true }

/-- `_task_done`, which is called once, after the task has ended. -/
def taskDone (env : Env) (s : ActivePool) (j : ℕ) (t : EventTask) : ActivePool :=
  if t.ended env ∧ t.registered then
    { s.setTask j { t with registered := false } with
      semaphore := s.semaphore.release
      released := s.released + 1 }
  else s

/-- What a step does. Nothing in the pool handles the events that `claim_stale_events`
returns. -/
def step (env : Env) (s : ActivePool) : PoolEvent → ActivePool
  | .start => s.start
  | .stop => s.stop
  | .turn i now reply => (s.loops[i]?).elim s (s.turn i now reply)
  | .answer j reply effective => (s.tasks[j]?).elim s (s.answer env j reply effective)
  | .cancelTask j => (s.tasks[j]?).elim s (s.cancelTask env j)
  | .cancelLoop i => (s.loops[i]?).elim s (s.cancelLoop i)
  | .taskDone j => (s.tasks[j]?).elim s (s.taskDone env j)
  | .claimStaleEvents _ => s

/-- The pool after a run. -/
def run (env : Env) (s : ActivePool) (events : List PoolEvent) : ActivePool :=
  events.foldl (step env) s

/-! ## The invariant -/

/-- Every slot is free or held by a registered task, and a task gives up its slot after its
end only. -/
structure Kept (env : Env) (poolSize : ℕ) (s : ActivePool) : Prop where
  slots : s.semaphore.free + s.active = poolSize
  acquired : s.acquired = s.tasks.length
  released : s.tasks.length = s.released + s.active
  holding : ∀ t ∈ s.tasks, t.registered = false → t.ended env
  balanced : s.stats.Balanced

variable {env : Env} {poolSize : ℕ} {s : ActivePool}

theorem kept_init (env : Env) (poolSize : ℕ) : (init poolSize).Kept env poolSize where
  slots := rfl
  acquired := rfl
  released := rfl
  holding := by
    intro t ht
    cases ht
  balanced := rfl

/-- The invariant does not speak of the loops and the state. -/
theorem Kept.goTo (h : s.Kept env poolSize) (i : ℕ) (phase : LoopPhase) :
    (s.goTo i phase).Kept env poolSize := ⟨h.1, h.2, h.3, h.4, h.5⟩

theorem Kept.endLoop (h : s.Kept env poolSize) (i : ℕ) : (s.endLoop i).Kept env poolSize :=
  ⟨h.1, h.2, h.3, h.4, h.5⟩

/-- The semaphore may do what keeps its free slots. -/
theorem Kept.semaphore (h : s.Kept env poolSize) {semaphore : Semaphore ℕ}
    (hfree : semaphore.free = s.semaphore.free) :
    { s with semaphore := semaphore }.Kept env poolSize :=
  ⟨hfree ▸ h.1, h.2, h.3, h.4, h.5⟩

theorem Kept.start (h : s.Kept env poolSize) : s.start.Kept env poolSize := by
  unfold ActivePool.start
  split
  · exact h
  · exact ⟨h.1, h.2, h.3, h.4, h.5⟩

theorem Kept.stop (h : s.Kept env poolSize) : s.stop.Kept env poolSize := by
  unfold ActivePool.stop
  split
  · exact ⟨h.1, h.2, h.3, h.4, h.5⟩
  · exact h

/-- A new task holds the slot that was taken for it. -/
theorem Kept.createTask (h : s.Kept env poolSize) {semaphore : Semaphore ℕ}
    (hfree : s.semaphore.free = semaphore.free + 1) (now : Time) (event : ASDLCEvent) :
    (s.createTask semaphore now event).Kept env poolSize where
  slots := by
    have hslots := h.slots
    simp only [ActivePool.createTask, active, List.countP_append, List.countP_singleton,
      if_true] at hslots ⊢
    omega
  acquired := by
    have hacquired := h.acquired
    simp only [ActivePool.createTask, List.length_append, List.length_singleton]
    omega
  released := by
    have hreleased := h.released
    simp only [ActivePool.createTask, active, List.length_append, List.length_singleton,
      List.countP_append, List.countP_singleton, if_true] at hreleased ⊢
    omega
  holding := by
    intro t ht hregistered
    rcases List.mem_append.mp ht with hold | hnew
    · exact h.holding t hold hregistered
    · rw [List.mem_singleton.mp hnew] at hregistered
      cases hregistered
  balanced := h.balanced

theorem Kept.turn (h : s.Kept env poolSize) (i : ℕ) (now : Time)
    (reply : Except Error (List ASDLCEvent)) (phase : LoopPhase) :
    (s.turn i now reply phase).Kept env poolSize := by
  cases phase with
  | checking =>
    rw [ActivePool.turn]
    split
    · exact h.goTo i _
    · exact h.endLoop i
  | reading =>
    cases reply with
    | ok events => exact h.goTo i _
    | error e => exact h.goTo i _
  | yielding events => exact h.goTo i _
  | handling events =>
    cases events with
    | nil => exact h.goTo i _
    | cons event events =>
      rw [ActivePool.turn]
      split
      · split
        · next semaphore hacquire =>
          exact (h.createTask (Semaphore.free_acquire hacquire) now event).goTo i _
        · exact (h.goTo i _).semaphore (Semaphore.free_wait s.semaphore i)
      · exact h.goTo i _
  | waiting event events =>
    rw [ActivePool.turn]
    split
    · next hgranted =>
      exact (h.createTask (Semaphore.free_resume hgranted) now event).goTo i _
    · exact h
  | backingOff => exact h.goTo i _
  | ended => exact h

theorem Kept.cancelLoop (h : s.Kept env poolSize) (i : ℕ) (phase : LoopPhase) :
    (s.cancelLoop i phase).Kept env poolSize := by
  cases phase with
  | waiting event events =>
    exact (h.endLoop i).semaphore (Semaphore.free_cancel s.semaphore i)
  | checking => exact h
  | handling events => exact h
  | ended => exact h
  | _ => exact h.endLoop i

/-! ## The tasks -/

theorem countP_set {α : Type} {p : α → Bool} {l : List α} {j : ℕ} {a b : α}
    (h : l[j]? = some a) :
    (l.set j b).countP p + (if p a then 1 else 0) = l.countP p + if p b then 1 else 0 := by
  obtain ⟨hj, rfl⟩ := List.getElem?_eq_some_iff.mp h
  rw [(List.set_perm_cons_eraseIdx hj b).countP_eq,
    ← (List.getElem_cons_eraseIdx_perm hj).countP_eq, List.countP_cons, List.countP_cons]
  omega

theorem active_setTask {j : ℕ} {t t' : EventTask} (h : s.tasks[j]? = some t) :
    (s.setTask j t').active + (if t.registered then 1 else 0)
      = s.active + if t'.registered then 1 else 0 :=
  countP_set h

theorem active_setTask_same {j : ℕ} {t t' : EventTask} (h : s.tasks[j]? = some t)
    (hregistered : t'.registered = t.registered) : (s.setTask j t').active = s.active := by
  have hactive : (s.setTask j t').active + _ = s.active + _ := active_setTask h
  rwa [hregistered, Nat.add_right_cancel_iff] at hactive

/-- A task that goes on, or is cancelled, keeps its slot. -/
theorem Kept.setTask (h : s.Kept env poolSize) {j : ℕ} {t t' : EventTask}
    (ht : s.tasks[j]? = some t) (hregistered : t'.registered = t.registered)
    (hlive : t.ended env = false) : (s.setTask j t').Kept env poolSize where
  slots := by
    rw [active_setTask_same ht hregistered]
    exact h.slots
  acquired := by simpa [ActivePool.setTask] using h.acquired
  released := by
    rw [active_setTask_same ht hregistered]
    simpa [ActivePool.setTask] using h.released
  holding := by
    intro u hu hunregistered
    rcases List.mem_or_eq_of_mem_set hu with hold | rfl
    · exact h.holding u hold hunregistered
    · have hended := h.holding t (List.mem_of_getElem? ht) (hregistered ▸ hunregistered)
      rw [hlive] at hended
      cases hended
  balanced := h.balanced

theorem Kept.answer (h : s.Kept env poolSize) {j : ℕ} {t : EventTask}
    (ht : s.tasks[j]? = some t) (reply : ∀ c : Cmd, Except Error (Reply c)) (effective : Bool) :
    (s.answer env j reply effective t).Kept env poolSize := by
  unfold ActivePool.answer
  split
  · exact h
  · next c hcommand =>
    have hended : t.ended env = false := by simp [EventTask.ended, hcommand]
    have hset : (s.setTask j { t with
        phase := t.phase.next env t.receipt ⟨c, reply c, effective⟩ }).Kept env poolSize :=
      h.setTask ht rfl hended
    exact ⟨hset.1, hset.2, hset.3, hset.4, h.balanced.count _⟩

theorem Kept.cancelTask (h : s.Kept env poolSize) {j : ℕ} {t : EventTask}
    (ht : s.tasks[j]? = some t) : (s.cancelTask env j t).Kept env poolSize := by
  unfold ActivePool.cancelTask
  split
  · exact h
  · next hended => exact h.setTask ht rfl (Bool.eq_false_iff.mpr hended)

/-- The callback gives the slot of the task back. -/
theorem Kept.taskDone (h : s.Kept env poolSize) {j : ℕ} {t : EventTask}
    (ht : s.tasks[j]? = some t) : (s.taskDone env j t).Kept env poolSize := by
  unfold ActivePool.taskDone
  split
  · next hdone =>
    have hactive : (s.setTask j { t with registered := false }).active + _ = s.active + _ :=
      active_setTask ht
    simp only [hdone.2, if_true, Bool.false_eq_true, if_false, Nat.add_zero] at hactive
    exact
      { slots := by
          have hslots := h.slots
          have hfree := Semaphore.free_release s.semaphore
          change s.semaphore.release.free + (s.setTask j _).active = poolSize
          omega
        acquired := by simpa [ActivePool.setTask] using h.acquired
        released := by
          have hreleased := h.released
          change (s.tasks.set j _).length = s.released + 1 + (s.setTask j _).active
          rw [List.length_set]
          omega
        holding := by
          intro u hu hunregistered
          rcases List.mem_or_eq_of_mem_set hu with hold | rfl
          · exact h.holding u hold hunregistered
          · exact hdone.1
        balanced := h.balanced }
  · exact h

/-! ## Runs -/

theorem Kept.step (h : s.Kept env poolSize) (event : PoolEvent) :
    (s.step env event).Kept env poolSize := by
  cases event with
  | start => exact h.start
  | stop => exact h.stop
  | turn i now reply =>
    rw [ActivePool.step]
    cases hloop : s.loops[i]? with
    | none => exact h
    | some phase => exact h.turn i now reply phase
  | answer j reply effective =>
    rw [ActivePool.step]
    cases htask : s.tasks[j]? with
    | none => exact h
    | some t => exact h.answer htask reply effective
  | cancelTask j =>
    rw [ActivePool.step]
    cases htask : s.tasks[j]? with
    | none => exact h
    | some t => exact h.cancelTask htask
  | cancelLoop i =>
    rw [ActivePool.step]
    cases hloop : s.loops[i]? with
    | none => exact h
    | some phase => exact h.cancelLoop i phase
  | taskDone j =>
    rw [ActivePool.step]
    cases htask : s.tasks[j]? with
    | none => exact h
    | some t => exact h.taskDone htask
  | claimStaleEvents reply => exact h

/-- Every run keeps the invariant. -/
theorem Kept.run (h : s.Kept env poolSize) (events : List PoolEvent) :
    (s.run env events).Kept env poolSize := by
  induction events generalizing s with
  | nil => exact h
  | cons event events ih => exact ih (h.step event)

/-- A task that has not ended is registered. -/
theorem Kept.runningTasks_le (h : s.Kept env poolSize) : s.runningTasks env ≤ s.active := by
  apply List.countP_mono_left
  intro t ht hrunning
  by_contra hunregistered
  have hended := h.holding t ht (Bool.eq_false_iff.mpr hunregistered)
  rw [hended] at hrunning
  cases hrunning

/-- With one slot, the second event waits while the first is processed. -/
example (env : Env) (event : ASDLCEvent) :
    let turn := PoolEvent.turn 0 0 (.ok [event, event])
    let s := (init 1).run env [.start, turn, turn, turn, turn, turn]
    s.active = 1 ∧ s.semaphore.free = 0 ∧ s.loops = [.waiting event []] := ⟨rfl, rfl, rfl⟩

end ActivePool
end DoxAsdlc
