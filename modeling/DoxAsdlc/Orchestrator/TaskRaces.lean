import DoxAsdlc.Interaction.Pool
import DoxAsdlc.Orchestrator.TaskManager
import Mathlib.Algebra.BigOperators.Ring.Finset

/-!
# State changes and counts racing on one task

Any number of `updateState` and `incrementFailCount` calls on one task, interleaved
command by command.  An increment is one command of the server and is never lost by
itself; a state change writes back the whole task it read, so it undoes whatever
landed between its read and its write.  `ReadIsCurrent` says when a write-back does
no harm, and it is exactly the condition of the two laws: the count equals its
initial value plus the increments made, and the stored states follow the machine.

## Main definitions

* `TaskCall`, `TaskRace` — the calls and their pool.
* `storedCount`, `storedState` — the task as the server holds it.
* `TaskRace.increments` — how many increments the server has made for the calls.
* `ReadIsCurrent` — the write-back about to happen takes nothing back.
-/

namespace DoxAsdlc

open Interaction Interaction.Program

/-- A call on the task. -/
inductive TaskCall where
  | updateState (now : Time) (newState : TaskState) (updates : List TaskUpdate)
  | incrementFailCount (now : Time)

/-- The coroutine of a call. It returns the task or the count. -/
def TaskCall.program (env : Env) (taskId : String) : TaskCall → Async (Task ⊕ ℤ)
  | .updateState now newState updates => do
      return .inl (← DoxAsdlc.updateState env now taskId newState updates)
  | .incrementFailCount now => do
      return .inr (← DoxAsdlc.incrementFailCount env now taskId)

/-- The exchanges of one call. -/
abbrev History := List (Exchange interface Error)

/-- The task that a state change, having read it, is about to write back. -/
def TaskCall.writeBack? : TaskCall → History → Option Task
  | .updateState now newState updates, [⟨.hgetall _, .ok (some data), _⟩] =>
    if canTransition (Task.fromDict now data).state newState then
      some ((Task.fromDict now data).updated now newState updates)
    else none
  | _, _ => none

/-- The calls together with the store they share. -/
abbrev TaskRace (ι : Type) := Config interface Store Error (Task ⊕ ℤ) ι

namespace TaskRace

variable {ι : Type} (env : Env) (taskId : String)

/-- Every call at its beginning. -/
def begin (w : Store) (calls : ι → TaskCall) : TaskRace ι :=
  Config.start w fun j => (calls j).program env taskId

/-- What a call has changed the count by in one exchange: `HINCRBY` is the only
command that adds. -/
def added (x : Exchange interface Error) : ℤ :=
  match x.cmd with
  | .hincrby _ n => n
  | _ => 0

/-- How much the calls have incremented the count on the server. -/
def increments [Fintype ι] (cfg : TaskRace ι) : ℤ := cfg.total fun _ => added

/-- Has call `j` returned as an increment? -/
def countReturned (cfg : TaskRace ι) (j : ι) : Bool :=
  match cfg.threads j with
  | .ret (.inr _) => true
  | _ => false

/-- The number of `incrementFailCount` calls that have returned. -/
def returnedCounts [Fintype ι] (cfg : TaskRace ι) : ℕ :=
  (Finset.univ.filter fun j => countReturned cfg j = true).card

/-- When call `j` is about to write a task back, the count it read (or was told to
set) is the one stored, and the stored state is the one it writes or may move to it. -/
def ReadIsCurrent (calls : ι → TaskCall) (cfg : TaskRace ι) (j : ι) : Prop :=
  ∀ task, (calls j).writeBack? (cfg.history j) = some task →
    task.failCount = storedCount env taskId cfg.store ∧
    ∀ old, storedState env taskId cfg.store = some old →
      task.state = old ∨ canTransition old task.state = true

/-- No increment has been taken back. -/
def CountKept [Fintype ι] (w : Store) (cfg : TaskRace ι) : Prop :=
  storedCount env taskId cfg.store = storedCount env taskId w + increments cfg

/-- A step of the stored state is a step of the machine. -/
def StateFollows (cfg : TaskRace ι) (_ : ι) (cfg' : TaskRace ι) : Prop :=
  ∀ old new, storedState env taskId cfg.store = some old →
    storedState env taskId cfg'.store = some new →
    new = old ∨ canTransition old new = true

/-! ## What one call does -/

/-- The exchanges of a state change: it reads, and if the transition is allowed it
writes the task back. -/
inductive UpdateTrace (now : Time) (newState : TaskState) (updates : List TaskUpdate) :
    History → Prop
  | start : UpdateTrace now newState updates []
  | read (r : Option TaskHash) :
      UpdateTrace now newState updates [⟨.hgetall (taskKey env taskId), .ok r, true⟩]
  | wrote (data : TaskHash)
      (h : canTransition (Task.fromDict now data).state newState = true) :
      UpdateTrace now newState updates [⟨.hgetall (taskKey env taskId), .ok (some data), true⟩,
        ⟨.hset (taskKey env taskId)
          ((Task.fromDict now data).updated now newState updates).toDict, .ok (), true⟩]

/-- The exchanges of an increment. -/
inductive CountTrace (now : Time) : History → Prop
  | start : CountTrace now []
  | counted (n : ℤ) : CountTrace now [⟨.hincrby (taskKey env taskId) 1, .ok n, true⟩]
  | touched (n : ℤ) : CountTrace now [⟨.hincrby (taskKey env taskId) 1, .ok n, true⟩,
      ⟨.hset (taskKey env taskId) (.field .updatedAt now), .ok (), true⟩]

/-- The exchanges of a call. -/
def Trace : TaskCall → History → Prop
  | .updateState now newState updates => UpdateTrace env taskId now newState updates
  | .incrementFailCount now => CountTrace env taskId now

/-- What a call that came to its end has added: one if it returned a count. -/
def counted : Except Error (Task ⊕ ℤ) → ℤ
  | .ok (.inr _) => 1
  | _ => 0

/-- A call that came to its end has added what it returned, and has nothing more to
write back. -/
def Finished (c : TaskCall) (r : Except Error (Task ⊕ ℤ)) (h : History) : Prop :=
  (h.map added).sum = counted r ∧ c.writeBack? h = none

theorem program_obeys (c : TaskCall) :
    (c.program env taskId).Obeys Exchange.Answered (Trace env taskId c) (Finished c) [] := by
  cases c with
  | updateState now newState updates =>
    simp only [TaskCall.program, updateState_eq, bind_eq, pure_eq, elim_call,
      obeys_call_answered, List.nil_append]
    refine ⟨.start, fun r => ?_⟩
    rcases r with _ | data
    · exact ⟨UpdateTrace.read none, rfl, rfl⟩
    · cases hv : validateTransition (Task.fromDict now data).state newState with
      | error e =>
        have hcan := (validateTransition_error hv).1
        simp only [hv, elim_raise, obeys_raise]
        exact ⟨UpdateTrace.read (some data), rfl, by simp [TaskCall.writeBack?, hcan]⟩
      | ok u =>
        have hcan := (validateTransition_eq_ok _ _ _).mp hv
        simp only [hv, elim_call, obeys_call_answered]
        exact ⟨.read (some data), fun u => ⟨.wrote data hcan, rfl, rfl⟩⟩
  | incrementFailCount now =>
    simp only [TaskCall.program, DoxAsdlc.incrementFailCount, Async.send, command_eq, bind_eq,
      pure_eq, elim_call, elim_elim, obeys_call_answered, List.nil_append, answer_ok, elim_ret]
    exact ⟨.start, fun n => ⟨.counted n, fun u => ⟨.touched n, rfl, rfl⟩⟩⟩

/-! ## What one turn does -/

variable {env taskId} {calls : ι → TaskCall} {cfg : TaskRace ι}

/-- Every call of the pool keeps to its trace. -/
def Running (env : Env) (taskId : String) (calls : ι → TaskCall) (cfg : TaskRace ι) : Prop :=
  cfg.Obeying Exchange.Answered (fun j => Trace env taskId (calls j)) fun j => Finished (calls j)

theorem running_begin (w : Store) (calls : ι → TaskCall) :
    Running env taskId calls (begin env taskId w calls) :=
  fun j => program_obeys env taskId (calls j)

variable [DecidableEq ι] [Fintype ι]

/-- **A turn** writes back what a state change has read, or adds one, or leaves both
the count and the state alone. -/
theorem turn_spec (h : Running env taskId calls cfg) (j : ι) :
    (∃ task, (calls j).writeBack? (cfg.history j) = some task ∧
      storedCount env taskId (cfg.turn (Store.serve env) j).store = task.failCount ∧
      storedState env taskId (cfg.turn (Store.serve env) j).store = some task.state ∧
      increments (cfg.turn (Store.serve env) j) = increments cfg) ∨
    ((calls j).writeBack? (cfg.history j) = none ∧
      storedState env taskId (cfg.turn (Store.serve env) j).store
        = storedState env taskId cfg.store ∧
      ∃ n, storedCount env taskId (cfg.turn (Store.serve env) j).store
          = storedCount env taskId cfg.store + n ∧
        increments (cfg.turn (Store.serve env) j) = increments cfg + n) := by
  obtain ⟨c, k, hp, he⟩ | ⟨hf, he⟩ := Config.turn_cases (Store.serve env) cfg j
  · have htrace := h.next hp (Store.serve env) (Store.serve env |>.exchange_answered c cfg.store)
    rw [he, increments, Config.total_exchange]
    generalize hx : cfg.history j ++ [(Store.serve env).exchange .ok c cfg.store] = l at htrace
    obtain ⟨hh, hlast⟩ := snoc_eq_iff.mp hx
    cases hc : calls j with
    | updateState now newState updates =>
      rw [hc] at htrace
      cases htrace with
      | start => cases hlast
      | read r =>
        have hcmd : Cmd.hgetall (taskKey env taskId) = c :=
          congrArg Exchange.cmd (Option.some.inj hlast)
        subst hcmd
        refine .inr ⟨by simp [hh, TaskCall.writeBack?], rfl, 0, ?_, rfl⟩
        simp [Config.exchange, Store.serve]
      | wrote data hcan =>
        have hcmd := congrArg Exchange.cmd (Option.some.inj hlast)
        simp only [Server.exchange_ok] at hcmd
        subst hcmd
        refine .inl ⟨_, by simp [hh, TaskCall.writeBack?, hcan]; rfl, ?_, ?_, by simp [added, increments]⟩
        · simp [storedCount, Config.exchange, Store.serve, Redis.hget_hset]
        · simp [storedState, Config.exchange, Store.serve, Redis.hget_hset]
    | incrementFailCount now =>
      rw [hc] at htrace
      cases htrace with
      | start => cases hlast
      | counted n =>
        have hcmd := congrArg Exchange.cmd (Option.some.inj hlast)
        simp only [Server.exchange_ok] at hcmd
        subst hcmd
        refine .inr ⟨rfl, ?_, 1, ?_, rfl⟩
        · simp [storedState, Config.exchange, Store.serve, Redis.hget_hset]
        · simp [storedCount, Config.exchange, Store.serve, Redis.hget_hset]
      | touched n =>
        have hcmd := congrArg Exchange.cmd (Option.some.inj hlast)
        simp only [Server.exchange_ok] at hcmd
        subst hcmd
        refine .inr ⟨rfl, ?_, 0, ?_, rfl⟩
        · simp [storedState, Config.exchange, Store.serve, Redis.hget_hset]
        · simp [storedCount, Config.exchange, Store.serve, Redis.hget_hset]
  · rw [he]
    have hQ : (calls j).writeBack? (cfg.history j) = none := by
      obtain ⟨a, -, hq⟩ | ⟨e, -, hq⟩ := (h j).finished hf
      · exact hq.2
      · exact hq.2
    exact .inr ⟨hQ, rfl, 0, by simp, by simp⟩

omit [Fintype ι] in
/-- Calls keep to their traces as the pool runs. -/
theorem running_turn (h : Running env taskId calls cfg) (j : ι) :
    Running env taskId calls (cfg.turn (Store.serve env) j) :=
  h.turn (Store.serve env) j

/-- From a state in which no increment is missing, a turn keeps both laws exactly when
what it writes back is current. -/
theorem turn_exact {w : Store} (h : Running env taskId calls cfg)
    (hP : CountKept env taskId w cfg) (j : ι) :
    (StateFollows env taskId cfg j (cfg.turn (Store.serve env) j) ∧
      CountKept env taskId w (cfg.turn (Store.serve env) j)) ↔
    ReadIsCurrent env taskId calls cfg j := by
  unfold CountKept at hP ⊢
  obtain ⟨task, hw, hcount, hstate, hinc⟩ | ⟨hw, hstate, n, hcount, hinc⟩ := turn_spec h j
  · rw [hcount, hinc, ← hP]
    constructor
    · rintro ⟨hfollows, hkept⟩ task' hw'
      obtain rfl : task = task' := Option.some.inj (hw.symm.trans hw')
      exact ⟨hkept, fun old hold => hfollows old task.state hold hstate⟩
    · intro hcur
      obtain ⟨hkept, hallowed⟩ := hcur task hw
      refine ⟨fun old new hold hnew => ?_, hkept⟩
      obtain rfl : task.state = new := Option.some.inj (hstate.symm.trans hnew)
      exact hallowed old hold
  · have hcur : ReadIsCurrent env taskId calls cfg j := by
      intro task hw'
      rw [hw] at hw'
      cases hw'
    refine iff_of_true ⟨fun old new hold hnew => .inl ?_, ?_⟩ hcur
    · rw [hstate, hold] at hnew
      exact (Option.some.inj hnew).symm
    · rw [hcount, hinc, hP, add_assoc]

omit [DecidableEq ι] in
/-- When every call has come to its end, the increments made are those returned. -/
theorem increments_eq_returnedCounts (h : Running env taskId calls cfg) (hd : cfg.Done) :
    increments cfg = returnedCounts cfg := by
  have hj (j : ι) : ((cfg.history j).map added).sum
      = if countReturned cfg j = true then (1 : ℤ) else 0 := by
    obtain ⟨a, ha, hq, -⟩ | ⟨e, he, hq, -⟩ := (h j).finished (hd j)
    · rw [hq, countReturned, ha]
      cases a <;> rfl
    · rw [hq, countReturned, he]
      rfl
  rw [increments, Config.total, returnedCounts, Finset.sum_congr rfl fun j _ => hj j]
  exact Finset.sum_boole _ _

/-- **Racing calls on one task.**  A run loses no increment and keeps to the machine
throughout, exactly when every write-back in it is current; and when all calls of such
a run have ended, the count is the initial one plus the increments that returned. -/
theorem laws_iff_reads_current (env : Env) (taskId : String) (w : Store)
    (calls : ι → TaskCall) (js : List ι) :
    (Along (Config.turn (Store.serve env)) (CountKept env taskId w) (StateFollows env taskId)
        (begin env taskId w calls) js ↔
      Each (Config.turn (Store.serve env)) (ReadIsCurrent env taskId calls)
        (begin env taskId w calls) js) ∧
    (Each (Config.turn (Store.serve env)) (ReadIsCurrent env taskId calls)
        (begin env taskId w calls) js →
      (run (Config.turn (Store.serve env)) (begin env taskId w calls) js).Done →
      storedCount env taskId
          (run (Config.turn (Store.serve env)) (begin env taskId w calls) js).store
        = storedCount env taskId w + returnedCounts
          (run (Config.turn (Store.serve env)) (begin env taskId w calls) js)) := by
  have hbegin : CountKept env taskId w (begin env taskId w calls) := by
    simp [CountKept, increments, begin, Config.start, Config.total]
  have hiff := along_iff_each (I := Running env taskId calls)
    (fun cfg j h _ _ => running_turn h j) (fun cfg j h hP => turn_exact h hP j)
    (running_begin w calls) hbegin js
  refine ⟨hiff, fun hC hd => ?_⟩
  have hrun : Running env taskId calls
      (run (Config.turn (Store.serve env)) (begin env taskId w calls) js) :=
    run_invariant' (I := Running env taskId calls) (fun cfg j h => running_turn h j)
      (running_begin w calls) js
  have hkept := (hiff.mpr hC).last
  rwa [CountKept, increments_eq_returnedCounts hrun hd] at hkept

/-- A task at work, with no failures yet. -/
def atWork : Store :=
  Store.ofTask plainEnv ⟨"t", "s", "e", .inProgress, 0, 0, 0, none, none, []⟩

/-- A state change reads, an increment runs to its end, and the state change writes
the old count back: the increment that returned is lost.  Of two state changes that
read the same state, the later writer makes a step the machine does not allow. -/
theorem increment_lost :
    (let calls : Bool → TaskCall := fun j =>
        if j then .incrementFailCount 1 else .updateState 1 .testing []
      let cfg := run (Config.turn (Store.serve plainEnv)) (begin plainEnv "t" atWork calls)
        [false, true, true, false]
      (∀ j, (cfg.threads j).finished = true) ∧ returnedCounts cfg = 1 ∧
        storedCount plainEnv "t" atWork = 0 ∧ storedCount plainEnv "t" cfg.store = 0) ∧
    (let calls : Bool → TaskCall := fun j =>
        .updateState 1 (if j then .failed else .testing) []
      let cfg := run (Config.turn (Store.serve plainEnv)) (begin plainEnv "t" atWork calls)
        [false, true, true]
      storedState plainEnv "t" cfg.store = some .failed ∧
      storedState plainEnv "t" (cfg.turn (Store.serve plainEnv) false).store = some .testing ∧
      canTransition .failed .testing = false) := by
  decide

end TaskRace
end DoxAsdlc
