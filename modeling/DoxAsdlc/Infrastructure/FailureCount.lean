import DoxAsdlc.Infrastructure.EventConsumer
import DoxAsdlc.Orchestrator.Retry
import Mathlib.Data.Finset.Card

/-!
# Counting failures once

Runs of the manager's consumer: events are published, with a generated key or
appended without one, entries are delivered any number of times, and each delivery
may fail or stop at any command.  The law is that a task's fail count is its initial
one plus the number of failure entries that have been settled, and that the debugger
is dispatched when the threshold is exceeded.

Counting, marking the key and acknowledging are separate commands, and the key is a
function of the task and not of the occurrence.  `CountsOnce` says which steps do not
suffer from either.

## Main definitions

* `ConsumerAction`, `consumerStep` — the steps of a run.
* `settledAt`, `failuresSettled` — the failure entries that are done with.
* `CountsOnce` — the condition on a step.
* `FailuresCounted` — the law.
-/

namespace DoxAsdlc

open Interaction Interaction.Program Async

/-! ## Failure entries -/

/-- The events that report a failure of their task. -/
def isFailure : EventType → Bool
  | .agentError | .taskFailed | .gateRejected => true
  | _ => false

/-- Does this entry report a failure of task `t`? -/
def failureOf (t : String) (data : StreamEntry) : Bool :=
  isFailure ((data .eventType).getD .taskCreated) && given (data .taskId) == some t

/-- Does entry `i` report a failure of task `t`? -/
def failsAt (t : String) (w : Store) (i : ℕ) : Bool := (w.stream[i]?).any (failureOf t)

/-- The idempotency key that entry `i` carries. -/
def keyAt (w : Store) (i : ℕ) : Option String :=
  (w.stream[i]?).bind fun data => given (data .idempotencyKey)

/-- Entry `i` is done with: acknowledged, or its key is marked with it. -/
def settledAt (env : Env) (w : Store) (i : ℕ) : Bool :=
  w.acked .manager i ||
    (keyAt w i).any fun key => w.processed (processedKey env key) == some (some i)

/-- The failure entries of task `t` that are done with. -/
def failuresSettled (env : Env) (t : String) (w : Store) : Finset ℕ :=
  (Finset.range w.stream.length).filter fun i => failsAt t w i && settledAt env w i

/-- The failure entries of task `t`. -/
def failures (t : String) (w : Store) : Finset ℕ :=
  (Finset.range w.stream.length).filter fun i => failsAt t w i

/-- The debugger was dispatched for task `t`. -/
def DebuggerDispatched (t : String) (w : Store) : Prop :=
  ∃ data ∈ w.stream, data .eventType = some .agentStarted ∧ data .taskId = some t ∧
    data .mode = some "rlm" ∧
    ∃ metadata, data .metadata = some metadata ∧ metadata.lookup "agent_type" = some "debugger"

/-- Every settled failure of a task has been counted, and no other; when the count has
risen above the threshold the debugger was dispatched. -/
def FailuresCounted (env : Env) (w₀ w : Store) : Prop :=
  ∀ t, storedCount env t w = storedCount env t w₀ + (failuresSettled env t w).card ∧
    (storedCount env t w₀ < storedCount env t w → rlmFailThreshold < storedCount env t w →
      DebuggerDispatched t w)

/-! ## Runs -/

/-- A step: an event is published, or appended as it is; an entry is delivered, with
the outcomes of the commands; a processed key expires. -/
inductive ConsumerAction where
  | publish (event : ASDLCEvent)
  | append (event : ASDLCEvent)
  | receive (i : ℕ) (now : Time) (outcomes : List (Outcome Error))
  | expire (idempotencyKey : String)

/-- What a step does. -/
def consumerStep (env : Env) (w : Store) : ConsumerAction → Store
  | .publish event => (eval (Store.serve env) (publishEventModel env event) w).2
  | .append event => (Store.serve env (.xadd event.toStreamDict) w).1
  | .receive i now outcomes => receiveEntry env w i now outcomes
  | .expire idempotencyKey => w.expire (some (processedKey env idempotencyKey)) none

/-! ## The condition -/

/-- After the read, the next command did not reach the server. -/
def NotCounted : List (Outcome Error) → Prop
  | .ok :: o :: _ => o.effective = false
  | _ => True

/-- `n` commands are answered, and the next one takes effect. -/
def AnsweredThen : ℕ → List (Outcome Error) → Prop
  | 0, o :: _ => o.effective = true
  | n + 1, .ok :: os => AnsweredThen n os
  | _, _ => False

/-- A failure of task `t` is handled: it is not counted, or the task is stored under its
own id and everything up to the mark (or, without a key, the acknowledgement) goes
through.  A rejection must find a task that may go back to work and that the debugger
is not due for, or was dispatched for. -/
def FailureOnce (env : Env) (w : Store) (eventType : EventType) (t : String)
    (os : List (Outcome Error)) : Prop :=
  NotCounted os ∨ ∃ data, w.tasks (taskKey env t) = some data ∧ data .taskId = some t ∧
    if eventType = .gateRejected then
      (storedCount env t w < rlmFailThreshold ∨ DebuggerDispatched t w) ∧
        canTransition (readState env t w) .inProgress = true ∧ AnsweredThen 6 os
    else if storedCount env t w < rlmFailThreshold then AnsweredThen 3 os
    else blank ((data .sessionId).getD "") = false ∧ AnsweredThen 4 os

/-- Every patch is applied and its session moved on; if not, the failure that is counted
for it does not reach the server. -/
def PatchesApplied : List String → List (Outcome Error) → Prop
  | [], _ => True
  | _ :: patches, .ok :: .ok :: os => PatchesApplied patches os
  | _ :: _, .ok :: _ :: o :: _ => o.effective = false
  | _ :: _, .ok :: _ => True
  | _ :: _, _ :: o :: _ => o.effective = false
  | _ :: _, _ => True

/-- An event that was not processed before changes the counts as it should. -/
def HandledOnce (env : Env) (w : Store) (event : ASDLCEvent) (os : List (Outcome Error)) : Prop :=
  match event.eventType with
  | .agentError | .taskFailed | .gateRejected =>
    ∀ t, given event.taskId = some t → FailureOnce env w event.eventType t os
  | .taskCreated => storedCount env (event.taskId.getD "") w = 0 ∨
      ∀ o os', os = o :: os' → o.effective = false
  | .agentCompleted => ∀ t os', given event.taskId = some t → (w.tasks (taskKey env t)).isSome →
      os = .ok :: os' → PatchesApplied (patchesToApply env event) os'
  | _ => True

/-- The step counts every failure once: a failure is skipped only if it was itself
processed, and is otherwise handled as it should be. -/
def CountsOnce (env : Env) (w : Store) : ConsumerAction → Prop
  | .publish _ | .append _ => True
  | .receive i now os =>
    ∀ event, pendingEvent w now i = some event → canHandle event.eventType = true →
      match given event.idempotencyKey with
      | none => HandledOnce env w event os
      | some key =>
        ∀ os', os = .ok :: os' →
          match w.processed (processedKey env key) with
          | some owner =>
            ∀ t, isFailure event.eventType = true → given event.taskId = some t → owner = some i
          | none => HandledOnce env w event os'
  | .expire idempotencyKey =>
    ∀ i t, failsAt t w i = true →
      w.processed (processedKey env idempotencyKey) = some (some i) → w.acked .manager i = true

/-! ## Settled entries -/

section

variable {env : Env} {w₀ w w' : Store} {t key : String} {i j : ℕ}

theorem mem_failuresSettled :
    i ∈ failuresSettled env t w ↔ failsAt t w i = true ∧ settledAt env w i = true := by
  have hlt : failsAt t w i = true → i < w.stream.length := by
    intro h
    by_contra hge
    have hnone : w.stream[i]? = none := List.getElem?_eq_none (by omega)
    simp [failsAt, hnone] at h
  simp only [failuresSettled, Finset.mem_filter, Finset.mem_range, Bool.and_eq_true]
  exact ⟨fun h => h.2, fun h => ⟨hlt h.1, h⟩⟩

theorem settledAt_iff : settledAt env w i = true ↔ w.acked .manager i = true ∨
    ∃ key, keyAt w i = some key ∧ w.processed (processedKey env key) = some (some i) := by
  cases hkey : keyAt w i <;> simp [settledAt, hkey]

/-- Only entries of the stream are acknowledged or marked. -/
structure InStream (w : Store) : Prop where
  acked : ∀ i, w.acked .manager i = true → i < w.stream.length
  processed : ∀ key i, w.processed key = some (some i) → i < w.stream.length

/-- Nothing but entry `i` was acknowledged or marked, and nothing was taken back. -/
structure Touched (i : ℕ) (w w' : Store) : Prop where
  stream : w.stream <+: w'.stream
  acked : ∀ j, w'.acked .manager j = w.acked .manager j ∨ j = i ∧ w'.acked .manager j = true
  processed : ∀ key, w'.processed key = w.processed key ∨
    w.processed key = none ∧ w'.processed key = some (some i)

theorem Touched.refl (i : ℕ) (w : Store) : Touched i w w :=
  ⟨List.prefix_rfl, fun _ => .inl rfl, fun _ => .inl rfl⟩

theorem Touched.inStream (h : Touched i w w') (hw : InStream w) (hi : i < w.stream.length) :
    InStream w' := by
  have hle : w.stream.length ≤ w'.stream.length := h.stream.length_le
  constructor
  · intro j hj
    rcases h.acked j with hsame | ⟨rfl, -⟩
    · have hlt := hw.acked j (hsame ▸ hj)
      omega
    · omega
  · intro key j hj
    rcases h.processed key with hsame | ⟨-, hset⟩
    · have hlt := hw.processed key j (hsame ▸ hj)
      omega
    · obtain rfl : i = j := by simpa [hset] using hj
      omega

/-- Entries stay what they are. -/
theorem Touched.getElem? (h : Touched i w w') (hj : j < w.stream.length) :
    w'.stream[j]? = w.stream[j]? := by
  obtain ⟨l, hl⟩ := h.stream
  rw [← hl, List.getElem?_append_left hj]

theorem Touched.failsAt_eq (h : Touched i w w') (hj : j < w.stream.length) :
    failsAt t w' j = failsAt t w j := by
  rw [failsAt, h.getElem? hj, failsAt]

/-- An entry that is settled stays settled. -/
theorem Touched.stays_settled (h : Touched i w w') (hj : j < w.stream.length)
    (hs : settledAt env w j = true) : settledAt env w' j = true := by
  have hkey : keyAt w' j = keyAt w j := by rw [keyAt, h.getElem? hj, keyAt]
  rw [settledAt_iff] at hs ⊢
  rw [hkey]
  rcases hs with hacked | ⟨key, hk, hmark⟩
  · refine .inl ?_
    rcases h.acked j with hsame | ⟨-, hset⟩
    · rw [hsame, hacked]
    · exact hset
  · refine .inr ⟨key, hk, ?_⟩
    rcases h.processed (processedKey env key) with hsame | ⟨hnone, -⟩
    · rw [hsame, hmark]
    · rw [hnone] at hmark
      cases hmark

/-- Only the entry that was touched can have been settled. -/
theorem Touched.mem_of_ne (h : Touched i w w') (hw : InStream w) (hj : j ≠ i) :
    j ∈ failuresSettled env t w' ↔ j ∈ failuresSettled env t w := by
  have hacked : w'.acked .manager j = w.acked .manager j := by
    rcases h.acked j with hsame | ⟨rfl, -⟩
    · exact hsame
    · exact absurd rfl hj
  have hprocessed (key : String) :
      w'.processed key = some (some j) ↔ w.processed key = some (some j) := by
    rcases h.processed key with hsame | ⟨hnone, hset⟩
    · rw [hsame]
    · rw [hnone, hset]
      simpa using Ne.symm hj
  rw [mem_failuresSettled, mem_failuresSettled]
  by_cases hlt : j < w.stream.length
  · have hkey : keyAt w' j = keyAt w j := by rw [keyAt, h.getElem? hlt, keyAt]
    rw [h.failsAt_eq hlt, settledAt_iff, settledAt_iff, hkey, hacked]
    simp only [hprocessed]
  · have hunsettled (v : Store) (ha : v.acked .manager j = w.acked .manager j)
        (hp : ∀ key, v.processed key = some (some j) ↔ w.processed key = some (some j)) :
        settledAt env v j ≠ true := by
      have hack : w.acked .manager j = false := by
        by_contra hne
        exact hlt (hw.acked j (by simpa using hne))
      have hmark (key : String) : v.processed key ≠ some (some j) := fun hset =>
        hlt (hw.processed key j ((hp key).mp hset))
      simp [settledAt_iff, ha, hack, hmark]
    simp [hunsettled w' hacked hprocessed, hunsettled w rfl fun _ => Iff.rfl]

/-- What a delivery of entry `i` may do to the count of task `t`: nothing, while the
entry is as settled as before, or count it and settle it. -/
def CountedAt (env : Env) (t : String) (i : ℕ) (w w' : Store) : Prop :=
  storedCount env t w' = storedCount env t w ∧
    (failsAt t w i = true → settledAt env w' i = settledAt env w i) ∨
  failsAt t w i = true ∧ settledAt env w i = false ∧ settledAt env w' i = true ∧
    storedCount env t w' = storedCount env t w + 1 ∧
    (rlmFailThreshold < storedCount env t w' → DebuggerDispatched t w')

theorem DebuggerDispatched.mono (h : DebuggerDispatched t w) (hs : w.stream <+: w'.stream) :
    DebuggerDispatched t w' := by
  obtain ⟨data, hmem, hdata⟩ := h
  exact ⟨data, hs.subset hmem, hdata⟩

/-- A delivery that counts as it should keeps the law. -/
theorem FailuresCounted.deliver (h : FailuresCounted env w₀ w) (hw : InStream w)
    (hi : i < w.stream.length) (ht : Touched i w w') (hc : ∀ t, CountedAt env t i w w') :
    FailuresCounted env w₀ w' := by
  intro t
  obtain ⟨hcount, hdebug⟩ := h t
  have hne : ∀ j, j ≠ i → (j ∈ failuresSettled env t w' ↔ j ∈ failuresSettled env t w) :=
    fun j hj => ht.mem_of_ne hw hj
  rcases hc t with ⟨hsame, hsettled⟩ | ⟨hfails, hbefore, hafter, hsucc, hdispatched⟩
  · have hset : failuresSettled env t w' = failuresSettled env t w := by
      ext j
      by_cases hj : j = i
      · subst hj
        rw [mem_failuresSettled, mem_failuresSettled, ht.failsAt_eq hi]
        exact and_congr_right fun hf => by rw [hsettled hf]
      · exact hne j hj
    rw [hset, hsame]
    exact ⟨hcount, fun h₁ h₂ => (hdebug h₁ h₂).mono ht.stream⟩
  · have hset : failuresSettled env t w' = insert i (failuresSettled env t w) := by
      ext j
      rw [Finset.mem_insert]
      by_cases hj : j = i
      · subst hj
        simp [mem_failuresSettled, ht.failsAt_eq hi, hfails, hafter]
      · rw [hne j hj]
        simp [hj]
    have hnot : i ∉ failuresSettled env t w := by simp [mem_failuresSettled, hbefore]
    rw [hset, Finset.card_insert_of_notMem hnot, hsucc, hcount]
    refine ⟨by push_cast; omega, fun _ hover => hdispatched ?_⟩
    rw [hsucc, hcount]
    exact hover

end

/-! ## What a delivery touches -/

section

variable {env : Env} {w₀ w w' : Store} {t : String} {i : ℕ} {now : Time} {event : ASDLCEvent}

/-- A pending entry is in the stream, and the event is what it reads as. -/
theorem pendingEvent_eq_some (h : pendingEvent w now i = some event) :
    i < w.stream.length ∧ w.acked .manager i = false ∧ event.eventId = some i ∧
      keyAt w i = given event.idempotencyKey ∧
      ∀ t, failsAt t w i = (isFailure event.eventType && given event.taskId == some t) := by
  have hacked : w.acked .manager i = false := by
    by_contra hne
    simp [pendingEvent, hne] at h
  have htrimmed : ¬ i < w.trimmed := by
    intro hlt
    simp [pendingEvent, hacked, Store.entry?, hlt] at h
  cases hdata : w.stream[i]? with
  | none => simp [pendingEvent, hacked, Store.entry?, htrimmed, hdata] at h
  | some data =>
    have hlt : i < w.stream.length := by
      by_contra hge
      rw [List.getElem?_eq_none (by omega)] at hdata
      cases hdata
    cases hread : ASDLCEvent.fromStreamDict now i data with
    | error e =>
      simp [pendingEvent, hacked, Store.entry?, htrimmed, hdata, hread, Except.toOption] at h
    | ok e =>
      obtain ⟨hid, htype, htask, hkey⟩ := ASDLCEvent.fromStreamDict_eq_ok hread
      obtain rfl : e = event := by
        simpa [pendingEvent, hacked, Store.entry?, htrimmed, hdata, hread, Except.toOption] using h
      refine ⟨hlt, hacked, hid, by simp [keyAt, hdata, hkey], fun t => ?_⟩
      simp [failsAt, hdata, failureOf, htype, htask]

theorem Touched.handlerCommand (h : Touched i w w') {c : Cmd} (hc : HandlerCommand c) :
    Touched i w (Store.serve env c w').1 := by
  cases c with
  | xadd data =>
    exact ⟨h.stream.trans (List.prefix_append _ _), h.acked, h.processed⟩
  | hgetall key => exact h
  | hset key mapping => exact ⟨h.stream, h.acked, h.processed⟩
  | hincrby key n => exact ⟨h.stream, h.acked, h.processed⟩
  | hsetSession key mapping => exact ⟨h.stream, h.acked, h.processed⟩
  | applyPatch patchPath message => exact ⟨h.stream, h.acked, h.processed⟩
  | _ => cases hc

theorem Touched.ack (h : Touched i w w') : Touched i w (w'.ack .manager i) := by
  refine ⟨h.stream, fun j => ?_, h.processed⟩
  by_cases hj : j = i
  · exact .inr ⟨hj, by simp [Store.ack, hj]⟩
  · simpa [Store.ack, hj] using h.acked j

theorem Touched.mark (h : Touched i w w') {key : String} (hnew : w.processed key = none) :
    Touched i w (Store.serve env (.set key (some i)) w').1 := by
  refine ⟨h.stream, h.acked, fun k => ?_⟩
  by_cases hk : k = key
  · subst hk
    exact .inr ⟨hnew, by simp [Store.serve]⟩
  · simpa [Store.serve, hk] using h.processed k

theorem keeps_touched_acknowledge :
    Keeps (Store.serve env) (Touched i w) (acknowledgeEvent env .manager (some i)) :=
  keeps_tryCatch (keeps_command fun _ h => h.ack) fun _ => keeps_raise _

theorem keeps_touched_settle (hid : event.eventId = some i)
    (hnew : ∀ key, given event.idempotencyKey = some key →
      w.processed (processedKey env key) = none) :
    Keeps (Store.serve env) (Touched i w) (settle env event) := by
  unfold settle
  rw [hid]
  split
  · exact keeps_bind keeps_touched_acknowledge fun _ => keeps_ret _
  · rename_i key hkey
    exact keeps_bind (keeps_command fun _ h => h.mark (hnew key hkey)) fun _ =>
      keeps_bind keeps_touched_acknowledge fun _ => keeps_ret _

theorem keeps_touched_process (hid : event.eventId = some i)
    (hnew : ∀ key, given event.idempotencyKey = some key →
      w.processed (processedKey env key) = none) :
    Keeps (Store.serve env) (Touched i w) (process env now event) := by
  refine keeps_tryCatch (keeps_bind (uses_handle.keeps fun c hc _ h => h.handlerCommand hc)
    fun result => ?_) fun _ => keeps_ret _
  unfold conclude
  split
  · exact keeps_touched_settle hid hnew
  · split
    · exact keeps_ret _
    · rw [hid]
      exact keeps_bind keeps_touched_acknowledge fun _ => keeps_ret _

/-- **What a delivery touches.**  A delivery acknowledges and marks its own entry only. -/
theorem touched_receiveEntry (env : Env) (w : Store) (i : ℕ) (now : Time) (os : List (Outcome Error)) :
    Touched i w (receiveEntry env w i now os) := by
  unfold receiveEntry
  split
  · exact Touched.refl i w
  · rename_i event hevent
    have hid : event.eventId = some i := (pendingEvent_eq_some hevent).2.2.1
    have hack : Keeps (Store.serve env) (Touched i w) (acknowledgeEvent env .manager event.eventId
        >>= fun _ => (pure () : Async Unit)) := by
      rw [hid]
      exact keeps_bind keeps_touched_acknowledge fun _ => keeps_ret _
    refine wp.state_play (Q := fun _ => Touched i w) (E := fun _ => Touched i w) ?_ os
    unfold handleEvent
    split
    · cases hkey : given event.idempotencyKey with
      | none =>
        have hnew : ∀ key, given event.idempotencyKey = some key →
            w.processed (processedKey env key) = none := fun key h => by simp [hkey] at h
        simp only [alreadyProcessed, hkey]
        exact keeps_touched_process hid hnew w (Touched.refl i w)
      | some key =>
        have hrefl := Touched.refl i w
        simp only [alreadyProcessed, hkey, isProcessed, Async.send, command_eq, bind_eq,
          elim_call, wp_call]
        refine ⟨hrefl, ?_, fun e => ⟨hrefl, hrefl⟩, fun e => ⟨hrefl, hrefl⟩⟩
        cases hmark : w.processed (processedKey env key) with
        | some owner => simpa [Store.serve, hmark] using hack w hrefl
        | none =>
          have hnew : ∀ k, given event.idempotencyKey = some k →
              w.processed (processedKey env k) = none := by
            intro k hk
            rw [hkey] at hk
            cases hk
            exact hmark
          simpa [Store.serve, hmark] using keeps_touched_process hid hnew w hrefl
    · exact hack w (Touched.refl i w)

end

/-! ## Handling an event -/

section

variable {env : Env} {w w' : Store} {t message : String} {n : ℤ} {i : ℕ} {now : Time}
  {event : ASDLCEvent} {os : List (Outcome Error)} {S : Store → Prop}

/-- Processing runs the handler, and settles the event if it returns. -/
theorem process_eq {handler : ASDLCEvent → Async Unit}
    (hh : getHandler env now event.eventType = some handler) :
    process env now event = (handler event).elim
      (fun _ => (settle env event).elim .ret fun _ => .ret ()) fun _ => .ret () := by
  simp [process, handle, hh, conclude, handled, retryLater]

theorem keeps_settle (hS : TasksOnly S) : Keeps (Store.serve env) S (settle env event) := by
  have hack : Keeps (Store.serve env) S (acknowledgeEvent env .manager event.eventId) := by
    refine keeps_tryCatch (keeps_command fun w h => hS w _ ?_ h) fun _ => keeps_raise _
    cases event.eventId <;> rfl
  unfold settle
  split
  · exact keeps_bind hack fun _ => keeps_ret _
  · exact keeps_bind (keeps_command fun w h => hS w _ rfl h) fun _ =>
      keeps_bind hack fun _ => keeps_ret _

/-- A handler that keeps what is stored for the tasks keeps it together with what
follows it. -/
theorem keeps_process (hS : TasksOnly S) {handler : ASDLCEvent → Async Unit}
    (hh : getHandler env now event.eventType = some handler)
    (hkeeps : Keeps (Store.serve env) S (handler event)) :
    Keeps (Store.serve env) S (process env now event) := by
  rw [process_eq hh]
  exact keeps_elim hkeeps (fun _ => keeps_elim (keeps_settle hS) keeps_ret fun _ => keeps_ret _)
    fun _ => keeps_ret _

/-- Once the first command of the settlement takes effect, the entry is settled. -/
theorem settle_effective (env : Env) (os : List (Outcome Error)) (hid : event.eventId = some i)
    (hkey : keyAt w i = given event.idempotencyKey) {o : Outcome Error} (ho : o.effective = true) :
    let w' := (play (Store.serve env) (o :: os)
      ((settle env event).elim .ret fun _ => .ret ()) w).2
    w'.tasks = w.tasks ∧ w'.stream = w.stream ∧ settledAt env w' i = true := by
  have hacked : settledAt env (w.ack .manager i) i = true := by
    simp [settledAt_iff, Store.ack]
  unfold settle
  rw [hid]
  cases hk : given event.idempotencyKey with
  | none =>
    cases o with
    | refused e => cases ho
    | ok => simpa [acknowledgeEvent, Store.serve] using ⟨rfl, rfl, hacked⟩
    | lost e => simpa [acknowledgeEvent, Store.serve] using ⟨rfl, rfl, hacked⟩
  | some key =>
    let marked := (Store.serve env (.set (processedKey env key) (some i)) w).1
    have hmarked : settledAt env marked i = true := by
      refine settledAt_iff.mpr (.inr ⟨key, hkey.trans hk, ?_⟩)
      simp [marked, Store.serve]
    cases o with
    | refused e => cases ho
    | lost e => simpa [markProcessed] using ⟨rfl, rfl, hmarked⟩
    | ok =>
      have hkeeps : Keeps (Store.serve env)
          (fun w' => w'.tasks = w.tasks ∧ w'.stream = w.stream ∧ settledAt env w' i = true)
          (((acknowledgeEvent env .manager (some i)).elim (fun _ => .ret ()) fun _ => .ret ()) :
            Async Unit) := by
        refine keeps_elim (keeps_tryCatch (keeps_command fun v h => ?_) fun _ => keeps_raise _)
          (fun _ => keeps_ret _) fun _ => keeps_ret _
        exact ⟨h.1, h.2.1, settledAt_iff.mpr (.inl (by simp [Store.serve, Store.ack]))⟩
      have h := hkeeps.play (s := marked) ⟨rfl, rfl, hmarked⟩ os
      simpa [markProcessed] using h

end

/-! ## Counting a failure -/

section

variable {env : Env} {w w' : Store} {t message : String} {i : ℕ} {now : Time}
  {event : ASDLCEvent} {os : List (Outcome Error)}

/-- Task `t` was counted once more and no other task was, and the debugger was
dispatched if it is due. -/
structure CountedOnce (env : Env) (t : String) (w w' : Store) : Prop where
  count : ∀ t', storedCount env t' w'
    = if t' = t then storedCount env t w + 1 else storedCount env t' w
  stream : w.stream <+: w'.stream
  debugger : rlmFailThreshold < storedCount env t w + 1 → DebuggerDispatched t w'

/-- The store after the two commands that count a failure. -/
def Store.bumped (env : Env) (now : Time) (t : String) (w : Store) : Store :=
  (w.writeTask (taskKey env t) (.field .failCount (storedCount env t w + 1))).writeTask
    (taskKey env t) (.field .updatedAt now)

theorem storedCount_bumped (env : Env) (now : Time) (t t' : String) (w : Store) : storedCount env t' (w.bumped env now t)
    = if t' = t then storedCount env t w + 1 else storedCount env t' w := by
  by_cases ht : t' = t
  · subst ht
    simp [Store.bumped, storedCount_writeTask]
  · simp [Store.bumped, storedCount_writeTask, ht]

theorem AnsweredThen.tail {k : ℕ} (h : AnsweredThen (k + 1) os) :
    ∃ os', os = .ok :: os' ∧ AnsweredThen k os' := by
  rcases os with _ | ⟨_ | e | e, os⟩
  · cases h
  · exact ⟨os, rfl, h⟩
  · cases h
  · cases h

theorem AnsweredThen.eq {k : ℕ} (h : AnsweredThen k os) :
    ∃ o os', os = List.replicate k .ok ++ o :: os' ∧ o.effective = true := by
  induction k generalizing os with
  | zero =>
    cases os with
    | nil => cases h
    | cons o os => exact ⟨o, os, rfl, h⟩
  | succ k ih =>
    obtain ⟨os', rfl, hrest⟩ := h.tail
    obtain ⟨o, os'', rfl, ho⟩ := ih hrest
    exact ⟨o, os'', rfl, ho⟩

theorem validate_of_not_blank {text : String} (h : blank text = false) :
    ∃ sid, SessionId.validate text = .ok sid :=
  ⟨⟨text, h⟩, SessionId.validate_eq_ok.mpr rfl⟩

/-- The published dispatch of the debugger. -/
theorem debuggerDispatched_debugEvent {task : Task} (ht : given (some task.taskId) = some t)
    (sid : SessionId) (n : ℤ) {w : Store} (hmem :
      ((debugEvent now task sid n message).prepared env).toStreamDict ∈ w.stream) :
    DebuggerDispatched t w := by
  refine ⟨_, hmem, rfl, ?_, rfl, _, rfl, ?_⟩
  · exact ht
  · rfl

/-- A failure whose commands are all answered is counted once. -/
theorem taskFailure_counted (now : Time) (message : String) {task : Task} (ht : given (some task.taskId) = some t)
    (hos : if storedCount env t w < rlmFailThreshold then AnsweredThen 2 os
      else blank task.sessionId = false ∧ AnsweredThen 3 os) :
    ∃ w' o os', o.effective = true ∧ CountedOnce env t w w' ∧
      ∀ f g, play (Store.serve env) os ((handleTaskFailure env now task message).elim f g) w
        = play (Store.serve env) (o :: os') (f () : Async Unit) w' := by
  obtain rfl : task.taskId = t := by simpa using (given_eq_some.mp ht).1
  by_cases hlow : storedCount env task.taskId w < rlmFailThreshold
  · rw [if_pos hlow] at hos
    obtain ⟨o, os', rfl, ho⟩ := hos.eq
    refine ⟨w.bumped env now task.taskId, o, os', ho,
      ⟨fun t' => storedCount_bumped _ _ _ t' w, List.prefix_rfl, fun h => by omega⟩, fun f g => ?_⟩
    have hnot : ¬ rlmFailThreshold < storedCount env task.taskId w + 1 := by omega
    simp [handleTaskFailure, incrementFailCount, serve_hincrby, hnot, Store.bumped]
  · rw [if_neg hlow] at hos
    obtain ⟨hsession, hos⟩ := hos
    obtain ⟨sid, hsid⟩ := validate_of_not_blank hsession
    obtain ⟨o, os', rfl, ho⟩ := hos.eq
    have hover : rlmFailThreshold < storedCount env task.taskId w + 1 := by omega
    let data := ((debugEvent now task sid (storedCount env task.taskId w + 1) message).prepared
      env).toStreamDict
    let w' := w.bumped env now task.taskId
    refine ⟨{ w' with stream := w.stream ++ [data] }, o, os', ho,
      ⟨fun t' => storedCount_bumped _ _ _ t' w, List.prefix_append _ _, fun _ => ?_⟩, fun f g => ?_⟩
    · exact debuggerDispatched_debugEvent ht sid _ (List.mem_append_right _ List.mem_cons_self)
    · simp [handleTaskFailure, incrementFailCount, serve_hincrby, hover, hsid, publishEventModel,
        Store.bumped, Store.writeTask, w', data]

/-- The handler leaves the store alone and ends there, unless what follows it takes
effect, or it counts the failure of task `t` once and goes on with an effective command. -/
def CountsOrNot (env : Env) (t : String) (w : Store) (os : List (Outcome Error))
    (handler : Async Unit) : Prop :=
  (∀ (f : Unit → Async Unit) (g : Error → Async Unit), (∀ e, (g e).finished = true) →
    (∀ e os, (play (Store.serve env) (.refused e :: os) (f ()) w).2 = w) →
    (play (Store.serve env) os (handler.elim f g) w).2 = w) ∨
  ∃ w' o os', o.effective = true ∧ CountedOnce env t w w' ∧
    ∀ (f : Unit → Async Unit) (g : Error → Async Unit),
      play (Store.serve env) os (handler.elim f g) w = play (Store.serve env) (o :: os') (f ()) w'

/-- A handler that reads the task and counts: without the count it ends. -/
theorem countsOrNot_notCounted {key : String} {k : Except Error (Option TaskHash) → Async Unit}
    (hraise : ∀ e, k (.error e) = .raise e) (hnone : k (.ok none) = .ret ())
    (hsome : ∀ data, ∃ key' k', k (.ok (some data)) = .call (.hincrby key' 1) k' ∧
      ∀ e, k' (.error e) = .raise e)
    (hos : NotCounted os) : CountsOrNot env t w os (.call (.hgetall key) k) := by
  refine .inl fun f g hg hf => ?_
  rcases os with _ | ⟨_ | e | e, os⟩
  · rfl
  · simp only [elim_call, play_call, Server.perform_ok, serve_hgetall]
    rcases os with _ | ⟨_ | e | e, os⟩
    · rfl
    · cases hos
    · cases hdata : w.tasks key with
      | none => simpa [hnone] using hf e os
      | some data =>
        obtain ⟨key', k', hk, hk'⟩ := hsome data
        simp [hk, hk', play_finished _ _ (hg e)]
    · cases hos
  · simp [hraise, play_finished _ _ (hg e)]
  · simp [hraise, play_finished _ _ (hg e)]

theorem reportedFailure_counts (ht : given event.taskId = some t)
    (htype : event.eventType ≠ .gateRejected) (hos : FailureOnce env w event.eventType t os) :
    CountsOrNot env t w os (handleReportedFailure message env now event) := by
  have hhandler : handleReportedFailure message env now event
      = .call (.hgetall (taskKey env t)) fun r => (answer r).elim (fun data =>
          (data.map (Task.fromDict now)).elim (.ret ()) fun task =>
            handleTaskFailure env now task (event.meta "error_message" message))
        .raise := by
    simp only [handleReportedFailure, ht, getTask, command_eq, pure_eq, bind_eq, elim_call, elim_elim,
      elim_ret]
    refine congrArg (Program.call _) (funext fun r => congrArg (fun k => (answer r).elim k .raise)
      (funext fun data => ?_))
    cases data.map (Task.fromDict now) <;> rfl
  rw [hhandler]
  rcases hos with hnot | ⟨data, hdata, hid, hos⟩
  · exact countsOrNot_notCounted (fun _ => rfl) rfl (fun data => ⟨_, _, rfl, fun _ => rfl⟩) hnot
  · rw [if_neg htype] at hos
    have hgiven : given (some (Task.fromDict now data).taskId) = some t := by
      simp [Task.fromDict, hid, given_eq_some, (given_eq_some.mp ht).2]
    obtain ⟨os', rfl, hos⟩ : ∃ os', os = .ok :: os' ∧
        if storedCount env t w < rlmFailThreshold then AnsweredThen 2 os'
        else blank (Task.fromDict now data).sessionId = false ∧ AnsweredThen 3 os' := by
      by_cases hlow : storedCount env t w < rlmFailThreshold
      · simp only [hlow, if_true] at hos ⊢
        exact hos.tail
      · simp only [hlow, if_false] at hos ⊢
        obtain ⟨os', hos', hrest⟩ := hos.2.tail
        exact ⟨os', hos', hos.1, hrest⟩
    have hcount := taskFailure_counted now (event.meta "error_message" message) hgiven hos
    obtain ⟨w', o, os'', ho, hcounted, hplay⟩ := hcount
    refine .inr ⟨w', o, os'', ho, hcounted, fun f g => ?_⟩
    rw [← hplay f g]
    simp [hdata]

/-- A change of state after the count keeps the count, and reads the state from before. -/
theorem updateState_bumped (now : Time) {newState : TaskState} {data : TaskHash}
    (hdata : w.tasks (taskKey env t) = some data)
    (hcan : canTransition (readState env t w) newState = true) :
    ∃ task : Task, task.failCount = storedCount env t w + 1 ∧
      ∀ (f : Task → Async Unit) (g : Error → Async Unit) os,
        play (Store.serve env) (.ok :: .ok :: os) ((updateState env now t newState).elim f g)
            (w.bumped env now t)
          = play (Store.serve env) os (f task)
            ((w.bumped env now t).writeTask (taskKey env t) task.toDict) := by
  have hbumped : ∃ data', (w.bumped env now t).tasks (taskKey env t) = some data' := by
    simp [Store.bumped, Store.writeTask, hdata]
  obtain ⟨data', hdata'⟩ := hbumped
  have hstate : (Task.fromDict now data').state = readState env t w := by
    rw [fromDict_state now hdata']
    simp [readState, Store.bumped, storedState_writeTask, Redis.Hash.field_of_ne]
  have hcount : (Task.fromDict now data').failCount = storedCount env t w + 1 := by
    have h := storedCount_bumped env now t t w
    rw [storedCount, hdata', if_pos rfl] at h
    exact h
  have hvalid : validateTransition (Task.fromDict now data').state newState = .ok () := by
    rw [validateTransition_eq_ok, hstate]
    exact hcan
  refine ⟨(Task.fromDict now data').updated now newState [], hcount, fun f g os => ?_⟩
  rw [updateState_eq]
  simp [hdata', hvalid]

theorem gateRejected_counts (ht : given event.taskId = some t)
    (htype : event.eventType = .gateRejected) (hos : FailureOnce env w event.eventType t os) :
    CountsOrNot env t w os (handleGateRejected env now event) := by
  have hhandler : handleGateRejected env now event
      = .call (.hgetall (taskKey env t)) fun r => (answer r).elim (fun data =>
          (data.map (Task.fromDict now)).elim (.ret ()) fun task =>
            (incrementFailCount env now t).elim (fun failCount =>
              (updateState env now t .inProgress).elim (fun _ =>
                (publishEventModel env (retryEvent now event t task failCount)).elim
                  (fun _ => .ret ()) .raise) .raise) .raise)
        .raise := by
    simp only [handleGateRejected, ht, getTask, command_eq, pure_eq, bind_eq, elim_call, elim_elim,
      elim_ret]
    refine congrArg (Program.call _) (funext fun r => congrArg (fun k => (answer r).elim k .raise)
      (funext fun data => ?_))
    cases data.map (Task.fromDict now) <;> rfl
  rw [hhandler]
  rcases hos with hnot | ⟨data, hdata, hid, hos⟩
  · exact countsOrNot_notCounted (fun _ => rfl) rfl (fun data => ⟨_, _, rfl, fun _ => rfl⟩) hnot
  · rw [if_pos htype] at hos
    obtain ⟨hdebug, hcan, hos⟩ := hos
    obtain ⟨o, os', rfl, ho⟩ := hos.eq
    have hupdate := updateState_bumped now hdata hcan
    obtain ⟨task, hcount, hplay⟩ := hupdate
    let data' := ((retryEvent now event t (Task.fromDict now data)
      (storedCount env t w + 1)).prepared env).toStreamDict
    let w' := (w.bumped env now t).writeTask (taskKey env t) task.toDict
    refine .inr ⟨{ w' with stream := w.stream ++ [data'] }, o, os', ho, ⟨fun t' => ?_,
      List.prefix_append _ _, fun hover => ?_⟩, fun f g => ?_⟩
    · have h : storedCount env t' w' = _ := storedCount_writeTask env t' t task.toDict _
      by_cases ht' : t' = t
      · rw [if_pos ht'] at h ⊢
        exact h.trans hcount
      · rw [if_neg ht', storedCount_bumped, if_neg ht'] at h
        rw [if_neg ht']
        exact h
    · rcases hdebug with hlow | hdebug
      · omega
      · exact hdebug.mono (List.prefix_append _ _)
    · have h := hplay (fun _ => (publishEventModel env (retryEvent now event t
        (Task.fromDict now data) (storedCount env t w + 1))).elim (fun _ => f ()) g) g (.ok :: o :: os')
      simp only [List.replicate, List.cons_append, List.nil_append, elim_call, play_call,
        Server.perform_ok, serve_hgetall, hdata, answer_ok, elim_ret, Option.map_some, Option.elim_some,
        incrementFailCount, Async.send, command_eq, bind_eq, elim_elim, serve_hincrby, serve_hset,
        pure_eq, elim_raise]
      exact h

/-- A settlement whose first command is refused changes nothing. -/
theorem settle_refused (e : Error) (os : List (Outcome Error)) (w : Store) :
    (play (Store.serve env) (.refused e :: os)
      ((settle env event).elim .ret fun _ => (.ret () : Async Unit)) w).2 = w := by
  cases hkey : given event.idempotencyKey <;>
    simp [settle, hkey, acknowledgeEvent, markProcessed]

/-- A failure that is processed is counted exactly if it is settled. -/
theorem failure_countedAt {handler : ASDLCEvent → Async Unit}
    (hh : getHandler env now event.eventType = some handler)
    (hid : event.eventId = some i) (hlt : i < w.stream.length)
    (hkey : keyAt w i = given event.idempotencyKey) (hbefore : settledAt env w i = false)
    (hfails : ∀ t', failsAt t' w i = true ↔ t' = t)
    (hcounts : CountsOrNot env t w os (handler event)) (t' : String) :
    CountedAt env t' i w (play (Store.serve env) os (process env now event) w).2 := by
  rw [process_eq hh]
  rcases hcounts with hleft | ⟨w', o, os', ho, hcounted, hplay⟩
  · rw [hleft _ _ (fun _ => rfl) fun e os => settle_refused e os w]
    exact .inl ⟨rfl, fun _ => rfl⟩
  · rw [hplay]
    have hstream : w'.stream[i]? = w.stream[i]? := by
      obtain ⟨l, hl⟩ := hcounted.stream
      rw [← hl, List.getElem?_append_left hlt]
    have hkey' : keyAt w' i = given event.idempotencyKey := by
      rw [← hkey, keyAt, hstream, keyAt]
    have hsettle := settle_effective env os' hid hkey' ho
    obtain ⟨htasks, hsame, hafter⟩ := hsettle
    have hcount : storedCount env t' (play (Store.serve env) (o :: os')
        ((settle env event).elim .ret fun _ => .ret ()) w').2 = storedCount env t' w' := by
      rw [storedCount, htasks, storedCount]
    by_cases ht : t' = t
    · subst ht
      have hsucc := hcounted.count t'
      rw [if_pos rfl] at hsucc
      refine .inr ⟨(hfails t').mpr rfl, hbefore, hafter, hcount.trans hsucc, fun hover => ?_⟩
      refine (hcounted.debugger ?_).mono ?_
      · rwa [hcount, hsucc] at hover
      · rw [hsame]
    · have hother := hcounted.count t'
      rw [if_neg ht] at hother
      exact .inl ⟨hcount.trans hother, fun hf => absurd ((hfails t').mp hf) ht⟩

end

/-! ## Events that are no failures -/

section

variable {env : Env} {w : Store} {t taskId : String} {n : ℤ} {now : Time} {event : ASDLCEvent}
  {os : List (Outcome Error)}

theorem keeps_countIs_handleTaskDispatched :
    Keeps (Store.serve env) (CountIs env t n) (handleTaskDispatched env now event) := by
  unfold handleTaskDispatched
  split
  · exact keeps_ret _
  · refine keeps_bind keeps_getTask fun r => ?_
    cases r with
    | none => exact keeps_ret _
    | some task =>
      exact keeps_bind (keeps_countIs_updateState fun _ => rfl) fun _ => keeps_ret _

theorem keeps_countIs_handleGateApproved :
    Keeps (Store.serve env) (CountIs env t n) (handleGateApproved env now event) := by
  unfold handleGateApproved
  split
  · exact keeps_ret _
  · refine keeps_bind keeps_getTask fun r => ?_
    cases r with
    | none => exact keeps_ret _
    | some task =>
      dsimp only
      split
      · exact keeps_bind (keeps_countIs_updateState fun _ => rfl) fun _ =>
          keeps_bind (keeps_publishEventModel countIs_tasksOnly) fun _ => keeps_ret _
      · exact keeps_ret _

theorem keeps_countIs_handlePatchCreated :
    Keeps (Store.serve env) (CountIs env t n) (handlePatchCreated env now event) := by
  unfold handlePatchCreated
  split
  · exact keeps_ret _
  · exact keeps_ret _
  · split
    · exact keeps_applyAndAnnounce countIs_tasksOnly _
    · exact keeps_ret _

/-- Creating a task that has no failures yet leaves all counts alone. -/
theorem keeps_countIs_handleTaskCreated (h : t = event.taskId.getD "" → n = 0) :
    Keeps (Store.serve env) (CountIs env t n) (handleTaskCreated env now event) := by
  refine keeps_bind (keeps_bind (keeps_command fun w hw => ?_) fun _ => keeps_ret _) fun _ =>
    keeps_ret _
  unfold CountIs at hw ⊢
  rw [serve_hset, storedCount_writeTask]
  by_cases ht : t = event.taskId.getD ""
  · simp [createdTask, ht, h ht]
  · simpa [createdTask, ht] using hw

/-- Patches that are applied, and a failure that is not counted, leave the counts alone. -/
theorem applyPatches_countIs {task : Task} {next : Bool → Async Unit} {g : Error → Async Unit}
    (hnext : ∀ b, Keeps (Store.serve env) (CountIs env t n) (next b))
    (hg : ∀ e, Keeps (Store.serve env) (CountIs env t n) (g e)) (patches : List String)
    (hos : PatchesApplied patches os) (hw : CountIs env t n w) :
    CountIs env t n (play (Store.serve env) os
      ((applyPatches env now event taskId task patches).elim next g) w).2 := by
  induction patches generalizing os w with
  | nil => exact (hnext true).play hw os
  | cons patchPath rest ih =>
    have hfail (e : Error) (w' : Store) (os' : List (Outcome Error)) (hw' : CountIs env t n w')
        (hos' : ∀ o os'', os' = o :: os'' → o.effective = false) :
        CountIs env t n (play (Store.serve env) os' ((handleTaskFailure env now task e.str).elim
          (fun _ => next false) g) w').2 := by
      rcases os' with _ | ⟨_ | e' | e', os'⟩
      · exact hw'
      · cases hos' _ _ rfl
      · simpa [handleTaskFailure, incrementFailCount] using (hg e').play hw' os'
      · cases hos' _ _ rfl
    have hcommit : CountIs env t n (Store.serve env
        (.applyPatch patchPath (patchMessage taskId)) w).1 := countIs_tasksOnly _ _ rfl hw
    simp only [applyPatches, applyOnePatch, updateGitSha, Async.send, command_eq, bind_eq,
      pure_eq, tryCatch_eq, elim_call, elim_elim]
    rcases os with _ | ⟨_ | e | e, os⟩
    · exact hw
    · simp only [play_call, Server.perform_ok, answer_ok, elim_ret]
      rcases os with _ | ⟨_ | e | e, os⟩
      · exact hcommit
      · simp only [play_call, Server.perform_ok, answer_ok, elim_ret]
        exact ih hos (countIs_tasksOnly _ _ rfl hcommit)
      · simp only [play_call, Server.perform_refused, answer_error, elim_raise, elim_ret, elim_elim]
        refine hfail e _ os hcommit fun o os' ho => ?_
        subst ho
        exact hos
      · simp only [play_call, Server.perform_lost, answer_error, elim_raise, elim_ret, elim_elim]
        refine hfail e _ os (countIs_tasksOnly _ _ rfl hcommit) fun o os' ho => ?_
        subst ho
        exact hos
    · simp only [play_call, Server.perform_refused, answer_error, elim_raise, elim_ret, elim_elim]
      refine hfail e _ os hw fun o os' ho => ?_
      subst ho
      exact hos
    · simp only [play_call, Server.perform_lost, answer_error, elim_raise, elim_ret, elim_elim]
      refine hfail e _ os hcommit fun o os' ho => ?_
      subst ho
      exact hos

/-- A completion whose patches are applied leaves the counts alone. -/
theorem agentCompleted_countIs (htype : event.eventType = .agentCompleted)
    (h : HandledOnce env w event os) (hw : CountIs env t n w) :
    CountIs env t n (play (Store.serve env) os (process env now event) w).2 := by
  have hh : getHandler env now event.eventType = some (handleAgentCompleted env now) := by
    rw [htype]
    rfl
  have hsettle : Keeps (Store.serve env) (CountIs env t n)
      ((settle env event).elim .ret fun _ => (.ret () : Async Unit)) :=
    keeps_elim (keeps_settle countIs_tasksOnly) keeps_ret fun _ => keeps_ret _
  rw [process_eq hh]
  cases ht : given event.taskId with
  | none => simpa [handleAgentCompleted, ht] using hsettle.play hw os
  | some taskId =>
    simp only [handleAgentCompleted, ht, getTask, Async.send, command_eq, bind_eq, pure_eq,
      elim_call, elim_elim, elim_ret]
    rcases os with _ | ⟨_ | e | e, os⟩
    · exact hw
    · simp only [play_call, Server.perform_ok, serve_hgetall, answer_ok, elim_ret]
      cases hdata : w.tasks (taskKey env taskId) with
      | none => exact hsettle.play hw os
      | some data =>
        simp only [HandledOnce, htype] at h
        have hpatches := h taskId os ht (by simp [hdata]) rfl
        simp only [Option.map_some, elim_elim]
        refine applyPatches_countIs (fun b => ?_) (fun _ => keeps_ret _) _ hpatches hw
        refine keeps_elim ?_ (fun _ => hsettle) fun _ => keeps_ret _
        split
        · exact keeps_elim (keeps_countIs_updateState fun _ => rfl) (fun _ =>
            keeps_elim (keeps_publishEventModel countIs_tasksOnly) (fun _ => keeps_ret _)
              keeps_raise) keeps_raise
        · exact keeps_ret _
    · simpa using hw
    · simpa using hw

/-- **One event.**  An event that was not processed before and is handled as it should be
is counted exactly if it is a failure and settled. -/
theorem process_countedAt (now : Time) {i : ℕ} (hcan : canHandle event.eventType = true)
    (hid : event.eventId = some i) (hlt : i < w.stream.length)
    (hkey : keyAt w i = given event.idempotencyKey) (hbefore : settledAt env w i = false)
    (hfails : ∀ t, failsAt t w i = (isFailure event.eventType && given event.taskId == some t))
    (h : HandledOnce env w event os) (t : String) :
    CountedAt env t i w (play (Store.serve env) os (process env now event) w).2 := by
  obtain ⟨handler, hh⟩ : ∃ handler, getHandler env now event.eventType = some handler := by
    rw [canHandle_iff env now] at hcan
    exact Option.isSome_iff_exists.mp hcan
  -- A handler that keeps all counts, of an event that is no failure of `t`.
  have hkept (hno : failsAt t w i = false)
      (hcount : CountIs env t (storedCount env t w)
        (play (Store.serve env) os (process env now event) w).2) :
      CountedAt env t i w (play (Store.serve env) os (process env now event) w).2 :=
    .inl ⟨hcount, fun hf => by simp [hno] at hf⟩
  have hkeeps (hno : failsAt t w i = false)
      (hk : Keeps (Store.serve env) (CountIs env t (storedCount env t w)) (handler event)) :
      CountedAt env t i w (play (Store.serve env) os (process env now event) w).2 :=
    hkept hno ((keeps_process countIs_tasksOnly hh hk).play rfl os)
  have hfailure (hisf : isFailure event.eventType = true)
      (hempty : given event.taskId = none → handler event = .ret ())
      (hcounts : ∀ t', given event.taskId = some t' → CountsOrNot env t' w os (handler event)) :
      CountedAt env t i w (play (Store.serve env) os (process env now event) w).2 := by
    cases ht : given event.taskId with
    | none =>
      refine hkeeps (by simp [hfails, ht]) ?_
      rw [hempty ht]
      exact keeps_ret _
    | some t' =>
      refine failure_countedAt hh hid hlt hkey hbefore (fun t'' => ?_) (hcounts t' ht) t
      rw [hfails, hisf, ht]
      simpa using eq_comm
  cases htype : event.eventType <;> rw [htype] at hh <;> simp only [getHandler,
    Option.some.injEq, reduceCtorEq] at hh <;> subst hh
  case taskCreated =>
    have hno : failsAt t w i = false := by simp [hfails, htype, isFailure]
    simp only [HandledOnce, htype] at h
    rcases h with hzero | hrefused
    · exact hkeeps hno (keeps_countIs_handleTaskCreated fun ht => ht ▸ hzero)
    · refine hkept hno ?_
      rcases os with _ | ⟨_ | e | e, os⟩
      · rfl
      · cases hrefused _ _ rfl
      · rw [process_eq (by rw [htype]; rfl)]
        simp [handleTaskCreated, createTask, CountIs]
      · cases hrefused _ _ rfl
  case taskDispatched =>
    exact hkeeps (by simp [hfails, htype, isFailure]) keeps_countIs_handleTaskDispatched
  case agentCompleted =>
    exact hkept (by simp [hfails, htype, isFailure]) (agentCompleted_countIs htype h rfl)
  case gateApproved =>
    exact hkeeps (by simp [hfails, htype, isFailure]) keeps_countIs_handleGateApproved
  case patchCreated =>
    exact hkeeps (by simp [hfails, htype, isFailure]) keeps_countIs_handlePatchCreated
  case agentError =>
    simp only [HandledOnce, htype] at h
    refine hfailure (by simp [htype, isFailure]) (fun ht => ?_) fun t' ht => ?_
    · simp [handleAgentError, handleReportedFailure, ht]
    · exact reportedFailure_counts ht (by simp [htype]) (by rw [htype]; exact h t' ht)
  case taskFailed =>
    simp only [HandledOnce, htype] at h
    refine hfailure (by simp [htype, isFailure]) (fun ht => ?_) fun t' ht => ?_
    · simp [handleTaskFailed, handleReportedFailure, ht]
    · exact reportedFailure_counts ht (by simp [htype]) (by rw [htype]; exact h t' ht)
  case gateRejected =>
    simp only [HandledOnce, htype] at h
    refine hfailure (by simp [htype, isFailure]) (fun ht => ?_) fun t' ht => ?_
    · simp [handleGateRejected, ht]
    · exact gateRejected_counts ht htype (by rw [htype]; exact h t' ht)

end

/-! ## Runs of the consumer -/

section

variable {env : Env} {w₀ w : Store} {t : String} {i : ℕ} {now : Time} {event : ASDLCEvent}
  {os : List (Outcome Error)}

/-- Whoever only acknowledges leaves the counts alone. -/
theorem acknowledge_countIs (event : ASDLCEvent) (os : List (Outcome Error)) {n : ℤ}
    (hw : CountIs env t n w) :
    CountIs env t n (play (Store.serve env) os ((acknowledgeEvent env .manager event.eventId).elim
      (fun _ => (.ret () : Async Unit)) .raise) w).2 := by
  refine Keeps.play (keeps_elim (keeps_tryCatch (keeps_command fun w h => ?_) fun _ =>
    keeps_raise _) (fun _ => keeps_ret _) keeps_raise) hw os
  refine countIs_tasksOnly _ _ ?_ h
  cases event.eventId <;> rfl

/-- **One delivery.**  A delivery that meets the condition counts as it should. -/
theorem receiveEntry_countedAt (hevent : pendingEvent w now i = some event)
    (h : CountsOnce env w (.receive i now os)) (t : String) :
    CountedAt env t i w (receiveEntry env w i now os) := by
  obtain ⟨hlt, hacked, hid, hkey, hfails⟩ := pendingEvent_eq_some hevent
  have hleft : CountedAt env t i w w := .inl ⟨rfl, fun _ => rfl⟩
  by_cases hcan : canHandle event.eventType = true
  · have hhandled := h event hevent hcan
    cases hk : given event.idempotencyKey with
    | none =>
      simp only [hk] at hhandled
      have hbefore : settledAt env w i = false := by
        simp [settledAt, hacked, hkey, hk]
      have hp := process_countedAt now hcan hid hlt hkey hbefore hfails hhandled t
      simpa [receiveEntry, hevent, handleEvent, hcan, alreadyProcessed, hk] using hp
    | some key =>
      simp only [hk] at hhandled
      rcases os with _ | ⟨_ | e | e, os⟩
      · simpa [receiveEntry, hevent] using hleft
      · have howner := hhandled os rfl
        cases hmark : w.processed (processedKey env key) with
        | some owner =>
          simp only [hmark] at howner
          have hcount : CountIs env t (storedCount env t w)
              (receiveEntry env w i now (.ok :: os)) := by
            have hsame : CountIs env t (storedCount env t w) w := rfl
            have hack := acknowledge_countIs event os hsame
            simpa [receiveEntry, hevent, handleEvent, hcan, alreadyProcessed, hk, isProcessed,
              Store.serve, hmark] using hack
          refine .inl ⟨hcount, fun hf => ?_⟩
          rw [hfails, Bool.and_eq_true, beq_iff_eq] at hf
          have hown : owner = some i := howner t hf.1 hf.2
          have hbefore : settledAt env w i = true :=
            settledAt_iff.mpr (.inr ⟨key, hkey.trans hk, hown ▸ hmark⟩)
          rw [hbefore]
          exact (touched_receiveEntry env w i now (.ok :: os)).stays_settled hlt hbefore
        | none =>
          simp only [hmark] at howner
          have hbefore : settledAt env w i = false := by
            simp [settledAt, hacked, hkey, hk, hmark]
          have hp := process_countedAt now hcan hid hlt hkey hbefore hfails howner t
          simpa [receiveEntry, hevent, handleEvent, hcan, alreadyProcessed, hk, isProcessed,
            Store.serve, hmark] using hp
      · simpa [receiveEntry, hevent, handleEvent, hcan, alreadyProcessed, hk, isProcessed] using hleft
      · simpa [receiveEntry, hevent, handleEvent, hcan, alreadyProcessed, hk, isProcessed,
          Store.serve] using hleft
  · have hno : isFailure event.eventType = false := by
      cases htype : event.eventType <;> simp [htype, canHandle, isFailure] at hcan ⊢
    have hcount : CountIs env t (storedCount env t w) (receiveEntry env w i now os) := by
      have hsame : CountIs env t (storedCount env t w) w := rfl
      have hack := acknowledge_countIs event os hsame
      simpa [receiveEntry, hevent, handleEvent, hcan] using hack
    exact .inl ⟨hcount, fun hf => by simp [hfails, hno] at hf⟩

/-- The invariant of a run. -/
def CountInv (env : Env) (w₀ w : Store) : Prop := InStream w ∧ FailuresCounted env w₀ w

/-- A new entry is not settled. -/
theorem CountInv.xadd (h : CountInv env w₀ w) (data : StreamEntry) :
    CountInv env w₀ { w with stream := w.stream ++ [data] } := by
  obtain ⟨hw, hcounted⟩ := h
  let w' : Store := { w with stream := w.stream ++ [data] }
  have ht : Touched w.stream.length w w' := ⟨List.prefix_append _ _, fun _ => .inl rfl, fun _ => .inl rfl⟩
  have hset (t : String) : failuresSettled env t w' = failuresSettled env t w := by
    ext j
    by_cases hj : j = w.stream.length
    · subst hj
      have hack : w.acked .manager w.stream.length = false := by
        by_contra hne
        have hlt := hw.acked _ (by simpa using hne)
        omega
      have hmark (key : String) : w.processed key ≠ some (some w.stream.length) := by
        intro hp
        have hlt := hw.processed _ _ hp
        omega
      simp [mem_failuresSettled, settledAt_iff, w', hack, hmark]
    · exact ht.mem_of_ne hw hj
  refine ⟨⟨fun i hi => ?_, fun key i hi => ?_⟩, fun t => ?_⟩
  · have hlt := hw.acked i hi
    simp only [List.length_append, List.length_singleton]
    omega
  · have hlt := hw.processed key i hi
    simp only [List.length_append, List.length_singleton]
    omega
  · obtain ⟨hcount, hdebug⟩ := hcounted t
    rw [hset]
    exact ⟨hcount, fun h₁ h₂ => (hdebug h₁ h₂).mono (List.prefix_append _ _)⟩

/-- A key may expire once the failure that it was marked with is acknowledged. -/
theorem CountInv.expire (h : CountInv env w₀ w) {key : String}
    (hkey : ∀ i t, failsAt t w i = true → w.processed (processedKey env key) = some (some i) →
      w.acked .manager i = true) :
    CountInv env w₀ (w.expire (some (processedKey env key)) none) := by
  obtain ⟨hw, hcounted⟩ := h
  have hset (t : String) : failuresSettled env t (w.expire (some (processedKey env key)) none)
      = failuresSettled env t w := by
    ext j
    rw [mem_failuresSettled, mem_failuresSettled]
    refine and_congr_right fun hf => ?_
    rw [settledAt_iff, settledAt_iff]
    change _ ∨ (∃ k, keyAt w j = some k ∧ _) ↔ _
    by_cases hack : w.acked .manager j = true
    · exact iff_of_true (.inl hack) (.inl hack)
    · refine or_congr_right (exists_congr fun k => and_congr_right fun _ => ?_)
      by_cases hk : key = k
      · subst hk
        have hne : w.processed (processedKey env key) ≠ some (some j) := fun hp =>
          hack (hkey j t hf hp)
        simp [Store.expire, hne]
      · simp [Store.expire, hk]
  refine ⟨⟨hw.acked, fun k i hi => ?_⟩, fun t => ?_⟩
  · by_cases hk : processedKey env key = k
    · simp [Store.expire, hk] at hi
    · exact hw.processed k i (by simpa [Store.expire, hk] using hi)
  · rw [hset]
    exact hcounted t

/-- A step that meets the condition keeps the invariant. -/
theorem CountInv.step {a : ConsumerAction} (h : CountInv env w₀ w) (ha : CountsOnce env w a) :
    CountInv env w₀ (consumerStep env w a) := by
  cases a with
  | publish event => exact h.xadd _
  | append event => exact h.xadd _
  | expire key => exact h.expire ha
  | receive i now os =>
    cases hevent : pendingEvent w now i with
    | none => simpa [consumerStep, receiveEntry, hevent] using h
    | some event =>
      have hlt : i < w.stream.length := (pendingEvent_eq_some hevent).1
      have htouched := touched_receiveEntry env w i now os
      exact ⟨htouched.inStream h.1 hlt, h.2.deliver h.1 hlt htouched fun t =>
        receiveEntry_countedAt hevent ha t⟩

end

/-- A store in which nothing was published yet. -/
def Store.unpublished (tasks : Redis.Keys String TaskHash) : Store :=
  { Store.empty with tasks := tasks }

theorem countInv_unpublished (env : Env) (tasks : Redis.Keys String TaskHash) :
    CountInv env (Store.unpublished tasks) (Store.unpublished tasks) := by
  refine ⟨⟨fun i hi => ?_, fun key i hi => ?_⟩, fun t => ⟨?_, fun h => absurd h (lt_irrefl _)⟩⟩
  · cases hi
  · cases hi
  · simp [failuresSettled, Store.unpublished, Store.empty]

/-- **Failures are counted once.**  In a run whose steps meet the condition the law holds
in every state; and when every failure of a task has been acknowledged, the count has
risen by the number of its failure entries. -/
theorem failures_counted_once (env : Env) (tasks : Redis.Keys String TaskHash)
    (as : List ConsumerAction)
    (h : Each (consumerStep env) (CountsOnce env) (Store.unpublished tasks) as) :
    Along (consumerStep env) (FailuresCounted env (Store.unpublished tasks)) (fun _ _ _ => True)
      (Store.unpublished tasks) as ∧
    ∀ t, let w := run (consumerStep env) (Store.unpublished tasks) as
      (∀ i, failsAt t w i = true → w.acked .manager i = true) →
        storedCount env t w
          = storedCount env t (Store.unpublished tasks) + (failures t w).card := by
  have hall := along_of_each (P := FailuresCounted env (Store.unpublished tasks))
    (R := fun _ _ _ => True) (fun s a hs ha => CountInv.step hs ha) (fun _ hs => hs.2)
    (fun _ _ _ _ => trivial) (countInv_unpublished env tasks) h
  refine ⟨hall, fun t => ?_⟩
  intro w hacked
  have hset : failuresSettled env t w = failures t w := by
    refine Finset.filter_congr fun i _ => ?_
    cases hf : failsAt t w i with
    | false => simp
    | true => simp [settledAt, hacked i hf]
  rw [← hset]
  exact (hall.last t).1

/-- Task `t` in progress, without failures. -/
def failingTask : Redis.Keys String TaskHash :=
  (Store.ofTask plainEnv ⟨"t", "s", "e", .inProgress, 0, 0, 0, none, none, []⟩).tasks

/-- An agent's error about task `t`. -/
def agentError : ASDLCEvent :=
  { eventType := .agentError, sessionId := ⟨"s", blank_s⟩, timestamp := 0, taskId := some "t" }

/-- A delivery without faults. -/
def receiveAll (i : ℕ) : ConsumerAction := .receive i 0 (List.replicate 8 .ok)

/-- One error is counted once. -/
theorem failure_counted_once_run :
    let as := [ConsumerAction.publish agentError, receiveAll 0, receiveAll 0]
    let w := run (consumerStep plainEnv) (Store.unpublished failingTask) as
    Along (consumerStep plainEnv) (FailuresCounted plainEnv (Store.unpublished failingTask))
      (fun _ _ _ => True) (Store.unpublished failingTask) as ∧
    storedCount plainEnv "t" w = 1 := by
  have heach : Each (consumerStep plainEnv) (CountsOnce plainEnv) (Store.unpublished failingTask)
      [ConsumerAction.publish agentError, receiveAll 0, receiveAll 0] := by
    refine ⟨trivial, ?_, ?_, trivial⟩
    · intro event hevent _
      have hpending : some ((agentError.prepared plainEnv).received 0) = some event := hevent
      cases hpending
      intro os' hos
      cases hos
      intro t ht
      cases ht
      refine .inr ⟨_, rfl, rfl, ?_⟩
      rw [if_neg (by decide), if_pos (by decide)]
      rfl
    · intro event hevent
      cases hevent
  exact ⟨(failures_counted_once plainEnv failingTask _ heach).1, by decide⟩

/-- Two errors of one task have the same key: the second is acknowledged uncounted. -/
theorem second_failure_dropped :
    let w := run (consumerStep plainEnv) (Store.unpublished failingTask)
      [.publish agentError, .publish agentError, receiveAll 0, receiveAll 1]
    w.acked .manager 0 = true ∧ w.acked .manager 1 = true ∧ (failures "t" w).card = 2 ∧
      storedCount plainEnv "t" (Store.unpublished failingTask) = 0 ∧
      storedCount plainEnv "t" w = 1 := by
  decide

end DoxAsdlc
