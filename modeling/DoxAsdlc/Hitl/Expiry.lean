import DoxAsdlc.Hitl.Dispatcher
import DoxAsdlc.Interaction.Run

/-!
# Expiry over runs

Requests, decisions and sweeps one after the other, at any times, each with any faults
and stopped at any point.  The expiry of a request is enforced by the sweep alone: a
decision looks at the status and not at the clock.

## Main definitions

* `Operation`, `Timed`, `Timed.step` — the operations, and a step of a run.
* `DecidedInTime` — no step approves or rejects a request from its expiry on.
* `BeforeExpiry` — a decision that reaches the request comes before its expiry.
-/

namespace DoxAsdlc.Hitl

open Interaction Interaction.Program

/-- An operation of the dispatcher that writes. -/
inductive Operation where
  | requestGate (requestId : String) (args : GateArgs)
  | recordDecision (decisionId requestId : String) (args : DecisionArgs)
  | checkExpired

/-- An operation, the time it reads off the clock, and what becomes of its commands. -/
structure Timed where
  now : Time
  operation : Operation
  outcomes : List (Outcome Error)

variable (tenancy : Tenancy)

/-- The coroutine of an operation. -/
def Operation.program (now : Time) : Operation → Async Unit
  | .requestGate requestId args => do
      let _ ← Hitl.requestGate tenancy now requestId args
  | .recordDecision decisionId requestId args => do
      let _ ← Hitl.recordDecision tenancy now decisionId requestId args
  | .checkExpired => do
      let _ ← Hitl.checkExpired tenancy now

/-- The store after an operation. -/
def Timed.step (w : Store) (op : Timed) : Store :=
  (play Store.serve op.outcomes (op.operation.program tenancy op.now) w).2

/-- A request that an operation approves or rejects has not expired at its time. -/
def DecidedInTime (w : Store) (op : Timed) (w' : Store) : Prop :=
  ∀ requestId s, storedStatus tenancy requestId w' = some s → s = .approved ∨ s = .rejected →
    storedStatus tenancy requestId w ≠ some s →
    ∀ expiry, storedExpiry tenancy requestId w' = some expiry → op.now < expiry

/-- Does the write that follows the first read of an operation take effect? -/
def writes : List (Outcome Error) → Bool
  | .ok :: o :: _ => o.effective
  | _ => false

/-- A decision that reaches a request it reads as pending comes before its expiry. -/
def BeforeExpiry (w : Store) (op : Timed) : Prop :=
  ∀ decisionId requestId args, op.operation = .recordDecision decisionId requestId args →
    writes op.outcomes = true →
    ∀ data, w.requests (requestKey tenancy requestId) = some data →
      (GateRequest.fromDict op.now data).status = .pending →
      ∀ expiry, data .expiresAt = some expiry → op.now < expiry

/-! ## The statuses that an operation writes -/

/-- Every status that a command writes to a request satisfies `P`. -/
def WritesOnly (P : String → GateStatus → Prop) (cmd : Cmd) : Prop :=
  ∀ requestId s, written tenancy requestId cmd = some s → P requestId s

/-- A command leaves the expiry of every request alone. -/
def KeepsExpiry : Cmd → Prop
  | .hset _ mapping => mapping .expiresAt = none
  | _ => True

section

variable {tenancy} {P : String → GateStatus → Prop} {α : Type}

theorem writesOnly_markRequest {requestId : String} {s : GateStatus} (h : P requestId s) :
    (markRequest tenancy requestId s).Uses fun cmd => WritesOnly tenancy P cmd ∧ KeepsExpiry cmd := by
  refine uses_bind (uses_command ⟨fun r s' hs' => ?_, Redis.Hash.field_of_ne _ (by decide)⟩)
    fun _ => uses_command ⟨fun _ _ hs => (by cases hs), trivial⟩
  by_cases hr : r = requestId
  · subst hr
    simp only [written, if_true, Redis.Hash.field_self, Option.some.injEq] at hs'
    rwa [← hs']
  · simp [written, Ne.symm hr] at hs'

theorem writesOnly_log (taskId : String) (entry : LogEntry) :
    (log tenancy taskId entry).Uses fun cmd => WritesOnly tenancy P cmd ∧ KeepsExpiry cmd :=
  uses_bind (uses_command ⟨fun _ _ hs => (by cases hs), trivial⟩)
    fun _ => uses_command ⟨fun _ _ hs => (by cases hs), trivial⟩

theorem writesOnly_announce (eventType : EventType) (now : Time) (request : GateRequest)
    (metadata : List (String × String)) :
    (announce eventType now request metadata).Uses
      fun cmd => WritesOnly tenancy P cmd ∧ KeepsExpiry cmd :=
  uses_bind (uses_answer _) fun _ =>
    uses_bind (uses_command ⟨fun _ _ hs => (by cases hs), trivial⟩) fun _ => uses_ret _

theorem writesOnly_requestGate (now : Time) (requestId : String) (args : GateArgs) :
    (requestGate tenancy now requestId args).Uses
      (WritesOnly tenancy fun r s => r = requestId ∧ s = .pending) := by
  refine uses_bind (uses_answer _) fun _ => uses_bind (uses_command fun r s hs => ?_) fun _ =>
    uses_bind (uses_command fun _ _ hs => (by cases hs)) fun _ =>
    uses_bind (uses_command fun _ _ hs => (by cases hs)) fun _ =>
    uses_bind ((uses_bind (writesOnly_log _ _) fun _ => writesOnly_announce _ _ _ _).mono
      fun _ h => h.1) fun _ => uses_ret _
  by_cases hr : r = requestId
  · subst hr
    simp only [written, if_true, GateRequest.toDict_status, Option.some.injEq] at hs
    exact ⟨rfl, hs.symm⟩
  · simp [written, Ne.symm hr] at hs

variable (tenancy) in
theorem writesOnly_decideRequest (now : Time) (decisionId requestId : String)
    (args : DecisionArgs) (request : GateRequest) :
    (decideRequest tenancy now decisionId requestId args request).Uses
      fun cmd => WritesOnly tenancy
        (fun r s => r = requestId ∧ s = decidedStatus args.approved) cmd ∧ KeepsExpiry cmd :=
  uses_bind (writesOnly_markRequest ⟨rfl, rfl⟩) fun _ =>
    uses_bind (writesOnly_log _ _) fun _ =>
    uses_bind (writesOnly_announce _ _ _ _) fun _ => uses_ret _

variable (tenancy) in
theorem writesOnly_recordDecision (now : Time) (decisionId requestId : String)
    (args : DecisionArgs) :
    (recordDecision tenancy now decisionId requestId args).Uses
      fun cmd => WritesOnly tenancy
        (fun r s => r = requestId ∧ s = decidedStatus args.approved) cmd ∧ KeepsExpiry cmd := by
  refine uses_bind (uses_command ⟨fun _ _ hs => (by cases hs), trivial⟩) fun data => ?_
  rcases data with _ | data
  · trivial
  · simp only
    split
    · exact writesOnly_decideRequest tenancy now decisionId requestId args _
    · trivial

theorem writesOnly_checkExpired (now : Time) :
    (checkExpired tenancy now).Uses (WritesOnly tenancy fun _ s => s = .expired) := by
  have hone : ∀ requestId, (expireRequest tenancy now requestId).Uses
      (WritesOnly tenancy fun _ s => s = .expired) := by
    intro requestId
    refine uses_bind (uses_command fun _ _ hs => (by cases hs)) fun data => ?_
    rcases data with _ | data
    · trivial
    · simp only
      split
      · exact uses_bind ((writesOnly_markRequest rfl).mono fun _ h => h.1) fun _ =>
          uses_bind ((writesOnly_announce _ _ _ _).mono fun _ h => h.1) fun _ => uses_ret _
      · trivial
  refine uses_bind (uses_command fun _ _ hs => (by cases hs)) fun ids => ?_
  induction ids with
  | nil => trivial
  | cons requestId ids ih =>
    exact uses_bind (hone requestId) fun _ => uses_bind ih fun _ => uses_ret _

/-- A status that an operation leaves behind was there before or is one it writes. -/
theorem status_play {p : Async α} (hp : p.Uses (WritesOnly tenancy P))
    (outcomes : List (Outcome Error)) (w : Store) {requestId : String} {s : GateStatus}
    (hs : storedStatus tenancy requestId (play Store.serve outcomes p w).2 = some s) :
    storedStatus tenancy requestId w = some s ∨ P requestId s := by
  let S : Store → Prop := fun w' => ∀ s, storedStatus tenancy requestId w' = some s →
    storedStatus tenancy requestId w = some s ∨ P requestId s
  have hkeeps : Keeps Store.serve S p := by
    refine hp.keeps fun cmd hcmd w' hw' s hs => ?_
    rw [storedStatus_serve] at hs
    cases hwritten : written tenancy requestId cmd with
    | none => exact hw' s (by simpa [hwritten] using hs)
    | some s' =>
      obtain rfl : s' = s := by simpa [hwritten] using hs
      exact .inr (hcmd requestId s' hwritten)
  exact hkeeps.play (fun s hs => .inl hs) outcomes s hs

/-- No decision changes an expiry. -/
theorem expiry_recordDecision (now : Time) (decisionId requestId r : String) (args : DecisionArgs)
    (outcomes : List (Outcome Error)) (w : Store) :
    storedExpiry tenancy r
        (play Store.serve outcomes (recordDecision tenancy now decisionId requestId args) w).2
      = storedExpiry tenancy r w := by
  have hkeeps : Keeps Store.serve (fun w' => storedExpiry tenancy r w' = storedExpiry tenancy r w)
      (recordDecision tenancy now decisionId requestId args) := by
    refine (writesOnly_recordDecision tenancy now decisionId requestId args).keeps fun cmd hcmd w' hw' => ?_
    rw [← hw']
    cases cmd with
    | hset key mapping =>
      have hnone : mapping .expiresAt = none := hcmd.2
      by_cases hkey : key = requestKey tenancy r
      · subst hkey
        simp [storedExpiry, Store.serve, Redis.hget_hset, hnone]
      · simp [storedExpiry, Store.serve, Ne.symm hkey]
    | _ => rfl
  exact hkeeps.play rfl outcomes

variable (tenancy) in
/-- A request that a decision reads as pending. -/
def Awaiting (now : Time) (requestId : String) (w : Store) (data : GateHash) : Prop :=
  w.requests (requestKey tenancy requestId) = some data ∧
    (GateRequest.fromDict now data).status = .pending

variable {now : Time} {decisionId requestId : String} {args : DecisionArgs}
  {outcomes : List (Outcome Error)} {w : Store}

/-- A decision whose write does not take effect, or that reads no pending request,
leaves the store as it is. -/
theorem play_recordDecision_of_not
    (h : ∀ data, Awaiting tenancy now requestId w data → writes outcomes = false) :
    (play Store.serve outcomes (recordDecision tenancy now decisionId requestId args) w).2 = w := by
  rcases outcomes with _ | ⟨_ | e | e, os⟩
  · rfl
  · simp only [recordDecision, send, command_eq, bind_eq, elim_call, play_call, Server.perform_ok,
      answer_ok, elim_ret, Store.serve]
    cases hdata : w.requests (requestKey tenancy requestId) with
    | none => simp
    | some data =>
      by_cases hpending : (GateRequest.fromDict now data).status = .pending
      · simp only [if_pos hpending]
        have hwrites := h data ⟨hdata, hpending⟩
        rcases os with _ | ⟨_ | e | e, os⟩
        · rfl
        · cases hwrites
        · exact congrArg Prod.snd (play_raise _ os e w)
        · cases hwrites
      · simp [if_neg hpending]
  · exact congrArg Prod.snd (play_raise _ os e w)
  · exact congrArg Prod.snd (play_raise _ os e w)

/-- A decision that reads a pending request, and whose write takes effect, decides it. -/
theorem play_recordDecision_of_writes {data : GateHash}
    (hdata : Awaiting tenancy now requestId w data) (hwrites : writes outcomes = true) :
    storedStatus tenancy requestId
        (play Store.serve outcomes (recordDecision tenancy now decisionId requestId args) w).2
      = some (decidedStatus args.approved) := by
  obtain ⟨hstored, hpending⟩ := hdata
  rcases outcomes with _ | ⟨_ | e | e, _ | ⟨o, os⟩⟩ <;> try cases hwrites
  have heffective : o.effective = true := hwrites
  have huses := writesOnly_decideRequest tenancy now decisionId requestId args
    (GateRequest.fromDict now data)
  obtain ⟨k, hk⟩ : ∃ k, decideRequest tenancy now decisionId requestId args
      (GateRequest.fromDict now data) = .call (.hset (requestKey tenancy requestId)
        (.field .status (decidedStatus args.approved))) k := ⟨_, rfl⟩
  rw [hk] at huses
  simp only [recordDecision, send, command_eq, bind_eq, elim_call, play_call, Server.perform_ok,
    answer_ok, elim_ret, Store.serve, hstored, if_pos hpending, hk]
  -- What is left of the decision writes no other status.
  have hkeeps : ∀ r, Keeps Store.serve
      (fun w' => storedStatus tenancy requestId w' = some (decidedStatus args.approved)) (k r) := by
    intro r
    refine (huses.2 r).keeps fun cmd hcmd w' hw' => ?_
    rw [storedStatus_serve]
    cases hwritten : written tenancy requestId cmd with
    | none => rw [Option.none_or, hw']
    | some s =>
      obtain ⟨-, rfl⟩ := hcmd.1 _ _ hwritten
      rfl
  refine (hkeeps _).play ?_ os
  rw [Server.perform_state, if_pos heffective, storedStatus_serve]
  simp [written]

variable (tenancy) in
theorem step_recordDecision : Timed.step tenancy w
      ⟨now, .recordDecision decisionId requestId args, outcomes⟩
    = (play Store.serve outcomes (recordDecision tenancy now decisionId requestId args) w).2 :=
  congrArg Prod.snd (play_elim_finished Store.serve outcomes _ _ _ w (fun _ => rfl) fun _ => rfl)

/-- A step keeps to the expiries exactly when its decision does. -/
theorem step_exact (w : Store) (op : Timed) :
    DecidedInTime tenancy w op (Timed.step tenancy w op) ↔ BeforeExpiry tenancy w op := by
  obtain ⟨now, operation, outcomes⟩ := op
  constructor
  · rintro htime decisionId requestId args rfl hwrites data hdata hpending expiry hexpiry
    rw [step_recordDecision] at htime
    refine htime requestId (decidedStatus args.approved)
      (play_recordDecision_of_writes ⟨hdata, hpending⟩ hwrites) ?_ ?_ expiry ?_
    · cases args.approved <;> simp [decidedStatus]
    · intro hbefore
      rw [storedStatus, hdata, Redis.hget_some] at hbefore
      simp only [GateRequest.fromDict, hbefore, Option.getD_some] at hpending
      cases happroved : args.approved <;> simp [decidedStatus, happroved] at hpending
    · rw [expiry_recordDecision, storedExpiry, hdata, Redis.hget_some, hexpiry]
  · intro hbefore requestId s hs hdecided hnew expiry hexpiry
    cases operation with
    | requestGate r args =>
      have huses : ((Operation.requestGate r args).program tenancy now).Uses
          (WritesOnly tenancy fun r' s => r' = r ∧ s = .pending) :=
        uses_bind (writesOnly_requestGate now r args) fun _ => uses_ret _
      obtain ⟨-, rfl⟩ := (status_play huses outcomes w hs).resolve_left hnew
      simp at hdecided
    | checkExpired =>
      have huses : (Operation.checkExpired.program tenancy now).Uses
          (WritesOnly tenancy fun _ s => s = .expired) :=
        uses_bind (writesOnly_checkExpired now) fun _ => uses_ret _
      obtain rfl := (status_play huses outcomes w hs).resolve_left hnew
      simp at hdecided
    | recordDecision decisionId r args =>
      rw [step_recordDecision] at hs hexpiry
      have huses := (writesOnly_recordDecision tenancy now decisionId r args).mono
        fun _ h => h.1
      obtain ⟨rfl, -⟩ := (status_play huses outcomes w hs).resolve_left hnew
      obtain ⟨data, hdata, hwrites⟩ : ∃ data, Awaiting tenancy now requestId w data ∧
          writes outcomes = true := by
        by_contra hnot
        rw [play_recordDecision_of_not fun data hdata => ?_] at hs
        · exact hnew hs
        · exact Bool.eq_false_iff.mpr fun hwrites => hnot ⟨data, hdata, hwrites⟩
      rw [expiry_recordDecision, storedExpiry, hdata.1, Redis.hget_some] at hexpiry
      exact hbefore decisionId requestId args rfl hwrites data hdata.1 hdata.2 expiry hexpiry

/-- **Expiry over runs.**  In a run of requests, decisions and sweeps, in any order, at
any times and with any faults, no request is approved or rejected at or after its expiry
exactly when every decision that writes to a pending request comes before its expiry. -/
theorem decided_in_time_iff (w : Store) (ops : List Timed) :
    Along (Timed.step tenancy) (fun _ => True) (DecidedInTime tenancy) w ops ↔
      Each (Timed.step tenancy) (BeforeExpiry tenancy) w ops :=
  along_iff_each (I := fun _ => True) (fun _ _ _ _ _ => trivial)
    (fun w op _ _ => by rw [and_iff_left trivial]; exact step_exact w op) trivial trivial ops

end

/-- A request that lives for a second, and an approval after two. -/
def lateApproval : List Timed :=
  [⟨0, .requestGate "r" { codeGate with ttlSeconds := some 1 }, List.replicate 6 .ok⟩,
    ⟨2000000, .recordDecision "d" "r" ⟨true, "reviewer", "reason", []⟩, List.replicate 6 .ok⟩]

/-- The approval is recorded a second after the request has expired: no sweep came
between. -/
theorem approved_after_expiry :
    storedStatus plain "r" (run (Timed.step plain) Store.empty (lateApproval.take 1))
      = some .pending ∧
    storedExpiry plain "r" (run (Timed.step plain) Store.empty (lateApproval.take 1))
      = some 1000000 ∧
    storedStatus plain "r" (run (Timed.step plain) Store.empty lateApproval) = some .approved ∧
    storedExpiry plain "r" (run (Timed.step plain) Store.empty lateApproval) = some 1000000 ∧
    lateApproval.getLast?.map Timed.now = some 2000000 := by
  decide

end DoxAsdlc.Hitl
