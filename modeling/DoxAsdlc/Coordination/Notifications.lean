import DoxAsdlc.Coordination.Client
import DoxAsdlc.Interaction.Pool

/-!
# The queue of notifications

Notifications for an instance that is away are pushed to the front of a list, and a reader
takes the front of the list and deletes all of it in one transaction.  What a reader gets
is the newest first; read backwards, what the readers got one after the other comes in the
order in which it was queued.

## Main definitions

* `QueueCall` — a caller that queues, or one that reads.
* `callers` — the callers in the order of their turns.
* `Fits` — a reader finds no more than it may take.
-/

namespace DoxAsdlc.Coordination

open Interaction Interaction.Program

/-- A call about the queue of one instance. -/
inductive QueueCall where
  | queue (notification : NotificationEvent)
  | pop (limit : ℤ)
  deriving DecidableEq, Repr

namespace QueueCall

variable (config : CoordinationConfig) (instanceId : String)

/-- The program of a call: a reader returns what it got. -/
def program : QueueCall → Async (Option (List NotificationEvent))
  | .queue notification => do
      let _ ← queueNotification config instanceId notification
      return none
  | .pop limit => some <$> popNotifications config instanceId limit

/-- What is queued, as it is stored. -/
def queued : QueueCall → Option NotificationEvent
  | .queue notification => some notification.encoded
  | .pop _ => none

/-- The queue after a call. -/
def after : QueueCall → List NotificationEvent → List NotificationEvent
  | .queue notification, q => notification.encoded :: q
  | .pop _, _ => []

/-- What a call returns. -/
def returns : QueueCall → List NotificationEvent → Option (List NotificationEvent)
  | .queue _, _ => none
  | .pop limit, q => some (Redis.range q 0 (limit - 1))

/-- The limit of a reader is not below what is in the queue; zero is no limit. -/
def Fits : QueueCall → List NotificationEvent → Prop
  | .queue _, _ => True
  | .pop limit, q => limit = 0 ∨ (q.length : ℤ) ≤ limit

end QueueCall

/-- The callers in the order of their first turns. -/
def callers {ι : Type} [DecidableEq ι] (turns : List ι) : List ι := turns.reverse.dedup.reverse

variable {ι : Type}

/-- What a caller has returned. -/
def returned (cfg : Config interface Store Error (Option (List NotificationEvent)) ι) (j : ι) :
    Option (List NotificationEvent) :=
  match cfg.threads j with
  | .ret l => l
  | _ => none

variable {config : CoordinationConfig} {instanceId : String}

/-- The queue of an instance. -/
abbrev Store.queueOf (config : CoordinationConfig) (instanceId : String) (w : Store) :
    List NotificationEvent :=
  w.notifications (config.notificationQueueKey instanceId)

/-! ## One call -/

variable (config instanceId) in
/-- **A call** is one command, after which it returns. -/
theorem QueueCall.program_spec (call : QueueCall) :
    ∃ cmd k, call.program config instanceId = .call cmd k ∧ ∀ w : Store,
      (Store.serve cmd w).1.queueOf config instanceId
        = call.after (w.queueOf config instanceId) ∧
      k (.ok (Store.serve cmd w).2) = .ret (call.returns (w.queueOf config instanceId)) := by
  cases call with
  | queue notification =>
    refine ⟨.queue (config.notificationQueueKey instanceId) notification.encoded, _, rfl,
      fun w => ⟨?_, rfl⟩⟩
    exact Function.update_self _ _ _
  | pop limit =>
    refine ⟨.pop (config.notificationQueueKey instanceId) (limit - 1), _, rfl,
      fun w => ⟨?_, rfl⟩⟩
    exact Function.update_self _ _ _

/-- What was taken and what is left, read backwards, is in the queue read backwards. -/
theorem QueueCall.returns_sublist (call : QueueCall) (q : List NotificationEvent) :
    (((call.returns q).toList.map List.reverse).flatten ++ (call.after q).reverse).Sublist
      (q.reverse ++ call.queued.toList) := by
  cases call with
  | queue notification => simp [returns, after, queued]
  | pop limit =>
    simpa [returns, after, queued] using (Redis.range_isPrefix q (limit - 1)).sublist

/-- A reader that fits takes all. -/
theorem QueueCall.returns_eq {call : QueueCall} {q : List NotificationEvent} (h : call.Fits q) :
    ((call.returns q).toList.map List.reverse).flatten ++ (call.after q).reverse
      = q.reverse ++ call.queued.toList := by
  cases call with
  | queue notification => simp [returns, after, queued]
  | pop limit =>
    have hall : Redis.range q 0 (limit - 1) = q := by
      rcases h with rfl | hlimit
      · exact Redis.range_all q
      · rcases Nat.eq_zero_or_pos q.length with hq | hq
        · rw [List.length_eq_zero_iff.mp hq]
          simp [Redis.range]
        · lift limit to ℕ using by omega
          have hle : q.length ≤ limit := by omega
          rw [Redis.range_zero q (by omega), List.take_of_length_le hle]
    simp [returns, after, queued, hall]

/-! ## Runs -/

variable [DecidableEq ι]

theorem callers_append (turns : List ι) (j : ι) :
    callers (turns ++ [j]) = if j ∈ callers turns then callers turns else callers turns ++ [j] := by
  by_cases hj : j ∈ turns
  · simp [callers, hj, List.dedup_cons_of_mem]
  · simp [callers, hj, List.dedup_cons_of_notMem]

variable (config instanceId) in
/-- The callers after some turns. -/
def afterTurns (calls : ι → QueueCall) (w : Store) (turns : List ι) :
    Config interface Store Error (Option (List NotificationEvent)) ι :=
  run (Config.turn Store.serve) (Config.start w fun j => (calls j).program config instanceId) turns

section

variable (config instanceId) (calls : ι → QueueCall) (w : Store)

/-- What the callers have got, each read backwards, and what is still queued. -/
def accounted (turns : List ι) : List NotificationEvent :=
  let cfg := afterTurns config instanceId calls w turns
  (((callers turns).filterMap (returned cfg)).map List.reverse).flatten ++
    (cfg.store.queueOf config instanceId).reverse

/-- What was in the queue and what the callers have queued, the oldest first. -/
def everQueued (turns : List ι) : List NotificationEvent :=
  (w.queueOf config instanceId).reverse ++
    (callers turns).filterMap fun j => (calls j).queued

/-- Every reader finds no more than it may take. -/
def EachFits (turns : List ι) : Prop :=
  Each (Config.turn Store.serve)
    (fun cfg j => (cfg.threads j).finished = false →
      (calls j).Fits (cfg.store.queueOf config instanceId))
    (Config.start w fun j => (calls j).program config instanceId) turns

variable {config instanceId calls w}

theorem afterTurns_append (turns : List ι) (j : ι) :
    afterTurns config instanceId calls w (turns ++ [j])
      = (afterTurns config instanceId calls w turns).turn Store.serve j := by
  simp [afterTurns, run_append]

/-- **The first turn of a caller**: the queue changes, the caller returns, and the others
stand where they stood. -/
theorem turn_spec {cfg : Config interface Store Error (Option (List NotificationEvent)) ι} {j : ι}
    (hj : cfg.threads j = (calls j).program config instanceId) :
    (cfg.turn Store.serve j).store.queueOf config instanceId
        = (calls j).after (cfg.store.queueOf config instanceId) ∧
      (cfg.turn Store.serve j).threads
        = Function.update cfg.threads j
            (.ret ((calls j).returns (cfg.store.queueOf config instanceId))) := by
  obtain ⟨cmd, k, hprogram, hspec⟩ := (calls j).program_spec config instanceId
  rw [hprogram] at hj
  have hturn : cfg.turn Store.serve j = cfg.exchange Store.serve j .ok cmd k := by
    simp [Config.turn, hj]
  rw [hturn]
  refine ⟨(hspec cfg.store).1, ?_⟩
  simp only [Config.exchange, Server.perform_ok]
  rw [(hspec cfg.store).2]

variable (config instanceId calls w) in
/-- A caller that has had no turn stands at its beginning, and the others have returned. -/
theorem threads_afterTurns (turns : List ι) (j : ι) :
    if j ∈ callers turns then
      ∃ l, (afterTurns config instanceId calls w turns).threads j = .ret l
    else (afterTurns config instanceId calls w turns).threads j
      = (calls j).program config instanceId := by
  induction turns using List.reverseRecOn generalizing j with
  | nil => exact rfl
  | append_singleton turns i ih =>
    have hi := ih i
    rw [afterTurns_append, callers_append]
    split at hi
    · rename_i hmem
      obtain ⟨l, hl⟩ := hi
      have hturn : (afterTurns config instanceId calls w turns).turn Store.serve i
          = afterTurns config instanceId calls w turns := by
        simp [Config.turn, hl]
      rw [hturn, if_pos hmem]
      exact ih j
    · rename_i hmem
      rw [(turn_spec hi).2, if_neg hmem]
      by_cases hji : j = i
      · subst hji
        simp
      · simpa [hji] using ih j

variable (config instanceId calls w) in
/-- **One turn more**: what was queued and taken before, and what this turn queues and
takes. -/
theorem accounted_append {turns : List ι} {j : ι} (hj : j ∉ callers turns) :
    ∃ got, accounted config instanceId calls w turns
        = got ++ ((afterTurns config instanceId calls w turns).store.queueOf config
            instanceId).reverse ∧
      accounted config instanceId calls w (turns ++ [j])
        = got ++ ((((calls j).returns ((afterTurns config instanceId calls w turns).store.queueOf
            config instanceId)).toList.map List.reverse).flatten ++
          ((calls j).after ((afterTurns config instanceId calls w turns).store.queueOf config
            instanceId)).reverse) ∧
      everQueued config instanceId calls w (turns ++ [j])
        = everQueued config instanceId calls w turns ++ (calls j).queued.toList := by
  have hbegin := threads_afterTurns config instanceId calls w turns j
  rw [if_neg hj] at hbegin
  obtain ⟨hqueue, hthreads⟩ := turn_spec hbegin
  have hcallers : callers (turns ++ [j]) = callers turns ++ [j] := by
    rw [callers_append, if_neg hj]
  have hothers : (callers turns).filterMap
      (returned ((afterTurns config instanceId calls w turns).turn Store.serve j))
        = (callers turns).filterMap (returned (afterTurns config instanceId calls w turns)) := by
    refine List.filterMap_congr fun i hi => ?_
    have hne : i ≠ j := fun h => hj (h ▸ hi)
    simp [returned, hthreads, hne]
  have hself : returned ((afterTurns config instanceId calls w turns).turn Store.serve j) j
      = (calls j).returns ((afterTurns config instanceId calls w turns).store.queueOf config
          instanceId) := by
    simp [returned, hthreads]
  refine ⟨_, rfl, ?_, ?_⟩
  · simp only [accounted]
    rw [hcallers, afterTurns_append, hqueue, List.filterMap_append, hothers, List.map_append,
      List.flatten_append, List.append_assoc]
    cases hreturns : (calls j).returns ((afterTurns config instanceId calls w turns).store.queueOf
      config instanceId) <;> simp [hself, hreturns]
  · rw [everQueued, everQueued, hcallers, List.filterMap_append, List.append_assoc]
    cases hqueued : (calls j).queued <;> simp [hqueued]

variable (config instanceId calls w) in
/-- A turn of a caller that has returned changes nothing. -/
theorem accounted_again {turns : List ι} {j : ι} (hj : j ∈ callers turns) :
    accounted config instanceId calls w (turns ++ [j])
        = accounted config instanceId calls w turns ∧
      everQueued config instanceId calls w (turns ++ [j])
        = everQueued config instanceId calls w turns := by
  have hcallers : callers (turns ++ [j]) = callers turns := by rw [callers_append, if_pos hj]
  have hdone := threads_afterTurns config instanceId calls w turns j
  rw [if_pos hj] at hdone
  obtain ⟨l, hl⟩ := hdone
  have hturn : afterTurns config instanceId calls w (turns ++ [j])
      = afterTurns config instanceId calls w turns := by
    rw [afterTurns_append]
    simp [Config.turn, hl]
  simp only [accounted, everQueued]
  rw [hcallers, hturn]
  exact ⟨rfl, rfl⟩

theorem accounted_nil :
    accounted config instanceId calls w [] = everQueued config instanceId calls w [] := by
  simp [accounted, everQueued, callers, afterTurns, Config.start]

/-- Nothing is taken that was not queued, nothing twice, and all in the order in which it
was queued. -/
theorem accounted_sublist (turns : List ι) :
    (accounted config instanceId calls w turns).Sublist
      (everQueued config instanceId calls w turns) := by
  induction turns using List.reverseRecOn with
  | nil =>
    rw [accounted_nil]
  | append_singleton turns j ih =>
    by_cases hj : j ∈ callers turns
    · obtain ⟨htaken, hqueued⟩ := accounted_again config instanceId calls w hj
      rw [htaken, hqueued]
      exact ih
    · obtain ⟨got, hbefore, htaken, hqueued⟩ := accounted_append config instanceId calls w hj
      rw [htaken, hqueued]
      refine List.Sublist.trans (((calls j).returns_sublist _).append_left got) ?_
      rw [← List.append_assoc, ← hbefore]
      exact ih.append_right _

/-- Nothing is lost as long as every reader takes all it finds. -/
theorem accounted_eq {turns : List ι} (h : EachFits config instanceId calls w turns) :
    accounted config instanceId calls w turns = everQueued config instanceId calls w turns := by
  induction turns using List.reverseRecOn with
  | nil => exact accounted_nil
  | append_singleton turns j ih =>
    obtain ⟨hbefore, hlast⟩ := (each_append _ _ _).mp h
    by_cases hj : j ∈ callers turns
    · obtain ⟨htaken, hqueued⟩ := accounted_again config instanceId calls w hj
      rw [htaken, hqueued]
      exact ih hbefore
    · obtain ⟨got, hgot, htaken, hqueued⟩ := accounted_append config instanceId calls w hj
      have hbegin := threads_afterTurns config instanceId calls w turns j
      rw [if_neg hj] at hbegin
      have hfits : (calls j).Fits ((afterTurns config instanceId calls w turns).store.queueOf
          config instanceId) := by
        refine hlast.1 ?_
        change ((afterTurns config instanceId calls w turns).threads j).finished = false
        obtain ⟨cmd, k, hprogram, -⟩ := (calls j).program_spec config instanceId
        rw [hbegin, hprogram]
        rfl
      rw [htaken, hqueued, QueueCall.returns_eq hfits, ← List.append_assoc, ← hgot, ih hbefore]

end

variable (config instanceId) in
/-- **The queue over runs.**  However the calls of any number of callers are interleaved: a
caller returns what its one turn gives; what the callers got, each read backwards, and what
is still queued form a part of what was queued, in that order; and all of it as long as
every reader finds no more than it may take. -/
theorem notifications_taken_in_order (calls : ι → QueueCall) (w : Store) (turns : List ι) :
    (accounted config instanceId calls w turns).Sublist
        (everQueued config instanceId calls w turns) ∧
      (EachFits config instanceId calls w turns →
        accounted config instanceId calls w turns
          = everQueued config instanceId calls w turns) :=
  ⟨accounted_sublist turns, accounted_eq⟩

/-- A notification about a message. -/
def about (messageId : String) : NotificationEvent where
  messageId := messageId
  msgType := .general
  fromInstance := "pm"
  toInstance := "backend"
  requiresAck := false
  timestamp := 0

/-- Two notifications are queued, and a reader comes. -/
def twoQueued (limit : ℤ) : Fin 3 → QueueCall
  | 0 => .queue (about "first")
  | 1 => .queue (about "second")
  | 2 => .pop limit

/-- A reader that may take two gets the second first; a reader that may take one gets the
second, and the first is lost. -/
theorem newest_first_oldest_lost :
    (let cfg := afterTurns {} "backend" (twoQueued 2) Store.empty [0, 1, 2]
     returned cfg 2 = some [about "second", about "first"]) ∧
    (let cfg := afterTurns {} "backend" (twoQueued 1) Store.empty [0, 1, 2]
     returned cfg 2 = some [about "second"] ∧ cfg.store.queueOf {} "backend" = []) := by
  decide

end DoxAsdlc.Coordination
