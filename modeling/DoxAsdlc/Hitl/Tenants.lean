import DoxAsdlc.Hitl.Dispatcher
import DoxAsdlc.Interaction.Isolation

/-!
# The dispatchers of different tenants

All tenants share one server, and each key begins with the id of its tenant.  Nothing checks what
an id consists of, so the keys of two tenants are different only if no id goes on as the keys of
the other do.  Exactly then no tenant sees what another one does: a dispatcher answers, and leaves
the store of its tenant, as if the others had not been there.

## Main definitions

* `Apart` — no key of one tenant is one of the other.
* `AgreeFor` — two stores that a tenant cannot tell apart.
* `Call`, `Call.program` — the operations of a dispatcher.
* `Isolated` — a tenant stands as if the others had not been there.

## Main results

* `isolated_iff_apart` — a tenant is isolated from others exactly when it is apart from each.
* `apart_of_no_colon` — ids without a colon are apart.
-/

namespace DoxAsdlc.Hitl

open Interaction Interaction.Program

/-! ## Keys -/

/-- No text begins with both. -/
def Diverge (a b : String) : Prop := ¬ a.toList <+: b.toList ∧ ¬ b.toList <+: a.toList

instance (a b : String) : Decidable (Diverge a b) := inferInstanceAs (Decidable (_ ∧ _))

theorem diverge_iff {a b : String} : Diverge a b ↔ ∀ x y, a ++ x ≠ b ++ y := by
  constructor
  · intro h x y hxy
    have heq : a.toList ++ x.toList = b.toList ++ y.toList := by
      rw [← String.toList_append, hxy, String.toList_append]
    rcases List.prefix_or_prefix_of_prefix (List.prefix_append a.toList x.toList)
      (heq ▸ List.prefix_append b.toList y.toList) with hab | hba
    · exact h.1 hab
    · exact h.2 hba
  · intro h
    constructor
    · rintro ⟨x, hx⟩
      apply h (String.ofList x) ""
      apply String.toList_injective
      simp [hx]
    · rintro ⟨y, hy⟩
      apply h "" (String.ofList y)
      apply String.toList_injective
      simp [hy]

/-- What the keys under which a dispatcher keeps one thing for each id begin with. -/
def fronts : List String :=
  ["asdlc:gate_request:", "asdlc:evidence_bundle:", "asdlc:decision_log:"]

/-- No key of one tenant is one of the other. -/
def Apart (mine other : Tenancy) : Prop :=
  ∀ front ∈ fronts, Diverge (mine.key front) (other.key front)

instance (mine other : Tenancy) : Decidable (Apart mine other) :=
  inferInstanceAs (Decidable (∀ front ∈ fronts, _))

theorem key_append (tenancy : Tenancy) (front rest : String) :
    tenancy.key (front ++ rest) = tenancy.key front ++ rest := by
  unfold Tenancy.key
  split
  · simp [String.append_assoc]
  · rfl

section

variable {mine other : Tenancy}

theorem Apart.key_ne (h : Apart mine other) (front : String) (hfront : front ∈ fronts)
    (x y : String) : mine.key (front ++ x) ≠ other.key (front ++ y) := by
  rw [key_append, key_append]
  exact diverge_iff.mp (h front hfront) x y

/-- Tenants with the same key for one thing have the same keys for all. -/
theorem key_eq_of_key_eq {base : String} (hbase : ¬ "tenant:".toList <+: base.toList)
    (h : mine.key base = other.key base) (k : String) : mine.key k = other.key k := by
  have hnot : ∀ t : Tenancy, t.enabled = true → t.key base ≠ base := by
    intro t ht heq
    apply hbase
    rw [Tenancy.key, if_pos ht] at heq
    rw [← heq, String.append_assoc, String.append_assoc, String.toList_append]
    exact List.prefix_append _ _
  unfold Tenancy.key at h ⊢
  cases hm : mine.enabled <;> cases ho : other.enabled <;> simp only [hm, ho] at h ⊢ <;>
    simp only [if_true, if_false, Bool.false_eq_true] at h ⊢
  · exact absurd (by rw [Tenancy.key, if_pos ho]; exact h.symm) (hnot other ho)
  · exact absurd (by rw [Tenancy.key, if_pos hm]; exact h) (hnot mine hm)
  · rw [String.append_left_inj] at h
    rw [h]

theorem Apart.key_ne_key (h : Apart mine other) {base : String}
    (hbase : ¬ "tenant:".toList <+: base.toList) : mine.key base ≠ other.key base := by
  intro heq
  apply h.key_ne "asdlc:gate_request:" (by simp [fronts]) "" ""
  exact key_eq_of_key_eq hbase heq _

end

/-! ## What belongs to a tenant -/

/-- Two stores that a tenant cannot tell apart.  What is published in the second one is published
in the first one too, in this order. -/
structure AgreeFor (mine : Tenancy) (w w' : Store) : Prop where
  requests : ∀ r, w.requests (requestKey mine r) = w'.requests (requestKey mine r)
  bundles : ∀ b, w.bundles (bundleKey mine b) = w'.bundles (bundleKey mine b)
  pending : w.pending (pendingSet mine) = w'.pending (pendingSet mine)
  decisionLog : ∀ t, w.decisionLog (logKey mine t) = w'.decisionLog (logKey mine t)
  audit : w.audit (auditStream mine) = w'.audit (auditStream mine)
  published : w'.published.Sublist w.published

theorem AgreeFor.refl (mine : Tenancy) (w : Store) : AgreeFor mine w w :=
  ⟨fun _ => rfl, fun _ => rfl, rfl, fun _ => rfl, rfl, List.Sublist.refl _⟩

/-- The commands on keys of a tenant, and publications. -/
def Own (mine : Tenancy) : Cmd → Prop
  | .hgetall key | .hset key _ => ∃ r, key = requestKey mine r
  | .hsetBundle key _ => ∃ b, key = bundleKey mine b
  | .zadd key _ _ | .zrem key _ | .zrange key | .zrangebyscore key _ _ => key = pendingSet mine
  | .rpush key _ | .lrange key => ∃ t, key = logKey mine t
  | .xadd key _ => key = auditStream mine
  | .publish _ => True

/-- The commands on no key of a tenant, and publications. -/
def Foreign (mine : Tenancy) : Cmd → Prop
  | .hgetall key | .hset key _ => ∀ r, requestKey mine r ≠ key
  | .hsetBundle key _ => ∀ b, bundleKey mine b ≠ key
  | .zadd key _ _ | .zrem key _ | .zrange key | .zrangebyscore key _ _ => pendingSet mine ≠ key
  | .rpush key _ | .lrange key => ∀ t, logKey mine t ≠ key
  | .xadd key _ => auditStream mine ≠ key
  | .publish _ => True

/-- Answers that are the same, but for the position at which an event is published. -/
def SameReply : (cmd : Cmd) → Reply cmd → Reply cmd → Prop
  | .publish _, _, _ => True
  | _, a, b => a = b

/-- What is a tenant's own is foreign to a tenant that is apart from it. -/
theorem Apart.foreign {mine other : Tenancy} (h : Apart mine other) (cmd : Cmd)
    (hcmd : Own other cmd) : Foreign mine cmd := by
  have hrequest : ∀ r r', requestKey mine r ≠ requestKey other r' :=
    h.key_ne "asdlc:gate_request:" (by simp [fronts])
  have hbundle : ∀ b b', bundleKey mine b ≠ bundleKey other b' :=
    h.key_ne "asdlc:evidence_bundle:" (by simp [fronts])
  have hlog : ∀ t t', logKey mine t ≠ logKey other t' :=
    h.key_ne "asdlc:decision_log:" (by simp [fronts])
  have hpending : pendingSet mine ≠ pendingSet other := h.key_ne_key (by decide)
  have haudit : auditStream mine ≠ auditStream other := h.key_ne_key (by decide)
  cases cmd with
  | hgetall key | hset key _ =>
    obtain ⟨r', rfl⟩ := hcmd
    exact fun r => hrequest r r'
  | hsetBundle key _ =>
    obtain ⟨b', rfl⟩ := hcmd
    exact fun b => hbundle b b'
  | zadd key _ _ | zrem key _ | zrange key | zrangebyscore key _ _ =>
    exact fun heq => hpending (heq.trans hcmd)
  | rpush key _ | lrange key =>
    obtain ⟨t', rfl⟩ := hcmd
    exact fun t => hlog t t'
  | xadd key _ => exact fun heq => haudit (heq.trans hcmd)
  | publish _ => trivial

/-- A command of the tenant keeps the stores together, with the same answer. -/
theorem AgreeFor.own {mine : Tenancy} {w w' : Store} (h : AgreeFor mine w w') {cmd : Cmd}
    (hcmd : Own mine cmd) :
    AgreeFor mine (Store.serve cmd w).1 (Store.serve cmd w').1 ∧
      SameReply cmd (Store.serve cmd w).2 (Store.serve cmd w').2 := by
  cases cmd with
  | hgetall key =>
    obtain ⟨r, rfl⟩ := hcmd
    exact ⟨h, h.requests r⟩
  | hset key mapping =>
    obtain ⟨r, rfl⟩ := hcmd
    refine ⟨{ h with requests := ?_ }, rfl⟩
    intro r'
    by_cases hr : r' = r
    · subst hr
      simp [Store.serve, h.requests r']
    · simp [Store.serve, hr, h.requests r']
  | hsetBundle key mapping =>
    obtain ⟨b, rfl⟩ := hcmd
    refine ⟨{ h with bundles := ?_ }, rfl⟩
    intro b'
    by_cases hb : bundleKey mine b' = bundleKey mine b
    · simp [Store.serve, hb, h.bundles b]
    · simp [Store.serve, hb, h.bundles b']
  | zadd key member score =>
    obtain rfl := hcmd
    exact ⟨{ h with pending := by simp [Store.serve, h.pending] }, rfl⟩
  | zrem key member =>
    obtain rfl := hcmd
    exact ⟨{ h with pending := by simp [Store.serve, h.pending] }, rfl⟩
  | zrange key =>
    obtain rfl := hcmd
    exact ⟨h, by simp [SameReply, Store.serve, h.pending]⟩
  | zrangebyscore key lo hi =>
    obtain rfl := hcmd
    exact ⟨h, by simp [SameReply, Store.serve, h.pending]⟩
  | rpush key entry =>
    obtain ⟨t, rfl⟩ := hcmd
    refine ⟨{ h with decisionLog := ?_ }, rfl⟩
    intro t'
    by_cases ht : logKey mine t' = logKey mine t
    · simp [Store.serve, ht, h.decisionLog t]
    · simp [Store.serve, Function.update_of_ne ht, h.decisionLog t']
  | lrange key =>
    obtain ⟨t, rfl⟩ := hcmd
    exact ⟨h, h.decisionLog t⟩
  | xadd key entry =>
    obtain rfl := hcmd
    exact ⟨{ h with audit := by simp [Store.serve, h.audit] }, rfl⟩
  | publish event =>
    exact ⟨{ h with published := h.published.append (List.Sublist.refl _) }, trivial⟩

/-- A foreign command keeps the stores together when it is carried out in the first one. -/
theorem AgreeFor.foreign {mine : Tenancy} {w w' : Store} (h : AgreeFor mine w w') {cmd : Cmd}
    (hcmd : Foreign mine cmd) : AgreeFor mine (Store.serve cmd w).1 w' := by
  cases cmd with
  | hgetall _ | zrange _ | zrangebyscore _ _ _ | lrange _ => exact h
  | hset key mapping =>
    refine { h with requests := ?_ }
    intro r
    simp [Store.serve, hcmd r, h.requests r]
  | hsetBundle key mapping =>
    refine { h with bundles := ?_ }
    intro b
    simp [Store.serve, hcmd b, h.bundles b]
  | zadd key _ _ | zrem key _ =>
    refine { h with pending := ?_ }
    simp [Store.serve, Function.update_of_ne hcmd, h.pending]
  | rpush key entry =>
    refine { h with decisionLog := ?_ }
    intro t
    simp [Store.serve, Function.update_of_ne (hcmd t), h.decisionLog t]
  | xadd key entry =>
    refine { h with audit := ?_ }
    simp [Store.serve, Function.update_of_ne hcmd, h.audit]
  | publish event => exact { h with published := h.published.trans (List.sublist_append_left _ _) }

theorem separates (mine : Tenancy) :
    Separates Store.serve (Own mine) (Foreign mine) SameReply (AgreeFor mine) where
  own _ _ _ hcmd h := (h.own hcmd).1
  reply _ _ _ hcmd h := (h.own hcmd).2
  foreign _ _ _ hcmd h := h.foreign hcmd

/-! ## The operations -/

/-- A call of an operation, with the identifiers that are drawn and the time that is read. -/
inductive Call where
  | requestGate (now : Time) (requestId : String) (args : GateArgs)
  | recordDecision (now : Time) (decisionId requestId : String) (args : DecisionArgs)
  | getPendingRequests (now : Time) (gateType : Option GateType)
  | getRequestById (now : Time) (requestId : String)
  | checkExpired (now : Time)
  | getTaskHistory (taskId : String)

/-- What an operation returns. -/
inductive Answer where
  | request (r : GateRequest)
  | decision (d : GateDecision)
  | requests (rs : List GateRequest)
  | request? (r : Option GateRequest)
  | history (entries : List LogEntry)

/-- The coroutine of a call. -/
def Call.program (tenancy : Tenancy) : Call → Async Answer
  | .requestGate now requestId args => .request <$> Hitl.requestGate tenancy now requestId args
  | .recordDecision now decisionId requestId args =>
    .decision <$> Hitl.recordDecision tenancy now decisionId requestId args
  | .getPendingRequests now gateType => .requests <$> Hitl.getPendingRequests tenancy now gateType
  | .getRequestById now requestId => .request? <$> Hitl.getRequestById tenancy now requestId
  | .checkExpired now => .requests <$> Hitl.checkExpired tenancy now
  | .getTaskHistory taskId => .history <$> Hitl.getTaskHistory tenancy taskId

section

variable {tenancy : Tenancy}

/-- A program of a tenant that makes nothing of where an event is published. -/
abbrev Minds (tenancy : Tenancy) {α : Type} (p : Async α) : Prop :=
  Alike (Own tenancy) SameReply Eq p p

theorem minds_bind {α β : Type} {p : Async α} {f : α → Async β} (hp : Minds tenancy p)
    (hf : ∀ a, Minds tenancy (f a)) : Minds tenancy (p >>= f) := by
  apply hp.bind
  rintro a _ rfl
  exact hf a

theorem minds_ret {α : Type} (a : α) : Minds tenancy (ret a : Async α) := .ret rfl

/-- A command with an answer that is the same. -/
theorem minds_send {cmd : Cmd} (hcmd : Own tenancy cmd)
    (hsame : ∀ a b, SameReply cmd a b → a = b) : Minds tenancy (send cmd) :=
  (alike_command hcmd).mono hsame

theorem minds_hgetall (r : String) : Minds tenancy (send (.hgetall (requestKey tenancy r))) :=
  minds_send ⟨r, rfl⟩ fun _ _ h => h

theorem minds_log (taskId : String) (entry : LogEntry) :
    Minds tenancy (log tenancy taskId entry) :=
  minds_bind (minds_send ⟨taskId, rfl⟩ fun _ _ h => h) fun _ => minds_send rfl fun _ _ h => h

theorem minds_announce (eventType : EventType) (now : Time) (request : GateRequest)
    (metadata : List (String × String)) :
    Minds tenancy (announce eventType now request metadata) := by
  refine minds_bind (alike_answer _) ?_
  intro event
  -- the answer is dropped
  exact (alike_command trivial).bind fun _ _ _ => .ret rfl

theorem minds_markRequest (requestId : String) (status : GateStatus) :
    Minds tenancy (markRequest tenancy requestId status) :=
  minds_bind (minds_send ⟨requestId, rfl⟩ fun _ _ h => h) fun _ => minds_send rfl fun _ _ h => h

theorem minds_requestGate (now : Time) (requestId : String) (args : GateArgs) :
    Minds tenancy (requestGate tenancy now requestId args) := by
  refine minds_bind (alike_answer _) fun _ => ?_
  refine minds_bind (minds_send ⟨requestId, rfl⟩ fun _ _ h => h) fun _ => ?_
  refine minds_bind (minds_send ⟨_, rfl⟩ fun _ _ h => h) fun _ => ?_
  refine minds_bind (minds_send rfl fun _ _ h => h) fun _ => ?_
  refine minds_bind (minds_bind (minds_log _ _) fun _ => minds_announce _ _ _ _) fun _ => ?_
  exact minds_ret _

theorem minds_recordDecision (now : Time) (decisionId requestId : String) (args : DecisionArgs) :
    Minds tenancy (recordDecision tenancy now decisionId requestId args) := by
  refine minds_bind (minds_hgetall requestId) fun data => ?_
  cases data with
  | none => exact .raise _
  | some data =>
    dsimp only
    split
    · refine minds_bind (minds_markRequest _ _) fun _ => ?_
      refine minds_bind (minds_log _ _) fun _ => ?_
      exact minds_bind (minds_announce _ _ _ _) fun _ => minds_ret _
    · exact .raise _

theorem minds_readRequests (now : Time) (gateType : Option GateType) (ids : List String) :
    Minds tenancy (readRequests tenancy now gateType ids) := by
  induction ids with
  | nil => exact minds_ret _
  | cons r ids ih =>
    refine minds_bind (minds_hgetall r) fun data => minds_bind ih fun rest => ?_
    cases data with
    | none => exact minds_ret _
    | some data =>
      dsimp only
      split
      · exact minds_ret _
      · exact minds_ret _

theorem minds_expireRequest (now : Time) (requestId : String) :
    Minds tenancy (expireRequest tenancy now requestId) := by
  refine minds_bind (minds_hgetall requestId) fun data => ?_
  cases data with
  | none => exact minds_ret _
  | some data =>
    dsimp only
    split
    · refine minds_bind (minds_markRequest _ _) fun _ => ?_
      exact minds_bind (minds_announce _ _ _ _) fun _ => minds_ret _
    · exact minds_ret _

theorem minds_expireRequests (now : Time) (ids : List String) :
    Minds tenancy (expireRequests tenancy now ids) := by
  induction ids with
  | nil => exact minds_ret _
  | cons r ids ih =>
    exact minds_bind (minds_expireRequest now r) fun _ => minds_bind ih fun _ => minds_ret _

/-- Every operation keeps to the keys of its tenant. -/
theorem minds_program (tenancy : Tenancy) (call : Call) : Minds tenancy (call.program tenancy) := by
  have hmap : ∀ {α : Type} (f : α → Answer) {p : Async α}, Minds tenancy p →
      Minds tenancy (f <$> p) :=
    fun f _ hp => hp.map fun _ _ h => congrArg f h
  cases call with
  | requestGate now requestId args => exact hmap _ (minds_requestGate now requestId args)
  | recordDecision now decisionId requestId args =>
    exact hmap _ (minds_recordDecision now decisionId requestId args)
  | getPendingRequests now gateType =>
    refine hmap _ (minds_bind (minds_send rfl fun _ _ h => h) fun ids => ?_)
    exact minds_readRequests now gateType ids
  | getRequestById now requestId =>
    exact hmap _ (minds_bind (minds_hgetall requestId) fun data => minds_ret _)
  | checkExpired now =>
    refine hmap _ (minds_bind (minds_send rfl fun _ _ h => h) fun ids => ?_)
    exact minds_expireRequests now ids
  | getTaskHistory taskId => exact hmap _ (minds_send ⟨taskId, rfl⟩ fun _ _ h => h)

end

/-! ## Isolation -/

/-- The dispatchers of all tenants, each before its call. -/
def dispatchers {ι : Type} (calls : ι → Tenancy × Call) (w : Store) :
    Config interface Store Error Answer ι :=
  .start w fun j => (calls j).2.program (calls j).1

/-- One command of a dispatcher, or the end of one. -/
def dispatchStep {ι : Type} [DecidableEq ι] :
    Config interface Store Error Answer ι → Action ι Error Empty →
      Config interface Store Error Answer ι :=
  Config.step Store.serve Empty.elim

/-- Whatever the tenants call, in whatever order their commands arrive and whatever fails, the
calls of one tenant come to what they come to, and leave of its own what they leave, when the
others do nothing. -/
def Isolated (mine : Tenancy) (others : Set Tenancy) : Prop :=
  ∀ (ι : Type) [DecidableEq ι] (calls : ι → Tenancy × Call),
    (∀ j, (calls j).1 = mine ∨ (calls j).1 ∈ others) →
    ∀ (w : Store) (as : List (Action ι Error Empty)),
      AgreeFor mine (run dispatchStep (dispatchers calls w) as).store
        (run dispatchStep (dispatchers calls w)
          (as.filter (Action.own fun j => decide ((calls j).1 = mine)))).store ∧
      ∀ j, (calls j).1 = mine →
        ((run dispatchStep (dispatchers calls w) as).threads j).outcome? =
          ((run dispatchStep (dispatchers calls w)
            (as.filter (Action.own fun j => decide ((calls j).1 = mine)))).threads j).outcome?

/-- A request leaves a request, a bundle and a log entry under the ids that it is given. -/
theorem eval_requestGate (tenancy : Tenancy) (now : Time) (requestId : String) (args : GateArgs)
    (hvalid : validateEvidenceForGate args.evidenceBundle = .ok ()) (w : Store) :
    ((eval Store.serve (requestGate tenancy now requestId args) w).2.requests
        (requestKey tenancy requestId)).isSome = true ∧
      ((eval Store.serve (requestGate tenancy now requestId args) w).2.bundles
        (bundleKey tenancy args.evidenceBundle.bundleId)).isSome = true ∧
      (eval Store.serve (requestGate tenancy now requestId args) w).2.decisionLog
        (logKey tenancy args.taskId) ≠ [] := by
  simp only [requestGate, hvalid, answer_ok, announceRequest, logRequest, log, announce,
    GateArgs.request, send, command_eq, bind_eq, elim_ret, elim_call, elim_elim, eval_call,
    Store.serve]
  -- nothing of this depends on whether the event can be made
  generalize gateEvent _ _ _ _ = event
  cases event with
  | ok event => simp [Store.serve, Redis.hset]
  | error e => simp [Redis.hset]

/-- A call that writes under one id whatever a dispatcher keeps by id. -/
def reach (y : String) : Call :=
  .requestGate 0 y { codeGate with
    taskId := y
    evidenceBundle := { codeGate.evidenceBundle with bundleId := y } }

theorem eval_reach (tenancy : Tenancy) (y : String) :
    ((eval Store.serve ((reach y).program tenancy) .empty).2.requests
        (requestKey tenancy y)).isSome = true ∧
      ((eval Store.serve ((reach y).program tenancy) .empty).2.bundles
        (bundleKey tenancy y)).isSome = true ∧
      (eval Store.serve ((reach y).program tenancy) .empty).2.decisionLog
        (logKey tenancy y) ≠ [] := by
  have hvalid : validateEvidenceForGate { codeGate.evidenceBundle with bundleId := y } = .ok () := by
    rw [validateEvidenceForGate_eq_ok]
    exact ⟨_, List.mem_singleton_self _, by simp [codeGate, requiredEvidence]⟩
  have h := eval_requestGate tenancy 0 y { codeGate with
    taskId := y, evidenceBundle := { codeGate.evidenceBundle with bundleId := y } } hvalid .empty
  simpa only [reach, Call.program, eval_map_snd] using h

/-- **When a tenant is isolated from others.**  No key of it is a key of any of them. -/
theorem isolated_iff_apart (mine : Tenancy) (others : Set Tenancy) :
    Isolated mine others ↔ ∀ other ∈ others, other ≠ mine → Apart mine other := by
  constructor
  · intro h other hother hne
    by_contra hapart
    simp only [Apart, not_forall] at hapart
    obtain ⟨front, hfront, hdiverge⟩ := hapart
    simp only [diverge_iff, not_forall, not_not] at hdiverge
    obtain ⟨x, y, hkey⟩ := hdiverge
    rw [← key_append, ← key_append] at hkey
    -- the other tenant creates a request, this one does nothing
    obtain ⟨as, has⟩ := Config.exists_run_eval (E := Empty) Store.serve (Empty.elim)
      (dispatchers (fun _ : Unit => (other, reach y)) .empty) (j := ()) rfl
    have hagree := (h Unit (fun _ => (other, reach y)) (fun _ => .inr hother) .empty as).1
    have hnone : as.filter (Action.own fun _ => decide (other = mine)) = [] := by
      rw [List.filter_eq_nil_iff]
      intro a _
      cases a <;> simp [Action.own, hne]
    rw [hnone] at hagree
    change AgreeFor mine (run (Config.step Store.serve Empty.elim) _ as).store _ at hagree
    rw [has] at hagree
    obtain ⟨hrequest, hbundle, hlog⟩ := eval_reach other y
    simp only [fronts, List.mem_cons, List.not_mem_nil, or_false] at hfront
    rcases hfront with rfl | rfl | rfl
    · have hsame := hagree.requests x
      rw [requestKey, hkey] at hsame
      rw [requestKey] at hrequest
      simp only [dispatchers, Config.start] at hsame
      rw [hsame] at hrequest
      cases hrequest
    · have hsame := hagree.bundles x
      rw [bundleKey, hkey] at hsame
      rw [bundleKey] at hbundle
      simp only [dispatchers, Config.start] at hsame
      rw [hsame] at hbundle
      cases hbundle
    · have hsame := hagree.decisionLog x
      rw [logKey, hkey] at hsame
      exact hlog hsame
  · intro h ι _ calls hcalls w as
    have hstart : Config.Shadows (fun j => decide ((calls j).1 = mine)) (Own mine) (Foreign mine)
        SameReply (AgreeFor mine) (dispatchers calls w) (dispatchers calls w) := by
      refine Config.shadows_start (AgreeFor.refl mine w) ?_ ?_
      · intro j hj
        obtain rfl : (calls j).1 = mine := by simpa using hj
        exact minds_program _ _
      · intro j hj
        have hne : (calls j).1 ≠ mine := by simpa using hj
        have hapart := h _ ((hcalls j).resolve_left hne) hne
        refine ((minds_program (calls j).1 (calls j).2).uses ?_).mono hapart.foreign
        intro cmd a
        cases cmd <;> trivial
    have hrun : ∀ env : Empty → Store → Store, Config.Shadows _ _ _ _ _
        (run (Config.step Store.serve env) (dispatchers calls w) as)
        (run (Config.step Store.serve env) (dispatchers calls w) (as.filter _)) :=
      fun env => hstart.run (separates mine) (fun e => e.elim) as
    refine ⟨(hrun Empty.elim).store, ?_⟩
    intro j hj
    exact ((hrun Empty.elim).threads j (by simp [hj])).outcome?

/-- A text without a colon is what stands before the first one. -/
theorem takeWhile_colon {a : String} (ha : ':' ∉ a.toList) (rest : List Char) :
    (a.toList ++ ':' :: rest).takeWhile (· ≠ ':') = a.toList := by
  rw [List.takeWhile_append_of_pos]
  · simp
  · intro c hc
    simp only [decide_eq_true_eq]
    rintro rfl
    exact ha hc

/-- **Ids without a colon are apart** when they are different. -/
theorem apart_of_no_colon {mine other : Tenancy} (hmine : mine.enabled = true)
    (hother : other.enabled = true) (hcolon : ':' ∉ mine.tenantId.toList)
    (hcolon' : ':' ∉ other.tenantId.toList) (hne : mine.tenantId ≠ other.tenantId) :
    Apart mine other := by
  intro front _
  rw [diverge_iff]
  intro x y hxy
  apply hne
  rw [Tenancy.key, if_pos hmine, Tenancy.key, if_pos hother] at hxy
  have hlists := congrArg String.toList hxy
  simp only [String.toList_append, List.append_assoc, List.append_cancel_left_eq] at hlists
  have hbefore := congrArg (List.takeWhile (· ≠ ':')) hlists
  apply String.toList_injective
  change (_ ++ ':' :: _).takeWhile _ = (_ ++ ':' :: _).takeWhile _ at hbefore
  rwa [takeWhile_colon hcolon, takeWhile_colon hcolon'] at hbefore

/-- Ids that go on as keys do are not: the key of a request of one tenant is that of another
request of the other. -/
example : ¬ Apart ⟨true, "default", some "a"⟩ ⟨true, "default", some "a:asdlc:gate_request:b"⟩ := by
  decide

end DoxAsdlc.Hitl
