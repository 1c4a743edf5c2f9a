import DoxAsdlc.Hitl.Expiry

/-!
# The set of pending requests

Whether a request is pending is stored twice, in its hash and by its membership in the
sorted set from which the sweep and the reviewers' list are read.  The two are written
by separate commands.  Between operations they agree exactly as long as no operation is
cut between its write to the hash and its write to the set, by a fault or by a crash.

## Main definitions

* `PendingExact`, `ListsPending` — the set, and the list read from it, are exact.
* `opens`, `closes`, `SweepCloses` — the outcomes under which both writes take effect.
* `Uncut` — no operation is cut between its two writes.
-/

namespace DoxAsdlc.Hitl

open Interaction Interaction.Program

variable (tenancy : Tenancy)

/-- A request is in the set exactly when it is stored as pending. -/
def PendingExact (w : Store) : Prop :=
  ∀ requestId, requestId ∈ w.pending (pendingSet tenancy) ↔
    storedStatus tenancy requestId w = some .pending

/-- The requests of one gate, or of all. -/
def ofGate (gateType : Option GateType) (request : GateRequest) : Prop :=
  gateType = none ∨ gateType = some request.gateType

/-- `getPendingRequests` answers with the requests that are stored as pending. -/
def ListsPending (w : Store) : Prop :=
  ∀ now gateType, ∃ requests,
    eval Store.serve (getPendingRequests tenancy now gateType) w = (.ok requests, w) ∧
    ∀ request, request ∈ requests ↔
      ∃ requestId data, w.requests (requestKey tenancy requestId) = some data ∧
        data .status = some .pending ∧ request = GateRequest.fromDict now data ∧
        ofGate gateType request

/-- The outcomes of a creation, from the write of the hash on, under which a request
that is written to its hash also comes into the set. -/
def opens : List (Outcome Error) → Bool
  | [] => true
  | .refused _ :: _ => true
  | .ok :: .ok :: o :: _ => o.effective
  | _ => false

/-- The outcomes of a decision, from the write of the status on, under which a request
that is pending no more also leaves the set. -/
def closes : List (Outcome Error) → Bool
  | [] => true
  | .refused _ :: _ => true
  | .ok :: o :: _ => o.effective
  | _ => false

/-- The outcomes of a sweep, from the read of its first request on, under which every
request that is expired also leaves the set.  It goes on to the next request when the
event of this one could be made and was published. -/
def SweepCloses (announced : String → Bool) : List String → List (Outcome Error) → Prop
  | [], _ => True
  | requestId :: ids, outcomes => ∀ os, outcomes = .ok :: os → closes os = true ∧
      ∀ os', os = .ok :: .ok :: .ok :: os' → announced requestId = true →
        SweepCloses announced ids os'

/-- Can the event about a request be made? -/
def announced (w : Store) (requestId : String) : Bool :=
  !blank ((Redis.hget (w.requests (requestKey tenancy requestId)) .sessionId).getD "")

/-- No operation is cut between its write to the hash and its write to the set. -/
def Uncut (w : Store) (op : Timed) : Prop :=
  match op.operation with
  | .requestGate requestId args =>
    validateEvidenceForGate args.evidenceBundle = .ok () →
      storedStatus tenancy requestId w ≠ some .pending → opens op.outcomes = true
  | .recordDecision _ requestId _ =>
    storedStatus tenancy requestId w = some .pending →
      ∀ os, op.outcomes = .ok :: os → closes os = true
  | .checkExpired => ∀ os, op.outcomes = .ok :: os →
      SweepCloses (announced tenancy w)
        ((w.pending (pendingSet tenancy)).zrangebyscore (0 : Time) (op.now : Time)) os

/-! ## The list that is read from the set -/

section

variable {tenancy}

/-- What a read of one request contributes to the list. -/
def listed (now : Time) (gateType : Option GateType) (data : Option GateHash) :
    Option GateRequest :=
  (data.map (GateRequest.fromDict now)).filter fun request =>
    gateType = none ∨ gateType = some request.gateType

theorem eval_readRequests (now : Time) (gateType : Option GateType) (ids : List String)
    (w : Store) :
    eval Store.serve (readRequests tenancy now gateType ids) w
      = (.ok (ids.filterMap fun r => listed now gateType (w.requests (requestKey tenancy r))), w) := by
  induction ids with
  | nil => rfl
  | cons r ids ih =>
    simp only [readRequests, send, command_eq, bind_eq, elim_call, eval_call, answer_ok, elim_ret,
      Store.serve]
    rw [← bind_eq, eval_bind, ih]
    cases hdata : w.requests (requestKey tenancy r) with
    | none => simp [listed, hdata]
    | some data =>
      by_cases hgate : gateType = none ∨ gateType = some (GateRequest.fromDict now data).gateType
      · simp [listed, hdata, hgate, Option.filter]
      · simp [listed, hdata, hgate, Option.filter]

/-- The list is exact when the set is. -/
theorem PendingExact.lists {w : Store} (hw : PendingExact tenancy w) : ListsPending tenancy w := by
  intro now gateType
  refine ⟨(w.pending (pendingSet tenancy)).zrange.filterMap fun r =>
    listed now gateType (w.requests (requestKey tenancy r)), ?_, fun request => ?_⟩
  · simp only [getPendingRequests, send, command_eq, bind_eq, elim_call, eval_call, answer_ok,
      elim_ret, Store.serve]
    exact eval_readRequests now gateType _ w
  · simp only [List.mem_filterMap, Redis.SortedSet.mem_zrange, listed, Option.filter_eq_some_iff,
      Option.map_eq_some_iff, decide_eq_true_eq]
    constructor
    · rintro ⟨r, hr, ⟨data, hdata, rfl⟩, hgate⟩
      refine ⟨r, data, hdata, ?_, rfl, hgate⟩
      simpa [storedStatus, hdata] using (hw r).mp hr
    · rintro ⟨r, data, hdata, hpending, rfl, hgate⟩
      refine ⟨r, (hw r).mpr ?_, ⟨data, hdata, rfl⟩, hgate⟩
      simp [storedStatus, hdata, hpending]

/-! ## One operation -/

/-- The store after a request has been given a status and taken out of the set. -/
def Store.marked (tenancy : Tenancy) (w : Store) (requestId : String) (s : GateStatus) : Store :=
  (Store.serve (.zrem (pendingSet tenancy) requestId)
    (Store.serve (.hset (requestKey tenancy requestId) (.field .status s)) w).1).1

variable {w : Store} {requestId : String} {s : GateStatus}

variable (tenancy) in
theorem pendingExact_zadd (score : Score) (w : Store) (requestId : String) :
    PendingExact tenancy (Store.serve (.zadd (pendingSet tenancy) requestId score) w).1 ↔
      ∀ r, r = requestId ∨ r ∈ w.pending (pendingSet tenancy) ↔
        storedStatus tenancy r w = some .pending := by
  refine forall_congr' fun r => iff_congr ?_ Iff.rfl
  simp [Store.serve]

@[simp] theorem pendingExact_hsetBundle (key : String) (mapping : BundleHash) (w : Store) :
    PendingExact tenancy (Store.serve (.hsetBundle key mapping) w).1 ↔ PendingExact tenancy w :=
  Iff.rfl

variable (tenancy) in
theorem pendingExact_zrem (w : Store) (requestId : String) :
    PendingExact tenancy (Store.serve (.zrem (pendingSet tenancy) requestId) w).1 ↔
      ∀ r, r ∈ w.pending (pendingSet tenancy) ∧ r ≠ requestId ↔
        storedStatus tenancy r w = some .pending := by
  refine forall_congr' fun r => iff_congr ?_ Iff.rfl
  simp [Store.serve]

variable (tenancy w requestId) in
theorem storedStatus_hset (r : String) (mapping : GateHash) :
    storedStatus tenancy r (Store.serve (.hset (requestKey tenancy requestId) mapping) w).1
      = if r = requestId then (mapping .status).or (storedStatus tenancy r w)
        else storedStatus tenancy r w := by
  rw [storedStatus_serve]
  by_cases hr : r = requestId
  · subst hr
    simp [written]
  · simp [written, hr, Ne.symm hr]

/-- The set is exact again once a request that is pending no more has left it. -/
theorem PendingExact.marked (hw : PendingExact tenancy w) (requestId : String)
    (hs : s ≠ .pending) : PendingExact tenancy (w.marked tenancy requestId s) := by
  refine (pendingExact_zrem tenancy _ _).mpr fun r => ?_
  rw [storedStatus_hset]
  by_cases hr : r = requestId
  · simp [hr, hs]
  · simpa [hr, Store.serve] using hw r

/-- Between the two writes the set is not exact. -/
theorem not_pendingExact_hset (hw : PendingExact tenancy w)
    (hr : storedStatus tenancy requestId w = some .pending) (hs : s ≠ .pending) :
    ¬ PendingExact tenancy
      (Store.serve (.hset (requestKey tenancy requestId) (.field .status s)) w).1 := by
  intro hexact
  have hmem := (hexact requestId).mp ((hw requestId).mpr hr)
  rw [storedStatus_hset] at hmem
  simp [hs] at hmem

/-- **The rule for the two writes.**  The set is exact after them and what follows them,
if they are not cut, and what follows keeps it so. -/
theorem pendingExact_markRequest {β : Type} (hw : PendingExact tenancy w)
    (hr : storedStatus tenancy requestId w = some .pending) (hs : s ≠ .pending)
    (k : Unit → Async β) (os : List (Outcome Error)) :
    PendingExact tenancy (play Store.serve os (markRequest tenancy requestId s >>= k) w).2 ↔
      closes os = true ∧ ∀ os', os = .ok :: .ok :: os' →
        PendingExact tenancy (play Store.serve os' (k ()) (w.marked tenancy requestId s)).2 := by
  have hcut := not_pendingExact_hset hw hr hs
  have hdone := hw.marked requestId hs
  have hrun : markRequest tenancy requestId s >>= k
      = .call (.hset (requestKey tenancy requestId) (.field .status s)) fun r =>
        (answer r).elim (fun _ => .call (.zrem (pendingSet tenancy) requestId) fun r =>
          (answer r).elim k .raise) .raise := by
    simp only [markRequest, send, command_eq, bind_eq, elim_call, elim_elim]
    rfl
  rw [hrun]
  rcases os with _ | ⟨_ | e | e, os⟩
  · exact iff_of_true hw ⟨rfl, nofun⟩
  · rcases os with _ | ⟨_ | e | e, os⟩
    · exact iff_of_false hcut fun h => Bool.noConfusion h.1
    · constructor
      · intro h
        refine ⟨rfl, fun os' hos => ?_⟩
        cases hos
        exact h
      · intro h
        exact h.2 os rfl
    · refine iff_of_false ?_ fun h => Bool.noConfusion h.1
      simpa using hcut
    · refine iff_of_true ?_ ⟨rfl, nofun⟩
      simpa [Store.marked] using hdone
  · refine iff_of_true ?_ ⟨rfl, nofun⟩
    simpa using hw
  · refine iff_of_false ?_ fun h => Bool.noConfusion h.1
    simpa using hcut

/-- Commands that touch neither the hashes of the requests nor the set. -/
def Aside (cmd : Cmd) : Prop :=
  ∀ w : Store, (Store.serve cmd w).1.requests = w.requests ∧
    (Store.serve cmd w).1.pending = w.pending

/-- They keep the set exact. -/
theorem PendingExact.play_aside {α : Type} {p : Async α} (hp : p.Uses Aside)
    (hw : PendingExact tenancy w) (os : List (Outcome Error)) :
    PendingExact tenancy (play Store.serve os p w).2 := by
  have hkeeps : Keeps Store.serve (PendingExact tenancy) p := by
    refine hp.keeps fun cmd hcmd w' hw' r => ?_
    rw [storedStatus, (hcmd w').1, (hcmd w').2]
    exact hw' r
  exact hkeeps.play hw os

theorem aside_log (taskId : String) (entry : LogEntry) : (log tenancy taskId entry).Uses Aside :=
  uses_bind (uses_command fun _ => ⟨rfl, rfl⟩) fun _ => uses_command fun _ => ⟨rfl, rfl⟩

theorem aside_announce (eventType : EventType) (now : Time) (request : GateRequest)
    (metadata : List (String × String)) :
    (announce eventType now request metadata).Uses Aside :=
  uses_bind (uses_answer _) fun _ =>
    uses_bind (uses_command fun _ => ⟨rfl, rfl⟩) fun _ => uses_ret _

variable (tenancy) in
theorem aside_announceRequest (now : Time) (request : GateRequest) :
    (announceRequest tenancy now request).Uses Aside :=
  uses_bind (aside_log _ _) fun _ => aside_announce _ _ _ _

/-- A request that is stored as pending again stays in the set whatever is cut. -/
theorem keeps_requestGate (now : Time) (args : GateArgs) :
    Keeps Store.serve
      (fun w => PendingExact tenancy w ∧ storedStatus tenancy requestId w = some .pending)
      (requestGate tenancy now requestId args) := by
  have haside : ∀ {α : Type} {p : Async α}, p.Uses Aside → Keeps Store.serve
      (fun w => PendingExact tenancy w ∧ storedStatus tenancy requestId w = some .pending) p := by
    intro α p hp
    refine hp.keeps fun cmd hcmd w hw => ?_
    unfold PendingExact storedStatus at hw ⊢
    rw [(hcmd w).1, (hcmd w).2]
    exact hw
  refine keeps_bind (haside (uses_answer _)) fun _ => keeps_bind (keeps_command ?_) fun _ =>
    keeps_bind (haside (uses_command fun _ => ⟨rfl, rfl⟩)) fun _ =>
    keeps_bind (keeps_command ?_) fun _ =>
    keeps_bind (haside (aside_announceRequest _ _ _)) fun _ => keeps_ret _
  · rintro w ⟨hw, hr⟩
    have hsame : ∀ r, storedStatus tenancy r (Store.serve (.hset (requestKey tenancy requestId)
        (args.request now requestId).toDict) w).1 = storedStatus tenancy r w := by
      intro r
      rw [storedStatus_hset]
      split
      · rename_i heq
        rw [heq, hr]
        rfl
      · rfl
    refine ⟨fun r => ?_, by rw [hsame, hr]⟩
    rw [hsame]
    exact hw r
  · rintro w ⟨hw, hr⟩
    refine ⟨(pendingExact_zadd tenancy _ _ _).mpr fun r => ?_, hr⟩
    rw [or_iff_right_of_imp, hw r]
    rintro rfl
    exact (hw r).mpr hr

/-- A creation keeps the set exact when it is not cut. -/
theorem pendingExact_requestGate (hw : PendingExact tenancy w) (now : Time) (args : GateArgs)
    (os : List (Outcome Error)) :
    PendingExact tenancy (play Store.serve os (requestGate tenancy now requestId args) w).2 ↔
      (validateEvidenceForGate args.evidenceBundle = .ok () →
        storedStatus tenancy requestId w ≠ some .pending → opens os = true) := by
  by_cases hr : storedStatus tenancy requestId w = some .pending
  · exact iff_of_true ((keeps_requestGate now args).play ⟨hw, hr⟩ os).1 fun _ h => absurd hr h
  cases hv : validateEvidenceForGate args.evidenceBundle with
  | error e =>
    refine iff_of_true ?_ nofun
    simpa [requestGate, hv] using hw
  | ok u =>
    have hcut : ¬ PendingExact tenancy (Store.serve (.hset (requestKey tenancy requestId)
        (args.request now requestId).toDict) w).1 := by
      intro hexact
      have hmem := (hexact requestId).mpr (by rw [storedStatus_hset, if_pos rfl]; rfl)
      exact hr ((hw requestId).mp hmem)
    have hdone : PendingExact tenancy (Store.serve (.zadd (pendingSet tenancy) requestId
        (scoreOf (args.request now requestId).expiresAt))
        (Store.serve (.hsetBundle (bundleKey tenancy args.evidenceBundle.bundleId)
          args.evidenceBundle.toDict) (Store.serve (.hset (requestKey tenancy requestId)
            (args.request now requestId).toDict) w).1).1).1 := by
      refine (pendingExact_zadd tenancy _ _ _).mpr fun r => ?_
      refine Iff.trans ?_ (iff_of_eq (congrArg (· = _)
        (storedStatus_hset tenancy w requestId r (args.request now requestId).toDict))).symm
      by_cases hreq : r = requestId
      · simp [hreq, GateArgs.request]
      · simpa [hreq, Store.serve] using hw r
    set request := args.request now requestId
    let rest : Async GateRequest := announceRequest tenancy now request >>= fun _ => pure request
    have hrest : rest.Uses Aside :=
      uses_bind (aside_announceRequest tenancy now request) fun _ => uses_ret _
    have hrun : requestGate tenancy now requestId args
        = .call (.hset (requestKey tenancy requestId) request.toDict) fun r =>
          (answer r).elim (fun _ =>
            .call (.hsetBundle (bundleKey tenancy args.evidenceBundle.bundleId)
              args.evidenceBundle.toDict) fun r => (answer r).elim (fun _ =>
                .call (.zadd (pendingSet tenancy) requestId (scoreOf request.expiresAt)) fun r =>
                  (answer r).elim (fun _ => rest) .raise) .raise) .raise := by
      simp only [requestGate, hv, send, command_eq, bind_eq, answer_ok, elim_ret, elim_call]
      rfl
    have hopens : (validateEvidenceForGate args.evidenceBundle = .ok () →
        storedStatus tenancy requestId w ≠ some .pending → opens os = true) ↔ opens os = true :=
      ⟨fun h => h hv hr, fun h _ _ => h⟩
    rw [hv] at hopens
    rw [hopens, hrun]
    rcases os with _ | ⟨_ | e | e, os⟩
    · exact iff_of_true hw rfl
    · rcases os with _ | ⟨_ | e | e, os⟩
      · exact iff_of_false hcut Bool.noConfusion
      · rcases os with _ | ⟨_ | e | e, os⟩
        · exact iff_of_false hcut Bool.noConfusion
        · exact iff_of_true (hdone.play_aside hrest os) rfl
        · refine iff_of_false (fun h => hcut ?_) Bool.noConfusion
          simpa using h
        · refine iff_of_true ?_ rfl
          simpa using hdone
      · refine iff_of_false (fun h => hcut ?_) Bool.noConfusion
        simpa using h
      · refine iff_of_false (fun h => hcut ?_) Bool.noConfusion
        simpa using h
    · refine iff_of_true ?_ rfl
      simpa using hw
    · refine iff_of_false (fun h => hcut ?_) Bool.noConfusion
      simpa using h

theorem decidedStatus_ne_pending (approved : Bool) : decidedStatus approved ≠ .pending := by
  cases approved <;> simp [decidedStatus]

/-- What a decision does to a request that is not stored as pending keeps the set exact
wherever it is cut. -/
theorem keeps_decideRequest (now : Time) (decisionId : String) (args : DecisionArgs)
    (request : GateRequest) :
    Keeps Store.serve
      (fun w => PendingExact tenancy w ∧ storedStatus tenancy requestId w ≠ some .pending)
      (decideRequest tenancy now decisionId requestId args request) := by
  have hdecided := decidedStatus_ne_pending args.approved
  have haside : ∀ {α : Type} {p : Async α}, p.Uses Aside → Keeps Store.serve
      (fun w => PendingExact tenancy w ∧ storedStatus tenancy requestId w ≠ some .pending) p := by
    intro α p hp
    refine hp.keeps fun cmd hcmd w hw => ?_
    unfold PendingExact storedStatus at hw ⊢
    rw [(hcmd w).1, (hcmd w).2]
    exact hw
  refine keeps_bind (keeps_bind (keeps_command ?_) fun _ => keeps_command ?_) fun _ =>
    keeps_bind (haside (aside_log _ _)) fun _ =>
    keeps_bind (haside (aside_announce _ _ _ _)) fun _ => keeps_ret _
  · rintro w ⟨hw, hr⟩
    refine ⟨fun r => ?_, by rw [storedStatus_hset]; simpa using hdecided⟩
    rw [storedStatus_hset]
    by_cases hreq : r = requestId
    · subst hreq
      simpa [hdecided, Store.serve] using mt (hw r).mp hr
    · simpa [hreq, Store.serve] using hw r
  · rintro w ⟨hw, hr⟩
    refine ⟨(pendingExact_zrem tenancy _ _).mpr fun r => ?_, hr⟩
    rw [hw r, and_iff_left_of_imp]
    rintro hpending rfl
    exact hr hpending

/-- A decision keeps the set exact when it is not cut. -/
theorem pendingExact_recordDecision (hw : PendingExact tenancy w) (now : Time)
    (decisionId : String) (args : DecisionArgs) (os : List (Outcome Error)) :
    PendingExact tenancy
        (play Store.serve os (recordDecision tenancy now decisionId requestId args) w).2 ↔
      (storedStatus tenancy requestId w = some .pending →
        ∀ os', os = .ok :: os' → closes os' = true) := by
  rcases os with _ | ⟨_ | e | e, os⟩
  · exact iff_of_true hw fun _ _ h => by cases h
  · simp only [recordDecision, send, command_eq, bind_eq, elim_call, play_call, Server.perform_ok,
      answer_ok, elim_ret, Store.serve, List.cons.injEq, true_and, forall_eq']
    cases hdata : w.requests (requestKey tenancy requestId) with
    | none => exact iff_of_true (by simpa using hw) fun h => by simp [storedStatus, hdata] at h
    | some data =>
      simp only [storedStatus, hdata, Redis.hget_some]
      cases hstatus : data .status with
      | none =>
        have hr : storedStatus tenancy requestId w ≠ some .pending := by
          simp [storedStatus, hdata, hstatus]
        have hread : (GateRequest.fromDict now data).status = .pending := by
          simp [GateRequest.fromDict, hstatus]
        simp only [if_pos hread]
        refine iff_of_true ?_ fun h => by cases h
        exact ((keeps_decideRequest now decisionId args _).play ⟨hw, hr⟩ os).1
      | some s =>
        have hread : (GateRequest.fromDict now data).status = s := by
          simp [GateRequest.fromDict, hstatus]
        rw [hread]
        by_cases hs : s = .pending
        · have hr : storedStatus tenancy requestId w = some .pending := by
            simp [storedStatus, hdata, hstatus, hs]
          simp only [hs, forall_const]
          refine (pendingExact_markRequest hw hr (decidedStatus_ne_pending _) _ os).trans
            (and_iff_left fun os' _ => ?_)
          refine (hw.marked requestId (decidedStatus_ne_pending _)).play_aside ?_ os'
          exact uses_bind (aside_log _ _) fun _ =>
            uses_bind (aside_announce _ _ _ _) fun _ => uses_ret _
        · simp only [if_neg hs]
          refine iff_of_true (by simpa using hw) fun h => ?_
          exact absurd (Option.some.inj h) hs
  · refine iff_of_true ?_ fun _ _ h => by cases h
    simpa [recordDecision] using hw
  · refine iff_of_true ?_ fun _ _ h => by cases h
    simpa [recordDecision, Store.serve] using hw

/-- What follows the two writes in a sweep: the event, and the other requests. -/
theorem pendingExact_announce {now : Time} {request : GateRequest} {r : String}
    {p : Async (List GateRequest)} (hw : PendingExact tenancy w) (os : List (Outcome Error)) :
    PendingExact tenancy (play Store.serve os
        (announce (announcement .expired) now request [("request_id", r)] >>= fun _ =>
          p >>= fun rest => pure (request :: rest)) w).2 ↔
      ∀ os', os = .ok :: os' → ∀ event,
        gateEvent (announcement .expired) now request [("request_id", r)] = .ok event →
          PendingExact tenancy (play Store.serve os' p (Store.serve (.publish event) w).1).2 := by
  cases hevent : gateEvent (announcement .expired) now request [("request_id", r)] with
  | error e =>
    refine iff_of_true ?_ fun _ _ _ => nofun
    simpa [announce, hevent] using hw
  | ok event =>
    have hpublished : PendingExact tenancy (Store.serve (.publish event) w).1 := hw
    simp only [announce, hevent, send, command_eq, bind_eq, pure_eq, answer_ok, elim_ret,
      elim_call, elim_elim, Except.ok.injEq, forall_eq']
    rcases os with _ | ⟨_ | e | e, os⟩
    · exact iff_of_true hw nofun
    · simp only [play_call, Server.perform_ok, answer_ok, elim_ret, List.cons.injEq, true_and,
        forall_eq']
      rw [play_elim_finished _ _ _ _ _ _ (fun _ => rfl) fun _ => rfl]
    · refine iff_of_true ?_ nofun
      simpa using hw
    · refine iff_of_true ?_ nofun
      simpa using hpublished

/-- Giving a request a status leaves all session ids alone. -/
theorem announced_marked : announced tenancy (w.marked tenancy requestId s)
    = announced tenancy w := by
  funext r
  by_cases hr : r = requestId
  · subst hr
    simp [announced, Store.marked, Store.serve, Redis.hget_hset]
  · simp [announced, Store.marked, Store.serve, hr]

/-- The loop of a sweep keeps the set exact when it is not cut at any request. -/
theorem pendingExact_expireRequests (now : Time) {ids : List String} (hnodup : ids.Nodup)
    (hw : PendingExact tenancy w) (hids : ∀ r ∈ ids, storedStatus tenancy r w = some .pending)
    (os : List (Outcome Error)) :
    PendingExact tenancy (play Store.serve os (expireRequests tenancy now ids) w).2 ↔
      SweepCloses (announced tenancy w) ids os := by
  induction ids generalizing w os with
  | nil => exact iff_of_true (by simpa [expireRequests] using hw) trivial
  | cons r ids ih =>
    obtain ⟨hr, hrest⟩ := List.nodup_cons.mp hnodup
    have hpending := hids r (.head _)
    obtain ⟨data, hdata, hstatus⟩ : ∃ data, w.requests (requestKey tenancy r) = some data ∧
        data .status = some .pending := by
      simpa [storedStatus, Redis.hget, Option.bind_eq_some_iff] using hpending
    let request := { GateRequest.fromDict now data with status := .expired }
    let k : Unit → Async (List GateRequest) := fun _ =>
      announce (announcement .expired) now request [("request_id", r)] >>= fun _ =>
        expireRequests tenancy now ids >>= fun rest => pure (request :: rest)
    rcases os with _ | ⟨_ | e | e, os⟩
    · exact iff_of_true hw fun _ h => by cases h
    · have hrun : play Store.serve (.ok :: os) (expireRequests tenancy now (r :: ids)) w
          = play Store.serve os (markRequest tenancy r .expired >>= k) w := by
        simp only [expireRequests, expireRequest, send, command_eq, bind_eq, elim_call, play_call,
          Server.perform_ok, answer_ok, elim_ret, Store.serve, hdata, hstatus, if_true, pure_eq,
          elim_elim, Option.toList_some, List.singleton_append, k, request]
        rfl
      have hmarked : PendingExact tenancy (w.marked tenancy r .expired) := hw.marked r (by decide)
      rw [hrun, pendingExact_markRequest (s := .expired) hw hpending (by decide)]
      simp only [SweepCloses, List.cons.injEq, true_and, forall_eq']
      refine and_congr_right fun _ => ?_
      by_cases hos : ∃ os', os = .ok :: .ok :: os'
      · obtain ⟨os, rfl⟩ := hos
        simp only [List.cons.injEq, true_and, forall_eq']
        rw [pendingExact_announce hmarked]
        refine forall_congr' fun os' => forall_congr' fun _ => ?_
        have hannounced : (∃ event, gateEvent (announcement .expired) now request
            [("request_id", r)] = .ok event) ↔ announced tenancy w r = true := by
          simp [exists_gateEvent, announced, hdata, request, GateRequest.fromDict]
        rw [← hannounced, exists_imp]
        refine forall_congr' fun event => forall_congr' fun _ => ?_
        have hpublished : PendingExact tenancy
            (Store.serve (.publish event) (w.marked tenancy r .expired)).1 := hmarked
        have hsame : announced tenancy (Store.serve (.publish event)
            (w.marked tenancy r .expired)).1 = announced tenancy w := announced_marked
        rw [← hsame]
        refine ih hrest hpublished (fun r' hr' => ?_) os'
        have hne : r' ≠ r := fun h => hr (h ▸ hr')
        refine (storedStatus_hset tenancy w r r' (.field .status .expired)).trans ?_
        rw [if_neg hne]
        exact hids r' (.tail _ hr')
      · exact iff_of_true (fun os' h => absurd ⟨os', h⟩ hos) fun os' h => absurd ⟨_, h⟩ hos
    · refine iff_of_true ?_ fun _ h => by cases h
      simpa [expireRequests, expireRequest] using hw
    · refine iff_of_true ?_ fun _ h => by cases h
      simpa [expireRequests, expireRequest, Store.serve] using hw

theorem step_requestGate (now : Time) (args : GateArgs) (os : List (Outcome Error)) :
    Timed.step tenancy w ⟨now, .requestGate requestId args, os⟩
      = (play Store.serve os (requestGate tenancy now requestId args) w).2 :=
  congrArg Prod.snd (play_elim_finished Store.serve os _ _ _ w (fun _ => rfl) fun _ => rfl)

theorem step_checkExpired (now : Time) (os : List (Outcome Error)) :
    Timed.step tenancy w ⟨now, .checkExpired, os⟩
      = (play Store.serve os (checkExpired tenancy now) w).2 :=
  congrArg Prod.snd (play_elim_finished Store.serve os _ _ _ w (fun _ => rfl) fun _ => rfl)

/-- A sweep keeps the set exact when it is not cut. -/
theorem pendingExact_checkExpired (hw : PendingExact tenancy w) (now : Time)
    (os : List (Outcome Error)) :
    PendingExact tenancy (play Store.serve os (checkExpired tenancy now) w).2 ↔
      ∀ os', os = .ok :: os' → SweepCloses (announced tenancy w)
        ((w.pending (pendingSet tenancy)).zrangebyscore (0 : Time) (now : Time)) os' := by
  rcases os with _ | ⟨_ | e | e, os⟩
  · exact iff_of_true hw fun _ h => by cases h
  · simp only [checkExpired, send, command_eq, bind_eq, elim_call, play_call, Server.perform_ok,
      answer_ok, elim_ret, Store.serve, List.cons.injEq, true_and, forall_eq']
    refine pendingExact_expireRequests now (Redis.SortedSet.zrangebyscore_nodup _ _ _) hw
      (fun r hr => (hw r).mp ?_) os
    obtain ⟨score, hscore, -⟩ := Redis.SortedSet.mem_zrangebyscore.mp hr
    exact Redis.SortedSet.mem_def.mpr ⟨score, hscore⟩
  · refine iff_of_true ?_ fun _ h => by cases h
    simpa [checkExpired] using hw
  · refine iff_of_true ?_ fun _ h => by cases h
    simpa [checkExpired, Store.serve] using hw

/-- **A step** keeps the set exact when it is not cut. -/
theorem step_pendingExact (hw : PendingExact tenancy w) (op : Timed) :
    PendingExact tenancy (Timed.step tenancy w op) ↔ Uncut tenancy w op := by
  obtain ⟨now, operation, os⟩ := op
  cases operation with
  | requestGate requestId args =>
    rw [step_requestGate]
    exact pendingExact_requestGate hw now args os
  | recordDecision decisionId requestId args =>
    rw [step_recordDecision]
    exact pendingExact_recordDecision hw now decisionId args os
  | checkExpired =>
    rw [step_checkExpired]
    exact pendingExact_checkExpired hw now os

variable (tenancy) in
/-- **The pending set over runs.**  However the operations follow one another, with any
faults and crashes, a request is in the set exactly if it is stored as pending, and the
list read from the set is exact, in every state reached, exactly when no operation is
cut between its two writes. -/
theorem pending_exact_iff_uncut (ops : List Timed) :
    Along (Timed.step tenancy) (fun w => PendingExact tenancy w ∧ ListsPending tenancy w)
        (fun _ _ _ => True) Store.empty ops ↔
      Each (Timed.step tenancy) (Uncut tenancy) Store.empty ops := by
  have hempty : PendingExact tenancy Store.empty := by
    intro r
    simp [Store.empty, storedStatus]
  refine along_iff_each (I := fun _ => True) (fun _ _ _ _ _ => trivial) ?_ trivial
    ⟨hempty, hempty.lists⟩ ops
  intro w op _ hw
  rw [true_and, ← step_pendingExact hw.1 op]
  exact ⟨And.left, fun h => ⟨h, h.lists⟩⟩


end

/-- A creation that stops after its first command. -/
def halfCreated : List Timed := [⟨0, .requestGate "r" codeGate, [.ok]⟩]

/-- A creation, and a decision that stops after it has written the status. -/
def halfDecided : List Timed :=
  [⟨0, .requestGate "r" codeGate, List.replicate 6 .ok⟩,
    ⟨1, .recordDecision "d" "r" ⟨true, "reviewer", "reason", []⟩, [.ok, .ok]⟩]

/-- The first request is pending and in no list; the second is approved and listed as
pending. -/
theorem undecided_omitted_decided_listed :
    (let w := run (Timed.step plain) Store.empty halfCreated
     storedStatus plain "r" w = some .pending ∧ "r" ∉ w.pending (pendingSet plain) ∧
      (eval Store.serve (getPendingRequests plain 1) w).1 = .ok []) ∧
    (let w := run (Timed.step plain) Store.empty halfDecided
     storedStatus plain "r" w = some .approved ∧ "r" ∈ w.pending (pendingSet plain) ∧
      (eval Store.serve (getPendingRequests plain 2) w).1.map
        (List.map fun request => (request.requestId, request.status))
          = .ok [("r", .approved)]) := by
  decide

end DoxAsdlc.Hitl
