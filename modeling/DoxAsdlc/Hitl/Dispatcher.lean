import DoxAsdlc.Core.Events
import DoxAsdlc.Interaction.Program
import DoxAsdlc.Redis.SortedSet
import Mathlib.Data.List.Dedup
import Mathlib.Data.String.Basic
import Mathlib.Order.WithBot

/-!
# The dispatcher of gate requests

The gates of the workflow, the evidence a request for one must carry, and the
validation of it.

A gate request lives in three places: its hash, the sorted set of the pending
requests with the expiry as score, and the events and log entries that announce it.
`requestGate`, `recordDecision` and `checkExpired` write to them one command after
the other, and each tests what it read at its beginning only.

A call takes the identifiers that the source draws at random, and the one time it
reads off the clock, as arguments.

## Main definitions

* `GateType`, `GateStatus` — the gates, and the states of a request for one.
* `EvidenceItem`, `EvidenceBundle` — the evidence, and its hash.
* `requiredEvidence`, `validateEvidenceForGate` — what a bundle must contain.
* `GateRequest`, `GateDecision`, `LogEntry` — the data.
* `Store`, `Cmd`, `serve` — the store of the dispatcher, and what each command does.
* `requestGate`, `recordDecision`, `getPendingRequests`, `getRequestById`,
  `checkExpired` — the operations.
* `storedStatus`, `storedExpiry` — what the server holds for a request.
-/

namespace DoxAsdlc

/-- The gates that a human decides. -/
inductive GateType where
  | hitl1Backlog | hitl2Design | hitl3Plan | hitl4Code | hitl5Validation | hitl6Release
  deriving DecidableEq, Repr

/-- The text that stands for a gate. -/
def GateType.value : GateType → String
  | .hitl1Backlog => "hitl_1_backlog"
  | .hitl2Design => "hitl_2_design"
  | .hitl3Plan => "hitl_3_plan"
  | .hitl4Code => "hitl_4_code"
  | .hitl5Validation => "hitl_5_validation"
  | .hitl6Release => "hitl_6_release"

/-- The status of a gate request. -/
inductive GateStatus where
  | pending | approved | rejected | expired
  deriving DecidableEq, Repr

/-- The text that stands for a status. -/
def GateStatus.value : GateStatus → String
  | .pending => "pending"
  | .approved => "approved"
  | .rejected => "rejected"
  | .expired => "expired"

/-- A single piece of evidence. -/
structure EvidenceItem where
  itemType : String
  path : String
  description : String
  contentHash : String
  metadata : List (String × String) := []
  deriving DecidableEq, Repr

/-- The evidence for one gate request. -/
structure EvidenceBundle where
  bundleId : String
  taskId : String
  gateType : GateType
  gitSha : String
  items : List EvidenceItem
  createdAt : Time
  summary : String
  deriving DecidableEq, Repr

/-- The fields of a bundle's hash. -/
inductive BundleField where
  | bundleId | taskId | gateType | gitSha | items | createdAt | summary
  deriving DecidableEq, Repr

/-- What each field of a bundle's hash holds. -/
abbrev BundleValue : BundleField → Type
  | .gateType => GateType
  | .items => List EvidenceItem
  | .createdAt => Time
  | _ => String

/-- A stored bundle. -/
abbrev BundleHash := Redis.Hash BundleValue

namespace EvidenceBundle

/-- `to_dict`. -/
def toDict (b : EvidenceBundle) : BundleHash
  | .bundleId => some b.bundleId
  | .taskId => some b.taskId
  | .gateType => some b.gateType
  | .gitSha => some b.gitSha
  | .items => some b.items
  | .createdAt => some b.createdAt
  | .summary => some b.summary

/-- `from_dict`: absent fields take their defaults. -/
def fromDict (now : Time) (data : BundleHash) : EvidenceBundle where
  bundleId := (data .bundleId).getD ""
  taskId := (data .taskId).getD ""
  gateType := (data .gateType).getD .hitl4Code
  gitSha := (data .gitSha).getD ""
  items := (data .items).getD []
  createdAt := (data .createdAt).getD now
  summary := (data .summary).getD ""

/-- A stored bundle is read back as it was. -/
theorem fromDict_toDict (b : EvidenceBundle) (now : Time) : fromDict now b.toDict = b := rfl

end EvidenceBundle

/-! ## Validation -/

/-- The evidence types of which a gate needs at least one. -/
def requiredEvidence : GateType → List String
  | .hitl1Backlog => ["prd", "acceptance_criteria"]
  | .hitl2Design => ["architecture", "design_doc"]
  | .hitl3Plan => ["task_breakdown", "dependency_graph"]
  | .hitl4Code => ["artifact", "test_result"]
  | .hitl5Validation => ["integration_tests", "security_scan"]
  | .hitl6Release => ["release_notes", "deployment_plan"]

/-- The details that both errors of the validation carry. -/
def evidenceDetails (b : EvidenceBundle) : List (String × Detail) :=
  [("gate_type", .text b.gateType.value), ("bundle_id", .text b.bundleId),
    ("required", .texts (requiredEvidence b.gateType))]

/-- The types of evidence present: a set in the source, listed here in the order of
the items. -/
def EvidenceBundle.presentTypes (b : EvidenceBundle) : List String :=
  (b.items.map EvidenceItem.itemType).dedup

/-- A bundle needs an item, and one of a type that its gate requires. -/
def validateEvidenceForGate (b : EvidenceBundle) : Except Error Unit :=
  if b.items = [] then
    .error {
      cls := .evidenceValidationError
      message := "Evidence bundle has no items for " ++ b.gateType.value
      details := evidenceDetails b }
  else if (requiredEvidence b.gateType).any (· ∈ b.presentTypes) then .ok ()
  else
    .error {
      cls := .evidenceValidationError
      message := "Missing required evidence for " ++ b.gateType.value
      details := evidenceDetails b ++ [("present", .texts b.presentTypes)] }

/-- The validation passes when some item is of a type that the gate requires. -/
theorem validateEvidenceForGate_eq_ok (b : EvidenceBundle) :
    validateEvidenceForGate b = .ok () ↔
      ∃ item ∈ b.items, item.itemType ∈ requiredEvidence b.gateType := by
  have hany : (requiredEvidence b.gateType).any (· ∈ b.presentTypes) = true ↔
      ∃ item ∈ b.items, item.itemType ∈ requiredEvidence b.gateType := by
    simp only [EvidenceBundle.presentTypes, List.any_eq_true, List.mem_dedup,
      List.mem_map, decide_eq_true_eq]
    constructor
    · rintro ⟨_, hreq, item, hitem, rfl⟩
      exact ⟨item, hitem, hreq⟩
    · rintro ⟨item, hitem, hreq⟩
      exact ⟨_, hreq, item, hitem, rfl⟩
  rw [← hany]
  unfold validateEvidenceForGate
  split
  · rename_i hitems
    simp [EvidenceBundle.presentTypes, hitems]
  · split
    · rename_i hreq
      exact iff_of_true rfl hreq
    · rename_i hreq
      exact iff_of_false nofun hreq

end DoxAsdlc

/-! ## The dispatcher of gate requests -/

namespace DoxAsdlc.Hitl

open Interaction Interaction.Program

/-- The fields of a request's hash. -/
inductive GateField where
  | requestId | taskId | sessionId | gateType | status | evidenceBundleId | requestedBy
  | requestedAt | expiresAt
  deriving DecidableEq, Repr

/-- What each field of a request's hash holds. -/
abbrev GateValue : GateField → Type
  | .gateType => GateType
  | .status => GateStatus
  | .requestedAt | .expiresAt => Time
  | _ => String

/-- A stored request. -/
abbrev GateHash := Redis.Hash GateValue

/-- A human decision on a request. -/
structure GateDecision where
  decisionId : String
  requestId : String
  approved : Bool
  reviewer : String
  reason : String
  decidedAt : Time
  conditions : List String := []
  deriving DecidableEq, Repr

/-- A request for human approval. -/
structure GateRequest where
  requestId : String
  taskId : String
  sessionId : String
  gateType : GateType
  status : GateStatus
  evidenceBundle : EvidenceBundle
  requestedBy : String
  requestedAt : Time
  expiresAt : Option Time := none
  decision : Option GateDecision := none
  deriving DecidableEq, Repr

namespace GateRequest

/-- `to_dict`: of the bundle only its id, and of the decision nothing. -/
def toDict (r : GateRequest) : GateHash
  | .requestId => some r.requestId
  | .taskId => some r.taskId
  | .sessionId => some r.sessionId
  | .gateType => some r.gateType
  | .status => some r.status
  | .evidenceBundleId => some r.evidenceBundle.bundleId
  | .requestedBy => some r.requestedBy
  | .requestedAt => some r.requestedAt
  | .expiresAt => r.expiresAt

/-- The placeholder that stands for the bundle of a request that is read back. -/
def placeholder (now : Time) (data : GateHash) : EvidenceBundle where
  bundleId := (data .evidenceBundleId).getD ""
  taskId := (data .taskId).getD ""
  gateType := (data .gateType).getD .hitl4Code
  gitSha := ""
  items := []
  createdAt := now
  summary := "Placeholder"

/-- `from_dict` without a bundle: absent fields take their defaults. -/
def fromDict (now : Time) (data : GateHash) : GateRequest where
  requestId := (data .requestId).getD ""
  taskId := (data .taskId).getD ""
  sessionId := (data .sessionId).getD ""
  gateType := (data .gateType).getD .hitl4Code
  status := (data .status).getD .pending
  evidenceBundle := placeholder now data
  requestedBy := (data .requestedBy).getD ""
  requestedAt := (data .requestedAt).getD now
  expiresAt := data .expiresAt

@[simp] theorem toDict_requestId (r : GateRequest) : r.toDict .requestId = some r.requestId := rfl
@[simp] theorem toDict_sessionId (r : GateRequest) : r.toDict .sessionId = some r.sessionId := rfl
@[simp] theorem toDict_status (r : GateRequest) : r.toDict .status = some r.status := rfl
@[simp] theorem toDict_expiresAt (r : GateRequest) : r.toDict .expiresAt = r.expiresAt := rfl

end GateRequest

/-- An entry of the decision log. -/
inductive LogEntry where
  | gateRequested (requestId taskId : String) (gateType : GateType) (requestedBy : String)
      (timestamp : Time)
  | gateDecision (requestId decisionId taskId : String) (gateType : GateType) (approved : Bool)
      (reviewer reason : String) (timestamp : Time)
  deriving DecidableEq, Repr

/-! ## The store -/

/-- The score of a pending request: its expiry, or infinity. -/
abbrev Score := WithTop Time

/-- The score of an expiry. -/
def scoreOf : Option Time → Score
  | none => ⊤
  | some t => t

/-- What the dispatchers of all tenants share. -/
structure Store where
  requests : Redis.Keys String GateHash
  bundles : Redis.Keys String BundleHash
  pending : String → Redis.SortedSet String Score
  /-- `asdlc:decision_log:` keys. -/
  decisionLog : String → List LogEntry
  /-- The entries ever added to the audit streams. -/
  audit : String → List LogEntry
  published : List ASDLCEvent

/-- The store before anything was written. -/
def Store.empty : Store where
  requests := fun _ => none
  bundles := fun _ => none
  pending := fun _ => .empty
  decisionLog := fun _ => []
  audit := fun _ => []
  published := []

/-- The commands. `publish` is the event publisher the dispatcher is given. -/
inductive Cmd where
  | hgetall (key : String)
  | hset (key : String) (mapping : GateHash)
  | hsetBundle (key : String) (mapping : BundleHash)
  | zadd (key member : String) (score : Score)
  | zrem (key member : String)
  | zrange (key : String)
  | zrangebyscore (key : String) (lo hi : Score)
  | rpush (key : String) (entry : LogEntry)
  | lrange (key : String)
  | xadd (key : String) (entry : LogEntry)
  | publish (event : ASDLCEvent)

/-- The answers. -/
abbrev Reply : Cmd → Type
  | .hgetall _ => Option GateHash
  | .zrange _ | .zrangebyscore _ _ _ => List String
  | .lrange _ => List LogEntry
  | .publish _ => ℕ
  | _ => Unit

/-- The commands of the store and their answers. -/
abbrev interface : Interface := ⟨Cmd, Reply⟩

/-- What each command does. -/
def Store.serve : Server interface Store
  | .hgetall key, w => (w, w.requests key)
  | .hset key mapping, w =>
    ({ w with requests := w.requests.modify key (Redis.hset · mapping) }, ())
  | .hsetBundle key mapping, w =>
    ({ w with bundles := w.bundles.modify key (Redis.hset · mapping) }, ())
  | .zadd key member score, w =>
    ({ w with pending := Function.update w.pending key ((w.pending key).zadd member score) }, ())
  | .zrem key member, w =>
    ({ w with pending := Function.update w.pending key ((w.pending key).zrem member) }, ())
  | .zrange key, w => (w, (w.pending key).zrange)
  | .zrangebyscore key lo hi, w => (w, (w.pending key).zrangebyscore lo hi)
  | .rpush key entry, w =>
    ({ w with decisionLog :=
        Function.update w.decisionLog key (w.decisionLog key ++ [entry]) }, ())
  | .lrange key, w => (w, w.decisionLog key)
  | .xadd key entry, w =>
    ({ w with audit := Function.update w.audit key (w.audit key ++ [entry]) }, ())
  | .publish event, w =>
    ({ w with published := w.published ++ [event] }, w.published.length)

/-- A coroutine of the dispatcher. -/
abbrev Async (α : Type) := Program interface Error α

/-- Issue one command. -/
abbrev send (c : Cmd) : Async (Reply c) := command (I := interface) c

/-! ## The operations -/

variable (tenancy : Tenancy)

/-- `_get_request_key`. -/
def requestKey (requestId : String) : String := tenancy.key ("asdlc:gate_request:" ++ requestId)

/-- `_get_bundle_key`. -/
def bundleKey (bundleId : String) : String := tenancy.key ("asdlc:evidence_bundle:" ++ bundleId)

/-- `_get_pending_set`. -/
def pendingSet : String := tenancy.key "asdlc:pending_gates"

/-- `_get_key` of the decision logger. -/
def logKey (taskId : String) : String := tenancy.key ("asdlc:decision_log:" ++ taskId)

/-- `_get_audit_stream`. -/
def auditStream : String := tenancy.key "asdlc:audit"

@[simp] theorem requestKey_inj {r r' : String} :
    requestKey tenancy r = requestKey tenancy r' ↔ r = r' := by
  simp [requestKey, String.append_right_inj]

/-- Append an entry to the log of its task and to the audit stream. -/
def log (taskId : String) (entry : LogEntry) : Async Unit := do
  send (.rpush (logKey tenancy taskId) entry)
  send (.xadd (auditStream tenancy) entry)

/-- Log the creation of a request. -/
def logRequest (now : Time) (request : GateRequest) : Async Unit :=
  log tenancy request.taskId (.gateRequested request.requestId request.taskId request.gateType
    request.requestedBy now)

/-- Log a decision. -/
def logDecision (request : GateRequest) (decision : GateDecision) : Async Unit :=
  log tenancy request.taskId (.gateDecision request.requestId decision.decisionId request.taskId
    request.gateType decision.approved decision.reviewer decision.reason decision.decidedAt)

/-- Everything that was logged for a task. -/
def getTaskHistory (taskId : String) : Async (List LogEntry) :=
  send (.lrange (logKey tenancy taskId))

/-- The event about a request; the session id is checked when it is made. -/
def gateEvent (eventType : EventType) (now : Time) (request : GateRequest)
    (metadata : List (String × String)) : Except Error ASDLCEvent := do
  let sessionId ← SessionId.validate request.sessionId
  return { eventType, sessionId, timestamp := now, taskId := some request.taskId, metadata }

theorem gateEvent_eq_ok {eventType : EventType} {now : Time} {request : GateRequest}
    {metadata : List (String × String)} {event : ASDLCEvent}
    (h : gateEvent eventType now request metadata = .ok event) :
    event.eventType = eventType ∧ event.metadata = metadata := by
  unfold gateEvent at h
  cases hsid : SessionId.validate request.sessionId with
  | error e => rw [hsid] at h; cases h
  | ok sid => rw [hsid] at h; cases h; exact ⟨rfl, rfl⟩

/-- The event can be made when the request has a session id. -/
theorem exists_gateEvent {eventType : EventType} {now : Time} {request : GateRequest}
    {metadata : List (String × String)} :
    (∃ event, gateEvent eventType now request metadata = .ok event) ↔
      blank request.sessionId = false := by
  constructor
  · rintro ⟨event, hevent⟩
    unfold gateEvent at hevent
    cases hsid : SessionId.validate request.sessionId with
    | error e => rw [hsid] at hevent; cases hevent
    | ok sid => rw [← SessionId.validate_eq_ok.mp hsid]; exact sid.property
  · intro hblank
    have hsid := SessionId.validate_val ⟨request.sessionId, hblank⟩
    simp only [gateEvent, hsid]
    exact ⟨_, rfl⟩

/-- Make the event about a request and publish it. -/
def announce (eventType : EventType) (now : Time) (request : GateRequest)
    (metadata : List (String × String)) : Async Unit := do
  let event ← answer (gateEvent eventType now request metadata)
  let _ ← send (.publish event)

/-- The expiry of a request: a time to live of zero is none. -/
def expiryOf (now : Time) (ttlSeconds : Option ℤ) : Option Time :=
  (ttlSeconds.filter (· ≠ 0)).map fun ttl => now + ttl * 1000000

/-- The arguments of `request_gate`. -/
structure GateArgs where
  taskId : String
  sessionId : String
  gateType : GateType
  evidenceBundle : EvidenceBundle
  requestedBy : String
  ttlSeconds : Option ℤ := none
  deriving DecidableEq, Repr

/-- The request that `request_gate` creates. -/
def GateArgs.request (args : GateArgs) (now : Time) (requestId : String) : GateRequest where
  requestId := requestId
  taskId := args.taskId
  sessionId := args.sessionId
  gateType := args.gateType
  status := .pending
  evidenceBundle := args.evidenceBundle
  requestedBy := args.requestedBy
  requestedAt := now
  expiresAt := expiryOf now args.ttlSeconds

/-- Log a request that is stored, and publish it. -/
def announceRequest (now : Time) (request : GateRequest) : Async Unit := do
  logRequest tenancy now request
  announce .gateRequested now request
    [("request_id", request.requestId), ("gate_type", request.gateType.value),
      ("evidence_bundle_id", request.evidenceBundle.bundleId)]

/-- Create a request and publish it. -/
def requestGate (now : Time) (requestId : String) (args : GateArgs) : Async GateRequest := do
  answer (validateEvidenceForGate args.evidenceBundle)
  let request := args.request now requestId
  send (.hset (requestKey tenancy requestId) request.toDict)
  send (.hsetBundle (bundleKey tenancy args.evidenceBundle.bundleId) args.evidenceBundle.toDict)
  send (.zadd (pendingSet tenancy) requestId (scoreOf request.expiresAt))
  announceRequest tenancy now request
  return request

/-- The error of a decision on a request that does not exist. -/
def requestNotFound (requestId : String) : Error where
  cls := .hitlError
  message := "Gate request not found: " ++ requestId
  details := [("request_id", .text requestId)]

/-- The error of a decision on a request that is not pending. -/
def requestNotPending (requestId : String) (status : GateStatus) : Error where
  cls := .hitlError
  message := "Gate request is not pending: " ++ requestId
  details := [("request_id", .text requestId), ("status", .text status.value)]

/-- The status and the event type of a decision. -/
def decidedStatus (approved : Bool) : GateStatus := if approved then .approved else .rejected

/-- The event that announces a status. -/
def announcement : GateStatus → EventType
  | .pending => .gateRequested
  | .approved => .gateApproved
  | .rejected => .gateRejected
  | .expired => .gateExpired

/-- The arguments of `record_decision` besides the request. -/
structure DecisionArgs where
  approved : Bool
  reviewer : String
  reason : String
  conditions : List String := []
  deriving DecidableEq, Repr

/-- The decision that `record_decision` makes. -/
def DecisionArgs.decision (args : DecisionArgs) (now : Time) (decisionId requestId : String) :
    GateDecision where
  decisionId := decisionId
  requestId := requestId
  approved := args.approved
  reviewer := args.reviewer
  reason := args.reason
  decidedAt := now
  conditions := args.conditions

/-- Write the status of a request that is pending no more. -/
def markRequest (requestId : String) (status : GateStatus) : Async Unit := do
  send (.hset (requestKey tenancy requestId) (.field .status status))
  send (.zrem (pendingSet tenancy) requestId)

/-- What `record_decision` does with a pending request that it has read.  The
conditions of an approval are also a list in the event's metadata, of which only the
texts are kept here. -/
def decideRequest (now : Time) (decisionId requestId : String) (args : DecisionArgs)
    (request : GateRequest) : Async GateDecision := do
  let decision := args.decision now decisionId requestId
  let status := decidedStatus args.approved
  markRequest tenancy requestId status
  let request := { request with status := status }
  logDecision tenancy request decision
  announce (announcement status) now request
    [("request_id", requestId), ("decision_id", decisionId), ("reviewer", args.reviewer),
      ("reason", args.reason)]
  return decision

/-- Record a human decision and publish it. -/
def recordDecision (now : Time) (decisionId requestId : String) (args : DecisionArgs) :
    Async GateDecision := do
  match ← send (.hgetall (requestKey tenancy requestId)) with
  | none => throw (requestNotFound requestId)
  | some data =>
    let request := GateRequest.fromDict now data
    if request.status = .pending then decideRequest tenancy now decisionId requestId args request
    else throw (requestNotPending requestId request.status)

/-- The requests behind some ids, those of one gate if asked for. -/
def readRequests (now : Time) (gateType : Option GateType) :
    List String → Async (List GateRequest)
  | [] => return []
  | requestId :: ids => do
      let data ← send (.hgetall (requestKey tenancy requestId))
      let rest ← readRequests now gateType ids
      match data with
      | none => return rest
      | some data =>
        let request := GateRequest.fromDict now data
        if gateType = none ∨ gateType = some request.gateType then return request :: rest
        else return rest

/-- All pending requests, or those of one gate. -/
def getPendingRequests (now : Time) (gateType : Option GateType := none) :
    Async (List GateRequest) := do
  let ids ← send (.zrange (pendingSet tenancy))
  readRequests tenancy now gateType ids

/-- The request with an id. -/
def getRequestById (now : Time) (requestId : String) : Async (Option GateRequest) := do
  let data ← send (.hgetall (requestKey tenancy requestId))
  return data.map (GateRequest.fromDict now)

/-- Mark one request as expired, if it is pending.  The test is on the field itself,
so a hash without a status is left alone here. -/
def expireRequest (now : Time) (requestId : String) : Async (Option GateRequest) := do
  match ← send (.hgetall (requestKey tenancy requestId)) with
  | none => return none
  | some data =>
    if data .status = some .pending then
      markRequest tenancy requestId .expired
      let request := { GateRequest.fromDict now data with status := .expired }
      announce (announcement .expired) now request [("request_id", requestId)]
      return some request
    else return none

/-- The loop of `check_expired`. -/
def expireRequests (now : Time) : List String → Async (List GateRequest)
  | [] => return []
  | requestId :: ids => do
      let expired ← expireRequest tenancy now requestId
      let rest ← expireRequests now ids
      return expired.toList ++ rest

/-- Find and mark expired requests. -/
def checkExpired (now : Time) : Async (List GateRequest) := do
  let ids ← send (.zrangebyscore (pendingSet tenancy) (0 : Time) (now : Time))
  expireRequests tenancy now ids

/-! ## What the server holds for a request -/

/-- The status that the server holds for a request. -/
def storedStatus (requestId : String) (w : Store) : Option GateStatus :=
  Redis.hget (w.requests (requestKey tenancy requestId)) .status

/-- The expiry that the server holds for a request. -/
def storedExpiry (requestId : String) (w : Store) : Option Time :=
  Redis.hget (w.requests (requestKey tenancy requestId)) .expiresAt

/-- The status that a command writes to the request. -/
def written (requestId : String) : Cmd → Option GateStatus
  | .hset key mapping => if key = requestKey tenancy requestId then mapping .status else none
  | _ => none

/-- The stored status is the one written last. -/
theorem storedStatus_serve {tenancy : Tenancy} {requestId : String} {cmd : Cmd} {w : Store} :
    storedStatus tenancy requestId (Store.serve cmd w).1
    = (written tenancy requestId cmd).or (storedStatus tenancy requestId w) := by
  cases cmd with
  | hset key mapping =>
    by_cases hkey : key = requestKey tenancy requestId
    · subst hkey
      simp [storedStatus, Store.serve, written, Redis.hget_hset]
    · simp [storedStatus, Store.serve, written, hkey, Ne.symm hkey]
  | _ => rfl

/-- One tenant. -/
def plain : Tenancy := ⟨false, "default", none⟩

/-- A request for the review of code. -/
def codeGate : GateArgs where
  taskId := "t"
  sessionId := "s"
  gateType := .hitl4Code
  evidenceBundle := ⟨"b", "t", .hitl4Code, "sha", [⟨"artifact", "p", "d", "h", []⟩], 0, "summary"⟩
  requestedBy := "coding-agent"

end DoxAsdlc.Hitl
