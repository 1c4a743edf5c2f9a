import DoxAsdlc.Interaction.Contract
import DoxAsdlc.Orchestrator.ManagerAgent
import DoxAsdlc.Slack.Config

/-!
# Decisions taken in Slack

A decision takes a lock, reads the status of the gate, publishes the event and writes the
status back.  The lock is set by one command and gets its time to live by the next, and
whoever releases it removes the key, whosoever it is.

## Main definitions

* `GateData`, `Lock`, `Store`, `serve` — the gates, the locks and the events.
* `acquireLock`, `releaseLock`, `checkGateStatusAndLock` — the lock.
* `handleApproval`, `handleRejection` — the decisions.
* `Phase`, `decider` — where a decision stands.
-/

namespace DoxAsdlc.Slack

open Interaction Interaction.Program

/-- The keys of the object that is stored for a gate. -/
inductive GateKey where
  | status | sessionId | taskId | gateType | decisionId | reviewer | reason | decidedAt
  deriving DecidableEq, Repr

/-- What the object holds: a text or `null`. -/
abbrev GateDatum : GateKey → Type
  | .decidedAt => Time
  | _ => Option String

/-- The object that is stored for a gate. -/
abbrev GateData := Redis.Hash GateDatum

/-- A key that is set, for ever or with a time to live. -/
inductive Lock where
  | persistent
  | volatile
  deriving DecidableEq, Repr

/-- What the handlers share. -/
structure Store where
  /-- `slack_bridge:gate:` keys. -/
  gates : Redis.Keys String GateData
  /-- `slack_bridge:lock:` keys. -/
  locks : Redis.Keys String Lock
  stream : List StreamEntry

/-- The commands. -/
inductive Cmd where
  | setnx (key : String)
  | expire (key : String) (seconds : ℕ)
  | delete (key : String)
  | get (key : String)
  | set (key : String) (data : GateData)
  | xadd (data : StreamEntry)

/-- The answers. -/
abbrev Reply : Cmd → Type
  | .setnx _ | .expire _ _ => Bool
  | .delete _ | .xadd _ => ℕ
  | .get _ => Option GateData
  | .set _ _ => Unit

/-- The commands and their answers. -/
abbrev interface : Interface := ⟨Cmd, Reply⟩

/-- What each command does. -/
def serve : Server interface Store
  | .setnx key, w =>
    match w.locks key with
    | none => ({ w with locks := Function.update w.locks key (some .persistent) }, true)
    | some _ => (w, false)
  | .expire key _, w =>
    match w.locks key with
    | none => (w, false)
    | some _ => ({ w with locks := Function.update w.locks key (some .volatile) }, true)
  | .delete key, w =>
    ({ w with locks := Function.update w.locks key none }, (w.locks key).toList.length)
  | .get key, w => (w, w.gates key)
  | .set key data, w => ({ w with gates := Function.update w.gates key (some data) }, ())
  | .xadd data, w => ({ w with stream := w.stream ++ [data] }, w.stream.length)

/-- The time to live of a key runs out. -/
def Store.expired (w : Store) (key : String) : Store :=
  if w.locks key = some .volatile then { w with locks := Function.update w.locks key none } else w

/-- A coroutine of the handler. -/
abbrev Async (α : Type) := Program interface Error α

/-- Issue a command. -/
def send (c : Cmd) : Async (Reply c) := command (I := interface) c

/-- `try: body finally: last`. -/
def ensure {α : Type} (body : Async α) (last : Async Unit) : Async α :=
  body.elim (fun a => do last; pure a) fun e => do last; throw e

/-! ## The lock -/

/-- The key of a gate's status. -/
def gateKey (requestId : String) : String := "slack_bridge:gate:" ++ requestId

/-- The key of a gate's lock. -/
def lockKey (requestId : String) : String := "slack_bridge:lock:" ++ requestId

/-- `LOCK_TTL`. -/
def lockTtl : ℕ := 30

/-- `_get_gate_status`. -/
def getGateStatus (requestId : String) : Async (Option GateData) := send (.get (gateKey requestId))

/-- `_acquire_lock`. -/
def acquireLock (requestId : String) : Async Bool := do
  let result ← send (.setnx (lockKey requestId))
  if result then
    let _ ← send (.expire (lockKey requestId) lockTtl)
  pure result

/-- `_release_lock`. -/
def releaseLock (requestId : String) : Async Unit := do
  let _ ← send (.delete (lockKey requestId))

/-- The gate is locked. -/
def beingProcessed (requestId : String) : Error where
  cls := .gateAlreadyDecided
  message := "Gate " ++ requestId ++ " is being processed by another request"

/-- There is no such gate. -/
def gateNotFound (requestId : String) : Error where
  cls := .gateNotFound
  message := "Gate " ++ requestId ++ " not found"

/-- The status of a gate. -/
def GateData.statusOf (data : GateData) : Option String := (data .status).getD (some "UNKNOWN")

/-- The gate is not pending. -/
def alreadyDecided (requestId : String) (status : Option String) : Error where
  cls := .gateAlreadyDecided
  message := "Gate " ++ requestId ++ " is already " ++ status.getD "None"

/-- `except (GateNotFoundException, GateAlreadyDecidedException)`. -/
def passedOn (e : Error) : Bool := e.cls = .gateNotFound ∨ e.cls = .gateAlreadyDecided

/-- The clauses that follow the `try` of `_check_gate_status_and_lock`. -/
def checkFailed (requestId : String) (e : Error) : Async GateData :=
  if passedOn e then throw e
  else do
    releaseLock requestId
    throw e

/-- Release the lock of a gate that cannot be decided, within the `try`. -/
def giveUp (requestId : String) (e : Error) : Async GateData := do
  releaseLock requestId
  throw e

/-- The check of the status, once the gate is locked. -/
def checkGateStatus (requestId : String) : Async GateData :=
  try do
    match ← getGateStatus requestId with
    | none => giveUp requestId (gateNotFound requestId)
    | some gateStatus =>
      if gateStatus.statusOf = some "PENDING" then pure gateStatus
      else giveUp requestId (alreadyDecided requestId gateStatus.statusOf)
  catch e => checkFailed requestId e

/-- `_check_gate_status_and_lock`. -/
def checkGateStatusAndLock (requestId : String) : Async GateData := do
  if ← acquireLock requestId then checkGateStatus requestId
  else throw (beingProcessed requestId)

/-! ## The decisions -/

/-- `publish_event_model`. -/
def publishEventModel (env : Env) (event : ASDLCEvent) : Async ℕ :=
  try send (.xadd (event.prepared env).toStreamDict)
  catch e => throw (publishFailed env event e)

/-- The user may not decide. -/
def rbacDenied (slackUserId : String) (channelConfig : ChannelConfig) : Error where
  cls := .rbacDenied
  message := "User " ++ slackUserId ++ " lacks role '" ++ channelConfig.requiredRole ++ "'"

/-- What is decided. -/
inductive Verdict where
  | approved
  | rejected (reason : String)
  deriving DecidableEq, Repr

namespace Verdict

/-- The event that is published. -/
def eventType : Verdict → EventType
  | approved => .gateApproved
  | rejected _ => .gateRejected

/-- The status that is written. -/
def status : Verdict → String
  | approved => "APPROVED"
  | rejected _ => "REJECTED"

/-- The reason of a rejection. -/
def reason? : Verdict → Option String
  | approved => none
  | rejected reason => some reason

theorem status_ne_pending (v : Verdict) : v.status ≠ "PENDING" := by
  cases v with
  | approved => decide
  | rejected reason => simp [status]

end Verdict

/-- A call of the handler: who decides, under which channel's configuration, and the time and
the identifier that it draws. -/
structure Decision where
  now : Time
  decisionId : String
  slackUserId : String
  channelConfig : ChannelConfig
  verdict : Verdict
  deriving DecidableEq, Repr

namespace Decision

variable (d : Decision) (requestId : String)

/-- The event of a decision.  A session that is `null` is refused as an empty one is. -/
def event (gateStatus : GateData) : Except Error ASDLCEvent := do
  let sessionId ← SessionId.validate (((gateStatus .sessionId).getD (some "unknown")).getD "")
  return {
    eventType := d.verdict.eventType
    sessionId := sessionId
    timestamp := d.now
    taskId := (gateStatus .taskId).join
    metadata := [("request_id", requestId), ("decision_id", d.decisionId),
        ("reviewer", d.slackUserId)] ++
      (gateStatus .gateType).join.toList.map (("gate_type", ·)) ++
      d.verdict.reason?.toList.map (("reason", ·)) }

/-- The status of a gate with a decision. -/
def decided (gateStatus : GateData) : GateData
  | .status => some (some d.verdict.status)
  | .decisionId => some (some d.decisionId)
  | .reviewer => some (some d.slackUserId)
  | .reason => (d.verdict.reason?.map some).or (gateStatus .reason)
  | .decidedAt => some d.now
  | key => gateStatus key

/-- What is done with a gate that is locked and pending. -/
def publish (env : Env) (gateStatus : GateData) : Async Bool := do
  let event ← answer (d.event requestId gateStatus)
  let _ ← publishEventModel env event
  send (.set (gateKey requestId) (d.decided gateStatus))
  pure true

/-- The `try` with its `finally`. -/
def decide (env : Env) (gateStatus : GateData) : Async Bool :=
  ensure (d.publish requestId env gateStatus) (releaseLock requestId)

/-- What both handlers do. -/
def handle (env : Env) (config : SlackBridgeConfig) : Async Bool := do
  if config.canApproveGate d.slackUserId d.channelConfig then
    let gateStatus ← checkGateStatusAndLock requestId
    d.decide requestId env gateStatus
  else throw (rbacDenied d.slackUserId d.channelConfig)

end Decision

/-- An approval. -/
def approval (now : Time) (decisionId slackUserId : String) (channelConfig : ChannelConfig) :
    Decision where
  now := now
  decisionId := decisionId
  slackUserId := slackUserId
  channelConfig := channelConfig
  verdict := .approved

/-- A rejection. -/
def rejection (now : Time) (decisionId slackUserId reason : String)
    (channelConfig : ChannelConfig) : Decision where
  now := now
  decisionId := decisionId
  slackUserId := slackUserId
  channelConfig := channelConfig
  verdict := .rejected reason

/-- `handle_approval`. -/
def handleApproval (env : Env) (config : SlackBridgeConfig) (now : Time) (decisionId : String)
    (requestId slackUserId : String) (channelConfig : ChannelConfig) : Async Bool :=
  (approval now decisionId slackUserId channelConfig).handle requestId env config

/-- `handle_rejection`. -/
def handleRejection (env : Env) (config : SlackBridgeConfig) (now : Time) (decisionId : String)
    (requestId slackUserId reason : String) (channelConfig : ChannelConfig) : Async Bool :=
  (rejection now decisionId slackUserId reason channelConfig).handle requestId env config

/-! ## The contract of a decision -/

namespace Decision

variable {env : Env} {config : SlackBridgeConfig} {d : Decision} {requestId : String}
  {A : (c : Cmd) → Except Error (Reply c) → Prop} {U : Cmd → Prop} {Q : GateData → Prop}

theorem send_meets {c : Cmd} (hc : U c) : (send c).Meets A U fun _ => True :=
  meets_command (I := interface) hc fun _ _ => trivial

section

variable (hU : ∀ c, (∀ key data, c ≠ .set key data) → (∀ data, c ≠ .xadd data) → U c)

include hU

theorem releaseLock_meets : (releaseLock requestId).Meets A U fun _ => True :=
  meets_bind (send_meets (hU _ (by simp) (by simp))) fun _ _ => trivial

theorem giveUp_meets (e : Error) : (giveUp requestId e).Meets A U Q :=
  meets_bind (releaseLock_meets hU) fun _ _ => trivial

/-- A gate that is found is one that was read, and it is pending. -/
theorem checkGateStatus_meets (hQ : ∀ key data, A (.get key) (.ok (some data)) →
      data.statusOf = some "PENDING" → Q data) :
    (checkGateStatus requestId).Meets A U Q := by
  have hget : (getGateStatus requestId).Meets A U
      fun data => A (.get (gateKey requestId)) (.ok data) :=
    meets_command (I := interface) (hU _ (by simp) (by simp)) fun _ h => h
  refine meets_tryCatch (meets_bind hget ?_) ?_
  · intro data hdata
    cases data with
    | none => exact giveUp_meets hU _
    | some gateStatus =>
      simp only
      split
      · next hpending => exact hQ _ _ hdata hpending
      · exact giveUp_meets hU _
  · intro e
    unfold checkFailed
    split
    · trivial
    · exact meets_bind (releaseLock_meets hU) fun _ _ => trivial

theorem checkGateStatusAndLock_meets (hQ : ∀ key data, A (.get key) (.ok (some data)) →
      data.statusOf = some "PENDING" → Q data) :
    (checkGateStatusAndLock requestId).Meets A U Q := by
  have hacquire : (acquireLock requestId).Meets A U fun _ => True := by
    refine meets_bind (send_meets (hU _ (by simp) (by simp))) ?_
    intro result _
    cases result with
    | false => trivial
    | true => exact meets_bind (send_meets (hU _ (by simp) (by simp))) fun _ _ => trivial
  refine meets_bind hacquire ?_
  intro locked _
  cases locked with
  | false => trivial
  | true => exact checkGateStatus_meets hU hQ

/-- **The contract of a decision.**  It reads a gate that is pending, publishes its event and
writes its status, and the user is one who may decide. -/
theorem handle_meets {R : Bool → Prop} (hQ : ∀ key data, A (.get key) (.ok (some data)) →
      data.statusOf = some "PENDING" → Q data)
    (hdecide : config.canApproveGate d.slackUserId d.channelConfig = true → ∀ gateStatus,
      Q gateStatus → (∀ event, d.event requestId gateStatus = .ok event →
        U (.xadd (event.prepared env).toStreamDict)) ∧
      U (.set (gateKey requestId) (d.decided gateStatus)) ∧ R true) :
    (d.handle requestId env config).Meets A U R := by
  unfold handle
  split
  · next hrole =>
    refine meets_bind (checkGateStatusAndLock_meets hU hQ) ?_
    intro gateStatus hgate
    obtain ⟨hevent, hset, hresult⟩ := hdecide hrole gateStatus hgate
    have hpublish : (d.publish requestId env gateStatus).Meets A U R := by
      refine meets_bind (Q := fun event => d.event requestId gateStatus = .ok event)
        (meets_answer fun _ h => h) ?_
      intro event hok
      refine meets_bind (meets_tryCatch (send_meets (hevent event hok)) fun _ => trivial) ?_
      intro _ _
      exact meets_bind (send_meets hset) fun _ _ => hresult
    exact meets_elim hpublish
      (fun _ hresult => meets_bind (releaseLock_meets hU) fun _ _ => hresult)
      fun _ => meets_bind (releaseLock_meets hU) fun _ _ => trivial
  · trivial

end

end Decision

/-! ## The phases of a decision -/

/-- Where a decision stands, by what it does next. -/
inductive Phase where
  | locking
  | guarding
  | reading
  | givingUp (e : Error)
  | abandoning (e : Error)
  | publishing (gateStatus : GateData) (event : ASDLCEvent)
  | writing (gateStatus : GateData)
  | releasing (result : Except Error Bool)
  | closed (result : Except Error Bool)

namespace Phase

variable (requestId : String) (env : Env) (d : Decision)

/-- Where a decision begins. -/
def start (config : SlackBridgeConfig) (d : Decision) : Phase :=
  if config.canApproveGate d.slackUserId d.channelConfig then locking
  else closed (.error (rbacDenied d.slackUserId d.channelConfig))

/-- What is left to do in a phase. -/
def program : Phase → Async Bool
  | locking => checkGateStatusAndLock requestId >>= d.decide requestId env
  | guarding => do
      let _ ← send (.expire (lockKey requestId) lockTtl)
      checkGateStatus requestId >>= d.decide requestId env
  | reading => checkGateStatus requestId >>= d.decide requestId env
  | givingUp e => do
      let gateStatus ← (try giveUp requestId e catch e => checkFailed requestId e)
      d.decide requestId env gateStatus
  | abandoning e => do
      releaseLock requestId
      throw e
  | publishing gateStatus event =>
    ensure (do
      let _ ← publishEventModel env event
      send (.set (gateKey requestId) (d.decided gateStatus))
      pure true) (releaseLock requestId)
  | writing gateStatus =>
    ensure (do
      send (.set (gateKey requestId) (d.decided gateStatus))
      pure true) (releaseLock requestId)
  | releasing result => ensure (answer result) (releaseLock requestId)
  | closed result => answer result

/-- The command that comes next. -/
def command (d : Decision) : Phase → Option Cmd
  | locking => some (.setnx (lockKey requestId))
  | guarding => some (.expire (lockKey requestId) lockTtl)
  | reading => some (.get (gateKey requestId))
  | givingUp _ | abandoning _ | releasing _ => some (.delete (lockKey requestId))
  | publishing _ event => some (.xadd (event.prepared env).toStreamDict)
  | writing gateStatus => some (.set (gateKey requestId) (d.decided gateStatus))
  | closed _ => none

/-- The phase after an exception within the `try`. -/
def failed (e : Error) : Phase := if passedOn e then closed (.error e) else abandoning e

/-- The phase after a pending gate was found. -/
def found (d : Decision) (gateStatus : GateData) : Phase :=
  match d.event requestId gateStatus with
  | .ok event => publishing gateStatus event
  | .error e => releasing (.error e)

/-- The phase after the status was read. -/
def checked (d : Decision) : Option GateData → Phase
  | none => givingUp (gateNotFound requestId)
  | some gateStatus =>
    if gateStatus.statusOf = some "PENDING" then found requestId d gateStatus
    else givingUp (alreadyDecided requestId gateStatus.statusOf)

/-- The phase after an exchange with the server. -/
def next : Phase → Exchange interface Error → Phase
  | locking, ⟨.setnx _, .ok result, _⟩ =>
    if result then guarding else closed (.error (beingProcessed requestId))
  | locking, ⟨.setnx _, .error e, _⟩ => closed (.error e)
  | guarding, ⟨.expire _ _, .ok _, _⟩ => reading
  | guarding, ⟨.expire _ _, .error e, _⟩ => closed (.error e)
  | reading, ⟨.get _, .ok data, _⟩ => checked requestId d data
  | reading, ⟨.get _, .error e, _⟩ => failed e
  | givingUp e, ⟨.delete _, .ok _, _⟩ => failed e
  | givingUp _, ⟨.delete _, .error e, _⟩ => failed e
  | abandoning e, ⟨.delete _, .ok _, _⟩ => closed (.error e)
  | abandoning _, ⟨.delete _, .error e, _⟩ => closed (.error e)
  | publishing gateStatus _, ⟨.xadd _, .ok _, _⟩ => writing gateStatus
  | publishing _ event, ⟨.xadd _, .error e, _⟩ => releasing (.error (publishFailed env event e))
  | writing _, ⟨.set _ _, .ok _, _⟩ => releasing (.ok true)
  | writing _, ⟨.set _ _, .error e, _⟩ => releasing (.error e)
  | releasing result, ⟨.delete _, .ok _, _⟩ => closed result
  | releasing _, ⟨.delete _, .error e, _⟩ => closed (.error e)
  | phase, _ => phase

theorem program_start (config : SlackBridgeConfig) :
    (start config d).program requestId env d = d.handle requestId env config := by
  unfold start Decision.handle
  split <;> rfl

theorem head?_program (p : Phase) :
    (p.program requestId env d).head? = p.command requestId env d := by
  cases p with
  | closed result => cases result <;> rfl
  | releasing result => cases result <;> rfl
  | _ => rfl

end Phase

/-- The machine that follows a decision. -/
def decider (requestId : String) (env : Env) (d : Decision) : Tracker interface Error Bool Phase where
  program := Phase.program requestId env d
  next := Phase.next requestId env d
  follows := by
    intro p c k h reply b
    cases p with
    | closed result => cases result <;> cases h
    | locking =>
      cases h
      cases reply with
      | error e => rfl
      | ok result =>
        cases result with
        | false => rfl
        | true =>
          apply congrArg (Program.call (I := interface) (.expire (lockKey requestId) lockTtl))
          funext r
          cases r <;> rfl
    | reading =>
      cases h
      cases reply with
      | error e =>
        by_cases he : passedOn e <;> simp [Phase.next, Phase.failed, checkFailed, he, Phase.program]
      | ok data =>
        cases data with
        | none => rfl
        | some gateStatus =>
          by_cases hpending : gateStatus.statusOf = some "PENDING"
          · cases hevent : d.event requestId gateStatus with
            | error e =>
              simp [Phase.next, Phase.checked, Phase.found, hpending, hevent, Phase.program,
                Decision.decide, Decision.publish]
            | ok event =>
              simp [Phase.next, Phase.checked, Phase.found, hpending, hevent, Phase.program,
                Decision.decide, Decision.publish]
          · simp [Phase.next, Phase.checked, hpending, Phase.program]
    | releasing result =>
      cases result <;> cases h <;> cases reply <;> rfl
    | givingUp e =>
      cases h
      cases reply with
      | ok n =>
        by_cases he : passedOn e <;> simp [Phase.next, Phase.failed, checkFailed, he, Phase.program]
      | error e' =>
        by_cases he : passedOn e' <;> simp [Phase.next, Phase.failed, checkFailed, he, Phase.program]
    | _ =>
      cases h
      cases reply <;> rfl

end DoxAsdlc.Slack
