import DoxAsdlc.Core.RawEvents
import DoxAsdlc.Infrastructure.EventConsumer
import DoxAsdlc.Interaction.Respond

/-!
# The consumers of a group

The consumer of `consumer_group.py` for any handler: its live path reads a batch and handles
each event of it, its recovery claims what others left pending for too long and handles that.
The consumer of the worker pool reads and claims in the same way and hands the events of one
type on.

Commands go to Redis, or to the handler.

## Main definitions

* `Cmd`, `EventConsumer` — the commands, and a consumer.
* `handleEvent`, `processOnce` — the live path.
* `recoverEvent`, `processPending`, `RecoveryResult` — the recovery.
* `readEvents`, `claimStaleEvents` — the consumer of the worker pool.
-/

namespace DoxAsdlc.ConsumerGroup

open Interaction Interaction.Program

/-- What is known of an entry of the pending list. -/
structure PendingInfo where
  messageId : ℕ
  timeSinceDelivered : ℕ
  deriving DecidableEq, Repr

/-- The commands to Redis and to the handler. -/
inductive Cmd where
  | exists (key : String)
  | set (key : String) (eventId : Option ℕ)
  | xack (eventId : Option ℕ)
  | handle (event : ASDLCEvent)
  | xreadgroup (count : ℕ)
  | xpendingRange (count : ℕ)
  | xclaim (minIdleTime : ℕ) (messageIds : List ℕ)
  deriving DecidableEq

/-- The answers; an entry that was deleted from the stream comes without fields. -/
abbrev Reply : Cmd → Type
  | .exists _ | .xack _ => Bool
  | .set _ _ => Unit
  | .handle _ => HandlerResult
  | .xreadgroup _ | .xclaim _ _ => List (ℕ × RawEntry)
  | .xpendingRange _ => List PendingInfo

/-- The commands and their answers. -/
abbrev interface : Interface := ⟨Cmd, Reply⟩

/-- A coroutine of a consumer. -/
abbrev Async (α : Type) := Program interface Error α

/-- Issue a command. -/
def send (c : Cmd) : Async (Reply c) := .call (I := interface) c answer

/-- A consumer of a group with its handler's `can_handle`. -/
structure EventConsumer where
  codec : Codec
  tenancy : Tenancy
  groupName : String
  streamName : String
  canHandle : EventType → Bool
  batchSize : ℕ := 10

/-- The stale limit, in milliseconds. -/
def staleLimit : ℕ := 60000

/-- The ids of the entries that have been pending for too long. -/
def staleIds (pending : List PendingInfo) (minIdleMs : ℕ) : List ℕ :=
  (pending.filter fun p => minIdleMs ≤ p.timeSinceDelivered).map PendingInfo.messageId

namespace EventConsumer

variable (c : EventConsumer)

/-- `IdempotencyTracker._get_key`. -/
def getKey (idempotencyKey : String) : String :=
  c.tenancy.key ("asdlc:processed:" ++ idempotencyKey)

/-- What a Redis error of reading becomes. -/
def readFailed (doing : String) (e : Error) : Error :=
  if e.isRedis then
    { cls := .streamError
      message := "Failed to " ++ doing ++ ": " ++ e.str
      details := [("group", .text c.groupName), ("stream", .text c.streamName)] }
  else e

def acknowledgeEvent (eventId : Option ℕ) : Async Bool :=
  try send (.xack eventId)
  catch e => throw (acknowledgeFailed c.streamName eventId e)

/-- `idempotency_key and await tracker.is_processed(idempotency_key)`. -/
def alreadyProcessed (event : ASDLCEvent) : Async Bool :=
  match given event.idempotencyKey with
  | none => pure false
  | some key => send (.exists (c.getKey key))

/-- Mark the key, if there is one, and acknowledge. -/
def settle (event : ASDLCEvent) (eventId : Option ℕ) : Async Unit := do
  match given event.idempotencyKey with
  | none => pure ()
  | some key => send (.set (c.getKey key) eventId)
  let _ ← c.acknowledgeEvent eventId

/-! ## The live path -/

/-- What becomes of an event after the handler's answer. -/
def conclude (event : ASDLCEvent) (result : HandlerResult) : Async Unit :=
  if result.success then c.settle event event.eventId
  else if result.shouldRetry then pure ()
  else do let _ ← c.acknowledgeEvent event.eventId

/-- `_handle_event`. -/
def handleEvent (event : ASDLCEvent) : Async Unit := do
  if c.canHandle event.eventType then
    if ← c.alreadyProcessed event then
      let _ ← c.acknowledgeEvent event.eventId
    else
      try do
        let result ← send (.handle event)
        c.conclude event result
      catch _ => pure ()
  else
    let _ ← c.acknowledgeEvent event.eventId

/-- Decode a batch; the first entry that is no event raises. -/
def decodeAll (now : Time) : List (ℕ × RawEntry) → Except Error (List ASDLCEvent)
  | [] => .ok []
  | (messageId, data) :: rest => do
      let event ← ASDLCEvent.ofRaw c.codec now messageId data
      let events ← decodeAll now rest
      return event :: events

/-- `read_events_from_group`. -/
def readEventsFromGroup (now : Time) : Async (List ASDLCEvent) :=
  try do
    let messages ← send (.xreadgroup c.batchSize)
    answer (c.decodeAll now messages)
  catch e => throw (c.readFailed "read from consumer group" e)

/-- The loop over a batch. -/
def handleEvents : List ASDLCEvent → Async ℕ
  | [] => pure 0
  | event :: events => do
      let handled ← (try do
          c.handleEvent event
          pure 1
        catch _ => pure 0)
      let processed ← handleEvents events
      pure (handled + processed)

/-- `_process_once`. -/
def processOnce (now : Time) : Async ℕ := do
  let events ← c.readEventsFromGroup now
  c.handleEvents events

end EventConsumer

/-! ## The recovery -/

/-- `RecoveryResult`. -/
structure RecoveryResult where
  processed : ℕ := 0
  skipped : ℕ := 0
  failed : ℕ := 0
  claimed : ℕ := 0
  deriving DecidableEq, Repr

/-- `RecoveryResult.total`. -/
def RecoveryResult.total (r : RecoveryResult) : ℕ :=
  r.processed + r.skipped + r.failed + r.claimed

/-- What was decided about a claimed event. -/
inductive Verdict where
  | processed
  | skipped
  | failed
  deriving DecidableEq, Repr

/-- Count one more event. -/
def RecoveryResult.count (r : RecoveryResult) : Verdict → RecoveryResult
  | .processed => { r with processed := r.processed + 1 }
  | .skipped => { r with skipped := r.skipped + 1 }
  | .failed => { r with failed := r.failed + 1 }

namespace EventConsumer

variable (c : EventConsumer)

/-- What becomes of a claimed event after the handler's answer. -/
def concludeRecovery (event : ASDLCEvent) (messageId : ℕ) (result : HandlerResult) :
    Async Verdict :=
  if result.success then do
    c.settle event (some messageId)
    pure .processed
  else if result.shouldRetry then pure .failed
  else do
    let _ ← c.acknowledgeEvent (some messageId)
    pure .failed

/-- The decision about one claimed event. -/
def recoverEvent (messageId : ℕ) (event : ASDLCEvent) : Async Verdict := do
  if ← c.alreadyProcessed event then
    let _ ← c.acknowledgeEvent (some messageId)
    pure .skipped
  else if c.canHandle event.eventType then
    try do
      let result ← send (.handle event)
      c.concludeRecovery event messageId result
    catch _ => pure .failed
  else
    let _ ← c.acknowledgeEvent (some messageId)
    pure .skipped

/-- One claimed entry with its fields. -/
def recoverEntry (now : Time) (messageId : ℕ) (data : RawEntry) : Async Verdict := do
  let event ← answer (ASDLCEvent.ofRaw c.codec now messageId data)
  c.recoverEvent messageId event

/-- The loop over the claimed entries. A Redis error ends it with what was counted so far,
any other error leaves `process_pending`. -/
def recoverEntries (now : Time) : RecoveryResult → List (ℕ × RawEntry) → Async RecoveryResult
  | counts, [] => pure counts
  | counts, (messageId, data) :: rest =>
    if data = [] then recoverEntries now counts rest
    else
      (c.recoverEntry now messageId data).elim
        (fun verdict => recoverEntries now (counts.count verdict) rest)
        (fun e => if e.isRedis then pure counts else throw e)

/-- `get_pending_events`. -/
def getPendingEvents (count : ℕ) : Async (List PendingInfo) :=
  try send (.xpendingRange count)
  catch e => throw (c.readFailed "get pending events" e)

/-- `process_pending`. -/
def processPending (now : Time) : Async RecoveryResult := do
  let pending ← c.getPendingEvents 100
  let ids := staleIds pending staleLimit
  if pending = [] ∨ ids = [] then pure {}
  else
    (send (.xclaim staleLimit ids)).elim
      (fun claimed => c.recoverEntries now { claimed := claimed.length } claimed)
      (fun e => if e.isRedis then pure {} else throw e)

/-! ## The consumer of the worker pool -/

/-- The loop of `read_events`: events of other types are acknowledged at once. -/
def readMessages (now : Time) : List (ℕ × RawEntry) → Async (List ASDLCEvent)
  | [] => pure []
  | (messageId, data) :: rest => do
      let event ← answer (ASDLCEvent.ofRaw c.codec now messageId data)
      if event.eventType = .agentStarted then
        let events ← readMessages now rest
        pure (event :: events)
      else
        let _ ← c.acknowledgeEvent (some messageId)
        readMessages now rest

/-- `read_events`. -/
def readEvents (now : Time) : Async (List ASDLCEvent) :=
  try do
    let messages ← send (.xreadgroup c.batchSize)
    c.readMessages now messages
  catch e => throw (c.readFailed "read events from stream" e)

/-- The loop of `claim_stale_events`. -/
def claimedEvents (now : Time) : List (ℕ × RawEntry) → Except Error (List ASDLCEvent)
  | [] => .ok []
  | (messageId, data) :: rest =>
    if data = [] then claimedEvents now rest
    else do
      let event ← ASDLCEvent.ofRaw c.codec now messageId data
      let events ← claimedEvents now rest
      return if event.eventType = .agentStarted then event :: events else events

/-- `claim_stale_events`. -/
def claimStaleEvents (now : Time) (minIdleMs count : ℕ) : Async (List ASDLCEvent) :=
  try do
    let pending ← send (.xpendingRange count)
    let ids := staleIds pending minIdleMs
    if ids = [] then pure []
    else
      let claimed ← send (.xclaim minIdleMs ids)
      answer (c.claimedEvents now claimed)
  catch e => if e.isRedis then pure [] else throw e

end EventConsumer

/-! ## The consumer of the manager -/

/-- The consumer of the manager's group. -/
def managerConsumer (env : Env) (codec : Codec) (groupName : String) : EventConsumer where
  codec := codec
  tenancy := env.tenancy
  groupName := groupName
  streamName := streamName env
  canHandle := canHandle

/-- The commands over the manager's store; batches are read elsewhere. -/
def carryOut (env : Env) (now : Time) : (cmd : Cmd) → DoxAsdlc.Async (Reply cmd)
  | .exists key => Async.send (.exists key)
  | .set key eventId => Async.send (.set key eventId)
  | .xack eventId => Async.send (.xack .manager eventId)
  | .handle event => handle env now event
  | .xreadgroup _ | .xpendingRange _ | .xclaim _ _ => pure []

section

variable (env : Env) (codec : Codec) (groupName : String) (now : Time) (event : ASDLCEvent)

theorem translate_send (cmd : Cmd) : (send cmd).translate (carryOut env now) = carryOut env now cmd :=
  elim_ret_raise _

theorem translate_acknowledgeEvent (eventId : Option ℕ) :
    ((managerConsumer env codec groupName).acknowledgeEvent eventId).translate (carryOut env now)
      = DoxAsdlc.acknowledgeEvent env .manager eventId := by
  rw [EventConsumer.acknowledgeEvent, tryCatch_eq, translate_elim, translate_send]
  rfl

theorem translate_acknowledge (eventId : Option ℕ) :
    ((managerConsumer env codec groupName).acknowledgeEvent eventId
        >>= fun _ => (pure () : Async Unit)).translate (carryOut env now)
      = DoxAsdlc.acknowledgeEvent env .manager eventId >>= fun _ => pure () := by
  rw [translate_bind, translate_acknowledgeEvent]
  rfl

theorem translate_alreadyProcessed :
    ((managerConsumer env codec groupName).alreadyProcessed event).translate (carryOut env now)
      = DoxAsdlc.alreadyProcessed env event := by
  unfold EventConsumer.alreadyProcessed DoxAsdlc.alreadyProcessed
  cases given event.idempotencyKey with
  | none => rfl
  | some key => exact translate_send env now _

theorem translate_settle :
    ((managerConsumer env codec groupName).settle event event.eventId).translate (carryOut env now)
      = DoxAsdlc.settle env event := by
  unfold EventConsumer.settle DoxAsdlc.settle
  cases given event.idempotencyKey with
  | none => exact translate_acknowledge env codec groupName now event.eventId
  | some key =>
    refine (translate_bind _ _ _).trans ?_
    rw [translate_send]
    congr 1
    funext _
    exact translate_acknowledge env codec groupName now event.eventId

theorem translate_conclude (result : HandlerResult) :
    ((managerConsumer env codec groupName).conclude event result).translate (carryOut env now)
      = DoxAsdlc.conclude env event result := by
  unfold EventConsumer.conclude DoxAsdlc.conclude
  split
  · exact translate_settle env codec groupName now event
  · split
    · rfl
    · exact translate_acknowledge env codec groupName now event.eventId

/-- With the manager as the handler this is the live path of the manager's group. -/
theorem translate_handleEvent :
    ((managerConsumer env codec groupName).handleEvent event).translate (carryOut env now)
      = DoxAsdlc.handleEvent env now event := by
  unfold EventConsumer.handleEvent DoxAsdlc.handleEvent
  split
  · next hhandles =>
    have hhandles : canHandle event.eventType = true := hhandles
    rw [if_pos hhandles, translate_bind, translate_alreadyProcessed]
    congr 1
    funext processed
    cases processed with
    | true => exact translate_acknowledge env codec groupName now event.eventId
    | false =>
      simp only [Bool.false_eq_true, if_false, DoxAsdlc.process, tryCatch_eq]
      rw [translate_elim, translate_bind, translate_send]
      simp only [translate_conclude]
      rfl
  · next hhandles =>
    have hhandles : ¬ canHandle event.eventType = true := hhandles
    rw [if_neg hhandles]
    exact translate_acknowledge env codec groupName now event.eventId

end

end DoxAsdlc.ConsumerGroup
