import DoxAsdlc.Coordination.Types
import DoxAsdlc.Interaction.Program
import DoxAsdlc.Redis.SortedSet
import DoxAsdlc.Redis.MemberSet
import Mathlib.Data.String.Basic

/-!
# The coordination client

A message is kept in a hash with a time to live, and its id in a timeline, in the inbox
of the instance it is sent to, and among the pending ones while it waits for an
acknowledgement.  What is sent in one transaction is one command here; between two
commands of a call other callers may act.

A call takes the identifier that the source draws at random, and the one time it reads
off the clock, as arguments.

## Main definitions

* `CoordinationConfig` — the configuration, and the keys.
* `Store`, `Cmd`, `serve` — what the clients share, and what each command does.
* `publishMessage`, `getMessage`, `getMessages`, `acknowledgeMessage` — messages.
* `registerInstance`, `heartbeat`, `unregisterInstance`, `getPresence` — presence.
* `queueNotification`, `popNotifications` — notifications of instances that are away.
-/

namespace DoxAsdlc.Coordination

open Interaction Interaction.Program

/-- The configuration of a client. -/
structure CoordinationConfig where
  keyPrefix : String := "coord"
  presenceTimeoutMinutes : ℤ := 5
  timelineMaxSize : ℤ := 1000
  deriving DecidableEq, Repr

namespace CoordinationConfig

variable (config : CoordinationConfig)

def messageKey (messageId : String) : String := config.keyPrefix ++ ":msg:" ++ messageId

def inboxKey (instanceId : String) : String := config.keyPrefix ++ ":inbox:" ++ instanceId

def notificationQueueKey (instanceId : String) : String :=
  config.keyPrefix ++ ":notifications:" ++ instanceId

@[simp] theorem messageKey_inj {m m' : String} :
    config.messageKey m = config.messageKey m' ↔ m = m' := by
  simp [messageKey, String.append_right_inj]

@[simp] theorem inboxKey_inj {i i' : String} : config.inboxKey i = config.inboxKey i' ↔ i = i' := by
  simp [inboxKey, String.append_right_inj]

end CoordinationConfig

/-! ## The store -/

/-- The fields that an instance has in the presence hash. -/
inductive PresenceField where
  | active | lastHeartbeat | sessionId
  deriving DecidableEq, Repr

/-- What each of them holds. -/
abbrev PresenceValue : PresenceField → Type
  | .active => Bool
  | .lastHeartbeat => Time
  | .sessionId => String

/-- The fields of one instance. -/
abbrev PresenceHash := Redis.Hash PresenceValue

/-- What the clients share: one timeline, one pending set and one presence hash for a key
prefix, and keys of messages, inboxes and queues of notifications. -/
structure Store where
  messages : Redis.Keys String MessageHash
  timeline : Redis.SortedSet String Time
  inbox : String → Redis.MemberSet String
  pending : Redis.MemberSet String
  presence : Redis.Keys String PresenceHash
  /-- The newest notification is the first. -/
  notifications : String → List NotificationEvent

/-- The store before anything was written. -/
def Store.empty : Store where
  messages := fun _ => none
  timeline := .empty
  inbox := fun _ => .empty
  pending := .empty
  presence := fun _ => none
  notifications := fun _ => []

/-- The commands. `publish`, `acknowledge`, `queue` and `pop` are the transactions of the
operations they are named after. -/
inductive Cmd where
  | exists (key : String)
  | hgetall (key : String)
  | hgetAcknowledged (key : String)
  | publish (key : String) (mapping : MessageHash) (id : String) (score : Time)
      (trimStop : ℤ) (inboxKey : String) (requiresAck : Bool)
  | acknowledge (key : String) (mapping : MessageHash) (id : String)
  | smembersInbox (key : String)
  | smembersPending
  | zrangebyscore (min : Time)
  | zrevrange (start stop : ℤ)
  | hgetallPresence
  | hsetPresence (instanceId : String) (mapping : PresenceHash)
  | hdelPresence (instanceId : String)
  | queue (key : String) (value : NotificationEvent)
  | pop (key : String) (stop : ℤ)

/-- The answers. -/
abbrev Reply : Cmd → Type
  | .exists _ => Bool
  | .hgetall _ => Option MessageHash
  | .hgetAcknowledged _ => Option Bool
  | .smembersInbox _ | .smembersPending | .zrangebyscore _ | .zrevrange _ _ => List String
  | .hgetallPresence => Redis.Keys String PresenceHash
  | .pop _ _ => List NotificationEvent
  | _ => Unit

/-- The commands of the store and their answers. -/
abbrev interface : Interface := ⟨Cmd, Reply⟩

/-- What each command does. -/
def Store.serve : Server interface Store
  | .exists key, w => (w, (w.messages key).isSome)
  | .hgetall key, w => (w, w.messages key)
  | .hgetAcknowledged key, w => (w, Redis.hget (w.messages key) .acknowledged)
  | .publish key mapping id score trimStop inboxKey requiresAck, w =>
    ({ w with
        messages := w.messages.modify key (Redis.hset · mapping)
        timeline := (w.timeline.zadd id score).zremrangebyrank 0 trimStop
        inbox := Function.update w.inbox inboxKey ((w.inbox inboxKey).sadd id)
        pending := if requiresAck then w.pending.sadd id else w.pending }, ())
  | .acknowledge key mapping id, w =>
    ({ w with
        messages := w.messages.modify key (Redis.hset · mapping)
        pending := w.pending.srem id }, ())
  | .smembersInbox key, w => (w, (w.inbox key).members)
  | .smembersPending, w => (w, w.pending.members)
  | .zrangebyscore min, w =>
    (w, (w.timeline.entries.filter fun e => min ≤ e.2).map Prod.fst)
  | .zrevrange start stop, w => (w, w.timeline.zrevrange start stop)
  | .hgetallPresence, w => (w, w.presence)
  | .hsetPresence instanceId mapping, w =>
    ({ w with presence := w.presence.modify instanceId (Redis.hset · mapping) }, ())
  | .hdelPresence instanceId, w =>
    ({ w with presence := w.presence.modify instanceId fun _ => none }, ())
  | .queue key value, w =>
    ({ w with notifications :=
        Function.update w.notifications key (value :: w.notifications key) }, ())
  | .pop key stop, w =>
    ({ w with notifications := Function.update w.notifications key [] },
      Redis.range (w.notifications key) 0 stop)

/-- The time to live of a message's key runs out. -/
def Store.expire (config : CoordinationConfig) (messageId : String) (w : Store) : Store :=
  { w with messages := w.messages.modify (config.messageKey messageId) fun _ => none }

/-- A coroutine of the client. -/
abbrev Async (α : Type) := Program interface Error α

/-- Issue one command. -/
abbrev send (c : Cmd) : Async (Reply c) := command (I := interface) c

variable (config : CoordinationConfig)

/-- `except redis.RedisError as e: raise cls(f"{message}: {e}", details) from e`. -/
def onRedisError {α : Type} (cls : ErrorClass) (message : String)
    (details : List (String × Detail)) (e : Error) : Async α :=
  throw <| if e.isRedis then
    { cls, message := message ++ ": " ++ e.str, details := details ++ [("error", .text e.str)] }
  else e

/-! ## Presence -/

/-- Presence of an instance. -/
structure PresenceInfo where
  instanceId : String
  active : Bool := true
  lastHeartbeat : Time
  sessionId : Option String := none
  deriving DecidableEq, Repr

/-- No heartbeat within the timeout. -/
def PresenceInfo.isStale (p : PresenceInfo) (now : Time) (timeoutMinutes : ℤ) : Bool :=
  decide (timeoutMinutes * 60 * 1000000 < now - p.lastHeartbeat)

/-- The fields that a registration writes. -/
def registration (now : Time) (sessionId : Option String) : PresenceHash
  | .active => some true
  | .lastHeartbeat => some (wholeSeconds now)
  | .sessionId => given sessionId

def registerInstance (now : Time) (instanceId : String) (sessionId : Option String) : Async Unit :=
  try send (.hsetPresence instanceId (registration now sessionId))
  catch e =>
    onRedisError .presenceError "Failed to register instance"
      [("instance_id", .text instanceId)] e

def heartbeat (now : Time) (instanceId : String) : Async Unit :=
  try send (.hsetPresence instanceId (.field .lastHeartbeat (wholeSeconds now)))
  catch e =>
    onRedisError .presenceError "Failed to update heartbeat"
      [("instance_id", .text instanceId)] e

def unregisterInstance (instanceId : String) : Async Unit :=
  try send (.hdelPresence instanceId)
  catch e =>
    onRedisError .presenceError "Failed to unregister instance"
      [("instance_id", .text instanceId)] e

/-- What the fields of one instance say at a time. -/
def presenceInfo (now : Time) (timeoutMinutes : ℤ) (instanceId : String) (fields : PresenceHash) :
    PresenceInfo :=
  let presence : PresenceInfo := {
    instanceId
    active := (fields .active).getD false
    lastHeartbeat := (fields .lastHeartbeat).getD now
    sessionId := fields .sessionId }
  if presence.isStale now timeoutMinutes then { presence with active := false } else presence

/-- Presence of all instances that are registered. -/
def getPresence (now : Time) : Async (String → Option PresenceInfo) :=
  try do
    let data ← send .hgetallPresence
    pure fun instanceId =>
      (data instanceId).map (presenceInfo now config.presenceTimeoutMinutes instanceId)
  catch e => onRedisError .presenceError "Failed to get presence" [] e

/-! ## Notifications -/

/-- Leave a notification for an instance. -/
def queueNotification (instanceId : String) (notification : NotificationEvent) : Async Bool :=
  try do
    send (.queue (config.notificationQueueKey instanceId) notification.encoded)
    pure true
  catch e =>
    onRedisError .coordinationError "Failed to queue notification"
      [("instance_id", .text instanceId)] e

/-- Take the notifications that were left for an instance. -/
def popNotifications (instanceId : String) (limit : ℤ) : Async (List NotificationEvent) :=
  try send (.pop (config.notificationQueueKey instanceId) (limit - 1))
  catch e =>
    onRedisError .coordinationError "Failed to pop notifications"
      [("instance_id", .text instanceId)] e

/-- Leave a notification for an instance that is not active; all exceptions are dropped. -/
def queueIfOffline (now : Time) (instanceId : String) (notification : NotificationEvent) :
    Async Unit :=
  try do
    let presence ← getPresence config now
    if ((presence instanceId).map PresenceInfo.active).getD false then
      pure ()
    else
      let _ ← queueNotification config instanceId notification
  catch _ => pure ()

/-! ## Messages -/

/-- The arguments of `publish_message`. -/
structure PublishArgs where
  msgType : MessageType
  subject : String
  description : String
  fromInstance : String
  toInstance : String
  requiresAck : Bool := true
  deriving DecidableEq, Repr

namespace PublishArgs

variable (args : PublishArgs) (now : Time) (messageId : String)

/-- The message that is published. -/
def message : CoordinationMessage where
  id := messageId
  type := args.msgType
  fromInstance := args.fromInstance
  toInstance := args.toInstance
  timestamp := now
  requiresAck := args.requiresAck
  acknowledged := false
  payload := ⟨args.subject, args.description⟩

/-- The notification of it. -/
def notification : NotificationEvent where
  messageId := messageId
  msgType := args.msgType
  fromInstance := args.fromInstance
  toInstance := args.toInstance
  requiresAck := args.requiresAck
  timestamp := now

/-- The transaction that stores it. -/
def transaction : Cmd :=
  .publish (config.messageKey messageId) (args.message now messageId).publishHash messageId now
    (-config.timelineMaxSize - 1) (config.inboxKey args.toInstance) args.requiresAck

end PublishArgs

/-- The error of a message whose id is taken. -/
def messageIdExists (messageId : String) : Error where
  cls := .publishError
  message := "Message ID already exists: " ++ messageId
  details := [("message_id", .text messageId)]

/-- The `except` clauses of `publish_message`. -/
def publishFailure (messageId : String) (e : Error) : Error :=
  let wrapped (message : String) : Error := {
    cls := .publishError
    message := message ++ ": " ++ e.str
    details := [("message_id", .text messageId), ("error", .text e.str)] }
  match e.cls with
  | .publishError => e
  | .redisError => wrapped "Failed to publish message"
  | _ => wrapped "Unexpected error publishing message"

/-- Publish a message. -/
def publishMessage (now : Time) (messageId : String) (args : PublishArgs) :
    Async CoordinationMessage :=
  try do
    if ← send (.exists (config.messageKey messageId)) then
      throw (messageIdExists messageId)
    else do
      send (args.transaction config now messageId)
      if args.toInstance = "all" then pure ()
      else queueIfOffline config now args.toInstance (args.notification now messageId)
      pure (args.message now messageId)
  catch e => throw (publishFailure messageId e)

/-- One message by its id. -/
def getMessage (messageId : String) : Async (Option CoordinationMessage) :=
  try do
    match ← send (.hgetall (config.messageKey messageId)) with
    | none => pure none
    | some data => some <$> answer (hashToMessage data)
  catch e =>
    onRedisError .coordinationError "Failed to get message"
      [("message_id", .text messageId)] e

namespace MessageQuery

/-- The filters that are applied to the messages fetched. -/
def admits (query : MessageQuery) (m : CoordinationMessage) : Bool :=
  (given query.fromInstance).all (m.fromInstance == ·) && query.msgType.all (m.type == ·) &&
    query.since.all (· ≤ m.timestamp)

end MessageQuery

/-- Fetch the messages of some ids, and keep those that the filters admit. -/
def fetchMessages (query : MessageQuery) : List String → Async (List CoordinationMessage)
  | [] => return []
  | messageId :: ids => do
      let kept ← match ← send (.hgetall (config.messageKey messageId)) with
        | none => pure []
        | some data => do
            let m ← answer (hashToMessage data)
            pure (if query.admits m then [m] else [])
      return kept ++ (← fetchMessages query ids)

/-- The order of `key=lambda m: m.timestamp, reverse=True`. -/
def NotOlder (m m' : CoordinationMessage) : Prop := m'.timestamp ≤ m.timestamp

instance : DecidableRel NotOlder := fun m m' =>
  inferInstanceAs (Decidable (m'.timestamp ≤ m.timestamp))

instance : IsTrans CoordinationMessage NotOlder := ⟨fun _ _ _ h h' => le_trans (α := ℤ) h' h⟩

instance : Std.Total NotOlder := ⟨fun _ _ => le_total (α := ℤ) _ _⟩

/-- Newest first. -/
def sortMessages (messages : List CoordinationMessage) : List CoordinationMessage :=
  messages.insertionSort NotOlder

/-- The ids of an inbox, when one is asked for. -/
def inboxIds (query : MessageQuery) : Async (Option (List String)) :=
  match given query.toInstance with
  | none => pure none
  | some toInstance => some <$> send (.smembersInbox (config.inboxKey toInstance))

/-- Of these ids, or of all, those that are pending. -/
def pendingIds (messageIds : Option (List String)) : Async (List String) := do
  let pending ← send .smembersPending
  pure (match messageIds with
    | some ids => ids.filter (· ∈ pending)
    | none => pending)

/-- The ids of the timeline: those since a time, or the most recent. -/
def timelineIds (query : MessageQuery) : Async (List String) :=
  match query.since with
  | some since => send (.zrangebyscore since)
  | none => send (.zrevrange 0 (query.limit * 2 - 1))

/-- The ids among which the messages asked for are sought. -/
def candidateIds (query : MessageQuery) : Async (List String) := do
  let messageIds ← inboxIds config query
  if query.pendingOnly then pendingIds messageIds
  else match messageIds with
    | some ids => pure ids
    | none => timelineIds query

/-- The messages asked for. -/
def getMessages (order : Redis.IterationOrder String) (query : MessageQuery) :
    Async (List CoordinationMessage) :=
  try do
    let messageIds ← candidateIds config query
    let messages ← fetchMessages config query (order.list messageIds)
    pure ((sortMessages messages).take query.limit)
  catch e => onRedisError .coordinationError "Failed to query messages" [] e

/-- Acknowledge a message. -/
def acknowledgeMessage (now : Time) (messageId ackBy : String) (comment : Option String) :
    Async Bool :=
  try do
    if ← send (.exists (config.messageKey messageId)) then do
      if (← send (.hgetAcknowledged (config.messageKey messageId))) = some true then
        pure true
      else do
        send (.acknowledge (config.messageKey messageId) (ackData ackBy now comment) messageId)
        pure true
    else
      pure false
  catch e =>
    onRedisError .acknowledgeError "Failed to acknowledge message"
      [("message_id", .text messageId)] e

end DoxAsdlc.Coordination
