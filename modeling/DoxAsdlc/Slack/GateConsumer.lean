import DoxAsdlc.Infrastructure.ConsumerGroup
import DoxAsdlc.Redis.MemberSet
import DoxAsdlc.Slack.Config
import Mathlib.Data.List.DropRight

/-!
# The consumer of gate requests

The loop reads the new entries of the event stream, posts each gate request to its channel and
remembers it as posted, and acknowledges the entry.  What raises is logged; the entry then
stays with the consumer.

Commands go to Redis, or to Slack.

## Main definitions

* `GateMessage`, `Store`, `serve` — what is posted, and what the consumer works on.
* `handleGateRequested`, `iteration` — one event, and one turn of the loop.
* `Happening` — what happens over a run.
-/

namespace DoxAsdlc.Slack.GateConsumer

open Interaction Interaction.Program

/-- The message about a gate request. -/
structure GateMessage where
  channel : String
  requestId : String
  gateType : String
  taskId : String
  summary : String
  evidenceUrl : String
  requester : String
  text : String
  deriving DecidableEq, Repr

/-- The event stream as the consumer's group sees it, the set of posted requests, and what was
posted to Slack. -/
structure Store where
  stream : List RawEntry
  delivered : ℕ
  pending : List ℕ
  /-- `slack_bridge:posted_requests`. -/
  posted : Redis.MemberSet String
  messages : List GateMessage

/-- Before the first event. -/
def Store.empty : Store where
  stream := []
  delivered := 0
  pending := []
  posted := .empty
  messages := []

/-- The commands to Redis and to Slack. -/
inductive Cmd where
  | xreadgroup (count : ℕ)
  | xack (eventId : Option ℕ)
  | sismember (requestId : String)
  | sadd (requestId : String)
  | expire (seconds : ℕ)
  | chatPostMessage (message : GateMessage)

/-- The answers; Slack's is the `ts` of the message. -/
abbrev Reply : Cmd → Type
  | .xreadgroup _ => List (ℕ × RawEntry)
  | .xack _ | .sismember _ | .expire _ => Bool
  | .sadd _ => ℕ
  | .chatPostMessage _ => String

/-- The commands and their answers. -/
abbrev interface : Interface := ⟨Cmd, Reply⟩

/-- The next entries of the stream, by their positions. -/
def Store.batch (w : Store) (count : ℕ) : List (ℕ × RawEntry) :=
  ((w.stream.drop w.delivered).take count).zipIdx w.delivered |>.map Prod.swap

/-- What each command does. -/
def serve : Server interface Store
  | .xreadgroup count, w =>
    ({ w with
      delivered := w.delivered + (w.batch count).length
      pending := w.pending ++ (w.batch count).map Prod.fst }, w.batch count)
  | .xack eventId, w =>
    ({ w with pending := w.pending.filter fun i => eventId ≠ some i },
      w.pending.any fun i => eventId = some i)
  | .sismember requestId, w => (w, requestId ∈ w.posted)
  | .sadd requestId, w =>
    ({ w with posted := w.posted.sadd requestId }, if requestId ∈ w.posted then 0 else 1)
  | .expire _, w => (w, !w.posted.members.isEmpty)
  | .chatPostMessage message, w =>
    ({ w with messages := w.messages ++ [message] }, toString w.messages.length)

/-- A coroutine of the consumer. -/
abbrev Async (α : Type) := Program interface Error α

/-- Issue one command. -/
def send (c : Cmd) : Async (Reply c) := command (I := interface) c

/-- `STREAM_NAME`. -/
def gateStream : String := "asdlc:events"

/-- `DUPLICATE_DETECTION_TTL`. -/
def duplicateDetectionTtl : ℕ := 86400

section

variable (codec : Codec) (config : SlackBridgeConfig)

/-- The consumer of the group. -/
def reader : ConsumerGroup.EventConsumer where
  codec := codec
  tenancy := ⟨false, "default", none⟩
  groupName := config.consumerGroup
  streamName := gateStream
  canHandle := fun t => t == .gateRequested

/-- `build_evidence_url`. -/
def buildEvidenceUrl (requestId : String) : String :=
  String.ofList (config.hitlUiBaseUrl.toList.rdropWhile (· = '/')) ++ "/gates/" ++ requestId ++ "/evidence"

/-- `is_already_posted`. -/
def isAlreadyPosted (requestId : String) : Async Bool := send (.sismember requestId)

/-- `mark_as_posted`. -/
def markAsPosted (requestId : String) : Async Unit := do
  let _ ← send (.sadd requestId)
  let _ ← send (.expire duplicateDetectionTtl)

/-- The channel that an event's gate request is routed to. -/
def channelOf (event : ASDLCEvent) : Option ChannelConfig :=
  config.getChannelForGate (event.meta "gate_type" "") (event.metadata.lookup "environment")

/-- What is posted for an event in a channel. -/
def messageOf (event : ASDLCEvent) (channelConfig : ChannelConfig) : GateMessage where
  channel := channelConfig.channelId
  requestId := event.meta "request_id" ""
  gateType := event.meta "gate_type" ""
  taskId := event.taskId.getD ""
  summary := event.meta "summary" ""
  evidenceUrl := buildEvidenceUrl config (event.meta "request_id" "")
  requester := event.meta "requested_by" ""
  text := "HITL Gate: " ++ event.meta "gate_type" ""

/-- An event without a gate type or a request id. -/
def Incomplete (event : ASDLCEvent) : Prop :=
  event.meta "gate_type" "" = "" ∨ event.meta "request_id" "" = ""

instance (event : ASDLCEvent) : Decidable (Incomplete event) := inferInstanceAs (Decidable (_ ∨ _))

/-- `handle_gate_requested`; what the `try` catches it raises again. -/
def handleGateRequested (event : ASDLCEvent) : Async Unit :=
  if Incomplete event then pure ()
  else do
    if ← isAlreadyPosted (event.meta "request_id" "") then pure ()
    else
      match channelOf config event with
      | none => pure ()
      | some channelConfig =>
        let _ ← send (.chatPostMessage (messageOf config event channelConfig))
        markAsPosted (event.meta "request_id" "")

/-- `acknowledge_event`. -/
def acknowledgeEvent (eventId : Option ℕ) : Async Bool :=
  try send (.xack eventId)
  catch e => throw (acknowledgeFailed gateStream eventId e)

/-- `read_events_from_group`. -/
def readEventsFromGroup (now : Time) (count : ℕ) : Async (List ASDLCEvent) :=
  try do
    let messages ← send (.xreadgroup count)
    answer ((reader codec config).decodeAll now messages)
  catch e => throw ((reader codec config).readFailed "read from consumer group" e)

/-- The loop over a batch.  Events of other types are passed over. -/
def handleEvents : List ASDLCEvent → Async Unit
  | [] => pure ()
  | event :: events =>
    if event.eventType = .gateRequested then do
      try
        handleGateRequested config event
        let _ ← acknowledgeEvent event.eventId
      catch _ => pure ()
      handleEvents events
    else handleEvents events

/-- One turn of the loop of `run`; what it catches it only logs. -/
def iteration (now : Time) : Async Unit :=
  try do
    let events ← readEventsFromGroup codec config now 10
    handleEvents config events
  catch _ => pure ()

end

/-- What happens over a run: an entry is added to the stream, the set of posted requests
expires, and the loop turns, which may end anywhere when the process does.  A process that is
started again finds its group and goes on with the next turn. -/
inductive Happening where
  | publish (data : RawEntry)
  | expire
  | iterate (now : Time) (outcomes : List (Outcome Error))

/-- The store after it. -/
def step (codec : Codec) (config : SlackBridgeConfig) (w : Store) : Happening → Store
  | .publish data => { w with stream := w.stream ++ [data] }
  | .expire => { w with posted := .empty }
  | .iterate now outcomes => (play serve outcomes (iteration codec config now) w).2

end DoxAsdlc.Slack.GateConsumer
