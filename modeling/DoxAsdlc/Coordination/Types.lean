import DoxAsdlc.Core.Events

/-!
# Coordination messages

The messages that instances leave for one another, the hash a message is stored in,
and the notifications that are queued for an instance that is away.  Both encodings
keep times to the second.

## Main definitions

* `MessageType`, `CoordinationMessage`, `NotificationEvent`, `MessageQuery` — the data.
* `MessageHash`, `hashToMessage` — the stored message, and how it is decoded.
-/

namespace DoxAsdlc.Coordination

/-- The types of message. -/
inductive MessageType where
  | readyForReview | reviewComplete | reviewFailed
  | contractChangeProposed | contractReviewNeeded | contractFeedback | contractApproved
  | contractRejected
  | metaChangeRequest | metaChangeComplete
  | interfaceUpdate | blockingIssue | general
  | statusUpdate | heartbeat
  | notification
  | devopsStarted | devopsStepUpdate | devopsComplete | devopsFailed
  | sessionStart | sessionEnd
  | swarmStarted | swarmReviewerComplete | swarmComplete | swarmFailed
  deriving DecidableEq, Repr

/-- `strftime("%Y-%m-%dT%H:%M:%SZ")` and back: the fraction of the second is lost. -/
def wholeSeconds (t : Time) : Time := t - t % 1000000

theorem wholeSeconds_le (t : ℤ) : wholeSeconds t ≤ t := by
  have hfraction : t - t % 1000000 ≤ t := by omega
  exact hfraction

theorem wholeSeconds_mono {t t' : ℤ} (h : t ≤ t') : wholeSeconds t ≤ wholeSeconds t' := by
  have hle : t - t % 1000000 ≤ t' - t' % 1000000 := by omega
  exact hle

/-- The content of a message. -/
structure MessagePayload where
  subject : String
  description : String
  deriving DecidableEq, Repr

/-- A message. -/
@[ext] structure CoordinationMessage where
  id : String
  type : MessageType
  fromInstance : String
  toInstance : String
  timestamp : Time
  requiresAck : Bool := true
  acknowledged : Bool := false
  payload : MessagePayload
  ackBy : Option String := none
  ackTimestamp : Option Time := none
  ackComment : Option String := none
  deriving DecidableEq, Repr

/-- A notification that a message was published. -/
structure NotificationEvent where
  event : String := "message_published"
  messageId : String
  msgType : MessageType
  fromInstance : String
  toInstance : String
  requiresAck : Bool
  timestamp : Time
  deriving DecidableEq, Repr

/-- What `to_json` writes and `from_json` reads back. -/
def NotificationEvent.encoded (n : NotificationEvent) : NotificationEvent :=
  { n with timestamp := wholeSeconds n.timestamp }

/-- What is asked for in a query. -/
structure MessageQuery where
  toInstance : Option String := none
  fromInstance : Option String := none
  msgType : Option MessageType := none
  pendingOnly : Bool := false
  since : Option Time := none
  limit : ℕ := 100
  one_le_limit : 1 ≤ limit := by decide
  limit_le : limit ≤ 1000 := by decide

/-- The fields of a message's hash. -/
inductive MessageField where
  | id | type | fromInstance | toInstance | timestamp | requiresAck | acknowledged | subject
  | description | ackBy | ackTimestamp | ackComment
  deriving DecidableEq, Repr

/-- What each field of a message's hash holds. -/
abbrev MessageValue : MessageField → Type
  | .type => MessageType
  | .timestamp | .ackTimestamp => Time
  | .requiresAck | .acknowledged => Bool
  | _ => String

/-- A stored message. -/
abbrev MessageHash := Redis.Hash MessageValue

/-- The hash that `publish_message` stores. -/
def CoordinationMessage.publishHash (m : CoordinationMessage) : MessageHash
  | .id => some m.id
  | .type => some m.type
  | .fromInstance => some m.fromInstance
  | .toInstance => some m.toInstance
  | .timestamp => some (wholeSeconds m.timestamp)
  | .requiresAck => some m.requiresAck
  | .acknowledged => some false
  | .subject => some m.payload.subject
  | .description => some m.payload.description
  | .ackBy | .ackTimestamp | .ackComment => none

/-- The fields that `acknowledge_message` writes. -/
def ackData (ackBy : String) (ackTimestamp : Time) (comment : Option String) : MessageHash
  | .acknowledged => some true
  | .ackBy => some ackBy
  | .ackTimestamp => some (wholeSeconds ackTimestamp)
  | .ackComment => given comment
  | _ => none

/-- `msg_hash[field]`: a missing field is a `KeyError`. -/
def required (data : MessageHash) (field : MessageField) (name : String) :
    Except Error (MessageValue field) :=
  match data field with
  | some v => .ok v
  | none => .error { cls := .keyError, message := name }

/-- `_hash_to_message`. -/
def hashToMessage (data : MessageHash) : Except Error CoordinationMessage := do
  let id ← required data .id "id"
  let type ← required data .type "type"
  let fromInstance ← required data .fromInstance "from"
  let toInstance ← required data .toInstance "to"
  let timestamp ← required data .timestamp "timestamp"
  return {
    id := id
    type := type
    fromInstance := fromInstance
    toInstance := toInstance
    timestamp := timestamp
    requiresAck := (data .requiresAck).getD true
    acknowledged := (data .acknowledged).getD false
    payload := ⟨(data .subject).getD "", (data .description).getD ""⟩
    ackBy := given (data .ackBy)
    ackTimestamp := data .ackTimestamp
    ackComment := given (data .ackComment) }

/-- The fields without which a hash does not decode. -/
def MessageField.mandatory : List MessageField := [.id, .type, .fromInstance, .toInstance, .timestamp]

/-- A hash decodes when it has the mandatory fields. -/
theorem hashToMessage_isOk {data : MessageHash} :
    (∃ m, hashToMessage data = .ok m) ↔ ∀ f ∈ MessageField.mandatory, data f ≠ none := by
  cases hid : data .id <;> cases htype : data .type <;> cases hfrom : data .fromInstance <;>
    cases hto : data .toInstance <;> cases htime : data .timestamp <;>
    simp [hashToMessage, required, MessageField.mandatory, hid, htype, hfrom, hto, htime, bind,
      Except.bind, pure, Except.pure]

/-- What a hash decodes to. -/
theorem hashToMessage_eq_ok {data : MessageHash} {m : CoordinationMessage} :
    hashToMessage data = .ok m ↔
      (data .id = some m.id ∧ data .type = some m.type ∧
        data .fromInstance = some m.fromInstance ∧ data .toInstance = some m.toInstance ∧
        data .timestamp = some m.timestamp) ∧
      (data .requiresAck).getD true = m.requiresAck ∧
      (data .acknowledged).getD false = m.acknowledged ∧
      ⟨(data .subject).getD "", (data .description).getD ""⟩ = m.payload ∧
      given (data .ackBy) = m.ackBy ∧ data .ackTimestamp = m.ackTimestamp ∧
      given (data .ackComment) = m.ackComment := by
  cases hid : data .id <;> cases htype : data .type <;> cases hfrom : data .fromInstance <;>
    cases hto : data .toInstance <;> cases htime : data .timestamp <;>
    simp [hashToMessage, required, hid, htype, hfrom, hto, htime, bind, Except.bind, pure,
      Except.pure, CoordinationMessage.ext_iff, and_assoc]

end DoxAsdlc.Coordination
