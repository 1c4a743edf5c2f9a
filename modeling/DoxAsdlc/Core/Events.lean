import DoxAsdlc.Core.Exceptions
import DoxAsdlc.Redis.Hash
import Mathlib.Data.List.Infix

/-!
# Events

The event model of the stream: the event types, the event with its validated session
id, its encoding as a stream entry and back, and the deterministic idempotency key.

The key is a digest of the identifying fields of the event; the digest itself,
`sha256(..).hexdigest()[:32]`, is a parameter wherever a key is computed.

## Main definitions

* `EventType`, `SessionId`, `ASDLCEvent` — the event model.
* `ASDLCEvent.toStreamDict`, `ASDLCEvent.fromStreamDict` — the stream encoding.
* `generateIdempotencyKey` — the key under which deliveries are deduplicated.
* `HandlerResult` — what a handler answers.
-/

namespace DoxAsdlc

/-- All event types in the workflow. -/
inductive EventType where
  | sessionStarted | sessionCompleted
  | taskCreated | taskDispatched | taskCompleted | taskFailed
  | gateRequested | gateApproved | gateRejected | gateExpired
  | agentStarted | agentCompleted | agentError
  | patchCreated | patchApplied | patchRejected
  deriving DecidableEq, Repr

/-- The text that stands for an event type in the stream. -/
def EventType.value : EventType → String
  | .sessionStarted => "session_started"
  | .sessionCompleted => "session_completed"
  | .taskCreated => "task_created"
  | .taskDispatched => "task_dispatched"
  | .taskCompleted => "task_completed"
  | .taskFailed => "task_failed"
  | .gateRequested => "gate_requested"
  | .gateApproved => "gate_approved"
  | .gateRejected => "gate_rejected"
  | .gateExpired => "gate_expired"
  | .agentStarted => "agent_started"
  | .agentCompleted => "agent_completed"
  | .agentError => "agent_error"
  | .patchCreated => "patch_created"
  | .patchApplied => "patch_applied"
  | .patchRejected => "patch_rejected"

/-! ## Texts -/

/-- `part in s`. -/
def contains (part s : String) : Bool := decide (part.toList <:+: s.toList)

/-- An optional text that counts as true in a condition: neither `None` nor empty. -/
def given (s : Option String) : Option String := s.filter (· ≠ "")

@[simp] theorem given_none : given none = none := rfl
theorem given_some (s : String) : given (some s) = if s = "" then none else some s := by
  by_cases h : s = "" <;> simp [given, Option.filter, h]

theorem given_eq_some {s : Option String} {t : String} : given s = some t ↔ s = some t ∧ t ≠ "" := by
  simp [given, Option.filter_eq_some_iff]

/-- The white space that `str.strip` removes. -/
def isSpace (c : Char) : Bool :=
  let n := c.toNat
  (0x09 ≤ n && n ≤ 0x0d) || (0x1c ≤ n && n ≤ 0x20) || n == 0x85 || n == 0xa0 || n == 0x1680 ||
    (0x2000 ≤ n && n ≤ 0x200a) || n == 0x2028 || n == 0x2029 || n == 0x202f || n == 0x205f ||
    n == 0x3000

/-- `not s or not s.strip()`. -/
def blank (s : String) : Bool := s.toList.all isSpace

theorem blank_s : blank "s" = false := by decide

/-- A session id that an event may carry: `__post_init__` refuses a blank one. -/
def SessionId := { s : String // blank s = false }

instance : DecidableEq SessionId := inferInstanceAs (DecidableEq { s : String // blank s = false })

/-- The check that `__post_init__` makes. -/
def SessionId.validate (s : String) : Except Error SessionId :=
  if h : blank s = false then .ok ⟨s, h⟩
  else .error { cls := .valueError, message := "session_id is required and cannot be empty" }

theorem SessionId.validate_val (s : SessionId) : SessionId.validate s.val = .ok s := by
  have hs : blank s.val = false := s.property
  simp only [validate, hs, dite_true]
  rfl

theorem SessionId.validate_eq_ok {s : String} {sid : SessionId} :
    SessionId.validate s = .ok sid ↔ sid.val = s := by
  constructor
  · intro h
    unfold validate at h
    split at h
    · injection h with h
      subst h
      rfl
    · cases h
  · rintro rfl
    exact validate_val sid

/-! ## The event -/

/-- The event model. The metadata are the texts its handlers read; `eventId` is the
position of the entry in the stream, assigned when it is read back. -/
structure ASDLCEvent where
  eventType : EventType
  sessionId : SessionId
  timestamp : Time
  eventId : Option ℕ := none
  epicId : Option String := none
  taskId : Option String := none
  gitSha : Option String := none
  artifactPaths : List String := []
  mode : String := "normal"
  tenantId : Option String := none
  idempotencyKey : Option String := none
  metadata : List (String × String) := []
  deriving DecidableEq

/-- `metadata.get(key, default)`. -/
def ASDLCEvent.meta (e : ASDLCEvent) (key default : String) : String :=
  (e.metadata.lookup key).getD default

/-- The fields of a stream entry. -/
inductive EventField where
  | eventType | sessionId | timestamp | mode | epicId | taskId | gitSha | artifactPaths
  | tenantId | idempotencyKey | metadata
  deriving DecidableEq, Repr

/-- What each field of a stream entry holds. -/
abbrev EventValue : EventField → Type
  | .eventType => EventType
  | .timestamp => Time
  | .metadata => List (String × String)
  | _ => String

/-- A stream entry. -/
abbrev StreamEntry := Redis.Hash EventValue

/-- A list of paths as one text, absent when there are none. -/
def joinPaths (paths : List String) : Option String :=
  if paths = [] then none else some (",".intercalate paths)

/-- The paths of a joined text. -/
def splitPaths (text : Option String) : List String :=
  match given text with
  | none => []
  | some t => t.splitOn ","

/-- `to_stream_dict`: empty optional fields are left out. -/
def ASDLCEvent.toStreamDict (e : ASDLCEvent) : StreamEntry
  | .eventType => some e.eventType
  | .sessionId => some e.sessionId.val
  | .timestamp => some e.timestamp
  | .mode => some e.mode
  | .epicId => given e.epicId
  | .taskId => given e.taskId
  | .gitSha => given e.gitSha
  | .artifactPaths => joinPaths e.artifactPaths
  | .tenantId => given e.tenantId
  | .idempotencyKey => given e.idempotencyKey
  | .metadata => if e.metadata = [] then none else some e.metadata

/-- `from_stream_dict`: absent fields take their defaults, and a blank session id is
refused by the event's own check. -/
def ASDLCEvent.fromStreamDict (now : Time) (eventId : ℕ) (data : StreamEntry) :
    Except Error ASDLCEvent := do
  let sessionId ← SessionId.validate ((data .sessionId).getD "")
  return {
    eventId := some eventId
    eventType := (data .eventType).getD .taskCreated
    sessionId := sessionId
    epicId := data .epicId
    taskId := data .taskId
    gitSha := data .gitSha
    artifactPaths := splitPaths (data .artifactPaths)
    mode := (data .mode).getD "normal"
    tenantId := data .tenantId
    timestamp := (data .timestamp).getD now
    idempotencyKey := data .idempotencyKey
    metadata := (data .metadata).getD [] }

/-- What survives the stream: empty optional texts come back as `None`, and paths
that contain a comma come back split. -/
def ASDLCEvent.received (e : ASDLCEvent) (eventId : ℕ) : ASDLCEvent :=
  { e with
    eventId := some eventId
    epicId := given e.epicId
    taskId := given e.taskId
    gitSha := given e.gitSha
    artifactPaths := splitPaths (joinPaths e.artifactPaths)
    tenantId := given e.tenantId
    idempotencyKey := given e.idempotencyKey }

/-- An event that was published can be read back. -/
theorem ASDLCEvent.fromStreamDict_toStreamDict (e : ASDLCEvent) (now : Time) (i : ℕ) :
    ASDLCEvent.fromStreamDict now i e.toStreamDict = .ok (e.received i) := by
  have hmeta : (e.toStreamDict .metadata).getD [] = e.metadata := by
    by_cases h : e.metadata = [] <;> simp [toStreamDict, h]
  simp only [fromStreamDict, toStreamDict, Option.getD_some, SessionId.validate_val] at hmeta ⊢
  simp only [received, hmeta]
  rfl

/-- Whether an entry can be read depends neither on the clock nor on its position. -/
theorem ASDLCEvent.fromStreamDict_error {now now' : Time} {i i' : ℕ} {data : StreamEntry}
    {err : Error} (h : ASDLCEvent.fromStreamDict now i data = .error err) :
    ASDLCEvent.fromStreamDict now' i' data = .error err := by
  cases hsid : SessionId.validate ((data .sessionId).getD "") with
  | error e =>
    simp only [fromStreamDict, hsid] at h ⊢
    cases h
    rfl
  | ok sid =>
    simp only [fromStreamDict, hsid] at h
    cases h

/-- What the consumers go by is read as it is stored. -/
theorem ASDLCEvent.fromStreamDict_eq_ok {now : Time} {i : ℕ} {data : StreamEntry} {e : ASDLCEvent}
    (h : ASDLCEvent.fromStreamDict now i data = .ok e) :
    e.eventId = some i ∧ e.eventType = (data .eventType).getD .taskCreated ∧
      e.taskId = data .taskId ∧ e.idempotencyKey = data .idempotencyKey := by
  cases hsid : SessionId.validate ((data .sessionId).getD "") with
  | error err =>
    simp only [fromStreamDict, hsid] at h
    cases h
  | ok sid =>
    simp only [fromStreamDict, hsid] at h
    cases h
    exact ⟨rfl, rfl, rfl, rfl⟩

/-! ## Idempotency keys -/

/-- The components of a key: empty ones are left out. -/
def keyComponents (eventType sessionId : String) (taskId epicId extra : Option String) :
    List String :=
  [eventType, sessionId] ++ (given taskId).toList ++ (given epicId).toList ++
    (given extra).toList

/-- `generate_idempotency_key`, for a digest of the joined components. -/
def generateIdempotencyKey (digest : String → String) (eventType sessionId : String)
    (taskId epicId : Option String := none) (extra : Option String := none) : String :=
  digest (":".intercalate (keyComponents eventType sessionId taskId epicId extra))

/-- The key of an event without one of its own: a function of its type, session, task
and epic alone. -/
def ASDLCEvent.generatedKey (digest : String → String) (e : ASDLCEvent) : String :=
  generateIdempotencyKey digest e.eventType.value e.sessionId.val e.taskId e.epicId

/-! ## Handler results -/

/-- What a handler answers to the consumer. -/
structure HandlerResult where
  success : Bool
  shouldRetry : Bool := false
  errorMessage : Option String := none
  artifactPaths : List String := []
  deriving DecidableEq, Repr

end DoxAsdlc
