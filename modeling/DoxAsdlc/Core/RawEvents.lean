import DoxAsdlc.Core.Events

/-!
# Stream entries as texts

In the stream every field of an entry is a text, and any client may have written it.
`from_stream_dict` parses the timestamp, the metadata and the event type in this order, and
the event then checks its session id; all but the metadata may refuse an entry.

The parsers of the standard library are parameters.

## Main definitions

* `RawEntry`, `Codec` — an entry, and the parsers.
* `ASDLCEvent.ofRaw` — `from_stream_dict`.
* `Decodes` — the entries that are events.
* `StreamEntry.raw` — the texts of an entry whose fields are well formed.
-/

namespace DoxAsdlc

/-- The fields of an entry. Where a name occurs twice, the last one counts. -/
abbrev RawEntry := List (String × String)

/-- `data.get(field)`. -/
def RawEntry.get (data : RawEntry) (field : String) : Option String := data.reverse.lookup field

/-- `datetime.fromisoformat`, with UTC where the text names no zone, or the message of its
`ValueError`; `json.loads`; and `repr` of a text. -/
structure Codec where
  fromIsoFormat : String → Except String Time
  loads : String → Option (List (String × String))
  repr : String → String

/-- Every event type. -/
def EventType.all : List EventType :=
  [.sessionStarted, .sessionCompleted, .taskCreated, .taskDispatched, .taskCompleted,
    .taskFailed, .gateRequested, .gateApproved, .gateRejected, .gateExpired, .agentStarted,
    .agentCompleted, .agentError, .patchCreated, .patchApplied, .patchRejected]

/-- `EventType(value)`. -/
def EventType.ofValue (codec : Codec) (value : String) : Except Error EventType :=
  match EventType.all.find? (·.value = value) with
  | some t => .ok t
  | none => .error { cls := .valueError, message := codec.repr value ++ " is not a valid EventType" }

theorem EventType.ofValue_value (codec : Codec) (t : EventType) :
    EventType.ofValue codec t.value = .ok t := by
  cases t <;> rfl

/-- The timestamp of an entry; without one it is the present. -/
def RawEntry.timestamp (codec : Codec) (now : Time) (data : RawEntry) : Except Error Time :=
  match given (data.get "timestamp") with
  | none => .ok now
  | some text =>
    match codec.fromIsoFormat text with
    | .ok t => .ok t
    | .error message => .error { cls := .valueError, message := message }

/-- The metadata of an entry; what is not JSON counts as empty. -/
def RawEntry.metadata (codec : Codec) (data : RawEntry) : List (String × String) :=
  match given (data.get "metadata") with
  | none => []
  | some text => (codec.loads text).getD []

/-- `from_stream_dict`. -/
def ASDLCEvent.ofRaw (codec : Codec) (now : Time) (eventId : ℕ) (data : RawEntry) :
    Except Error ASDLCEvent := do
  let timestamp ← data.timestamp codec now
  let eventType ← EventType.ofValue codec ((data.get "event_type").getD "task_created")
  let sessionId ← SessionId.validate ((data.get "session_id").getD "")
  return {
    eventId := some eventId
    eventType := eventType
    sessionId := sessionId
    epicId := data.get "epic_id"
    taskId := data.get "task_id"
    gitSha := data.get "git_sha"
    artifactPaths := splitPaths (data.get "artifact_paths")
    mode := (data.get "mode").getD "normal"
    tenantId := data.get "tenant_id"
    timestamp := timestamp
    idempotencyKey := data.get "idempotency_key"
    metadata := data.metadata codec }

/-- The entry is an event. -/
def Decodes (codec : Codec) (data : RawEntry) : Prop :=
  (ASDLCEvent.ofRaw codec 0 0 data).isOk

instance (codec : Codec) (data : RawEntry) : Decidable (Decodes codec data) :=
  inferInstanceAs (Decidable (_ = true))

/-- The entry that `ensure_stream_exists` writes. -/
def placeholder (timestamp : String) : RawEntry := [("_init", "true"), ("timestamp", timestamp)]

section

variable {codec : Codec} {now : Time} {i : ℕ} {data : RawEntry} {event : ASDLCEvent}

theorem ASDLCEvent.ofRaw_eq_ok : ASDLCEvent.ofRaw codec now i data = .ok event ↔
    ∃ timestamp eventType sessionId, data.timestamp codec now = .ok timestamp ∧
      EventType.ofValue codec ((data.get "event_type").getD "task_created") = .ok eventType ∧
      SessionId.validate ((data.get "session_id").getD "") = .ok sessionId ∧
      event = {
        eventId := some i
        eventType := eventType
        sessionId := sessionId
        epicId := data.get "epic_id"
        taskId := data.get "task_id"
        gitSha := data.get "git_sha"
        artifactPaths := splitPaths (data.get "artifact_paths")
        mode := (data.get "mode").getD "normal"
        tenantId := data.get "tenant_id"
        timestamp := timestamp
        idempotencyKey := data.get "idempotency_key"
        metadata := data.metadata codec } := by
  unfold ASDLCEvent.ofRaw
  constructor
  · intro h
    obtain ⟨timestamp, htimestamp, h⟩ := bind_eq_ok.mp h
    obtain ⟨eventType, htype, h⟩ := bind_eq_ok.mp h
    obtain ⟨sessionId, hsession, h⟩ := bind_eq_ok.mp h
    cases h
    exact ⟨timestamp, eventType, sessionId, htimestamp, htype, hsession, rfl⟩
  · rintro ⟨timestamp, eventType, sessionId, htimestamp, htype, hsession, rfl⟩
    rw [htimestamp, htype, hsession]
    rfl

theorem RawEntry.timestamp_ok (now now' : Time) (h : ∃ t, data.timestamp codec now = .ok t) :
    ∃ t, data.timestamp codec now' = .ok t := by
  unfold RawEntry.timestamp at h ⊢
  cases hgiven : given (data.get "timestamp") with
  | none => exact ⟨now', rfl⟩
  | some text =>
    rw [hgiven] at h
    exact h

/-- Whether an entry is an event depends neither on the clock nor on its position. -/
theorem ASDLCEvent.ofRaw_ok (h : ASDLCEvent.ofRaw codec now i data = .ok event) (now' : Time)
    (i' : ℕ) : ∃ event', ASDLCEvent.ofRaw codec now' i' data = .ok event' ∧
      event'.eventType = event.eventType := by
  obtain ⟨timestamp, eventType, sessionId, htimestamp, htype, hsession, rfl⟩ := ofRaw_eq_ok.mp h
  obtain ⟨timestamp', htimestamp'⟩ := RawEntry.timestamp_ok now now' ⟨timestamp, htimestamp⟩
  exact ⟨_, ofRaw_eq_ok.mpr ⟨timestamp', eventType, sessionId, htimestamp', htype, hsession, rfl⟩,
    rfl⟩

theorem decodes_of_ofRaw (h : ASDLCEvent.ofRaw codec now i data = .ok event) :
    Decodes codec data := by
  obtain ⟨event', hevent', -⟩ := ASDLCEvent.ofRaw_ok h 0 0
  rw [Decodes, hevent']
  rfl

theorem Decodes.ofRaw (h : Decodes codec data) (now : Time) (i : ℕ) :
    ∃ event, ASDLCEvent.ofRaw codec now i data = .ok event := by
  cases hraw : ASDLCEvent.ofRaw codec 0 0 data with
  | error e =>
    rw [Decodes, hraw] at h
    cases h
  | ok event =>
    obtain ⟨event', hevent', -⟩ := ASDLCEvent.ofRaw_ok hraw now i
    exact ⟨event', hevent'⟩

theorem ofRaw_error (h : ¬ Decodes codec data) (now : Time) (i : ℕ) :
    ∃ e, ASDLCEvent.ofRaw codec now i data = .error e := by
  cases hraw : ASDLCEvent.ofRaw codec now i data with
  | error e => exact ⟨e, rfl⟩
  | ok event => exact absurd (decodes_of_ofRaw hraw) h

/-- Decoding is no business of Redis. -/
theorem ASDLCEvent.ofRaw_isRedis {e : Error} (h : ASDLCEvent.ofRaw codec now i data = .error e) :
    e.isRedis = false := by
  rcases bind_eq_error.mp h with htimestamp | ⟨timestamp, -, h⟩
  · unfold RawEntry.timestamp at htimestamp
    split at htimestamp
    · cases htimestamp
    · split at htimestamp <;> cases htimestamp
      rfl
  rcases bind_eq_error.mp h with htype | ⟨eventType, -, h⟩
  · unfold EventType.ofValue at htype
    split at htype <;> cases htype
    rfl
  rcases bind_eq_error.mp h with hsession | ⟨sessionId, -, h⟩
  · unfold SessionId.validate at hsession
    split at hsession <;> cases hsession
    rfl
  · cases h

/-- What the consumers go by is read as it is stored. -/
theorem ASDLCEvent.eventId_ofRaw (h : ASDLCEvent.ofRaw codec now i data = .ok event) :
    event.eventId = some i := by
  obtain ⟨timestamp, eventType, sessionId, htimestamp, htype, hsession, rfl⟩ := ofRaw_eq_ok.mp h
  rfl

end

/-! ## Entries whose fields are well formed -/

/-- The optional fields that are there. -/
def presentFields (fields : List (String × Option String)) : RawEntry :=
  fields.filterMap fun field => field.2.map (field.1, ·)

theorem lookup_presentFields {fields : List (String × Option String)} (name : String)
    (h : (fields.map Prod.fst).Nodup) :
    (presentFields fields).lookup name = (fields.lookup name).join := by
  induction fields with
  | nil => rfl
  | cons field fields ih =>
    obtain ⟨key, value⟩ := field
    rw [List.map_cons, List.nodup_cons] at h
    have hrest := ih h.2
    cases value with
    | some text =>
      by_cases hname : name = key
      · subst hname
        simp [presentFields]
      · simpa [presentFields, List.lookup_cons, beq_false_of_ne hname] using hrest
    | none =>
      by_cases hname : name = key
      · subst hname
        have habsent : fields.lookup name = none := by
          rw [List.lookup_eq_none_iff]
          intro field hfield
          have hne : name ≠ field.1 := by
            intro heq
            exact h.1 (List.mem_map.mpr ⟨field, hfield, heq.symm⟩)
          simpa using hne
        rw [habsent] at hrest
        simpa [presentFields] using hrest
      · simpa [presentFields, List.lookup_cons, beq_false_of_ne hname] using hrest

/-- The fields of an entry as texts. -/
def StreamEntry.texts (isoformat : Time → String) (dumps : List (String × String) → String)
    (data : StreamEntry) : List (String × Option String) :=
  [("event_type", (data .eventType).map EventType.value),
    ("session_id", data .sessionId), ("timestamp", (data .timestamp).map isoformat),
    ("mode", data .mode), ("epic_id", data .epicId), ("task_id", data .taskId),
    ("git_sha", data .gitSha), ("artifact_paths", data .artifactPaths),
    ("tenant_id", data .tenantId), ("idempotency_key", data .idempotencyKey),
    ("metadata", (data .metadata).map dumps)]

/-- The texts of an entry whose fields are well formed. -/
def StreamEntry.raw (isoformat : Time → String) (dumps : List (String × String) → String)
    (data : StreamEntry) : RawEntry := presentFields (data.texts isoformat dumps)

/-- On such entries the parsers do what reading the fields does. -/
theorem ASDLCEvent.ofRaw_raw {codec : Codec} {isoformat : Time → String}
    {dumps : List (String × String) → String}
    (hiso : ∀ t, isoformat t ≠ "" ∧ codec.fromIsoFormat (isoformat t) = .ok t)
    (hdumps : ∀ m, dumps m ≠ "" ∧ codec.loads (dumps m) = some m)
    (now : Time) (i : ℕ) (data : StreamEntry) :
    ASDLCEvent.ofRaw codec now i (data.raw isoformat dumps)
      = ASDLCEvent.fromStreamDict now i data := by
  have hget (name : String) : (data.raw isoformat dumps).get name
      = ((data.texts isoformat dumps).reverse.lookup name).join := by
    rw [RawEntry.get, StreamEntry.raw, presentFields, ← List.filterMap_reverse]
    exact lookup_presentFields name (by simp [StreamEntry.texts])
  have htimestamp : (data.raw isoformat dumps).timestamp codec now
      = .ok ((data .timestamp).getD now) := by
    have htext : (data.raw isoformat dumps).get "timestamp" = (data .timestamp).map isoformat :=
      hget "timestamp"
    rw [RawEntry.timestamp, htext]
    cases data .timestamp with
    | none => rfl
    | some t => simp [given_some, (hiso t).1, (hiso t).2]
  have hmetadata : (data.raw isoformat dumps).metadata codec = (data .metadata).getD [] := by
    have htext : (data.raw isoformat dumps).get "metadata" = (data .metadata).map dumps :=
      hget "metadata"
    rw [RawEntry.metadata, htext]
    cases data .metadata with
    | none => rfl
    | some m => simp [given_some, (hdumps m).1, (hdumps m).2]
  have htype : EventType.ofValue codec (((data.raw isoformat dumps).get "event_type").getD
      "task_created") = .ok ((data .eventType).getD .taskCreated) := by
    have htext : (data.raw isoformat dumps).get "event_type"
        = (data .eventType).map EventType.value := hget "event_type"
    rw [htext]
    cases data .eventType with
    | none => rfl
    | some t => exact EventType.ofValue_value codec t
  unfold ASDLCEvent.ofRaw ASDLCEvent.fromStreamDict
  rw [htimestamp, htype, hmetadata]
  simp only [hget]
  rfl

end DoxAsdlc
