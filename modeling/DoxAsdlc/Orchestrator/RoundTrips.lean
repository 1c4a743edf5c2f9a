import DoxAsdlc.Core.Metadata
import DoxAsdlc.Orchestrator.TaskManager
import DoxAsdlc.Text.Joined

/-!
# What survives being stored

Tasks, sessions and events are stored as texts: a list of texts is joined by commas, an optional
text that is empty is left out, and the metadata of an event become a JSON document.  A record
is got back as it was exactly when none of this loses anything.

## Main definitions

* `Session`, `WideEvent` — sessions, and events with metadata of any kind.
* `Listable` — the lists that can be joined by commas.
* `Task.Codable`, `WideEvent.Codable` — the records that are got back.
-/

namespace DoxAsdlc

/-! ## Texts that are left out, and lists joined by commas -/

theorem given_eq_self_iff {s : Option String} : given s = s ↔ s ≠ some "" := by
  cases s with
  | none => simp
  | some s => by_cases h : s = "" <;> simp [given_some, h]

/-- The list is got back from its texts joined by commas. -/
def Listable (texts : List String) : Prop := (∀ text ∈ texts, ',' ∉ text.toList) ∧ texts ≠ [""]

instance (texts : List String) : Decidable (Listable texts) := inferInstanceAs (Decidable (_ ∧ _))

/-- No list at all is the same as the empty text. -/
theorem splitPaths_joinPaths (paths : List String) :
    splitPaths (joinPaths paths) = splitPaths (some (",".intercalate paths)) := by
  by_cases h : paths = []
  · subst h
    rfl
  · rw [joinPaths, if_neg h]

/-- **Lists joined by commas.** -/
theorem splitPaths_intercalate_iff {texts : List String} :
    splitPaths (some (",".intercalate texts)) = texts ↔ Listable texts := by
  constructor
  · intro h
    constructor
    · intro text htext
      rw [← h, splitPaths, given_some] at htext
      split at htext
      · cases htext
      · next heq =>
        split at heq
        · cases heq
        · cases heq
          exact Joined.not_mem_of_mem_split htext
    · rintro rfl
      exact absurd h (by decide)
  · intro ⟨hfree, hne⟩
    rcases eq_or_ne texts [] with rfl | hnil
    · rfl
    · have htext : ",".intercalate texts ≠ "" := by
        intro hempty
        have hsplit := Joined.splitOn_intercalate hnil hfree
        rw [show (String.ofList [',']).intercalate texts = "" from hempty, Joined.splitOn_eq]
          at hsplit
        exact hne (by simpa using hsplit.symm)
      rw [splitPaths, given_some, if_neg htext]
      exact Joined.splitOn_intercalate hnil hfree

/-! ## Tasks -/

/-- The tasks that are got back as they were. -/
structure Task.Codable (t : Task) : Prop where
  currentAgent : t.currentAgent ≠ some ""
  gitSha : t.gitSha ≠ some ""
  artifactPaths : Listable t.artifactPaths

/-- What a stored task is read back as. -/
theorem Task.fromDict_toDict (now : Time) (t : Task) :
    Task.fromDict now t.toDict = { t with
      currentAgent := given t.currentAgent
      gitSha := given t.gitSha
      artifactPaths := splitPaths (joinPaths t.artifactPaths) } := rfl

theorem Task.fromDict_toDict_iff (now : Time) (t : Task) :
    Task.fromDict now t.toDict = t ↔ t.Codable := by
  rw [fromDict_toDict, splitPaths_joinPaths]
  constructor
  · intro h
    refine ⟨given_eq_self_iff.mp ?_, given_eq_self_iff.mp ?_, splitPaths_intercalate_iff.mp ?_⟩
    · exact congrArg Task.currentAgent h
    · exact congrArg Task.gitSha h
    · exact congrArg Task.artifactPaths h
  · intro h
    rw [given_eq_self_iff.mpr h.currentAgent, given_eq_self_iff.mpr h.gitSha,
      splitPaths_intercalate_iff.mpr h.artifactPaths]

/-! ## Sessions -/

/-- A session. -/
structure Session where
  sessionId : String
  tenantId : String
  currentGitSha : String
  activeEpicIds : List String
  createdAt : Time
  status : String := "active"
  deriving DecidableEq, Repr

namespace Session

/-- `to_dict`. -/
def toDict (s : Session) : SessionHash
  | .sessionId => some s.sessionId
  | .tenantId => some s.tenantId
  | .currentGitSha => some s.currentGitSha
  | .activeEpicIds => some (",".intercalate s.activeEpicIds)
  | .createdAt => some s.createdAt
  | .status => some s.status

/-- `from_dict`: absent fields take their defaults. -/
def fromDict (now : Time) (data : SessionHash) : Session where
  sessionId := (data .sessionId).getD ""
  tenantId := (data .tenantId).getD ""
  currentGitSha := (data .currentGitSha).getD ""
  activeEpicIds := splitPaths (data .activeEpicIds)
  createdAt := (data .createdAt).getD now
  status := (data .status).getD "active"

theorem fromDict_toDict (now : Time) (s : Session) :
    fromDict now s.toDict
      = { s with activeEpicIds := splitPaths (some (",".intercalate s.activeEpicIds)) } := rfl

theorem fromDict_toDict_iff (now : Time) (s : Session) :
    fromDict now s.toDict = s ↔ Listable s.activeEpicIds := by
  rw [fromDict_toDict, ← splitPaths_intercalate_iff]
  constructor
  · exact congrArg Session.activeEpicIds
  · intro h
    rw [h]

end Session

/-! ## Events -/

/-- The event with metadata of any kind; in `ASDLCEvent` they are the texts that handlers
read. -/
structure WideEvent where
  eventType : EventType
  sessionId : SessionId
  timestamp : Time
  eventId : Option ℕ := none
  epicId : Option String := none
  taskId : Option String := none
  gitSha : Option String := none
  artifactPaths : List String := []
  mode : String := "normal"
  tenantId : Option String := none
  idempotencyKey : Option String := none
  metadata : PyValue := .dict []

/-- What each field of a stream entry holds, the metadata as a document. -/
abbrev WideValue : EventField → Type
  | .eventType => EventType
  | .timestamp => Time
  | .metadata => Rlm.Json
  | _ => String

namespace WideEvent

/-- The document of the metadata, if there are any. -/
def metadataText (metadata : PyValue) : Except Error (Option Rlm.Json) :=
  if metadata.truthy then some <$> metadata.dumps else .ok none

/-- The metadata of a document, if there is one. -/
def metadataOf (document : Option Rlm.Json) : PyValue :=
  match document with
  | some document => PyValue.loads document
  | none => .dict []

/-- `to_stream_dict`: empty optional fields are left out. -/
def toStreamDict (e : WideEvent) : Except Error (Redis.Hash WideValue) := do
  let metadata ← metadataText e.metadata
  return fun
    | .eventType => some e.eventType
    | .sessionId => some e.sessionId.val
    | .timestamp => some e.timestamp
    | .mode => some e.mode
    | .epicId => given e.epicId
    | .taskId => given e.taskId
    | .gitSha => given e.gitSha
    | .artifactPaths => joinPaths e.artifactPaths
    | .tenantId => given e.tenantId
    | .idempotencyKey => given e.idempotencyKey
    | .metadata => metadata

/-- `from_stream_dict`: absent fields take their defaults. -/
def fromStreamDict (now : Time) (eventId : ℕ) (data : Redis.Hash WideValue) :
    Except Error WideEvent := do
  let sessionId ← SessionId.validate ((data .sessionId).getD "")
  return {
    eventId := some eventId
    eventType := (data .eventType).getD .taskCreated
    sessionId := sessionId
    epicId := data .epicId
    taskId := data .taskId
    gitSha := data .gitSha
    artifactPaths := splitPaths (data .artifactPaths)
    mode := (data .mode).getD "normal"
    tenantId := data .tenantId
    timestamp := (data .timestamp).getD now
    idempotencyKey := data .idempotencyKey
    metadata := metadataOf (data .metadata) }

/-- Encode an event and decode it, with the id that the stream gives it. -/
def received (now : Time) (eventId : ℕ) (e : WideEvent) : Except Error WideEvent :=
  e.toStreamDict >>= fromStreamDict now eventId

/-- The events that are got back as they were. -/
structure Codable (e : WideEvent) : Prop where
  epicId : e.epicId ≠ some ""
  taskId : e.taskId ≠ some ""
  gitSha : e.gitSha ≠ some ""
  tenantId : e.tenantId ≠ some ""
  idempotencyKey : e.idempotencyKey ≠ some ""
  artifactPaths : Listable e.artifactPaths
  /-- Of the values that count as false, the empty dictionary alone. -/
  present : e.metadata.truthy = true ∨ e.metadata = .dict []
  metadata : e.metadata.Plain

/-- The metadata that are got back. -/
theorem metadata_iff (metadata : PyValue) :
    (∃ document, metadataText metadata = .ok document ∧ metadataOf document = metadata) ↔
      (metadata.truthy = true ∨ metadata = .dict []) ∧ metadata.Plain := by
  by_cases h : metadata.truthy = true
  · simp only [metadataText, h, if_true, true_or, true_and, ← PyValue.survives_iff]
    constructor
    · intro ⟨document, hdumps, hloads⟩
      cases hj : metadata.dumps with
      | error e => simp [hj] at hdumps
      | ok j =>
        rw [hj] at hdumps
        cases hdumps
        exact ⟨j, hj, hloads⟩
    · intro ⟨j, hdumps, hloads⟩
      exact ⟨some j, by rw [hdumps]; rfl, hloads⟩
  · simp only [metadataText, h, if_false, Bool.false_eq_true, false_or]
    constructor
    · intro ⟨document, hnone, heq⟩
      cases hnone
      exact ⟨heq.symm, heq ▸ ⟨List.nodup_nil, trivial⟩⟩
    · intro ⟨hempty, _⟩
      exact ⟨none, rfl, hempty.symm⟩

/-- What an event comes back as. -/
theorem received_eq_ok {now : Time} {i : ℕ} {e e' : WideEvent} :
    e.received now i = .ok e' ↔ ∃ document, metadataText e.metadata = .ok document ∧
      e' = { e with
        eventId := some i
        epicId := given e.epicId
        taskId := given e.taskId
        gitSha := given e.gitSha
        artifactPaths := splitPaths (joinPaths e.artifactPaths)
        tenantId := given e.tenantId
        idempotencyKey := given e.idempotencyKey
        metadata := metadataOf document } := by
  constructor
  · intro h
    obtain ⟨data, hdata, h⟩ := bind_eq_ok.mp h
    obtain ⟨document, hdocument, hdata⟩ := bind_eq_ok.mp hdata
    cases hdata
    refine ⟨document, hdocument, ?_⟩
    obtain ⟨sessionId, hsession, h⟩ := bind_eq_ok.mp h
    obtain rfl : e.sessionId = sessionId := by
      simpa [SessionId.validate_val] using hsession
    cases h
    rfl
  · intro ⟨document, hdocument, he'⟩
    refine bind_eq_ok.mpr ⟨_, bind_eq_ok.mpr ⟨document, hdocument, rfl⟩, ?_⟩
    refine bind_eq_ok.mpr ⟨e.sessionId, SessionId.validate_val e.sessionId, ?_⟩
    rw [he']
    rfl

/-- **Events that come back as they were**, with the id that the stream gives them. -/
theorem received_eq_iff (now : Time) (i : ℕ) (e : WideEvent) :
    e.received now i = .ok { e with eventId := some i } ↔ e.Codable := by
  rw [received_eq_ok]
  constructor
  · intro ⟨document, hdocument, heq⟩
    have hmetadata := (metadata_iff e.metadata).mp
      ⟨document, hdocument, (congrArg WideEvent.metadata heq).symm⟩
    refine ⟨?_, ?_, ?_, ?_, ?_, ?_, hmetadata.1, hmetadata.2⟩
    · exact given_eq_self_iff.mp (congrArg WideEvent.epicId heq).symm
    · exact given_eq_self_iff.mp (congrArg WideEvent.taskId heq).symm
    · exact given_eq_self_iff.mp (congrArg WideEvent.gitSha heq).symm
    · exact given_eq_self_iff.mp (congrArg WideEvent.tenantId heq).symm
    · exact given_eq_self_iff.mp (congrArg WideEvent.idempotencyKey heq).symm
    · rw [← splitPaths_intercalate_iff, ← splitPaths_joinPaths]
      exact (congrArg WideEvent.artifactPaths heq).symm
  · intro h
    obtain ⟨document, hdocument, hmetadata⟩ := (metadata_iff e.metadata).mpr ⟨h.present, h.metadata⟩
    refine ⟨document, hdocument, ?_⟩
    rw [given_eq_self_iff.mpr h.epicId, given_eq_self_iff.mpr h.taskId,
      given_eq_self_iff.mpr h.gitSha, given_eq_self_iff.mpr h.tenantId,
      given_eq_self_iff.mpr h.idempotencyKey, splitPaths_joinPaths,
      splitPaths_intercalate_iff.mpr h.artifactPaths, hmetadata]

/-- An event whose metadata are texts. -/
def ofTexts (e : ASDLCEvent) : WideEvent where
  eventType := e.eventType
  sessionId := e.sessionId
  timestamp := e.timestamp
  eventId := e.eventId
  epicId := e.epicId
  taskId := e.taskId
  gitSha := e.gitSha
  artifactPaths := e.artifactPaths
  mode := e.mode
  tenantId := e.tenantId
  idempotencyKey := e.idempotencyKey
  metadata := .dict (e.metadata.map fun m => (.str m.1, .str m.2))

/-- With texts as metadata, and each key once, events come back as the model with texts has
them. -/
theorem received_ofTexts (now : Time) (i : ℕ) (e : ASDLCEvent)
    (hkeys : (e.metadata.map Prod.fst).Nodup) :
    (ofTexts e).received now i = .ok (ofTexts (e.received i)) := by
  have hplain : ∀ texts : List (String × String),
      PyValue.PlainEntries (texts.map fun m => (.str m.1, .str m.2)) := by
    intro texts
    induction texts with
    | nil => trivial
    | cons m texts ih => exact ⟨⟨m.1, rfl⟩, trivial, ih⟩
  have hnodup : ((e.metadata.map fun m => (PyKey.str m.1, PyValue.str m.2)).map Prod.fst).Nodup := by
    rw [List.map_map]
    have hinj : Function.Injective PyKey.str := fun _ _ h => PyKey.str.inj h
    simpa [Function.comp_def] using hkeys.map hinj
  have hpresent : (ofTexts e).metadata.truthy = true ∨ (ofTexts e).metadata = .dict [] := by
    cases hm : e.metadata with
    | nil => exact .inr (by simp [ofTexts, hm])
    | cons m rest => exact .inl (by simp [ofTexts, hm, PyValue.truthy])
  obtain ⟨document, hdocument, hmetadata⟩ := (metadata_iff (ofTexts e).metadata).mpr
    ⟨hpresent, hnodup, hplain e.metadata⟩
  refine received_eq_ok.mpr ⟨document, hdocument, ?_⟩
  rw [hmetadata]
  rfl

end WideEvent

/-! ## All of them -/

/-- **Decoding undoes encoding** for exactly the records without empty optional texts, without
commas in what is listed, and with metadata that JSON has a form for. -/
theorem roundTrips_iff (now : Time) (i : ℕ) (task : Task) (session : Session)
    (event : WideEvent) :
    (Task.fromDict now task.toDict = task ↔ task.Codable) ∧
      (Session.fromDict now session.toDict = session ↔ Listable session.activeEpicIds) ∧
      (event.received now i = .ok { event with eventId := some i } ↔ event.Codable) :=
  ⟨task.fromDict_toDict_iff now, session.fromDict_toDict_iff now, event.received_eq_iff now i⟩

/-- A task with a comma in a path. -/
def commaTask : Task where
  taskId := "t"
  sessionId := "s"
  epicId := "e"
  state := .pending
  createdAt := 0
  updatedAt := 0
  artifactPaths := ["src/a,b.py"]

/-- The path becomes two. -/
theorem not_roundTrips_commaTask :
    ¬ ∀ (now : Time) (i : ℕ) (task : Task) (session : Session) (event : WideEvent),
      Task.fromDict now task.toDict = task ∧ Session.fromDict now session.toDict = session ∧
        event.received now i = .ok { event with eventId := some i } := by
  intro h
  have htask := (h 0 0 commaTask ⟨"s", "default", "", [], 0, "active"⟩
    { eventType := .taskCreated, sessionId := ⟨"s", by decide⟩, timestamp := 0 }).1
  have hpaths := ((Task.fromDict_toDict_iff 0 commaTask).mp htask).artifactPaths
  exact absurd hpaths (by decide)

end DoxAsdlc
