import DoxAsdlc.Coordination.Client
import DoxAsdlc.Interaction.Pool

/-!
# Pending messages

Whether a message waits for an acknowledgement is said by its hash and by the set of
pending ids.  The set and the hash are written in one transaction, but what the
transaction relies on is read before it, and the time to live of the hash runs out
without the set.

## Main definitions

* `Call` — the operations of the clients.
* `PendingExact`, `Decodable`, `AcksKept` — the set says what the hashes say, each hash
  decodes, and an acknowledgement is not changed.
* `Orderly` — the steps that keep all three.
-/

namespace DoxAsdlc.Coordination

open Interaction Interaction.Program

/-- A call of a client. -/
inductive Call where
  | publish (now : Time) (messageId : String) (args : PublishArgs)
  | acknowledge (now : Time) (messageId ackBy : String) (comment : Option String)
  | getMessage (messageId : String)
  | getMessages (order : Redis.IterationOrder String) (query : MessageQuery)
  | registerInstance (now : Time) (instanceId : String) (sessionId : Option String)
  | heartbeat (now : Time) (instanceId : String)
  | unregisterInstance (instanceId : String)
  | getPresence (now : Time)
  | queueNotification (instanceId : String) (notification : NotificationEvent)
  | popNotifications (instanceId : String) (limit : ℤ)

variable (config : CoordinationConfig)

/-- The program of a call; what it returns is left out. -/
def Call.program : Call → Async Unit
  | .publish now messageId args => do let _ ← publishMessage config now messageId args
  | .acknowledge now messageId ackBy comment => do
      let _ ← acknowledgeMessage config now messageId ackBy comment
  | .getMessage messageId => do let _ ← Coordination.getMessage config messageId
  | .getMessages order query => do let _ ← Coordination.getMessages config order query
  | .registerInstance now instanceId sessionId => Coordination.registerInstance now instanceId sessionId
  | .heartbeat now instanceId => Coordination.heartbeat now instanceId
  | .unregisterInstance instanceId => Coordination.unregisterInstance instanceId
  | .getPresence now => do let _ ← Coordination.getPresence config now
  | .queueNotification instanceId notification => do
      let _ ← Coordination.queueNotification config instanceId notification
  | .popNotifications instanceId limit => do let _ ← Coordination.popNotifications config instanceId limit

/-! ## What is to be kept -/

/-- A stored message waits for an acknowledgement. -/
def Waiting (data : MessageHash) : Prop :=
  (data .requiresAck).getD true = true ∧ (data .acknowledged).getD false = false

/-- The pending ids are those of the stored messages that wait for an acknowledgement. -/
def PendingExact (w : Store) : Prop :=
  ∀ messageId, messageId ∈ w.pending ↔
    ∃ data, w.messages (config.messageKey messageId) = some data ∧ Waiting data

/-- Every stored message decodes. -/
def Decodable (w : Store) : Prop :=
  ∀ key data, w.messages key = some data → ∃ m, hashToMessage data = .ok m

/-- Who has acknowledged a message, and when, is as it was written before. -/
def AckKept (data data' : MessageHash) : Prop :=
  (∀ ackBy, data .ackBy = some ackBy → data' .ackBy = some ackBy) ∧
  ∀ t, data .ackTimestamp = some t → data' .ackTimestamp = some t

/-- While a message is stored, its acknowledgement stays as it was written. -/
def AcksKept (w w' : Store) : Prop :=
  ∀ key data data', w.messages key = some data → w'.messages key = some data' →
    AckKept data data'

/-- What a transaction finds when it takes effect: an acknowledgement finds the message
stored and not acknowledged by another, and a message that requires none has no id that is
pending. -/
def Timely (w : Store) : Cmd → Prop
  | .acknowledge key mapping _ => ∃ data, w.messages key = some data ∧ AckKept data mapping
  | .publish _ _ messageId _ _ _ requiresAck => requiresAck = true ∨ messageId ∉ w.pending
  | _ => True

/-- A step that keeps the pending ids exact: every transaction that takes effect is timely,
and no message expires that is still pending. -/
def Orderly {ι : Type} (cfg : Config interface Store Error Unit ι) :
    Action ι Error String → Prop
  | .run j o => o.effective = true → ∀ cmd, cfg.next? j = some cmd → Timely cfg.store cmd
  | .stop _ => True
  | .env messageId => messageId ∉ cfg.store.pending

/-! ## The commands of the calls -/

/-- A command as the operations issue it. -/
def Issued : Cmd → Prop
  | .publish key mapping messageId score trimStop inboxKey requiresAck =>
    ∃ args now, PublishArgs.transaction config args now messageId =
      .publish key mapping messageId score trimStop inboxKey requiresAck
  | .acknowledge key mapping messageId =>
    key = config.messageKey messageId ∧
      ∃ ackBy now comment, mapping = ackData ackBy now comment
  | _ => True

variable {config}

theorem uses_onRedisError {A : Cmd → Prop} {α : Type} (cls : ErrorClass) (message : String)
    (details : List (String × Detail)) (e : Error) :
    (onRedisError cls message details e : Async α).Uses A :=
  uses_raise _

theorem uses_getPresence (now : Time) : (getPresence config now).Uses (Issued config) :=
  uses_tryCatch (uses_bind (uses_command trivial) fun _ => uses_ret _)
    fun _ => uses_onRedisError _ _ _ _

theorem uses_queueNotification (instanceId : String) (notification : NotificationEvent) :
    (queueNotification config instanceId notification).Uses (Issued config) :=
  uses_tryCatch (uses_bind (uses_command trivial) fun _ => uses_ret _)
    fun _ => uses_onRedisError _ _ _ _

theorem uses_queueIfOffline (now : Time) (instanceId : String)
    (notification : NotificationEvent) :
    (queueIfOffline config now instanceId notification).Uses (Issued config) := by
  refine uses_tryCatch (uses_bind (uses_getPresence now) fun presence => ?_) fun _ => uses_ret _
  split
  · exact uses_ret _
  · exact uses_bind (uses_queueNotification _ _) fun _ => uses_ret _

theorem uses_publishMessage (now : Time) (messageId : String) (args : PublishArgs) :
    (publishMessage config now messageId args).Uses (Issued config) := by
  refine uses_tryCatch (uses_bind (uses_command trivial) fun taken => ?_) fun _ => uses_raise _
  split
  · exact uses_raise _
  · refine uses_bind (uses_command ⟨args, now, rfl⟩) fun _ => ?_
    split
    · exact uses_bind (uses_ret _) fun _ => uses_ret _
    · exact uses_bind (uses_queueIfOffline _ _ _) fun _ => uses_ret _

theorem uses_acknowledgeMessage (now : Time) (messageId ackBy : String)
    (comment : Option String) :
    (acknowledgeMessage config now messageId ackBy comment).Uses (Issued config) := by
  refine uses_tryCatch (uses_bind (uses_command trivial) fun stored => ?_)
    fun _ => uses_onRedisError _ _ _ _
  split
  · refine uses_bind (uses_command trivial) fun acknowledged => ?_
    split
    · exact uses_ret _
    · exact uses_bind (uses_command ⟨rfl, ackBy, now, comment, rfl⟩) fun _ => uses_ret _
  · exact uses_ret _

theorem uses_getMessage (messageId : String) :
    (getMessage config messageId).Uses (Issued config) := by
  refine uses_tryCatch (uses_bind (uses_command trivial) fun data => ?_)
    fun _ => uses_onRedisError _ _ _ _
  cases data with
  | none => exact uses_ret _
  | some data => exact uses_elim (uses_answer _) (fun _ => uses_ret _) uses_raise

theorem uses_fetchMessages (query : MessageQuery) (ids : List String) :
    (fetchMessages config query ids).Uses (Issued config) := by
  induction ids with
  | nil => exact uses_ret _
  | cons messageId ids ih =>
    refine uses_bind (uses_command trivial) fun data => ?_
    cases data with
    | none => exact uses_bind (uses_ret _) fun _ => uses_bind ih fun _ => uses_ret _
    | some data =>
      exact uses_bind (uses_answer _) fun _ => uses_bind (uses_ret _) fun _ =>
        uses_bind ih fun _ => uses_ret _

theorem uses_candidateIds (query : MessageQuery) :
    (candidateIds config query).Uses (Issued config) := by
  have htimeline : (timelineIds query).Uses (Issued config) := by
    unfold timelineIds
    split
    · exact uses_command trivial
    · exact uses_command trivial
  have hinbox : (inboxIds config query).Uses (Issued config) := by
    unfold inboxIds
    split
    · exact uses_ret _
    · exact uses_elim (uses_command trivial) (fun _ => uses_ret _) uses_raise
  refine uses_bind hinbox fun messageIds => ?_
  split
  · exact uses_bind (uses_command trivial) fun _ => uses_ret _
  · cases messageIds with
    | none => exact htimeline
    | some ids => exact uses_ret _

theorem uses_getMessages (order : Redis.IterationOrder String) (query : MessageQuery) :
    (getMessages config order query).Uses (Issued config) :=
  uses_tryCatch (uses_bind (uses_candidateIds query) fun _ =>
    uses_bind (uses_fetchMessages query _) fun _ => uses_ret _) fun _ => uses_onRedisError _ _ _ _

/-- The calls issue no other commands. -/
theorem Call.uses_program (call : Call) : (call.program config).Uses (Issued config) := by
  cases call with
  | publish now messageId args =>
    exact uses_bind (uses_publishMessage now messageId args) fun _ => uses_ret _
  | acknowledge now messageId ackBy comment =>
    exact uses_bind (uses_acknowledgeMessage now messageId ackBy comment) fun _ => uses_ret _
  | getMessage messageId => exact uses_bind (uses_getMessage messageId) fun _ => uses_ret _
  | getMessages order query => exact uses_bind (uses_getMessages order query) fun _ => uses_ret _
  | registerInstance now instanceId sessionId =>
    exact uses_tryCatch (uses_command trivial) fun _ => uses_onRedisError _ _ _ _
  | heartbeat now instanceId =>
    exact uses_tryCatch (uses_command trivial) fun _ => uses_onRedisError _ _ _ _
  | unregisterInstance instanceId =>
    exact uses_tryCatch (uses_command trivial) fun _ => uses_onRedisError _ _ _ _
  | getPresence now => exact uses_bind (uses_getPresence now) fun _ => uses_ret _
  | queueNotification instanceId notification =>
    exact uses_bind (uses_queueNotification instanceId notification) fun _ => uses_ret _
  | popNotifications instanceId limit =>
    exact uses_bind (uses_tryCatch (uses_command trivial) fun _ => uses_onRedisError _ _ _ _)
      fun _ => uses_ret _

/-! ## One command -/

section

variable {w : Store}

/-- A published message decodes. -/
theorem decodes_publish (stored : MessageHash) (m : CoordinationMessage) :
    ∃ m', hashToMessage (stored.overlay m.publishHash) = .ok m' := by
  refine hashToMessage_isOk.mpr fun f hf => ?_
  simp only [MessageField.mandatory, List.mem_cons, List.not_mem_nil, or_false] at hf
  rcases hf with rfl | rfl | rfl | rfl | rfl <;> simp [Redis.Hash.overlay, CoordinationMessage.publishHash]

/-- A message that decodes still does with more fields. -/
theorem decodes_overlay {stored mapping : MessageHash}
    (h : ∃ m, hashToMessage stored = .ok m) : ∃ m, hashToMessage (stored.overlay mapping) = .ok m := by
  refine hashToMessage_isOk.mpr fun f hf hnone => hashToMessage_isOk.mp h f hf ?_
  rw [Redis.Hash.overlay_apply, Option.or_eq_none_iff] at hnone
  exact hnone.2

/-- The fields of an acknowledgement alone are no message. -/
theorem not_decodes_ackData (ackBy : String) (now : Time) (comment : Option String) :
    ¬ ∃ m, hashToMessage (ackData ackBy now comment) = .ok m := by
  intro h
  exact hashToMessage_isOk.mp h .id (.head _) rfl

theorem waiting_publish (stored : MessageHash) (m : CoordinationMessage) :
    Waiting (stored.overlay m.publishHash) ↔ m.requiresAck = true := by
  simp [Waiting, Redis.Hash.overlay, CoordinationMessage.publishHash]

theorem not_waiting_acknowledge (stored : MessageHash) (ackBy : String) (now : Time)
    (comment : Option String) : ¬ Waiting (stored.overlay (ackData ackBy now comment)) := by
  simp [Waiting, Redis.Hash.overlay, ackData]

theorem ackKept_publish (stored : MessageHash) (m : CoordinationMessage) :
    AckKept stored (stored.overlay m.publishHash) := by
  constructor
  · intro ackBy hby
    rwa [Redis.Hash.overlay_of_none rfl]
  · intro t ht
    rwa [Redis.Hash.overlay_of_none rfl]

/-- An acknowledgement keeps an earlier one exactly when it says the same. -/
theorem ackKept_acknowledge {stored : MessageHash} {ackBy : String} {now : Time}
    {comment : Option String} :
    AckKept stored (stored.overlay (ackData ackBy now comment)) ↔
      AckKept stored (ackData ackBy now comment) := by
  have hby : (stored.overlay (ackData ackBy now comment)) .ackBy = some ackBy := rfl
  have ht : (stored.overlay (ackData ackBy now comment)) .ackTimestamp
      = some (wholeSeconds now) := rfl
  unfold AckKept
  rw [hby, ht]
  exact Iff.rfl

/-! ### A write to one message -/

section

variable {w' : Store} {key : String} {f : Option MessageHash → Option MessageHash}

theorem acksKept_modify (hmessages : w'.messages = w.messages.modify key f) :
    AcksKept w w' ↔ ∀ data data', w.messages key = some data → f (some data) = some data' →
      AckKept data data' := by
  constructor
  · intro h data data' hdata hdata'
    refine h key data data' hdata ?_
    rw [hmessages, Redis.Keys.modify_self, hdata, hdata']
  · intro h key' data data' hdata hdata'
    rw [hmessages, Redis.Keys.modify_apply] at hdata'
    split at hdata'
    · rename_i hkey
      rw [hkey] at hdata
      rw [hdata] at hdata'
      exact h data data' hdata hdata'
    · rw [hdata] at hdata'
      cases hdata'
      exact ⟨fun _ hby => hby, fun _ ht => ht⟩

theorem decodable_modify (hw : Decodable w) (hmessages : w'.messages = w.messages.modify key f) :
    Decodable w' ↔ ∀ data, f (w.messages key) = some data → ∃ m, hashToMessage data = .ok m := by
  constructor
  · intro h data hdata
    refine h key data ?_
    rw [hmessages, Redis.Keys.modify_self, hdata]
  · intro h key' data hdata
    rw [hmessages, Redis.Keys.modify_apply] at hdata
    split at hdata
    · exact h data hdata
    · exact hw key' data hdata

theorem pendingExact_modify {messageId : String} (hw : PendingExact config w)
    (hmessages : w'.messages = w.messages.modify (config.messageKey messageId) f)
    (hpending : ∀ r, r ≠ messageId → (r ∈ w'.pending ↔ r ∈ w.pending)) :
    PendingExact config w' ↔ (messageId ∈ w'.pending ↔
      ∃ data, f (w.messages (config.messageKey messageId)) = some data ∧ Waiting data) := by
  have hself : w'.messages (config.messageKey messageId)
      = f (w.messages (config.messageKey messageId)) := by
    rw [hmessages, Redis.Keys.modify_self]
  constructor
  · intro h
    rw [← hself]
    exact h messageId
  · intro h r
    by_cases hr : r = messageId
    · rw [hr, hself]
      exact h
    · have hkey : config.messageKey r ≠ config.messageKey messageId := by simpa using hr
      rw [hpending r hr, hmessages, Redis.Keys.modify_of_ne _ _ hkey]
      exact hw r

end

/-! ### The transactions -/

/-- **A publication** keeps all unless it makes a message that is pending one that requires
no acknowledgement. -/
theorem publish_iff (hexact : PendingExact config w) (hdecodes : Decodable w)
    (args : PublishArgs) (now : Time) (messageId : String) :
    (AcksKept w (Store.serve (args.transaction config now messageId) w).1 ∧
      PendingExact config (Store.serve (args.transaction config now messageId) w).1 ∧
      Decodable (Store.serve (args.transaction config now messageId) w).1) ↔
      (args.requiresAck = true ∨ messageId ∉ w.pending) := by
  set w' := (Store.serve (args.transaction config now messageId) w).1 with hw'
  have hmessages : w'.messages = w.messages.modify (config.messageKey messageId)
      (Redis.hset · (args.message now messageId).publishHash) := rfl
  have hmember : ∀ r, r ∈ w'.pending ↔ (args.requiresAck = true ∧ r = messageId) ∨ r ∈ w.pending := by
    intro r
    have hpending : w'.pending = if args.requiresAck then w.pending.sadd messageId
      else w.pending := rfl
    rw [hpending]
    split
    · rename_i hack
      simp [hack]
    · rename_i hack
      simp [hack]
  have hkept : AcksKept w w' := by
    refine (acksKept_modify hmessages).mpr fun data data' _ hdata' => ?_
    cases hdata'
    exact ackKept_publish _ _
  have hdecodes' : Decodable w' := by
    refine (decodable_modify hdecodes hmessages).mpr fun data hdata => ?_
    cases hdata
    exact decodes_publish _ _
  have hwaiting : (∃ data, Redis.hset (w.messages (config.messageKey messageId))
      (args.message now messageId).publishHash = some data ∧ Waiting data) ↔
        args.requiresAck = true := by
    constructor
    · rintro ⟨data, hdata, hwait⟩
      cases hdata
      exact (waiting_publish _ _).mp hwait
    · intro hack
      exact ⟨_, rfl, (waiting_publish _ _).mpr hack⟩
  have hexact' : PendingExact config w' ↔ (args.requiresAck = true ∨ messageId ∉ w.pending) := by
    rw [pendingExact_modify hexact hmessages fun r hr => by rw [hmember]; simp [hr], hmember,
      hwaiting]
    by_cases hack : args.requiresAck = true
    · simp [hack]
    · simp [hack]
  exact ⟨fun h => hexact'.mp h.2.1, fun h => ⟨hkept, hexact'.mpr h, hdecodes'⟩⟩

/-- **An acknowledgement** keeps all exactly when the message is stored, and no other
acknowledgement is. -/
theorem acknowledge_iff (hexact : PendingExact config w) (hdecodes : Decodable w)
    (messageId ackBy : String) (now : Time) (comment : Option String) :
    (AcksKept w (Store.serve (.acknowledge (config.messageKey messageId)
        (ackData ackBy now comment) messageId) w).1 ∧
      PendingExact config (Store.serve (.acknowledge (config.messageKey messageId)
        (ackData ackBy now comment) messageId) w).1 ∧
      Decodable (Store.serve (.acknowledge (config.messageKey messageId)
        (ackData ackBy now comment) messageId) w).1) ↔
      ∃ data, w.messages (config.messageKey messageId) = some data ∧
        AckKept data (ackData ackBy now comment) := by
  set w' := (Store.serve (.acknowledge (config.messageKey messageId) (ackData ackBy now comment)
    messageId) w).1
  have hmessages : w'.messages = w.messages.modify (config.messageKey messageId)
      (Redis.hset · (ackData ackBy now comment)) := rfl
  have hexact' : PendingExact config w' := by
    refine (pendingExact_modify hexact hmessages fun r hr => ?_).mpr ?_
    · change r ∈ w.pending.srem messageId ↔ r ∈ w.pending
      simp [hr]
    · refine iff_of_false ?_ ?_
      · change messageId ∉ w.pending.srem messageId
        simp
      · rintro ⟨data, hdata, hwait⟩
        cases hdata
        exact not_waiting_acknowledge _ _ _ _ hwait
  cases hstored : w.messages (config.messageKey messageId) with
  | none =>
    refine iff_of_false ?_ (by simp)
    rintro ⟨-, -, hdecodes'⟩
    refine not_decodes_ackData ackBy now comment
      ((decodable_modify hdecodes hmessages).mp hdecodes' _ ?_)
    rw [hstored, Redis.hset_none]
  | some data =>
    have hdecodes' : Decodable w' := by
      refine (decodable_modify hdecodes hmessages).mpr fun data' hdata' => ?_
      rw [hstored, Redis.hset_some] at hdata'
      cases hdata'
      exact decodes_overlay (hdecodes _ _ hstored)
    have hkept : AcksKept w w' ↔ AckKept data (ackData ackBy now comment) := by
      rw [acksKept_modify hmessages, hstored, ← ackKept_acknowledge]
      constructor
      · intro h
        exact h data _ rfl rfl
      · intro h data₁ data₂ h₁ h₂
        cases h₁
        cases h₂
        exact h
    simp [hkept, hexact', hdecodes']

/-- A message that expires leaves the others as they are. -/
theorem expire_iff (hexact : PendingExact config w) (hdecodes : Decodable w)
    (messageId : String) :
    (AcksKept w (w.expire config messageId) ∧ PendingExact config (w.expire config messageId) ∧
      Decodable (w.expire config messageId)) ↔ messageId ∉ w.pending := by
  have hmessages : (w.expire config messageId).messages
      = w.messages.modify (config.messageKey messageId) fun _ => none := rfl
  have hkept : AcksKept w (w.expire config messageId) :=
    (acksKept_modify hmessages).mpr fun _ _ _ => nofun
  have hdecodes' : Decodable (w.expire config messageId) :=
    (decodable_modify hdecodes hmessages).mpr fun _ => nofun
  have hexact' : PendingExact config (w.expire config messageId) ↔ messageId ∉ w.pending := by
    rw [pendingExact_modify hexact hmessages fun _ _ => Iff.rfl]
    simp [Store.expire]
  exact ⟨fun h => hexact'.mp h.2.1, fun h => ⟨hkept, hexact'.mpr h, hdecodes'⟩⟩

/-- **One command** keeps all exactly when it is timely. -/
theorem serve_iff (hexact : PendingExact config w) (hdecodes : Decodable w) {cmd : Cmd}
    (hcmd : Issued config cmd) :
    (AcksKept w (Store.serve cmd w).1 ∧ PendingExact config (Store.serve cmd w).1 ∧
      Decodable (Store.serve cmd w).1) ↔ Timely w cmd := by
  have hsame : ∀ w' : Store, w'.messages = w.messages → w'.pending = w.pending →
      AcksKept w w' ∧ PendingExact config w' ∧ Decodable w' := by
    intro w' hmessages hpending
    refine ⟨fun key data data' hdata hdata' => ?_, fun r => ?_, fun key data hdata => ?_⟩
    · rw [hmessages, hdata] at hdata'
      cases hdata'
      exact ⟨fun _ hby => hby, fun _ ht => ht⟩
    · rw [hmessages, hpending]
      exact hexact r
    · rw [hmessages] at hdata
      exact hdecodes key data hdata
  cases cmd with
  | publish key mapping messageId score trimStop inboxKey requiresAck =>
    obtain ⟨args, now, htransaction⟩ := hcmd
    cases htransaction
    exact publish_iff hexact hdecodes args score messageId
  | acknowledge key mapping messageId =>
    obtain ⟨rfl, ackBy, now, comment, rfl⟩ := hcmd
    exact acknowledge_iff hexact hdecodes messageId ackBy now comment
  | «exists» _ | hgetall _ | hgetAcknowledged _ | smembersInbox _ | smembersPending
  | zrangebyscore _ | zrevrange _ _ | hgetallPresence | hsetPresence _ _ | hdelPresence _
  | queue _ _ | pop _ _ => exact iff_of_true (hsame _ rfl rfl) trivial

end

/-! ## Runs -/

variable {ι : Type} [DecidableEq ι]

/-- The steps of the clients and of the keys that expire. -/
def step (config : CoordinationConfig) :
    Config interface Store Error Unit ι → Action ι Error String →
      Config interface Store Error Unit ι :=
  Config.step Store.serve (Store.expire config)

/-- **A step** keeps all exactly when it is orderly. -/
theorem step_iff {cfg : Config interface Store Error Unit ι}
    (huses : ∀ j, (cfg.threads j).Uses (Issued config)) (hexact : PendingExact config cfg.store)
    (hdecodes : Decodable cfg.store) (a : Action ι Error String) :
    (AcksKept cfg.store (step config cfg a).store ∧
      PendingExact config (step config cfg a).store ∧ Decodable (step config cfg a).store) ↔
      Orderly cfg a := by
  have hrefl : AcksKept cfg.store cfg.store := fun key data data' hdata hdata' => by
    rw [hdata] at hdata'
    cases hdata'
    exact ⟨fun _ hby => hby, fun _ ht => ht⟩
  obtain ⟨j, o, c, k, rfl, -, hp, hnext, he⟩ | ⟨j, o, rfl, hnext, he⟩ | ⟨j, rfl, he⟩ |
    ⟨messageId, rfl, he⟩ := Config.step_cases Store.serve (Store.expire config) cfg a
  · rw [step, he]
    have hissued : Issued config c := by
      have hj := huses j
      rw [hp] at hj
      exact hj.1
    simp only [Config.exchange, Server.perform_state, Orderly, hnext, Option.some.injEq,
      forall_eq']
    split
    · rename_i ho
      rw [serve_iff hexact hdecodes hissued, ho]
      simp
    · rename_i ho
      exact iff_of_true ⟨hrefl, hexact, hdecodes⟩ fun h => absurd h ho
  · rw [step, he]
    refine iff_of_true ⟨hrefl, hexact, hdecodes⟩ fun _ cmd hcmd => ?_
    rw [hnext] at hcmd
    cases hcmd
  · rw [step, he]
    exact iff_of_true ⟨hrefl, hexact, hdecodes⟩ trivial
  · rw [step, he]
    exact expire_iff hexact hdecodes messageId

/-- **Pending messages over runs.**  However the calls of any number of clients are
interleaved, with any faults, and whichever keys expire: the pending ids are exact and each
stored message decodes in every state, and no acknowledgement is changed by a step, exactly
when every step is orderly. -/
theorem pending_exact_iff_orderly (config : CoordinationConfig) (calls : ι → Call)
    (as : List (Action ι Error String)) :
    Along (step config) (fun cfg => PendingExact config cfg.store ∧ Decodable cfg.store)
        (fun cfg _ cfg' => AcksKept cfg.store cfg'.store)
        (Config.start Store.empty fun j => (calls j).program config) as ↔
      Each (step config) Orderly (Config.start Store.empty fun j => (calls j).program config) as := by
  refine along_iff_each (I := fun cfg => ∀ j, (cfg.threads j).Uses (Issued config)) ?_ ?_
    (fun j => (calls j).uses_program) ⟨fun r => ?_, fun _ _ => nofun⟩ as
  · intro cfg a huses _ _ j
    exact Config.uses_step (huses j) _ _ a
  · intro cfg a huses hcfg
    exact step_iff huses hcfg.1 hcfg.2 a
  · exact iff_of_false (Redis.MemberSet.not_mem_empty r) (by simp [Config.start, Store.empty])

/-- A message that is published, and two instances that acknowledge it. -/
def publishedAcknowledgedTwice : Fin 3 → Call
  | 0 => .publish 0 "msg" ⟨.general, "subject", "description", "pm", "all", true⟩
  | 1 => .acknowledge 1000000 "msg" "backend" none
  | 2 => .acknowledge 2000000 "msg" "frontend" none

/-- The pool of the three calls after some steps. -/
def afterSteps (as : List (Action (Fin 3) Error String)) : Config interface Store Error Unit (Fin 3) :=
  run (step {}) (Config.start Store.empty fun j => (publishedAcknowledgedTwice j).program {}) as

/-- The message expires and its id is pending; the second acknowledgement replaces the
first; the acknowledgement that comes after the expiry leaves a hash that is no message. -/
theorem expired_pending_acknowledged_twice_undecodable :
    ("msg" ∈ (afterSteps [.run 0 .ok, .run 0 .ok, .env "msg"]).store.pending ∧
      (afterSteps [.run 0 .ok, .run 0 .ok, .env "msg"]).store.messages "coord:msg:msg" = none) ∧
    (let as : List (Action (Fin 3) Error String) := [.run 0 .ok, .run 0 .ok, .run 1 .ok, .run 1 .ok,
        .run 2 .ok, .run 2 .ok, .run 1 .ok]
     Redis.hget ((afterSteps as).store.messages "coord:msg:msg") .ackBy = some "backend" ∧
      Redis.hget ((afterSteps (as ++ [.run 2 .ok])).store.messages "coord:msg:msg") .ackBy
        = some "frontend") ∧
    ((afterSteps [.run 0 .ok, .run 0 .ok, .run 1 .ok, .run 1 .ok, .env "msg",
        .run 1 .ok]).store.messages "coord:msg:msg").map hashToMessage
      = some (.error { cls := .keyError, message := "id" }) := by
  decide

end DoxAsdlc.Coordination
