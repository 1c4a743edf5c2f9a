import DoxAsdlc.Coordination.Client
import DoxAsdlc.Interaction.Run

/-!
# Queries

A query takes the ids of an inbox, the pending ids or a part of the timeline, fetches the
messages of these ids, and only then applies the other filters.  From the inbox and from
the pending ids nothing is missing.  Of the timeline it takes the newest, twice as many as
it may return, or those since a time, of which the timeline holds no more than its size.

## Main definitions

* `Op`, `Op.step`, `NoneRepublished` — sequences of operations.
* `Stored`, `selects`, `NewestMatching` — what a query asks for, and a right answer.
* `Window`, `WindowSuffices` — what is taken of the timeline, and when that is enough.
* `Coherent` — what the inboxes, the pending ids and the timeline say about the messages.
-/

namespace DoxAsdlc.Coordination

open Interaction Interaction.Program

/-- An operation on the store, or the expiry of a message. -/
inductive Op where
  | publish (now : Time) (messageId : String) (args : PublishArgs)
  | acknowledge (now : Time) (messageId ackBy : String) (comment : Option String)
  | expire (messageId : String)

variable (config : CoordinationConfig)

/-- The store after an operation. -/
def Op.step (w : Store) : Op → Store
  | .publish now messageId args => (eval Store.serve (publishMessage config now messageId args) w).2
  | .acknowledge now messageId ackBy comment =>
    (eval Store.serve (acknowledgeMessage config now messageId ackBy comment) w).2
  | .expire messageId => w.expire config messageId

/-- The operation publishes a message with this id. -/
def Op.Publishes (messageId : String) : Op → Prop
  | .publish _ messageId' _ => messageId' = messageId
  | _ => False

/-- The id of a message that has expired is not used again. -/
def NoneRepublished (ops : List Op) : Prop :=
  ops.Pairwise fun op op' => ∀ messageId, op = .expire messageId → ¬ op'.Publishes messageId

/-! ## What a query asks for -/

/-- The message is stored. -/
def Stored (w : Store) (m : CoordinationMessage) : Prop :=
  ∃ data, w.messages (config.messageKey m.id) = some data ∧ hashToMessage data = .ok m

/-- The message passes all filters of the query. -/
def MessageQuery.selects (query : MessageQuery) (m : CoordinationMessage) : Bool :=
  (given query.toInstance).all (m.toInstance == ·) &&
    (!query.pendingOnly || (m.requiresAck && !m.acknowledged)) && query.admits m

/-- The answer has the newest of the stored messages that the query selects, up to the
limit, newest first and each once. -/
structure NewestMatching (query : MessageQuery) (w : Store)
    (result : List CoordinationMessage) : Prop where
  nodup : (result.map CoordinationMessage.id).Nodup
  newestFirst : result.Pairwise NotOlder
  length_le : result.length ≤ query.limit
  matching : ∀ m ∈ result, Stored config w m ∧ query.selects m = true
  complete : ∀ m, Stored config w m → query.selects m = true → m ∉ result →
    result.length = query.limit ∧ ∀ m' ∈ result, m.timestamp ≤ m'.timestamp

/-- What is taken of the timeline. -/
def Window (query : MessageQuery) (w : Store) : List String :=
  match query.since with
  | some since => (w.timeline.entries.filter fun e => since ≤ e.2).map Prod.fst
  | none => w.timeline.zrevrange 0 (query.limit * 2 - 1)

/-- The message of an id, when it is stored and decodes. -/
def lookup (w : Store) (messageId : String) : Option CoordinationMessage :=
  (w.messages (config.messageKey messageId)).bind fun data => (hashToMessage data).toOption

/-- The query reads an inbox or the pending ids; or what it takes of the timeline has all
messages that it selects, or as many as it may return. -/
def WindowSuffices (query : MessageQuery) (w : Store) : Prop :=
  given query.toInstance ≠ none ∨ query.pendingOnly = true ∨
    (∀ m, Stored config w m → query.selects m = true → m.id ∈ Window query w) ∨
    query.limit ≤ (((Window query w).filterMap (lookup config w)).filter query.selects).length

/-! ## The indexes -/

/-- What the inboxes, the pending ids and the timeline say about a stored message. -/
structure Indexed (w : Store) (m : CoordinationMessage) : Prop where
  inbox : ∀ i, m.id ∈ w.inbox (config.inboxKey i) ↔ i = m.toInstance
  pending : m.id ∈ w.pending ↔ m.requiresAck = true ∧ m.acknowledged = false
  scored : ∀ t, (m.id, t) ∈ w.timeline.entries → wholeSeconds t = m.timestamp
  /-- The timeline is full of messages that are not older, if it has not this one. -/
  trimmed : m.id ∉ w.timeline →
    w.timeline.entries.length = config.timelineMaxSize.toNat ∧
      ∀ e ∈ w.timeline.entries, m.timestamp ≤ wholeSeconds e.2

/-- Every stored message is indexed, and an id that is not stored and has not expired is
nowhere. -/
structure Coherent (expired : String → Prop) (w : Store) : Prop where
  indexed : ∀ messageId data, w.messages (config.messageKey messageId) = some data →
    ∃ m, hashToMessage data = .ok m ∧ m.id = messageId ∧ Indexed config w m
  absent : ∀ messageId, ¬ expired messageId →
    w.messages (config.messageKey messageId) = none →
      (∀ i, messageId ∉ w.inbox (config.inboxKey i)) ∧ messageId ∉ w.pending ∧
        messageId ∉ w.timeline
  size : w.timeline.entries.length ≤ config.timelineMaxSize.toNat

variable {config} {expired : String → Prop} {w : Store}

theorem coherent_empty : Coherent config expired Store.empty where
  indexed _ _ := nofun
  absent messageId _ _ := by simp [Store.empty]
  size := Nat.zero_le _

/-- A message decodes to the same content when it is acknowledged. -/
theorem decodes_acknowledged {data : MessageHash} {m : CoordinationMessage}
    (h : hashToMessage data = .ok m) (ackBy : String) (now : Time) (comment : Option String) :
    ∃ m', hashToMessage (data.overlay (ackData ackBy now comment)) = .ok m' ∧ m'.id = m.id ∧
      m'.toInstance = m.toInstance ∧ m'.timestamp = m.timestamp ∧
      m'.requiresAck = m.requiresAck ∧ m'.acknowledged = true := by
  obtain ⟨⟨hid, htype, hfrom, hto, htime⟩, hack, -, hpayload, -, -, -⟩ := hashToMessage_eq_ok.mp h
  refine ⟨{ m with
    acknowledged := true
    ackBy := given (some ackBy)
    ackTimestamp := some (wholeSeconds now)
    ackComment := given ((given comment).or (data .ackComment)) }, ?_, rfl, rfl, rfl, rfl, rfl⟩
  refine hashToMessage_eq_ok.mpr ⟨⟨hid, htype, hfrom, hto, htime⟩, hack, rfl, hpayload, rfl, rfl,
    rfl⟩

/-- What a published message decodes to. -/
theorem decodes_published (m : CoordinationMessage) :
    ∃ m', hashToMessage m.publishHash = .ok m' ∧ m'.id = m.id ∧ m'.toInstance = m.toInstance ∧
      m'.timestamp = wholeSeconds m.timestamp ∧ m'.requiresAck = m.requiresAck ∧
      m'.acknowledged = false := by
  refine ⟨{ m with
    timestamp := wholeSeconds m.timestamp
    acknowledged := false
    ackBy := none
    ackTimestamp := none
    ackComment := none }, ?_, rfl, rfl, rfl, rfl, rfl⟩
  exact hashToMessage_eq_ok.mpr ⟨⟨rfl, rfl, rfl, rfl, rfl⟩, rfl, rfl, rfl, rfl, rfl, rfl⟩

/-- A message that is published is indexed. -/
theorem indexed_published (hsize : w.timeline.entries.length ≤ config.timelineMaxSize.toNat)
    {messageId : String} (hinbox : ∀ i, messageId ∉ w.inbox (config.inboxKey i))
    (hpending : messageId ∉ w.pending) (htimeline : messageId ∉ w.timeline) (now : Time)
    (args : PublishArgs) {m : CoordinationMessage} (hid : m.id = messageId)
    (hto : m.toInstance = args.toInstance) (htime : m.timestamp = wholeSeconds now)
    (hrequires : m.requiresAck = args.requiresAck) (hack : m.acknowledged = false) :
    Indexed config (Store.serve (args.transaction config now messageId) w).1 m := by
  obtain ⟨-, hsubset, hgone⟩ := Redis.SortedSet.zadd_trim hsize now htimeline
  have hscore : ∀ t, (messageId, t) ∈ (w.timeline.zadd messageId now).entries → t = now := by
    intro t ht
    rcases Redis.SortedSet.mem_entries_zadd.mp ht with heq | ⟨-, hne⟩
    · exact congrArg Prod.snd heq
    · exact absurd rfl hne
  refine ⟨fun i => ?_, ?_, fun t ht => ?_, fun hout => ?_⟩
  · rw [hid, hto]
    change messageId ∈ Function.update w.inbox (config.inboxKey args.toInstance) _
      (config.inboxKey i) ↔ _
    by_cases hi : i = args.toInstance
    · simp [hi]
    · have hkey : config.inboxKey i ≠ config.inboxKey args.toInstance := by simpa using hi
      rw [Function.update_of_ne hkey]
      exact iff_of_false (hinbox i) hi
  · rw [hid, hrequires, hack]
    change messageId ∈ (if args.requiresAck then w.pending.sadd messageId else w.pending) ↔ _
    cases args.requiresAck with
    | true => simp
    | false => simpa using hpending
  · rw [hid] at ht
    rw [hscore t (hsubset _ ht), htime]
  · rw [hid] at hout
    have hmem : (messageId, now) ∈ (w.timeline.zadd messageId now).entries :=
      Redis.SortedSet.mem_entries_zadd.mpr (.inl rfl)
    obtain ⟨hfull, hbelow⟩ := hgone _ hmem fun h => hout (Redis.SortedSet.mem_def.mpr ⟨now, h⟩)
    refine ⟨hfull, fun e he => ?_⟩
    rw [htime]
    exact wholeSeconds_mono (hbelow e he)

/-- The publication of another message leaves a message indexed: it may push it off the
timeline. -/
theorem Indexed.publish_other {m : CoordinationMessage} (hm : Indexed config w m)
    (hsize : w.timeline.entries.length ≤ config.timelineMaxSize.toNat) {messageId : String}
    (htimeline : messageId ∉ w.timeline) (hne : m.id ≠ messageId) (now : Time)
    (args : PublishArgs) :
    Indexed config (Store.serve (args.transaction config now messageId) w).1 m := by
  obtain ⟨-, hsubset, hgone⟩ := Redis.SortedSet.zadd_trim hsize now htimeline
  refine ⟨fun i => ?_, ?_, fun t ht => ?_, fun hout => ?_⟩
  · rw [← hm.inbox i]
    change m.id ∈ Function.update w.inbox (config.inboxKey args.toInstance) _
      (config.inboxKey i) ↔ _
    by_cases hi : config.inboxKey i = config.inboxKey args.toInstance
    · rw [hi, Function.update_self, Redis.MemberSet.mem_sadd, or_iff_right hne]
    · rw [Function.update_of_ne hi]
  · rw [← hm.pending]
    change m.id ∈ (if args.requiresAck then w.pending.sadd messageId else w.pending) ↔ _
    cases args.requiresAck with
    | true => simp [hne]
    | false => simp
  · rcases Redis.SortedSet.mem_entries_zadd.mp (hsubset _ ht) with heq | ⟨hold, -⟩
    · exact absurd (congrArg Prod.fst heq) hne
    · exact hm.scored t hold
  · by_cases hin : m.id ∈ w.timeline
    · obtain ⟨t, ht⟩ := Redis.SortedSet.mem_def.mp hin
      obtain ⟨hfull, hbelow⟩ := hgone (m.id, t) (Redis.SortedSet.mem_entries_zadd.mpr
        (.inr ⟨ht, hne⟩)) fun h => hout (Redis.SortedSet.mem_def.mpr ⟨t, h⟩)
      refine ⟨hfull, fun e he => ?_⟩
      rw [← hm.scored t ht]
      exact wholeSeconds_mono (hbelow e he)
    · obtain ⟨hfull, hbelow⟩ := hm.trimmed hin
      obtain ⟨e, he, hlost⟩ := Redis.SortedSet.exists_trimmed hfull now htimeline
      obtain ⟨hfull', hbelow'⟩ := hgone e he hlost
      refine ⟨hfull', fun e' he' => ?_⟩
      -- What goes is the new entry, or one that is not older than the message.
      rcases Redis.SortedSet.mem_entries_zadd.mp (hsubset e' he') with heq' | ⟨hold', -⟩
      · rcases Redis.SortedSet.mem_entries_zadd.mp he with heq | ⟨hold, -⟩
        · rw [heq, ← heq'] at hlost
          exact absurd he' hlost
        · exact (hbelow e hold).trans (wholeSeconds_mono (hbelow' e' he'))
      · exact hbelow e' hold'

theorem Coherent.publish (hw : Coherent config expired w) {messageId : String}
    (hnew : ¬ expired messageId) (hnone : w.messages (config.messageKey messageId) = none)
    (now : Time) (args : PublishArgs) :
    Coherent config expired (Store.serve (args.transaction config now messageId) w).1 := by
  obtain ⟨hinbox, hpending, htimeline⟩ := hw.absent messageId hnew hnone
  obtain ⟨hsize, hsubset, -⟩ := Redis.SortedSet.zadd_trim hw.size now htimeline
  set w' := (Store.serve (args.transaction config now messageId) w).1
  have hmessages : w'.messages = w.messages.modify (config.messageKey messageId)
      (Redis.hset · (args.message now messageId).publishHash) := rfl
  have hself : w'.messages (config.messageKey messageId)
      = some (args.message now messageId).publishHash := by
    rw [hmessages, Redis.Keys.modify_self, hnone, Redis.hset_none]
  have hother : ∀ r, r ≠ messageId →
      w'.messages (config.messageKey r) = w.messages (config.messageKey r) := by
    intro r hr
    rw [hmessages, Redis.Keys.modify_of_ne _ _ (by simpa using hr)]
  refine ⟨fun r data hdata => ?_, fun r hr hdata => ?_, hsize⟩
  · by_cases hreq : r = messageId
    · rw [hreq, hself] at hdata
      cases hdata
      obtain ⟨m, hm, hid, hto, htime, hrequires, hack⟩ :=
        decodes_published (args.message now messageId)
      exact ⟨m, hm, hid.trans hreq.symm, indexed_published hw.size hinbox hpending htimeline now
        args hid hto htime hrequires hack⟩
    · rw [hother r hreq] at hdata
      obtain ⟨m, hm, hid, hindexed⟩ := hw.indexed r data hdata
      exact ⟨m, hm, hid, hindexed.publish_other hw.size htimeline (hid.trans_ne hreq) now args⟩
  · have hreq : r ≠ messageId := by
      intro h
      rw [h, hself] at hdata
      cases hdata
    rw [hother r hreq] at hdata
    obtain ⟨hinbox', hpending', htimeline'⟩ := hw.absent r hr hdata
    refine ⟨fun i => ?_, ?_, fun hin => ?_⟩
    · change r ∉ Function.update w.inbox (config.inboxKey args.toInstance) _ (config.inboxKey i)
      by_cases hi : config.inboxKey i = config.inboxKey args.toInstance
      · rw [hi, Function.update_self, Redis.MemberSet.mem_sadd, or_iff_right hreq]
        exact hinbox' _
      · rw [Function.update_of_ne hi]
        exact hinbox' i
    · change r ∉ (if args.requiresAck then w.pending.sadd messageId else w.pending)
      cases args.requiresAck with
      | true => simpa [hreq] using hpending'
      | false => simpa using hpending'
    · obtain ⟨t, ht⟩ := Redis.SortedSet.mem_def.mp hin
      rcases Redis.SortedSet.mem_entries_zadd.mp (hsubset _ ht) with heq | ⟨hold, -⟩
      · exact hreq (congrArg Prod.fst heq)
      · exact htimeline' (Redis.SortedSet.mem_def.mpr ⟨t, hold⟩)

theorem Coherent.acknowledge (hw : Coherent config expired w) {messageId : String}
    {data : MessageHash} (hdata : w.messages (config.messageKey messageId) = some data)
    (ackBy : String) (now : Time) (comment : Option String) :
    Coherent config expired (Store.serve (.acknowledge (config.messageKey messageId)
      (ackData ackBy now comment) messageId) w).1 := by
  set w' := (Store.serve (.acknowledge (config.messageKey messageId) (ackData ackBy now comment)
    messageId) w).1
  have hmessages : w'.messages = w.messages.modify (config.messageKey messageId)
      (Redis.hset · (ackData ackBy now comment)) := rfl
  have hself : w'.messages (config.messageKey messageId)
      = some (data.overlay (ackData ackBy now comment)) := by
    rw [hmessages, Redis.Keys.modify_self, hdata, Redis.hset_some]
  have hother : ∀ r, r ≠ messageId →
      w'.messages (config.messageKey r) = w.messages (config.messageKey r) := by
    intro r hr
    rw [hmessages, Redis.Keys.modify_of_ne _ _ (by simpa using hr)]
  have hpending : ∀ r, r ∈ w'.pending ↔ r ≠ messageId ∧ r ∈ w.pending :=
    fun r => Redis.MemberSet.mem_srem
  refine ⟨fun r data' hdata' => ?_, fun r hr hdata' => ?_, hw.size⟩
  · by_cases hreq : r = messageId
    · rw [hreq, hself] at hdata'
      cases hdata'
      obtain ⟨m, hm, hid, hindexed⟩ := hw.indexed messageId data hdata
      obtain ⟨m', hm', hid', hto, htime, -, hack⟩ := decodes_acknowledged hm ackBy now comment
      refine ⟨m', hm', (hid'.trans hid).trans hreq.symm, ?_⟩
      refine ⟨fun i => ?_, ?_, ?_, ?_⟩
      · rw [hid', hto]
        exact hindexed.inbox i
      · rw [hpending, hid', hid, hack]
        simp
      · rw [hid', htime]
        exact hindexed.scored
      · rw [hid', htime]
        exact hindexed.trimmed
    · rw [hother r hreq] at hdata'
      obtain ⟨m, hm, hid, hindexed⟩ := hw.indexed r data' hdata'
      refine ⟨m, hm, hid, hindexed.inbox, ?_, hindexed.scored, hindexed.trimmed⟩
      rw [hpending, hid, ← hindexed.pending, hid, and_iff_right hreq]
  · have hreq : r ≠ messageId := by
      intro h
      rw [h, hself] at hdata'
      cases hdata'
    rw [hother r hreq] at hdata'
    obtain ⟨hinbox, hout, htimeline⟩ := hw.absent r hr hdata'
    exact ⟨hinbox, fun h => hout ((hpending r).mp h).2, htimeline⟩

theorem Coherent.expire (hw : Coherent config expired w) (messageId : String) :
    Coherent config (fun r => expired r ∨ r = messageId) (w.expire config messageId) := by
  refine ⟨fun r data hdata => ?_, fun r hr hdata => ?_, hw.size⟩
  · have hreq : r ≠ messageId := by
      intro h
      simp [Store.expire, h] at hdata
    have hkey : config.messageKey r ≠ config.messageKey messageId := by simpa using hreq
    simp only [Store.expire, Redis.Keys.modify_of_ne _ _ hkey] at hdata
    obtain ⟨m, hm, hid, hindexed⟩ := hw.indexed r data hdata
    exact ⟨m, hm, hid, hindexed.inbox, hindexed.pending, hindexed.scored, hindexed.trimmed⟩
  · rw [not_or] at hr
    have hkey : config.messageKey r ≠ config.messageKey messageId := by simpa using hr.2
    simp only [Store.expire, Redis.Keys.modify_of_ne _ _ hkey] at hdata
    exact hw.absent r hr.1 hdata

/-! ## Sequences of operations -/

/-- Commands that touch neither the messages nor their indexes. -/
def Aside (cmd : Cmd) : Prop :=
  ∀ w : Store, (Store.serve cmd w).1.messages = w.messages ∧
    (Store.serve cmd w).1.inbox = w.inbox ∧ (Store.serve cmd w).1.pending = w.pending ∧
    (Store.serve cmd w).1.timeline = w.timeline

theorem Coherent.aside {cmd : Cmd} (hcmd : Aside cmd) (hw : Coherent config expired w) :
    Coherent config expired (Store.serve cmd w).1 := by
  obtain ⟨hmessages, hinbox, hpending, htimeline⟩ := hcmd w
  refine ⟨fun r data hdata => ?_, fun r hr hdata => ?_, ?_⟩
  · rw [hmessages] at hdata
    obtain ⟨m, hm, hid, hindexed⟩ := hw.indexed r data hdata
    refine ⟨m, hm, hid, ?_, ?_, ?_, ?_⟩
    · rw [hinbox]; exact hindexed.inbox
    · rw [hpending]; exact hindexed.pending
    · rw [htimeline]; exact hindexed.scored
    · rw [htimeline]; exact hindexed.trimmed
  · rw [hmessages] at hdata
    rw [hinbox, hpending, htimeline]
    exact hw.absent r hr hdata
  · rw [htimeline]
    exact hw.size

theorem aside_queueIfOffline (now : Time) (instanceId : String)
    (notification : NotificationEvent) :
    (queueIfOffline config now instanceId notification).Uses Aside := by
  have haway : ∀ {α : Type} (cls : ErrorClass) (message : String) details e,
      (onRedisError cls message details e : Async α).Uses Aside := fun _ _ _ _ => uses_raise _
  refine uses_tryCatch (uses_bind ?_ fun presence => ?_) fun _ => uses_ret _
  · exact uses_tryCatch (uses_bind (uses_command fun _ => ⟨rfl, rfl, rfl, rfl⟩) fun _ => uses_ret _)
      fun _ => haway _ _ _ _
  · split
    · exact uses_ret _
    · exact uses_bind (uses_tryCatch (uses_bind (uses_command fun _ => ⟨rfl, rfl, rfl, rfl⟩)
        fun _ => uses_ret _) fun _ => haway _ _ _ _) fun _ => uses_ret _

theorem Coherent.publishMessage (hw : Coherent config expired w) {messageId : String}
    (hnew : ¬ expired messageId) (now : Time) (args : PublishArgs) :
    Coherent config expired
      (eval Store.serve (publishMessage config now messageId args) w).2 := by
  cases hdata : w.messages (config.messageKey messageId) with
  | some data =>
    have hrun : eval Store.serve (Coordination.publishMessage config now messageId args) w
        = (.error (messageIdExists messageId), w) := by
      simp [Coordination.publishMessage, send, Store.serve, hdata, publishFailure,
        messageIdExists]
    rw [hrun]
    exact hw
  | none =>
    let rest : Async CoordinationMessage := do
      if args.toInstance = "all" then pure ()
      else queueIfOffline config now args.toInstance (args.notification now messageId)
      pure (args.message now messageId)
    have hrest : (rest.elim .ret fun e => throw (publishFailure messageId e)).Uses Aside := by
      refine uses_elim ?_ uses_ret fun _ => uses_raise _
      simp only [rest]
      split
      · exact uses_ret _
      · exact uses_bind (aside_queueIfOffline _ _ _) fun _ => uses_ret _
    have hrun : eval Store.serve (Coordination.publishMessage config now messageId args) w
        = eval Store.serve (rest.elim .ret fun e => throw (publishFailure messageId e))
            (Store.serve (args.transaction config now messageId) w).1 := by
      simp only [Coordination.publishMessage, send, command_eq, bind_eq, elim_call, eval_call,
        tryCatch_eq, answer_ok, elim_ret, Store.serve, hdata, Option.isSome_none,
        Bool.false_eq_true, if_false]
      rfl
    rw [hrun]
    exact (hrest.keeps fun _ hcmd _ h => h.aside hcmd).eval (hw.publish hnew hdata now args)

theorem Coherent.acknowledgeMessage (hw : Coherent config expired w) (now : Time)
    (messageId ackBy : String) (comment : Option String) :
    Coherent config expired
      (eval Store.serve (acknowledgeMessage config now messageId ackBy comment) w).2 := by
  have hrun : (eval Store.serve
        (Coordination.acknowledgeMessage config now messageId ackBy comment) w).2
      = if Redis.hget (w.messages (config.messageKey messageId)) .acknowledged = some true ∨
          w.messages (config.messageKey messageId) = none then w
        else (Store.serve (.acknowledge (config.messageKey messageId) (ackData ackBy now comment)
          messageId) w).1 := by
    cases hdata : w.messages (config.messageKey messageId) with
    | none => simp [Coordination.acknowledgeMessage, send, Store.serve, hdata]
    | some data =>
      by_cases hack : data .acknowledged = some true
      · simp [Coordination.acknowledgeMessage, send, Store.serve, hdata, hack]
      · simp [Coordination.acknowledgeMessage, send, Store.serve, hdata, hack]
  rw [hrun]
  split
  · exact hw
  · rename_i hstored
    rw [not_or, Option.eq_none_iff_forall_not_mem, not_forall] at hstored
    obtain ⟨-, data, hdata⟩ := hstored
    exact hw.acknowledge (not_not.mp hdata) ackBy now comment

/-- The ids of the messages that have expired. -/
def Expired (ops : List Op) (messageId : String) : Prop := .expire messageId ∈ ops

variable (config) in
/-- The indexes are coherent after every sequence of operations. -/
theorem coherent_run {ops : List Op} (hops : NoneRepublished ops) :
    Coherent config (Expired ops) (run (Op.step config) Store.empty ops) := by
  induction ops using List.reverseRecOn with
  | nil => exact coherent_empty
  | append_singleton ops op ih =>
    obtain ⟨hbefore, -, hlast⟩ := List.pairwise_append.mp hops
    have hw := ih hbefore
    rw [run_append, run_cons, run_nil]
    have hmono : ∀ {w' : Store}, Coherent config (Expired ops) w' →
        Coherent config (Expired (ops ++ [op])) w' := fun h =>
      ⟨h.indexed, fun r hr => h.absent r fun h' => hr (List.mem_append_left _ h'), h.size⟩
    cases op with
    | publish now messageId args =>
      refine hmono (hw.publishMessage (fun hexpired => ?_) now args)
      exact hlast _ hexpired _ (.head _) messageId rfl rfl
    | acknowledge now messageId ackBy comment =>
      exact hmono (hw.acknowledgeMessage now messageId ackBy comment)
    | expire messageId =>
      have h := hw.expire messageId
      refine ⟨h.indexed, fun r hr => h.absent r ?_, h.size⟩
      simpa [Expired] using hr

/-! ## The answer -/

section

variable {query : MessageQuery}

/-- The ids among which a query seeks. -/
def candidates (config : CoordinationConfig) (query : MessageQuery) (w : Store) : List String :=
  match given query.toInstance, query.pendingOnly with
  | some toInstance, true =>
    (w.inbox (config.inboxKey toInstance)).members.filter (· ∈ w.pending.members)
  | some toInstance, false => (w.inbox (config.inboxKey toInstance)).members
  | none, true => w.pending.members
  | none, false => Window query w

theorem eval_candidateIds (w : Store) :
    eval Store.serve (candidateIds config query) w = (.ok (candidates config query w), w) := by
  cases hto : given query.toInstance with
  | none =>
    cases hpending : query.pendingOnly with
    | true =>
      simp [candidateIds, inboxIds, pendingIds, candidates, send, Store.serve, hto, hpending]
    | false =>
      cases hsince : query.since with
      | none =>
        simp [candidateIds, inboxIds, timelineIds, candidates, Window, send, Store.serve,
          hto, hpending, hsince]
      | some since =>
        simp [candidateIds, inboxIds, timelineIds, candidates, Window, send, Store.serve,
          hto, hpending, hsince]
  | some toInstance =>
    cases hpending : query.pendingOnly with
    | true =>
      simp [candidateIds, inboxIds, pendingIds, candidates, send, Store.serve, hto, hpending]
    | false =>
      simp [candidateIds, inboxIds, candidates, send, Store.serve, hto, hpending]

theorem MessageQuery.limit_pos (query : MessageQuery) : 0 < 2 * query.limit := by
  have hlimit := query.one_le_limit
  omega

/-- The range of the newest, twice as many as the limit. -/
theorem window_stop : (query.limit : ℤ) * 2 - 1 = ((2 * query.limit : ℕ) : ℤ) - 1 := by omega

theorem window_nodup (w : Store) : (Window query w).Nodup := by
  cases hsince : query.since with
  | none =>
    simp only [Window, hsince, window_stop]
    exact Redis.SortedSet.zrevrange_nodup query.limit_pos
  | some since =>
    simp only [Window, hsince]
    exact w.timeline.nodup.sublist (List.filter_sublist.map Prod.fst)

theorem mem_timeline_of_mem_window {messageId : String} (h : messageId ∈ Window query w) :
    messageId ∈ w.timeline := by
  cases hsince : query.since with
  | none =>
    simp only [Window, hsince, window_stop] at h
    exact Redis.SortedSet.mem_of_mem_zrevrange query.limit_pos h
  | some since =>
    simp only [Window, hsince, List.mem_map, List.mem_filter] at h
    obtain ⟨e, ⟨he, -⟩, rfl⟩ := h
    exact List.mem_map_of_mem he

theorem candidates_nodup (w : Store) : (candidates config query w).Nodup := by
  unfold candidates
  split
  · exact (w.inbox _).nodup.filter _
  · exact (w.inbox _).nodup
  · exact w.pending.nodup
  · exact window_nodup w

/-- The message of an id has that id. -/
theorem Coherent.lookup_id (hw : Coherent config expired w) {messageId : String}
    {m : CoordinationMessage} (hm : lookup config w messageId = some m) : m.id = messageId := by
  obtain ⟨data, hdata, hdecodes⟩ := Option.bind_eq_some_iff.mp hm
  obtain ⟨m', hm', hid, -⟩ := hw.indexed messageId data hdata
  rw [hm'] at hdecodes
  cases hdecodes
  exact hid

theorem Coherent.lookup_eq_some (hw : Coherent config expired w) {messageId : String}
    {m : CoordinationMessage} :
    lookup config w messageId = some m ↔ Stored config w m ∧ m.id = messageId := by
  constructor
  · intro hm
    have hid := hw.lookup_id hm
    obtain ⟨data, hdata, hdecodes⟩ := Option.bind_eq_some_iff.mp hm
    refine ⟨⟨data, by rw [hid]; exact hdata, ?_⟩, hid⟩
    cases hhash : hashToMessage data with
    | error e => simp [hhash, Except.toOption] at hdecodes
    | ok m' => simpa [hhash, Except.toOption] using hdecodes
  · rintro ⟨⟨data, hdata, hdecodes⟩, rfl⟩
    simp [lookup, hdata, hdecodes, Except.toOption]

theorem Coherent.indexed_of_stored (hw : Coherent config expired w) {m : CoordinationMessage}
    (hm : Stored config w m) : Indexed config w m := by
  obtain ⟨data, hdata, hdecodes⟩ := hm
  obtain ⟨m', hm', -, hindexed⟩ := hw.indexed m.id data hdata
  rw [hdecodes] at hm'
  cases hm'
  exact hindexed

/-- The messages of some ids that the filters admit. -/
def fetched (config : CoordinationConfig) (query : MessageQuery) (w : Store) (ids : List String) :
    List CoordinationMessage :=
  (ids.filterMap (lookup config w)).filter query.admits

theorem Coherent.eval_fetchMessages (hw : Coherent config expired w) (ids : List String) :
    eval Store.serve (fetchMessages config query ids) w = (.ok (fetched config query w ids), w) := by
  induction ids with
  | nil => rfl
  | cons messageId ids ih =>
    cases hdata : w.messages (config.messageKey messageId) with
    | none =>
      simp only [fetchMessages, send, command_eq, bind_eq, elim_call, eval_call, answer_ok,
        elim_ret, Store.serve, hdata, pure_eq]
      rw [← bind_eq, eval_bind, ih]
      simp [fetched, lookup, hdata]
    | some data =>
      obtain ⟨m, hm, -⟩ := hw.indexed messageId data hdata
      simp only [fetchMessages, send, command_eq, bind_eq, elim_call, eval_call, answer_ok,
        elim_ret, Store.serve, hdata, hm, pure_eq]
      rw [← bind_eq, eval_bind, ih]
      have hlookup : lookup config w messageId = some m := by
        simp [lookup, hdata, hm, Except.toOption]
      by_cases hadmits : query.admits m = true
      · simp [fetched, hlookup, hadmits]
      · simp [fetched, hlookup, hadmits]

theorem Coherent.eval_getMessages (hw : Coherent config expired w)
    (order : Redis.IterationOrder String) (query : MessageQuery) :
    eval Store.serve (getMessages config order query) w
      = (.ok ((sortMessages (fetched config query w
          (order.list (candidates config query w)))).take query.limit), w) := by
  have hrun : eval Store.serve (do
      let messageIds ← candidateIds config query
      let messages ← fetchMessages config query (order.list messageIds)
      pure ((sortMessages messages).take query.limit)) w
        = (.ok ((sortMessages (fetched config query w
          (order.list (candidates config query w)))).take query.limit), w) := by
    rw [eval_bind, eval_candidateIds]
    simp only
    rw [eval_bind, hw.eval_fetchMessages]
    rfl
  rw [getMessages, tryCatch_eq, eval_elim, hrun]
  rfl

/-- What is fetched are the stored messages of the ids that the filters admit. -/
theorem Coherent.mem_fetched (hw : Coherent config expired w) {ids : List String}
    {m : CoordinationMessage} :
    m ∈ fetched config query w ids ↔
      m.id ∈ ids ∧ Stored config w m ∧ query.admits m = true := by
  rw [fetched, List.mem_filter, List.mem_filterMap]
  constructor
  · rintro ⟨⟨messageId, hmem, hm⟩, hadmits⟩
    obtain ⟨hstored, hid⟩ := hw.lookup_eq_some.mp hm
    exact ⟨by rw [hid]; exact hmem, hstored, hadmits⟩
  · rintro ⟨hmem, hstored, hadmits⟩
    exact ⟨⟨m.id, hmem, hw.lookup_eq_some.mpr ⟨hstored, rfl⟩⟩, hadmits⟩

theorem Coherent.fetched_nodup (hw : Coherent config expired w) {ids : List String}
    (hids : ids.Nodup) : ((fetched config query w ids).map CoordinationMessage.id).Nodup := by
  have hnodup : (fetched config query w ids).Nodup := by
    refine List.Nodup.filter _ (hids.filterMap fun r r' m hr hr' => ?_)
    rw [← hw.lookup_id hr, ← hw.lookup_id hr']
  refine hnodup.map_on fun m hm m' hm' hid => ?_
  have h := hw.lookup_eq_some.mpr ⟨(hw.mem_fetched.mp hm).2.1, hid⟩
  have h' := hw.lookup_eq_some.mpr ⟨(hw.mem_fetched.mp hm').2.1, rfl⟩
  rw [h] at h'
  exact Option.some.inj h'

/-- **The newest of a list**: a message that is not among them is not newer than any that
is. -/
theorem take_sortMessages (messages : List CoordinationMessage) (n : ℕ) :
    ((sortMessages messages).take n).Pairwise NotOlder ∧
      ((sortMessages messages).take n).length = min n messages.length ∧
      ((sortMessages messages).take n).Subperm messages ∧
      ∀ m ∈ messages, m ∉ (sortMessages messages).take n →
        n ≤ messages.length ∧ ∀ m' ∈ (sortMessages messages).take n, NotOlder m' m := by
  have hperm := List.perm_insertionSort NotOlder messages
  have hsorted := List.pairwise_insertionSort NotOlder messages
  have hlength : (sortMessages messages).length = messages.length := hperm.length_eq
  refine ⟨hsorted.sublist (List.take_sublist _ _), ?_, ?_, fun m hm hout => ?_⟩
  · rw [List.length_take, hlength]
  · exact (List.take_sublist _ _).subperm.trans hperm.subperm
  · have hall := hperm.mem_iff.mpr hm
    change m ∈ sortMessages messages at hall
    rw [← List.take_append_drop n (sortMessages messages), List.mem_append] at hall
    have htail := hall.resolve_left hout
    refine ⟨?_, fun m' hm' => ?_⟩
    · have hpos := List.length_pos_of_mem htail
      rw [List.length_drop, hlength] at hpos
      omega
    · change (sortMessages messages).Pairwise NotOlder at hsorted
      rw [← List.take_append_drop n (sortMessages messages), List.pairwise_append] at hsorted
      exact hsorted.2.2 m' hm' m htail

/-- An inbox and the pending ids miss nothing. -/
theorem Coherent.mem_candidates (hw : Coherent config expired w) {m : CoordinationMessage}
    (hm : Stored config w m) (hindex : given query.toInstance ≠ none ∨ query.pendingOnly = true) :
    m.id ∈ candidates config query w ∧ query.admits m = true ↔ query.selects m = true := by
  have hindexed := hw.indexed_of_stored hm
  cases hto : given query.toInstance with
  | none =>
    have hpending : query.pendingOnly = true := hindex.resolve_left (not_not.mpr hto)
    simp [candidates, MessageQuery.selects, hto, hpending, hindexed.pending]
  | some toInstance =>
    cases hpending : query.pendingOnly with
    | true =>
      simp [candidates, MessageQuery.selects, hto, hpending, hindexed.pending, hindexed.inbox,
        eq_comm (a := m.toInstance)]
    | false =>
      simp [candidates, MessageQuery.selects, hto, hpending, hindexed.inbox,
        eq_comm (a := m.toInstance)]

/-- A message that is not in what was taken of the timeline is not newer than those that
are. -/
theorem Coherent.notOlder_of_not_mem_window (hw : Coherent config expired w)
    {m m' : CoordinationMessage} (hm : Stored config w m) (hadmits : query.admits m = true)
    (hout : m.id ∉ Window query w) (hm' : Stored config w m') (hin : m'.id ∈ Window query w) :
    NotOlder m' m := by
  change m.timestamp ≤ m'.timestamp
  have hindexed := hw.indexed_of_stored hm
  obtain ⟨t', ht'⟩ := Redis.SortedSet.mem_def.mp (mem_timeline_of_mem_window hin)
  rw [← (hw.indexed_of_stored hm').scored t' ht']
  by_cases htimeline : m.id ∈ w.timeline
  · obtain ⟨t, ht⟩ := Redis.SortedSet.mem_def.mp htimeline
    rw [← hindexed.scored t ht]
    cases hsince : query.since with
    | none =>
      simp only [Window, hsince, window_stop] at hout hin
      exact wholeSeconds_mono (Redis.SortedSet.score_le_of_not_mem_zrevrange query.limit_pos ht
        hout ht' hin)
    | some since =>
      -- A message since a time is in the timeline since that time.
      have hsince' : since ≤ m.timestamp := by
        simp only [MessageQuery.admits, hsince, Option.all_some, Bool.and_eq_true,
          decide_eq_true_eq] at hadmits
        exact hadmits.2
      have hle : since ≤ t := by
        rw [← hindexed.scored t ht] at hsince'
        exact le_trans (α := ℤ) hsince' (wholeSeconds_le t)
      refine absurd ?_ hout
      simp only [Window, hsince, List.mem_map, List.mem_filter, decide_eq_true_eq]
      exact ⟨(m.id, t), ⟨ht, hle⟩, rfl⟩
  · exact (hindexed.trimmed htimeline).2 _ ht'

/-- What a query selects passes the filters on the messages fetched. -/
theorem MessageQuery.admits_of_selects {m : CoordinationMessage} (h : query.selects m = true) :
    query.admits m = true := by
  rw [selects, Bool.and_eq_true] at h
  exact h.2

/-- Where only the timeline is read, these are all filters. -/
theorem MessageQuery.selects_eq_admits (hto : given query.toInstance = none)
    (hpending : query.pendingOnly = false) : query.selects = query.admits := by
  funext m
  simp [selects, hto, hpending]

/-- **The answer to one query** is right exactly when the window suffices. -/
theorem Coherent.newestMatching_iff (hw : Coherent config expired w)
    (order : Redis.IterationOrder String) (query : MessageQuery) :
    NewestMatching config query w ((sortMessages (fetched config query w
        (order.list (candidates config query w)))).take query.limit) ↔
      WindowSuffices config query w := by
  set messages := fetched config query w (order.list (candidates config query w)) with hmessages
  obtain ⟨hsorted, hlength, hsubperm, hrest⟩ := take_sortMessages messages query.limit
  set result := (sortMessages messages).take query.limit
  have hsubset : ∀ m ∈ result, m ∈ messages := fun m hm => hsubperm.subset hm
  have hmem : ∀ m, m ∈ messages ↔
      m.id ∈ candidates config query w ∧ Stored config w m ∧ query.admits m = true := by
    intro m
    rw [hmessages, hw.mem_fetched, Redis.IterationOrder.mem_list]
  have hnodup : (result.map CoordinationMessage.id).Nodup := by
    have hall : (messages.map CoordinationMessage.id).Nodup :=
      hw.fetched_nodup (order.nodup_list (candidates_nodup w))
    obtain ⟨l, hperm, hsublist⟩ := hsubperm
    exact (hperm.map _).nodup_iff.mp (hall.sublist (hsublist.map _))
  have hle : result.length ≤ query.limit := by
    rw [hlength]
    exact Nat.min_le_left _ _
  have hkept : ∀ m ∈ messages, m ∉ result →
      result.length = query.limit ∧ ∀ m' ∈ result, m.timestamp ≤ m'.timestamp := by
    intro m hm hout
    obtain ⟨hfull, hnewer⟩ := hrest m hm hout
    exact ⟨by rw [hlength, Nat.min_eq_left hfull], hnewer⟩
  by_cases hindex : given query.toInstance ≠ none ∨ query.pendingOnly = true
  · refine iff_of_true ⟨hnodup, hsorted, hle, fun m hm => ?_, fun m hstored hselects hout => ?_⟩ ?_
    · obtain ⟨hid, hstored, hadmits⟩ := (hmem m).mp (hsubset m hm)
      exact ⟨hstored, (hw.mem_candidates hstored hindex).mp ⟨hid, hadmits⟩⟩
    · obtain ⟨hid, hadmits⟩ := (hw.mem_candidates hstored hindex).mpr hselects
      exact hkept m ((hmem m).mpr ⟨hid, hstored, hadmits⟩) hout
    · exact hindex.elim .inl fun h => .inr (.inl h)
  · rw [not_or, not_not, Bool.not_eq_true] at hindex
    obtain ⟨hto, hpending⟩ := hindex
    have hselects := query.selects_eq_admits hto hpending
    have hcandidates : candidates config query w = Window query w := by
      simp [candidates, hto, hpending]
    have hcount : (((Window query w).filterMap (lookup config w)).filter query.selects).length
        = messages.length := by
      rw [hmessages, fetched, hselects, hcandidates]
      exact (((order.perm _).filterMap _).filter _).length_eq.symm
    have hsuffices : WindowSuffices config query w ↔
        (∀ m, Stored config w m → query.selects m = true → m.id ∈ Window query w) ∨
          query.limit ≤ messages.length := by
      simp [WindowSuffices, hto, hpending, hcount]
    rw [hsuffices]
    constructor
    · intro hright
      by_cases hfull : query.limit ≤ messages.length
      · exact .inr hfull
      · refine .inl fun m hstored hsel => ?_
        have hin : m ∈ result := by
          by_contra hout
          have hreached := (hright.complete m hstored hsel hout).1
          rw [hlength] at hreached
          omega
        rw [← hcandidates]
        exact ((hmem m).mp (hsubset m hin)).1
    · intro hwindow
      refine ⟨hnodup, hsorted, hle, fun m hm => ?_, fun m hstored hsel hout => ?_⟩
      · obtain ⟨-, hstored, hadmits⟩ := (hmem m).mp (hsubset m hm)
        exact ⟨hstored, by rw [hselects]; exact hadmits⟩
      · have hadmits := MessageQuery.admits_of_selects hsel
        by_cases hin : m.id ∈ Window query w
        · refine hkept m ((hmem m).mpr ⟨?_, hstored, hadmits⟩) hout
          rw [hcandidates]
          exact hin
        · have hfull : query.limit ≤ messages.length :=
            hwindow.resolve_left fun h => hin (h m hstored hsel)
          refine ⟨by rw [hlength, Nat.min_eq_left hfull], fun m' hm' => ?_⟩
          obtain ⟨hid', hstored', -⟩ := (hmem m').mp (hsubset m' hm')
          rw [hcandidates] at hid'
          exact hw.notOlder_of_not_mem_window hstored hadmits hin hstored' hid'

end

variable (config) in
/-- **Queries over sequences of operations.**  After every sequence of publications,
acknowledgements and expiries in which the id of an expired message is not used again, a
query is answered, and the answer has the newest of the messages that it selects exactly
when what it takes of the timeline suffices. -/
theorem newest_matching_iff_window_suffices {ops : List Op} (hops : NoneRepublished ops)
    (order : Redis.IterationOrder String) (query : MessageQuery) :
    ∃ result, eval Store.serve (getMessages config order query)
        (run (Op.step config) Store.empty ops)
          = (.ok result, run (Op.step config) Store.empty ops) ∧
      (NewestMatching config query (run (Op.step config) Store.empty ops) result ↔
        WindowSuffices config query (run (Op.step config) Store.empty ops)) :=
  have hw := coherent_run config hops
  ⟨_, hw.eval_getMessages order query, hw.newestMatching_iff order query⟩

/-- A message of one instance, and then two of another. -/
def oneThenTwo : List Op :=
  [.publish 1000000 "a" ⟨.general, "subject", "description", "backend", "all", true⟩,
    .publish 2000000 "b" ⟨.general, "subject", "description", "frontend", "all", true⟩,
    .publish 3000000 "c" ⟨.general, "subject", "description", "frontend", "all", true⟩]

/-- One message of that instance is asked for. -/
def fromBackend : MessageQuery where
  fromInstance := some "backend"
  limit := 1

theorem newest_matching_one_then_two :
    ∃ result, eval Store.serve (getMessages {} .asAnswered fromBackend)
        (run (Op.step {}) Store.empty oneThenTwo)
          = (.ok result, run (Op.step {}) Store.empty oneThenTwo) ∧
      (NewestMatching {} fromBackend (run (Op.step {}) Store.empty oneThenTwo) result ↔
        WindowSuffices {} fromBackend (run (Op.step {}) Store.empty oneThenTwo)) :=
  newest_matching_iff_window_suffices {} (by simp [NoneRepublished, oneThenTwo]) .asAnswered
    fromBackend

/-- The message is stored and nothing is answered. -/
theorem stored_match_not_returned :
    (let w := run (Op.step {}) Store.empty oneThenTwo
     (lookup {} w "a").map fromBackend.selects = some true ∧
      (eval Store.serve (getMessages {} .asAnswered fromBackend) w).1 = .ok []) := by
  decide

end DoxAsdlc.Coordination
