import DoxAsdlc.Infrastructure.Recovery

/-!
# Entries that are no events

Decoding raises from inside the loops over a batch.  The live path and the reads of the worker
pool decode the whole batch before anything is passed on, so one bad entry keeps back all the
others; the recovery decodes entry by entry, so a bad entry keeps back what stands behind it.

## Main definitions

* `withBatch`, `decodable` — a batch, and the batch without the bad entries.
* `handledIn`, `received` — what was passed to the handler, and what a read returned.
* `LiveUnhindered`, `RecoveryUnhindered`, `ReadUnhindered`, `ClaimUnhindered` — the bad entries
  make no difference.
-/

namespace DoxAsdlc.ConsumerGroup

open Interaction Interaction.Program

/-- A batch is read, or is pending and claimed. -/
def withBatch {σ : Type} (env : Responder interface Error σ) (idle : ℕ)
    (batch : List (ℕ × RawEntry)) : Responder interface Error σ
  | .xreadgroup _, s => (s, .ok batch)
  | .xpendingRange _, s => (s, .ok (batch.map fun m => ⟨m.1, idle⟩))
  | .xclaim _ _, s => (s, .ok batch)
  | cmd, s => env cmd s

/-- The batch without the entries that are no events. -/
def decodable (c : EventConsumer) (batch : List (ℕ × RawEntry)) : List (ℕ × RawEntry) :=
  batch.filter fun m => Decodes c.codec m.2

/-- What a command passes to the handler. -/
def handledBy : Seen interface Error → List ASDLCEvent
  | ⟨.handle event, _⟩ => [event]
  | _ => []

/-- The events that were passed to the handler, in their order. -/
def handledIn (seen : List (Seen interface Error)) : List ASDLCEvent := seen.flatMap handledBy

/-- The events that a read has returned. -/
def received (result : Except Error (List ASDLCEvent)) : List ASDLCEvent := result.toOption.getD []

/-- The entry is an event that the handler handles. -/
def handleable (c : EventConsumer) (now : Time) (m : ℕ × RawEntry) : Bool :=
  match ASDLCEvent.ofRaw c.codec now m.1 m.2 with
  | .ok event => c.canHandle event.eventType
  | .error _ => false

/-- The entry is an event for the worker pool. -/
def started (c : EventConsumer) (now : Time) (m : ℕ × RawEntry) : Bool :=
  match ASDLCEvent.ofRaw c.codec now m.1 m.2 with
  | .ok event => event.eventType = .agentStarted
  | .error _ => false

section

variable (c : EventConsumer) (now : Time) (batch : List (ℕ × RawEntry))

/-- The live path passes to the handler what it would without the bad entries. -/
def LiveUnhindered : Prop :=
  ∀ (σ : Type) (env : Responder interface Error σ) (s : σ),
    handledIn (exec (withBatch env 0 batch) (c.processOnce now) s).seen
      = handledIn (exec (withBatch env 0 (decodable c batch)) (c.processOnce now) s).seen

/-- So does the recovery. -/
def RecoveryUnhindered : Prop :=
  ∀ (σ : Type) (env : Responder interface Error σ) (s : σ),
    handledIn (exec (withBatch env staleLimit batch) (c.processPending now) s).seen
      = handledIn (exec (withBatch env staleLimit (decodable c batch)) (c.processPending now) s).seen

/-- `read_events` of the worker pool returns what it would without the bad entries. -/
def ReadUnhindered : Prop :=
  ∀ (σ : Type) (env : Responder interface Error σ) (s : σ),
    received (exec (withBatch env 0 batch) (c.readEvents now) s).result
      = received (exec (withBatch env 0 (decodable c batch)) (c.readEvents now) s).result

/-- So does `claim_stale_events`. -/
def ClaimUnhindered (minIdleMs count : ℕ) : Prop :=
  ∀ (σ : Type) (env : Responder interface Error σ) (s : σ),
    received (exec (withBatch env minIdleMs batch) (c.claimStaleEvents now minIdleMs count) s).result
      = received (exec (withBatch env minIdleMs (decodable c batch))
          (c.claimStaleEvents now minIdleMs count) s).result

end

section

variable {c : EventConsumer} {now : Time} {batch : List (ℕ × RawEntry)} {σ : Type}
  {env : Responder interface Error σ} {s : σ} {event : ASDLCEvent} {m : ℕ × RawEntry}

@[simp] theorem handledIn_nil : handledIn [] = [] := rfl

theorem handledIn_append (l l' : List (Seen interface Error)) :
    handledIn (l ++ l') = handledIn l ++ handledIn l' := List.flatMap_append

theorem handledIn_cons (x : Seen interface Error) (l : List (Seen interface Error)) :
    handledIn (x :: l) = handledBy x ++ handledIn l := List.flatMap_cons

/-- Commands about events do not depend on the batch. -/
theorem exec_withBatch {α : Type} {p : Async α} (hp : Uses AboutEvent p) (idle : ℕ) :
    exec (withBatch env idle batch) p s = exec env p s := by
  apply hp.exec_congr
  intro cmd s habout
  cases cmd with
  | xreadgroup count => cases habout
  | xpendingRange count => cases habout
  | xclaim minIdleTime ids => cases habout
  | _ => rfl

/-- Commands that do not go to the handler. -/
def Quiet : Cmd → Prop
  | .handle _ => False
  | _ => True

theorem handledIn_eq_nil {α : Type} {p : Async α} (hp : Uses Quiet p) :
    handledIn (exec env p s).seen = [] := by
  rw [handledIn, List.flatMap_eq_nil_iff]
  intro x hx
  have hquiet := hp.exec env s hx
  obtain ⟨cmd, reply⟩ := x
  cases cmd with
  | handle event => cases hquiet
  | _ => rfl

theorem handleable_of_ofRaw (h : ASDLCEvent.ofRaw c.codec now m.1 m.2 = .ok event) :
    handleable c now m = c.canHandle event.eventType := by
  rw [handleable, h]

theorem not_handleable (hbad : ¬ Decodes c.codec m.2) : handleable c now m = false := by
  obtain ⟨e, he⟩ := ofRaw_error hbad now m.1
  rw [handleable, he]

/-! ## Decoding a batch -/

/-- The events of a batch. -/
def eventsOf (c : EventConsumer) (now : Time) (batch : List (ℕ × RawEntry)) : List ASDLCEvent :=
  batch.filterMap fun m => (ASDLCEvent.ofRaw c.codec now m.1 m.2).toOption

theorem decodeAll_of_decodes (h : ∀ m ∈ batch, Decodes c.codec m.2) :
    c.decodeAll now batch = .ok (eventsOf c now batch) := by
  induction batch with
  | nil => rfl
  | cons m batch ih =>
    obtain ⟨event, hread⟩ := (h m List.mem_cons_self).ofRaw now m.1
    have hrest := ih fun m' hm' => h m' (List.mem_cons_of_mem m hm')
    simp only [EventConsumer.decodeAll, hread, hrest, eventsOf, List.filterMap_cons]
    rfl

theorem decodeAll_of_bad (hm : m ∈ batch) (hbad : ¬ Decodes c.codec m.2) :
    ∃ e, c.decodeAll now batch = .error e := by
  induction batch with
  | nil => cases hm
  | cons m' batch ih =>
    simp only [EventConsumer.decodeAll, bind_eq_error]
    cases hread : ASDLCEvent.ofRaw c.codec now m'.1 m'.2 with
    | error e => exact ⟨e, .inl rfl⟩
    | ok event =>
      rcases List.mem_cons.mp hm with rfl | hm
      · exact absurd (decodes_of_ofRaw hread) hbad
      · obtain ⟨e, he⟩ := ih hm
        exact ⟨e, .inr ⟨event, rfl, .inl he⟩⟩

theorem decodes_of_mem_decodable (hm : m ∈ decodable c batch) : Decodes c.codec m.2 := by
  simpa using (List.mem_filter.mp hm).2

theorem decodable_eq_self (h : ∀ m ∈ batch, Decodes c.codec m.2) : decodable c batch = batch :=
  List.filter_eq_self.mpr fun m hm => decide_eq_true (h m hm)

theorem decodable_cons (hdecodes : Decodes c.codec m.2) :
    decodable c (m :: batch) = m :: decodable c batch :=
  List.filter_cons_of_pos (decide_eq_true hdecodes)

theorem decodable_cons_bad (hbad : ¬ Decodes c.codec m.2) :
    decodable c (m :: batch) = decodable c batch :=
  List.filter_cons_of_neg (by simpa using hbad)

/-- The bad entries are no events. -/
theorem eventsOf_decodable : eventsOf c now (decodable c batch) = eventsOf c now batch := by
  induction batch with
  | nil => rfl
  | cons m batch ih =>
    by_cases hdecodes : Decodes c.codec m.2
    · rw [decodable_cons hdecodes]
      simp only [eventsOf, List.filterMap_cons] at ih ⊢
      rw [ih]
    · obtain ⟨e, he⟩ := ofRaw_error hdecodes now m.1
      rw [decodable_cons_bad hdecodes]
      simp only [eventsOf, List.filterMap_cons, he] at ih ⊢
      exact ih

theorem mem_eventsOf : event ∈ eventsOf c now batch ↔
    ∃ m ∈ batch, ASDLCEvent.ofRaw c.codec now m.1 m.2 = .ok event := by
  simp only [eventsOf, List.mem_filterMap]
  refine exists_congr fun m => and_congr_right fun _ => ?_
  cases ASDLCEvent.ofRaw c.codec now m.1 m.2 <;> simp [Except.toOption]

/-- Nothing of the batch is for the handler. -/
theorem forall_not_handleable : (∀ m ∈ batch, handleable c now m = false) ↔
    ∀ event ∈ eventsOf c now batch, c.canHandle event.eventType = false := by
  constructor
  · intro h event hevent
    obtain ⟨m, hm, hread⟩ := mem_eventsOf.mp hevent
    have hm := h m hm
    rwa [handleable, hread] at hm
  · intro h m hm
    unfold handleable
    cases hread : ASDLCEvent.ofRaw c.codec now m.1 m.2 with
    | error e => rfl
    | ok event => exact h event (mem_eventsOf.mpr ⟨m, hm, hread⟩)

/-! ## The live path -/

theorem uses_handleEvent : Uses AboutEvent (c.handleEvent event) := by
  have hack : Uses AboutEvent (do let _ ← c.acknowledgeEvent event.eventId : Async Unit) :=
    uses_bind (uses_acknowledgeEvent _) fun _ => uses_ret _
  have hconclude (r : HandlerResult) : Uses AboutEvent (c.conclude event r) := by
    unfold EventConsumer.conclude
    split
    · exact uses_settle _
    · split
      · exact uses_ret _
      · exact hack
  unfold EventConsumer.handleEvent
  split
  · apply uses_bind uses_alreadyProcessed
    intro processed
    split
    · exact hack
    · exact uses_tryCatch (uses_bind (uses_command trivial) hconclude) fun _ => uses_ret _
  · exact hack

theorem uses_handleEvents {A : Cmd → Prop} {events : List ASDLCEvent}
    (h : ∀ event ∈ events, Uses A (c.handleEvent event)) : Uses A (c.handleEvents events) := by
  induction events with
  | nil => exact uses_ret _
  | cons event events ih =>
    have hrest := ih fun event' hevent' => h event' (List.mem_cons_of_mem event hevent')
    have hevent := h event List.mem_cons_self
    exact uses_bind (uses_tryCatch (uses_bind hevent fun _ => uses_ret _) fun _ => uses_ret _)
      fun _ => uses_bind hrest fun _ => uses_ret _

/-- An event that the handler does not handle is not passed to it. -/
theorem quiet_handleEvent (h : c.canHandle event.eventType = false) :
    Uses Quiet (c.handleEvent event) := by
  rw [EventConsumer.handleEvent, if_neg (Bool.eq_false_iff.mp h)]
  exact uses_bind (uses_tryCatch (uses_command trivial) fun _ => uses_raise _) fun _ => uses_ret _

/-- Where the batch decodes, all its events are handled, one after the other; else none. -/
theorem live_eq : handledIn (exec (withBatch env 0 batch) (c.processOnce now) s).seen
    = match c.decodeAll now batch with
      | .ok events => handledIn (exec env (c.handleEvents events) s).seen
      | .error _ => [] := by
  simp only [EventConsumer.processOnce, EventConsumer.readEventsFromGroup, send, bind_eq,
    tryCatch_eq, elim_call, exec_call, withBatch, answer_ok, elim_ret, handledIn_cons, handledBy,
    List.nil_append]
  cases c.decodeAll now batch with
  | error e => rfl
  | ok events =>
    have huses : Uses AboutEvent (c.handleEvents events) :=
      uses_handleEvents fun _ _ => uses_handleEvent
    simp only [answer_ok, elim_ret, exec_withBatch huses]

/-- If nothing fails, an event that the handler handles is passed to it. -/
theorem exec_handleEvent_smooth (u : Unit) :
    (exec smooth (c.handleEvent event) u).result = .ok () ∧
      handledIn (exec smooth (c.handleEvent event) u).seen
        = if c.canHandle event.eventType then [event] else [] := by
  unfold EventConsumer.handleEvent EventConsumer.alreadyProcessed
  cases c.canHandle event.eventType with
  | false => exact ⟨rfl, rfl⟩
  | true =>
    simp only [if_true, EventConsumer.conclude, EventConsumer.settle]
    cases given event.idempotencyKey with
    | none => exact ⟨rfl, rfl⟩
    | some key => exact ⟨rfl, rfl⟩

theorem handledIn_smooth {events : List ASDLCEvent} (u : Unit) :
    handledIn (exec smooth (c.handleEvents events) u).seen
      = events.filter fun event => c.canHandle event.eventType := by
  induction events generalizing u with
  | nil => rfl
  | cons event events ih =>
    obtain ⟨hresult, hhandled⟩ := @exec_handleEvent_smooth c event u
    simp only [EventConsumer.handleEvents, bind_eq, tryCatch_eq, elim_elim]
    rw [exec_elim_ok hresult, handledIn_append, hhandled]
    simp only [pure_eq, elim_ret]
    rw [seen_elim_finished smooth _ _ (fun _ => rfl) fun _ => rfl, ih]
    cases hhandles : c.canHandle event.eventType with
    | true => rw [List.filter_cons_of_pos (by exact hhandles)]; rfl
    | false => rw [List.filter_cons_of_neg (by simp [hhandles])]; rfl

/-- A bad entry keeps back the whole batch. -/
theorem liveUnhindered_iff : LiveUnhindered c now batch ↔
    (∀ m ∈ batch, Decodes c.codec m.2) ∨ ∀ m ∈ batch, handleable c now m = false := by
  have hdecodable : c.decodeAll now (decodable c batch) = .ok (eventsOf c now batch) := by
    rw [← eventsOf_decodable]
    exact decodeAll_of_decodes fun m => decodes_of_mem_decodable
  constructor
  · intro h
    by_contra hnot
    obtain ⟨hbad, hhandleable⟩ := not_or.mp hnot
    simp only [not_forall] at hbad
    obtain ⟨m, hm, hbad⟩ := hbad
    obtain ⟨e, he⟩ : ∃ e, c.decodeAll now batch = .error e := decodeAll_of_bad hm hbad
    have hsame := h Unit smooth ()
    rw [live_eq, live_eq, he, hdecodable] at hsame
    change [] = handledIn _ at hsame
    rw [handledIn_smooth, eq_comm, List.filter_eq_nil_iff] at hsame
    refine hhandleable (forall_not_handleable.mpr fun event hevent => ?_)
    exact Bool.eq_false_iff.mpr (hsame event hevent)
  · rintro (hdecodes | hnone)
    · intro σ env s
      rw [decodable_eq_self hdecodes]
    · intro σ env s
      rw [live_eq, live_eq, hdecodable]
      have hquiet : handledIn (exec env (c.handleEvents (eventsOf c now batch)) s).seen = [] :=
        handledIn_eq_nil (uses_handleEvents fun event hevent =>
          quiet_handleEvent (forall_not_handleable.mp hnone event hevent))
      by_cases hall : ∀ m ∈ batch, Decodes c.codec m.2
      · rw [decodeAll_of_decodes hall]
      · simp only [not_forall] at hall
        obtain ⟨m, hm, hbad⟩ := hall
        obtain ⟨e, he⟩ : ∃ e, c.decodeAll now batch = .error e := decodeAll_of_bad hm hbad
        rw [he]
        exact hquiet.symm

/-! ## The recovery -/

/-- The counters do not matter to what is done. -/
theorem seen_recoverEntries (counts counts' : RecoveryResult) :
    (exec env (c.recoverEntries now counts batch) s).seen
      = (exec env (c.recoverEntries now counts' batch) s).seen := by
  induction batch generalizing counts counts' s with
  | nil => rfl
  | cons m batch ih =>
    rw [EventConsumer.recoverEntries, EventConsumer.recoverEntries]
    split
    · exact ih counts counts'
    · cases hentry : (exec env (c.recoverEntry now m.1 m.2) s).result with
      | ok v =>
        rw [exec_elim_ok hentry, exec_elim_ok hentry]
        exact congrArg ((exec env (c.recoverEntry now m.1 m.2) s).seen ++ ·) (ih _ _)
      | error e =>
        rw [exec_elim_error hentry, exec_elim_error hentry]
        cases e.isRedis <;> rfl

/-- What the recovery of a batch passes to the handler. -/
def recovered (c : EventConsumer) (now : Time) (env : Responder interface Error σ)
    (batch : List (ℕ × RawEntry)) (s : σ) : List ASDLCEvent :=
  handledIn (exec env (c.recoverEntries now {} batch) s).seen

theorem staleIds_batch (idle : ℕ) :
    staleIds (batch.map fun m => ⟨m.1, idle⟩) idle = batch.map Prod.fst := by
  rw [staleIds, List.filter_eq_self.mpr, List.map_map]
  · rfl
  · intro p hp
    obtain ⟨m, hm, rfl⟩ := List.mem_map.mp hp
    exact decide_eq_true (Nat.le_refl idle)

theorem recovery_eq : handledIn (exec (withBatch env staleLimit batch) (c.processPending now) s).seen
    = recovered c now env batch s := by
  simp only [EventConsumer.processPending, EventConsumer.getPendingEvents, send, bind_eq,
    tryCatch_eq, elim_call, exec_call, withBatch, answer_ok, elim_ret, handledIn_cons, handledBy,
    List.nil_append]
  by_cases hempty : batch = []
  · subst hempty
    rfl
  · rw [staleIds_batch, if_neg (by simp [hempty])]
    simp only [exec_call, withBatch, answer_ok, elim_ret, handledIn_cons, handledBy,
      List.nil_append]
    rw [exec_withBatch aboutEvent_recoverEntries, seen_recoverEntries _ {}]
    rfl

theorem recovered_nodata (hdata : m.2 = []) :
    recovered c now env (m :: batch) s = recovered c now env batch s := by
  rw [recovered, EventConsumer.recoverEntries, if_pos hdata]
  rfl

theorem recovered_ok (hdata : m.2 ≠ []) {v : Verdict}
    (h : (exec env (c.recoverEntry now m.1 m.2) s).result = .ok v) :
    recovered c now env (m :: batch) s
      = handledIn (exec env (c.recoverEntry now m.1 m.2) s).seen
        ++ recovered c now env batch (exec env (c.recoverEntry now m.1 m.2) s).state := by
  rw [recovered, EventConsumer.recoverEntries, if_neg hdata, exec_elim_ok h, handledIn_append,
    seen_recoverEntries _ {}]
  rfl

theorem recovered_error (hdata : m.2 ≠ []) {e : Error}
    (h : (exec env (c.recoverEntry now m.1 m.2) s).result = .error e) :
    recovered c now env (m :: batch) s
      = handledIn (exec env (c.recoverEntry now m.1 m.2) s).seen := by
  rw [recovered, EventConsumer.recoverEntries, if_neg hdata, exec_elim_error h, handledIn_append]
  split <;> exact List.append_nil _

/-- A bad entry ends the recovery. -/
theorem recovered_bad (hdata : m.2 ≠ []) (hbad : ¬ Decodes c.codec m.2) :
    recovered c now env (m :: batch) s = [] := by
  obtain ⟨e, he⟩ := ofRaw_error hbad now m.1
  have hentry : exec env (c.recoverEntry now m.1 m.2) s = ⟨.error e, s, []⟩ := by
    rw [EventConsumer.recoverEntry, he]
    rfl
  rw [recovered_error hdata (by rw [hentry]), hentry]
  rfl

theorem data_ne_nil (h : Decodes c.codec m.2) : m.2 ≠ [] := by
  intro hdata
  obtain ⟨event, hread⟩ := h.ofRaw 0 0
  obtain ⟨_, _, sessionId, -, -, hsession, -⟩ := ASDLCEvent.ofRaw_eq_ok.mp hread
  rw [hdata] at hsession
  cases hsession

theorem quiet_recoverEntry (h : handleable c now m = false) :
    Uses Quiet (c.recoverEntry now m.1 m.2) := by
  rw [EventConsumer.recoverEntry]
  cases hread : ASDLCEvent.ofRaw c.codec now m.1 m.2 with
  | error e => exact uses_raise e
  | ok event =>
    rw [handleable, hread] at h
    have hhandles : c.canHandle event.eventType = false := h
    have hlookup : Uses Quiet (c.alreadyProcessed event) := by
      unfold EventConsumer.alreadyProcessed
      split
      · exact uses_ret _
      · exact uses_command trivial
    have hskip : Uses Quiet (do
        let _ ← c.acknowledgeEvent (some m.1)
        pure .skipped : Async Verdict) :=
      uses_bind (uses_tryCatch (uses_command trivial) fun _ => uses_raise _) fun _ => uses_ret _
    apply uses_bind hlookup
    intro processed
    cases processed with
    | true => exact hskip
    | false =>
      rw [if_neg Bool.false_ne_true, if_neg (Bool.eq_false_iff.mp hhandles)]
      exact hskip

/-- Nothing is passed to a handler that handles nothing of the batch. -/
theorem recovered_none (h : ∀ m ∈ batch, handleable c now m = false) :
    recovered c now env batch s = [] :=
  handledIn_eq_nil (uses_recoverEntries fun m hm => quiet_recoverEntry (h m hm))

/-- If nothing fails, a claimed event that the handler handles is passed to it. -/
theorem exec_recoverEvent_smooth (i : ℕ) (u : Unit) :
    (∃ v, (exec smooth (c.recoverEvent i event) u).result = .ok v) ∧
      handledIn (exec smooth (c.recoverEvent i event) u).seen
        = if c.canHandle event.eventType then [event] else [] := by
  unfold EventConsumer.recoverEvent EventConsumer.alreadyProcessed
  cases c.canHandle event.eventType with
  | false =>
    cases given event.idempotencyKey with
    | none => exact ⟨⟨_, rfl⟩, rfl⟩
    | some key => exact ⟨⟨_, rfl⟩, rfl⟩
  | true =>
    simp only [if_true, EventConsumer.concludeRecovery, EventConsumer.settle]
    cases given event.idempotencyKey with
    | none => exact ⟨⟨_, rfl⟩, rfl⟩
    | some key => exact ⟨⟨_, rfl⟩, rfl⟩

theorem length_recovered_cons (u : Unit) (h : Decodes c.codec m.2) :
    (recovered c now smooth (m :: batch) u).length
      = (if handleable c now m then 1 else 0) + (recovered c now smooth batch u).length := by
  obtain ⟨event, hread⟩ := h.ofRaw now m.1
  obtain ⟨⟨v, hv⟩, hhandled⟩ := @exec_recoverEvent_smooth c event m.1 u
  have hentry : c.recoverEntry now m.1 m.2 = c.recoverEvent m.1 event := by
    rw [EventConsumer.recoverEntry, hread]
    rfl
  rw [recovered_ok (data_ne_nil h) (by rw [hentry]; exact hv), hentry, List.length_append, hhandled,
    handleable_of_ofRaw hread]
  change _ + (recovered c now smooth batch u).length = _
  cases c.canHandle event.eventType <;> rfl

/-- All of a good batch is passed on. -/
theorem length_recovered_good (u : Unit) (h : ∀ m ∈ batch, Decodes c.codec m.2) :
    (recovered c now smooth batch u).length = batch.countP (handleable c now) := by
  induction batch with
  | nil => rfl
  | cons m batch ih =>
    rw [length_recovered_cons u (h m List.mem_cons_self),
      ih fun m' hm' => h m' (List.mem_cons_of_mem m hm'), List.countP_cons]
    omega

/-- Nothing behind a bad entry is passed on. -/
theorem length_recovered_le {before after : List (ℕ × RawEntry)} (u : Unit) (hdata : m.2 ≠ [])
    (hbad : ¬ Decodes c.codec m.2) :
    (recovered c now smooth (before ++ m :: after) u).length ≤ before.countP (handleable c now) := by
  induction before with
  | nil =>
    rw [List.nil_append, recovered_bad hdata hbad]
    exact Nat.le_refl 0
  | cons m' before ih =>
    rw [List.cons_append, List.countP_cons]
    by_cases hnodata : m'.2 = []
    · rw [recovered_nodata hnodata]
      omega
    · by_cases hdecodes : Decodes c.codec m'.2
      · rw [length_recovered_cons u hdecodes]
        omega
      · rw [recovered_bad hnodata hdecodes]
        exact Nat.zero_le _

theorem countP_decodable :
    (decodable c batch).countP (handleable c now) = batch.countP (handleable c now) := by
  induction batch with
  | nil => rfl
  | cons m batch ih =>
    by_cases hdecodes : Decodes c.codec m.2
    · rw [decodable_cons hdecodes, List.countP_cons, List.countP_cons, ih]
    · rw [decodable_cons_bad hdecodes, List.countP_cons, not_handleable hdecodes, ih]
      rfl

/-- No bad entry stands before an entry for the handler. -/
def BadLast (c : EventConsumer) (now : Time) (batch : List (ℕ × RawEntry)) : Prop :=
  ∀ before bad after, batch = before ++ bad :: after → bad.2 ≠ [] → ¬ Decodes c.codec bad.2 →
    ∀ m ∈ after, handleable c now m = false

theorem BadLast.tail (h : BadLast c now (m :: batch)) : BadLast c now batch :=
  fun before bad after hbatch => h (m :: before) bad after (by rw [hbatch, List.cons_append])

theorem recovered_decodable (h : BadLast c now batch) :
    recovered c now env batch s = recovered c now env (decodable c batch) s := by
  induction batch generalizing s with
  | nil => rfl
  | cons m batch ih =>
    by_cases hdecodes : Decodes c.codec m.2
    · rw [decodable_cons hdecodes]
      cases hentry : (exec env (c.recoverEntry now m.1 m.2) s).result with
      | ok v =>
        rw [recovered_ok (data_ne_nil hdecodes) hentry,
          recovered_ok (data_ne_nil hdecodes) hentry, ih h.tail]
      | error e =>
        rw [recovered_error (data_ne_nil hdecodes) hentry,
          recovered_error (data_ne_nil hdecodes) hentry]
    · rw [decodable_cons_bad hdecodes]
      by_cases hnodata : m.2 = []
      · rw [recovered_nodata hnodata, ih h.tail]
      · have hnone := h [] m batch rfl hnodata hdecodes
        rw [recovered_bad hnodata hdecodes, recovered_none]
        exact fun m' hm' => hnone m' (List.mem_of_mem_filter hm')

/-- A bad entry keeps back what stands behind it. -/
theorem recoveryUnhindered_iff : RecoveryUnhindered c now batch ↔ BadLast c now batch := by
  constructor
  · intro h before bad after hbatch hdata hbad m hm
    by_contra hhandleable
    have hsame := h Unit smooth ()
    rw [recovery_eq, recovery_eq] at hsame
    have hgood : (recovered c now smooth (decodable c batch) ()).length = _ :=
      length_recovered_good () fun m => decodes_of_mem_decodable
    rw [← hsame, countP_decodable, hbatch, List.countP_append, List.countP_cons] at hgood
    have hle : (recovered c now smooth (before ++ bad :: after) ()).length
        ≤ before.countP (handleable c now) := length_recovered_le () hdata hbad
    have hpos : 0 < after.countP (handleable c now) :=
      List.countP_pos_iff.mpr ⟨m, hm, Bool.of_not_eq_false hhandleable⟩
    omega
  · intro h σ env s
    rw [recovery_eq, recovery_eq]
    exact recovered_decodable h

/-! ## The reads of the worker pool -/

/-- The events of a batch for the worker pool. -/
def startedEvents (c : EventConsumer) (now : Time) (batch : List (ℕ × RawEntry)) :
    List ASDLCEvent :=
  (eventsOf c now batch).filter fun event => event.eventType = .agentStarted

theorem startedEvents_eq_nil_iff :
    startedEvents c now batch = [] ↔ ∀ m ∈ batch, started c now m = false := by
  rw [startedEvents, List.filter_eq_nil_iff]
  constructor
  · intro h m hm
    unfold started
    cases hread : ASDLCEvent.ofRaw c.codec now m.1 m.2 with
    | error e => rfl
    | ok event => exact Bool.eq_false_iff.mpr (h event (mem_eventsOf.mpr ⟨m, hm, hread⟩))
  · intro h event hevent
    obtain ⟨m, hm, hread⟩ := mem_eventsOf.mp hevent
    have hstarted := h m hm
    rw [started, hread] at hstarted
    exact Bool.eq_false_iff.mp hstarted

theorem startedEvents_decodable :
    startedEvents c now (decodable c batch) = startedEvents c now batch := by
  rw [startedEvents, eventsOf_decodable, startedEvents]

theorem startedEvents_cons (hread : ASDLCEvent.ofRaw c.codec now m.1 m.2 = .ok event) :
    startedEvents c now (m :: batch)
      = if event.eventType = .agentStarted then event :: startedEvents c now batch
        else startedEvents c now batch := by
  simp only [startedEvents, eventsOf, List.filterMap_cons, hread]
  by_cases htype : event.eventType = .agentStarted
  · simp [Except.toOption, htype]
  · simp [Except.toOption, htype]

theorem aboutEvent_readMessages : Uses AboutEvent (c.readMessages now batch) := by
  induction batch with
  | nil => exact uses_ret _
  | cons m batch ih =>
    rw [EventConsumer.readMessages]
    apply uses_bind (uses_answer _)
    intro event
    split
    · exact uses_bind ih fun _ => uses_ret _
    · exact uses_bind (uses_acknowledgeEvent _) fun _ => ih

/-- A read returns what its loop returns. -/
theorem read_eq : received (exec (withBatch env 0 batch) (c.readEvents now) s).result
    = received (exec env (c.readMessages now batch) s).result := by
  simp only [EventConsumer.readEvents, send, bind_eq, tryCatch_eq, elim_call, exec_call, withBatch,
    answer_ok, elim_ret]
  rw [exec_elim, exec_withBatch aboutEvent_readMessages, follow]
  cases (exec env (c.readMessages now batch) s).result <;> rfl

/-- A bad entry makes the read raise. -/
theorem readMessages_bad (hm : m ∈ batch) (hbad : ¬ Decodes c.codec m.2) :
    received (exec env (c.readMessages now batch) s).result = [] := by
  suffices h : ∃ e, (exec env (c.readMessages now batch) s).result = .error e by
    obtain ⟨e, he⟩ := h
    rw [he]
    rfl
  induction batch generalizing s with
  | nil => cases hm
  | cons m' batch ih =>
    rw [EventConsumer.readMessages]
    cases hread : ASDLCEvent.ofRaw c.codec now m'.1 m'.2 with
    | error e => exact ⟨e, rfl⟩
    | ok event =>
      have hm : m ∈ batch := by
        rcases List.mem_cons.mp hm with rfl | hm
        · exact absurd (decodes_of_ofRaw hread) hbad
        · exact hm
      simp only [answer_ok, bind_eq, elim_ret]
      split
      · obtain ⟨e, he⟩ := ih (s := s) hm
        rw [exec_elim_error he]
        exact ⟨e, rfl⟩
      · cases hack : (exec env (c.acknowledgeEvent (some m'.1)) s).result with
        | error e =>
          rw [exec_elim_error hack]
          exact ⟨e, rfl⟩
        | ok acked =>
          rw [exec_elim_ok hack]
          exact ih hm

/-- What a read returns is for the worker pool. -/
theorem readMessages_none (h : startedEvents c now batch = []) :
    received (exec env (c.readMessages now batch) s).result = [] := by
  induction batch generalizing s with
  | nil => rfl
  | cons m batch ih =>
    rw [EventConsumer.readMessages]
    cases hread : ASDLCEvent.ofRaw c.codec now m.1 m.2 with
    | error e => rfl
    | ok event =>
      rw [startedEvents_cons hread] at h
      simp only [answer_ok, bind_eq, elim_ret]
      split at h
      · cases h
      · next htype =>
        rw [if_neg htype]
        cases hack : (exec env (c.acknowledgeEvent (some m.1)) s).result with
        | error e =>
          rw [exec_elim_error hack]
          rfl
        | ok acked =>
          rw [exec_elim_ok hack]
          exact ih h

/-- If nothing fails, a good batch is returned. -/
theorem readMessages_smooth (u : Unit) (h : ∀ m ∈ batch, Decodes c.codec m.2) :
    (exec smooth (c.readMessages now batch) u).result = .ok (startedEvents c now batch) := by
  induction batch generalizing u with
  | nil => rfl
  | cons m batch ih =>
    obtain ⟨event, hread⟩ := (h m List.mem_cons_self).ofRaw now m.1
    have hrest (u : Unit) := ih u fun m' hm' => h m' (List.mem_cons_of_mem m hm')
    rw [EventConsumer.readMessages, hread, startedEvents_cons hread]
    simp only [answer_ok, bind_eq, elim_ret]
    split
    · rw [exec_elim_ok (hrest u)]
      rfl
    · have hack : (exec smooth (c.acknowledgeEvent (some m.1)) u).result = .ok true := rfl
      rw [exec_elim_ok hack]
      exact hrest _

theorem readUnhindered_iff : ReadUnhindered c now batch ↔
    (∀ m ∈ batch, Decodes c.codec m.2) ∨ ∀ m ∈ batch, started c now m = false := by
  rw [← startedEvents_eq_nil_iff]
  constructor
  · intro h
    by_contra hnot
    obtain ⟨hbad, hstarted⟩ := not_or.mp hnot
    simp only [not_forall] at hbad
    obtain ⟨m, hm, hbad⟩ := hbad
    have hsame := h Unit smooth ()
    rw [read_eq, read_eq, readMessages_bad hm hbad,
      readMessages_smooth () fun m => decodes_of_mem_decodable, startedEvents_decodable] at hsame
    exact hstarted hsame.symm
  · rintro (hdecodes | hnone)
    · intro σ env s
      rw [decodable_eq_self hdecodes]
    · intro σ env s
      rw [read_eq, read_eq, readMessages_none hnone,
        readMessages_none (startedEvents_decodable.trans hnone)]

/-! ## The claims of the worker pool -/

theorem claim_eq {minIdleMs count : ℕ} :
    received (exec (withBatch env minIdleMs batch)
        (c.claimStaleEvents now minIdleMs count) s).result
      = received (c.claimedEvents now batch) := by
  simp only [EventConsumer.claimStaleEvents, send, bind_eq, tryCatch_eq, elim_call, exec_call,
    withBatch, answer_ok, elim_ret]
  rw [staleIds_batch]
  by_cases hempty : batch = []
  · subst hempty
    rfl
  · rw [if_neg (by simp [hempty])]
    simp only [elim_call, exec_call, withBatch, answer_ok, elim_ret]
    cases c.claimedEvents now batch with
    | ok events => rfl
    | error e =>
      simp only [answer_error, elim_raise]
      split <;> rfl

theorem claimedEvents_good (h : ∀ m ∈ batch, m.2 ≠ [] → Decodes c.codec m.2) :
    c.claimedEvents now batch = .ok (startedEvents c now batch) := by
  induction batch with
  | nil => rfl
  | cons m batch ih =>
    have hrest := ih fun m' hm' => h m' (List.mem_cons_of_mem m hm')
    rw [EventConsumer.claimedEvents]
    split
    · next hdata =>
      have hbad : ¬ Decodes c.codec m.2 := fun hdecodes => data_ne_nil hdecodes hdata
      rw [hrest, ← @startedEvents_decodable c now (m :: batch), decodable_cons_bad hbad,
        startedEvents_decodable]
    · next hdata =>
      obtain ⟨event, hread⟩ := (h m List.mem_cons_self hdata).ofRaw now m.1
      rw [hread, hrest, startedEvents_cons hread]
      rfl

theorem claimedEvents_bad (hm : m ∈ batch) (hdata : m.2 ≠ []) (hbad : ¬ Decodes c.codec m.2) :
    ∃ e, c.claimedEvents now batch = .error e := by
  induction batch with
  | nil => cases hm
  | cons m' batch ih =>
    rw [EventConsumer.claimedEvents]
    rcases List.mem_cons.mp hm with rfl | hm
    · rw [if_neg hdata]
      obtain ⟨e, he⟩ := ofRaw_error hbad now m.1
      exact ⟨e, bind_eq_error.mpr (.inl he)⟩
    · obtain ⟨e, he⟩ := ih hm
      split
      · exact ⟨e, he⟩
      · cases hread : ASDLCEvent.ofRaw c.codec now m'.1 m'.2 with
        | error e' => exact ⟨e', rfl⟩
        | ok event => exact ⟨e, bind_eq_error.mpr (.inr ⟨event, rfl, bind_eq_error.mpr (.inl he)⟩)⟩

theorem claimUnhindered_iff {minIdleMs count : ℕ} :
    ClaimUnhindered c now batch minIdleMs count ↔
      (∀ m ∈ batch, m.2 ≠ [] → Decodes c.codec m.2) ∨ ∀ m ∈ batch, started c now m = false := by
  have hdecodable : c.claimedEvents now (decodable c batch) = .ok (startedEvents c now batch) := by
    rw [claimedEvents_good fun m hm _ => decodes_of_mem_decodable hm, startedEvents_decodable]
  rw [← startedEvents_eq_nil_iff]
  by_cases hgood : ∀ m ∈ batch, m.2 ≠ [] → Decodes c.codec m.2
  · refine iff_of_true ?_ (.inl hgood)
    intro σ env s
    rw [claim_eq, claim_eq, hdecodable, claimedEvents_good hgood]
  · simp only [not_forall] at hgood
    obtain ⟨m, hm, hdata, hbad⟩ := hgood
    obtain ⟨e, he⟩ : ∃ e, c.claimedEvents now batch = .error e := claimedEvents_bad hm hdata hbad
    constructor
    · intro h
      have hsame := h Unit smooth ()
      rw [claim_eq, claim_eq, hdecodable, he] at hsame
      exact .inr hsame.symm
    · rintro (hall | hnone)
      · exact absurd (hall m hm hdata) hbad
      · intro σ env s
        rw [claim_eq, claim_eq, hdecodable, he, hnone]
        rfl

/-! ## All together -/

/-- When the bad entries of a batch make no difference: on the live path, in the recovery, and
in the reads and the claims of the worker pool. -/
theorem unhindered_iff (c : EventConsumer) (now : Time) (batch : List (ℕ × RawEntry)) :
    (LiveUnhindered c now batch ↔
        (∀ m ∈ batch, Decodes c.codec m.2) ∨ ∀ m ∈ batch, handleable c now m = false) ∧
      (RecoveryUnhindered c now batch ↔ BadLast c now batch) ∧
      (ReadUnhindered c now batch ↔
        (∀ m ∈ batch, Decodes c.codec m.2) ∨ ∀ m ∈ batch, started c now m = false) ∧
      ∀ minIdleMs count, ClaimUnhindered c now batch minIdleMs count ↔
        (∀ m ∈ batch, m.2 ≠ [] → Decodes c.codec m.2) ∨ ∀ m ∈ batch, started c now m = false :=
  ⟨liveUnhindered_iff, recoveryUnhindered_iff, readUnhindered_iff, fun _ _ => claimUnhindered_iff⟩

end

/-- The placeholder and, behind it, an event for the worker pool. -/
def placeholderFirst : List (ℕ × RawEntry) :=
  [(0, placeholder "2026-01-22T10:00:00"),
    (1, [("event_type", "agent_started"), ("session_id", "s1")])]

/-- The placeholder keeps back the event. -/
theorem placeholder_hinders : ¬ ∀ (c : EventConsumer) (now : Time) (batch : List (ℕ × RawEntry)),
    LiveUnhindered c now batch ∧ RecoveryUnhindered c now batch ∧ ReadUnhindered c now batch ∧
      ∀ minIdleMs count, ClaimUnhindered c now batch minIdleMs count := by
  intro h
  have hsame := (h eagerConsumer 0 placeholderFirst).1 Unit smooth ()
  revert hsame
  decide

end DoxAsdlc.ConsumerGroup
