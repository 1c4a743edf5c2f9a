import DoxAsdlc.Infrastructure.ConsumerGroup

/-!
# The live path and the recovery of one event

Both paths make the same decision about an event that the handler handles: up to the verdict
that the recovery counts, they are the same program.  They differ for other events, where
the recovery asks for the idempotency key first and the live path does not.

## Main definitions

* `Circumstances`, `Circumstances.respond` — what one event meets.
* `Circumstances.Agree`, `Circumstances.Justified` — what is asked of the two paths.
-/

namespace DoxAsdlc.ConsumerGroup

open Interaction Interaction.Program

namespace EventConsumer

variable (c : EventConsumer) {event : ASDLCEvent} {i : ℕ}

/-- For an event that the handler handles the recovery is the live path. -/
theorem forget_recoverEvent (hid : event.eventId = some i)
    (hhandles : c.canHandle event.eventType = true) :
    (c.recoverEvent i event).forget = (c.handleEvent event).forget := by
  have hconclude (r : HandlerResult) :
      ((c.concludeRecovery event i r).elim .ret fun _ => .ret .failed).forget
        = ((c.conclude event r).elim .ret fun _ => .ret ()).forget := by
    simp only [forget, concludeRecovery, conclude, hid]
    split
    · simp [settle]
    · split
      · simp
      · simp
  have htry : (((send (.handle event)).elim (c.concludeRecovery event i) .raise).elim .ret
        fun _ => .ret .failed).forget
      = (((send (.handle event)).elim (c.conclude event) .raise).elim .ret
        fun _ => .ret ()).forget := by
    simp only [send, forget, elim_call]
    congr 1
    funext reply
    cases reply with
    | error e => rfl
    | ok r => exact hconclude r
  simp only [forget, recoverEvent, handleEvent, hhandles, if_true, bind_eq, elim_elim]
  congr 1
  funext processed
  cases processed with
  | false => simpa [forget] using htry
  | true => simp [hid]

/-- An event that the handler does not handle is acknowledged; the recovery asks for its
key before. -/
theorem forget_recoverEvent_unhandled (hid : event.eventId = some i)
    (hhandles : c.canHandle event.eventType = false) :
    (c.recoverEvent i event).forget
      = (c.alreadyProcessed event).elim (fun _ => (c.handleEvent event).forget) fun _ => .ret () := by
  simp only [forget, recoverEvent, handleEvent, hhandles, bind_eq, elim_elim]
  congr 1
  funext processed
  cases processed with
  | false => simp [hid]
  | true => simp [hid]

end EventConsumer

/-! ## What one event meets -/

/-- The keys and the acknowledgements. -/
structure Marks where
  processed : String → Bool
  acked : Option ℕ → Bool

/-- The keys that are marked, how the handler answers, and what becomes of the commands that
look up a key, mark it and acknowledge. -/
structure Circumstances where
  processed : String → Bool
  handle : ASDLCEvent → Except Error HandlerResult
  lookup : Outcome Error
  mark : Outcome Error
  acknowledgement : Outcome Error

namespace Circumstances

/-- A command that changes the marks, under an outcome. -/
def under {α : Type} (o : Outcome Error) (w w' : Marks) (a : α) : Marks × Except Error α :=
  match o with
  | .ok => (w', .ok a)
  | .refused e => (w, .error e)
  | .lost e => (w', .error e)

theorem under_state {α : Type} (o : Outcome Error) (w w' : Marks) (a : α) :
    (under o w w' a).1 = if o.effective then w' else w := by
  cases o <;> rfl

/-- How the commands are answered. -/
def respond (x : Circumstances) : Responder interface Error Marks
  | .exists key, w => under x.lookup w w (w.processed key)
  | .set key _, w =>
    under x.mark w { w with processed := Function.update w.processed key true } ()
  | .xack id, w =>
    under x.acknowledgement w { w with acked := Function.update w.acked id true } (!w.acked id)
  | .handle event, w => (w, x.handle event)
  | .xreadgroup _, w | .xpendingRange _, w | .xclaim _ _, w => (w, .ok [])

/-- The event has not been acknowledged. -/
def start (x : Circumstances) : Marks := ⟨x.processed, fun _ => false⟩

/-- The live path of an event. -/
def live (x : Circumstances) (c : EventConsumer) (event : ASDLCEvent) :
    Execution interface Error Marks Unit :=
  exec x.respond (c.handleEvent event) x.start

/-- The recovery of an entry. -/
def recovery (x : Circumstances) (c : EventConsumer) (now : Time) (i : ℕ) (data : RawEntry) :
    Execution interface Error Marks Verdict :=
  exec x.respond (c.recoverEntry now i data) x.start

/-- The two paths agree about acknowledging and marking. -/
def Agree (w w' : Marks) : Prop :=
  (∀ id, w.acked id = w'.acked id) ∧ ∀ key, w.processed key = w'.processed key

/-- The event was handled, and the handler succeeded. -/
def Succeeded (event : ASDLCEvent) (seen : List (Seen interface Error)) : Prop :=
  ∃ r : HandlerResult, ⟨.handle event, .ok r⟩ ∈ seen ∧ r.success = true

/-- The event was handled, and the handler failed for good. -/
def FailedForGood (event : ASDLCEvent) (seen : List (Seen interface Error)) : Prop :=
  ∃ r : HandlerResult, ⟨.handle event, .ok r⟩ ∈ seen ∧ r.success = false ∧ r.shouldRetry = false

/-- The key of the event was found to be processed. -/
def FoundProcessed (seen : List (Seen interface Error)) : Prop :=
  ∃ key, ⟨.exists key, .ok true⟩ ∈ seen

/-- What must have been seen before a command. -/
def Allowed (c : EventConsumer) (event : ASDLCEvent) (before : List (Seen interface Error)) :
    Cmd → Prop
  | .xack _ => c.canHandle event.eventType = false ∨ FoundProcessed before ∨
      Succeeded event before ∨ FailedForGood event before
  | .set _ _ => Succeeded event before
  | _ => True

/-- An acknowledgement and a mark that the run has left are due to a command that was
allowed. -/
structure Justified {α : Type} (x : Circumstances) (c : EventConsumer) (event : ASDLCEvent)
    (run : Execution interface Error Marks α) : Prop where
  acked : ∀ id, run.state.acked id = true → ∃ before reply after,
    run.seen = before ++ ⟨.xack id, reply⟩ :: after ∧ Allowed c event before (.xack id)
  marked : ∀ key, run.state.processed key = true → x.processed key = true ∨
    ∃ before id reply after, run.seen = before ++ ⟨.set key id, reply⟩ :: after ∧
      Allowed c event before (.set key id)

variable {x : Circumstances} {c : EventConsumer} {event : ASDLCEvent} {i : ℕ} {now : Time}
  {data : RawEntry}

/-! ## What the programs allow -/

theorem Allowed.mono {h l : List (Seen interface Error)} {cmd : Cmd}
    (hallowed : Allowed c event h cmd) : Allowed c event (h ++ l) cmd := by
  have hmem {s : Seen interface Error} (hs : s ∈ h) : s ∈ h ++ l := List.mem_append_left l hs
  have hsucceeded (hs : Succeeded event h) : Succeeded event (h ++ l) := by
    obtain ⟨r, hr, hsuccess⟩ := hs
    exact ⟨r, hmem hr, hsuccess⟩
  cases cmd with
  | xack id =>
    rcases hallowed with hhandles | ⟨key, hkey⟩ | hs | ⟨r, hr, hfailed⟩
    · exact .inl hhandles
    · exact .inr (.inl ⟨key, hmem hkey⟩)
    · exact .inr (.inr (.inl (hsucceeded hs)))
    · exact .inr (.inr (.inr ⟨r, hmem hr, hfailed⟩))
  | set key id => exact hsucceeded hallowed
  | _ => trivial

theorem guarded_acknowledgeEvent {h : List (Seen interface Error)} {id : Option ℕ}
    (hallowed : Allowed c event h (.xack id)) :
    (c.acknowledgeEvent id).Guarded (Allowed c event) h :=
  guarded_elim ⟨hallowed, fun _ => guarded_answer _ _⟩ (fun _ _ => guarded_ret _ _)
    fun _ _ => guarded_raise _ _

/-- Acknowledge where it is allowed, and be done. -/
theorem guarded_acknowledge {h : List (Seen interface Error)} {id : Option ℕ}
    (hallowed : Allowed c event h (.xack id)) :
    (do let _ ← c.acknowledgeEvent id : Async Unit).Guarded (Allowed c event) h :=
  guarded_bind (guarded_acknowledgeEvent hallowed) fun _ _ => guarded_ret _ _

theorem guarded_settle {h : List (Seen interface Error)} {id : Option ℕ}
    (hsucceeded : Succeeded event h) : (c.settle event id).Guarded (Allowed c event) h := by
  have hack (l : List (Seen interface Error)) : Allowed c event (h ++ l) (.xack id) :=
    Allowed.mono (.inr (.inr (.inl hsucceeded)))
  unfold EventConsumer.settle
  split
  · simpa using guarded_acknowledge (hack [])
  · refine guarded_bind ⟨hsucceeded, fun _ => guarded_answer _ _⟩ fun _ l => ?_
    exact guarded_acknowledge (hack l)

/-- What follows the handler's answer is allowed by it. -/
theorem guarded_conclude {h : List (Seen interface Error)} {r : HandlerResult}
    (hr : ⟨.handle event, .ok r⟩ ∈ h) : (c.conclude event r).Guarded (Allowed c event) h := by
  unfold EventConsumer.conclude
  split
  · next hsuccess =>
    exact guarded_settle ⟨r, hr, hsuccess⟩
  · next hsuccess =>
    split
    · exact guarded_ret _ _
    · next hretry =>
      have hfailed : FailedForGood event h :=
        ⟨r, hr, Bool.eq_false_iff.mpr hsuccess, Bool.eq_false_iff.mpr hretry⟩
      exact guarded_acknowledge (.inr (.inr (.inr hfailed)))

theorem guarded_attempt (h : List (Seen interface Error)) :
    (try do
        let result ← send (.handle event)
        c.conclude event result
      catch _ => pure () : Async Unit).Guarded (Allowed c event) h := by
  refine guarded_elim ⟨trivial, fun reply => ?_⟩ (fun _ _ => guarded_ret _ _)
    fun _ _ => guarded_ret _ _
  cases reply with
  | error e => exact guarded_raise _ _
  | ok r => exact guarded_conclude (List.mem_append_right h (List.mem_singleton_self _))

/-- The live path issues allowed commands only. -/
theorem guarded_handleEvent : (c.handleEvent event).Guarded (Allowed c event) [] := by
  unfold EventConsumer.handleEvent
  split
  · unfold EventConsumer.alreadyProcessed
    split
    · exact guarded_attempt []
    · next key hkey =>
      refine ⟨trivial, fun reply => ?_⟩
      rcases reply with e | _ | _
      · exact guarded_raise _ _
      · exact guarded_attempt _
      · exact guarded_acknowledge (.inr (.inl ⟨c.getKey key, List.mem_singleton_self _⟩))
  · next hhandles =>
    exact guarded_acknowledge (.inl (Bool.eq_false_iff.mpr hhandles))

/-- So does the recovery. -/
theorem guarded_recoverEvent (hid : event.eventId = some i) :
    (c.recoverEvent i event).Guarded (Allowed c event) [] := by
  rw [← guarded_forget]
  cases hhandles : c.canHandle event.eventType with
  | true =>
    rw [c.forget_recoverEvent hid hhandles, guarded_forget]
    exact guarded_handleEvent
  | false =>
    rw [c.forget_recoverEvent_unhandled hid hhandles]
    refine guarded_elim ?_ (fun _ l => ?_) fun _ _ => guarded_ret _ _
    · unfold EventConsumer.alreadyProcessed
      split
      · exact guarded_ret _ _
      · exact ⟨trivial, fun _ => guarded_answer _ _⟩
    · rw [guarded_forget, EventConsumer.handleEvent, if_neg (Bool.eq_false_iff.mp hhandles)]
      exact guarded_acknowledge (.inl hhandles)

/-! ## What the marks go back to -/

/-- What a command may do to the marks. -/
theorem respond_state (cmd : Cmd) (w : Marks) :
    (x.respond cmd w).1 = w ∨
      (∃ key id, cmd = .set key id ∧ (x.respond cmd w).1
        = { w with processed := Function.update w.processed key true }) ∨
      ∃ id, cmd = .xack id ∧ (x.respond cmd w).1
        = { w with acked := Function.update w.acked id true } := by
  cases cmd with
  | set key id =>
    rw [respond, under_state]
    split
    · exact .inr (.inl ⟨key, id, rfl, rfl⟩)
    · exact .inl rfl
  | xack id =>
    rw [respond, under_state]
    split
    · exact .inr (.inr ⟨id, rfl, rfl⟩)
    · exact .inl rfl
  | «exists» key =>
    left
    rw [respond, under_state, ite_self]
  | _ => exact .inl rfl

theorem acked_respond {w : Marks} {cmd : Cmd} {id : Option ℕ}
    (h : (x.respond cmd w).1.acked id = true) : w.acked id = true ∨ cmd = .xack id := by
  rcases respond_state cmd w with hstate | ⟨key, id', rfl, hstate⟩ | ⟨id', rfl, hstate⟩
  · exact .inl (hstate ▸ h)
  · rw [hstate] at h
    exact .inl h
  · rw [hstate] at h
    by_cases heq : id = id'
    · exact .inr (heq ▸ rfl)
    · exact .inl (by simpa [Function.update_of_ne heq] using h)

theorem processed_respond {w : Marks} {cmd : Cmd} {key : String}
    (h : (x.respond cmd w).1.processed key = true) :
    w.processed key = true ∨ ∃ id, cmd = .set key id := by
  rcases respond_state cmd w with hstate | ⟨key', id, rfl, hstate⟩ | ⟨id, rfl, hstate⟩
  · exact .inl (hstate ▸ h)
  · rw [hstate] at h
    by_cases heq : key = key'
    · exact .inr ⟨id, heq ▸ rfl⟩
    · exact .inl (by simpa [Function.update_of_ne heq] using h)
  · rw [hstate] at h
    exact .inl h

/-- Only acknowledging acknowledges. -/
theorem acked_exec {α : Type} {p : Async α} {w : Marks} {id : Option ℕ}
    (h : (exec x.respond p w).state.acked id = true) :
    w.acked id = true ∨ ∃ reply, ⟨.xack id, reply⟩ ∈ (exec x.respond p w).seen := by
  induction p generalizing w with
  | ret a => exact .inl h
  | raise e => exact .inl h
  | call cmd k ih =>
    rcases ih _ h with hstate | ⟨reply, hreply⟩
    · rcases acked_respond hstate with hbefore | rfl
      · exact .inl hbefore
      · exact .inr ⟨_, List.mem_cons_self⟩
    · exact .inr ⟨reply, List.mem_cons_of_mem _ hreply⟩

/-- Only marking marks. -/
theorem processed_exec {α : Type} {p : Async α} {w : Marks} {key : String}
    (h : (exec x.respond p w).state.processed key = true) :
    w.processed key = true ∨ ∃ id reply, ⟨.set key id, reply⟩ ∈ (exec x.respond p w).seen := by
  induction p generalizing w with
  | ret a => exact .inl h
  | raise e => exact .inl h
  | call cmd k ih =>
    rcases ih _ h with hstate | ⟨id, reply, hreply⟩
    · rcases processed_respond hstate with hbefore | ⟨id, rfl⟩
      · exact .inl hbefore
      · exact .inr ⟨id, _, List.mem_cons_self⟩
    · exact .inr ⟨id, reply, List.mem_cons_of_mem _ hreply⟩

/-- A program that issues allowed commands only is justified. -/
theorem justified_of_guarded {α : Type} {p : Async α} (hp : p.Guarded (Allowed c event) []) :
    Justified x c event (exec x.respond p x.start) where
  acked := by
    intro id hacked
    rcases acked_exec hacked with hstart | ⟨reply, hreply⟩
    · cases hstart
    · obtain ⟨before, after, hseen⟩ := List.append_of_mem hreply
      exact ⟨before, reply, after, hseen, hp.exec x.respond x.start hseen⟩
  marked := by
    intro key hmarked
    rcases processed_exec hmarked with hstart | ⟨id, reply, hreply⟩
    · exact .inl hstart
    · obtain ⟨before, after, hseen⟩ := List.append_of_mem hreply
      exact .inr ⟨before, id, reply, after, hseen, hp.exec x.respond x.start hseen⟩

/-! ## Where the paths agree -/

theorem recovery_eq (hread : ASDLCEvent.ofRaw c.codec now i data = .ok event) :
    x.recovery c now i data = exec x.respond (c.recoverEvent i event) x.start := by
  rw [recovery, EventConsumer.recoverEntry, hread]
  rfl

/-- An acknowledgement by itself. -/
theorem state_acknowledge (id : Option ℕ) (w : Marks) :
    (exec x.respond (do let _ ← c.acknowledgeEvent id : Async Unit) w).state
      = if x.acknowledgement.effective then { w with acked := Function.update w.acked id true }
        else w := by
  cases hack : x.acknowledgement <;>
    simp [EventConsumer.acknowledgeEvent, send, respond, hack, under, Outcome.effective]

theorem live_unhandled (hhandles : c.canHandle event.eventType = false) :
    (x.live c event).state
      = if x.acknowledgement.effective then
          ⟨x.processed, Function.update (fun _ => false) event.eventId true⟩
        else x.start := by
  rw [live, EventConsumer.handleEvent, if_neg (Bool.eq_false_iff.mp hhandles)]
  exact state_acknowledge event.eventId x.start

/-- Looking up the key does not change the marks. -/
theorem exec_alreadyProcessed (w : Marks) :
    (exec x.respond (c.alreadyProcessed event) w).state = w ∧
      ((exec x.respond (c.alreadyProcessed event) w).result.isOk = true ↔
        given event.idempotencyKey = none ∨ x.lookup.failed = false) := by
  unfold EventConsumer.alreadyProcessed
  split
  · next hkey => simp [hkey, Except.isOk, Except.toBool]
  · next key hkey =>
    cases hlookup : x.lookup <;>
      simp [send, respond, hlookup, under, hkey, Outcome.failed, Except.isOk, Except.toBool]

/-- The state after the recovery of an event that the handler does not handle. -/
theorem recovery_unhandled (hid : event.eventId = some i)
    (hhandles : c.canHandle event.eventType = false) :
    (exec x.respond (c.recoverEvent i event) x.start).state
      = if given event.idempotencyKey = none ∨ x.lookup.failed = false then (x.live c event).state
        else x.start := by
  obtain ⟨hstate, hresult⟩ := @exec_alreadyProcessed x c event x.start
  rw [← (exec_forget x.respond (c.recoverEvent i event) x.start).1,
    c.forget_recoverEvent_unhandled hid hhandles, exec_elim, follow]
  cases hlookup : (exec x.respond (c.alreadyProcessed event) x.start).result with
  | ok processed =>
    have hcond := hresult.mp (by rw [hlookup]; rfl)
    rw [if_pos hcond, hstate]
    exact (exec_forget x.respond (c.handleEvent event) x.start).1
  | error e =>
    have hcond : ¬ (given event.idempotencyKey = none ∨ x.lookup.failed = false) := by
      intro hcond
      have hok := hresult.mpr hcond
      rw [hlookup] at hok
      cases hok
    rw [if_neg hcond, exec_ret, hstate]

/-- The condition under which the two paths agree. -/
def Harmless (x : Circumstances) (c : EventConsumer) (event : ASDLCEvent) : Prop :=
  c.canHandle event.eventType = true ∨ given event.idempotencyKey = none ∨
    x.lookup.failed = false ∨ x.acknowledgement.effective = false

/-- The two paths agree, and are justified, exactly if the event is handled by the handler,
has no key, its key can be looked up, or no acknowledgement reaches the server. -/
theorem agree_iff_harmless (hread : ASDLCEvent.ofRaw c.codec now i data = .ok event) :
    (Agree (x.live c event).state (x.recovery c now i data).state ∧
        Justified x c event (x.live c event) ∧
        Justified x c event (x.recovery c now i data)) ↔ x.Harmless c event := by
  have hid := ASDLCEvent.eventId_ofRaw hread
  rw [recovery_eq hread]
  have hlive : Justified x c event (x.live c event) := justified_of_guarded guarded_handleEvent
  have hrecovery := justified_of_guarded (x := x) (guarded_recoverEvent (c := c) hid)
  rw [and_iff_left ⟨hlive, hrecovery⟩]
  unfold Harmless
  cases hhandles : c.canHandle event.eventType with
  | true =>
    have hstate : (exec x.respond (c.recoverEvent i event) x.start).state
        = (x.live c event).state := by
      rw [← (exec_forget x.respond (c.recoverEvent i event) x.start).1,
        c.forget_recoverEvent hid hhandles]
      exact (exec_forget x.respond (c.handleEvent event) x.start).1
    rw [hstate]
    exact iff_of_true ⟨fun _ => rfl, fun _ => rfl⟩ (.inl rfl)
  | false =>
    rw [recovery_unhandled hid hhandles]
    split
    · next hcond =>
      exact iff_of_true ⟨fun _ => rfl, fun _ => rfl⟩ (.inr (hcond.imp_right .inl))
    · next hcond =>
      obtain ⟨hkey, hlookup⟩ := not_or.mp hcond
      rw [live_unhandled hhandles]
      cases hack : x.acknowledgement.effective with
      | false => simp [Agree]
      | true =>
        refine iff_of_false (fun h => ?_) ?_
        · have hacked := h.1 event.eventId
          simp [start] at hacked
        · simp [hkey, hlookup]

/-! ## A key that cannot be looked up -/

/-- A consumer of a handler without event types. -/
def idleConsumer : EventConsumer where
  codec := ⟨fun _ => .ok 0, fun _ => none, id⟩
  tenancy := ⟨false, "default", none⟩
  groupName := "handlers"
  streamName := "events"
  canHandle := fun _ => false

/-- An entry with an idempotency key. -/
def keyedEntry : RawEntry := [("session_id", "s1"), ("idempotency_key", "k1")]

/-- The event of that entry. -/
def keyedEvent : ASDLCEvent where
  eventType := .taskCreated
  sessionId := ⟨"s1", by decide⟩
  timestamp := 0
  eventId := some 0
  idempotencyKey := some "k1"

/-- The server does not answer when it is asked for the key. -/
def lookupDown : Circumstances where
  processed := fun _ => false
  handle := fun _ => .ok { success := true }
  lookup := .refused { cls := .redisError, message := "Connection closed" }
  mark := .ok
  acknowledgement := .ok

/-- The live path acknowledges an event that is not for the handler, the recovery does not
get to that. -/
theorem recovery_stuck : ¬ ∀ (x : Circumstances) (c : EventConsumer) (now : Time) (i : ℕ)
    (data : RawEntry) (event : ASDLCEvent), ASDLCEvent.ofRaw c.codec now i data = .ok event →
    Agree (x.live c event).state (x.recovery c now i data).state ∧
      Justified x c event (x.live c event) ∧ Justified x c event (x.recovery c now i data) := by
  intro h
  have hagree := (h lookupDown idleConsumer 0 0 keyedEntry keyedEvent rfl).1.1 (some 0)
  revert hagree
  decide

/-- When the server answers, the paths agree about this event. -/
theorem agree_iff_harmless_keyed :
    let x := { lookupDown with lookup := .ok }
    Agree (x.live idleConsumer keyedEvent).state
      (x.recovery idleConsumer 0 0 keyedEntry).state := by
  intro x
  have hread : ASDLCEvent.ofRaw idleConsumer.codec 0 0 keyedEntry = .ok keyedEvent := rfl
  exact ((agree_iff_harmless hread).mpr (.inr (.inr (.inl rfl)))).1

end Circumstances

end DoxAsdlc.ConsumerGroup
