import DoxAsdlc.Interaction.Run
import DoxAsdlc.Slack.GateConsumer

/-!
# Delivery of gate notifications

Turns of the loop, with any failures and ending anywhere, while entries are added to the stream
and the set of posted requests expires.  The loop reads new entries only, so what is not
acknowledged in the turn that reads it is never read again.

## Main definitions

* `Notified` — what is pending can still be read again, and each request is posted once.
* `posts`, `Answered`, `Served` — what a turn posts, and the condition on it.

## Main results

* `notified_iff` — when all requests are notified.
-/

namespace DoxAsdlc.Slack.GateConsumer

open Interaction Interaction.Program

variable (codec : Codec) (config : SlackBridgeConfig)

/-- The entries that a turn of the loop gets to see. -/
def reads (w : Store) : Happening → List ℕ
  | .iterate _ (.ok :: _) => (w.batch 10).map Prod.fst
  | _ => []

/-- A turn sees the entry. -/
def ReadAgain (w : Store) (as : List Happening) (i : ℕ) : Prop :=
  ∃ before op after, as = before ++ op :: after ∧
    i ∈ reads (run (step codec config) w before) op

/-- The process does not end between a post and its mark. -/
def Uncut (w : Store) : Happening → Prop
  | .iterate now outcomes => ∀ requestId,
      (play serve outcomes (iteration codec config now) w).1.head? ≠ some (.sadd requestId)
  | _ => True

/-- The requests that have been posted. -/
def told (w : Store) : List String := w.messages.map GateMessage.requestId

/-- **Notification.**  What has been read and not acknowledged can still be read again, and if
the process never ends between a post and its mark, no request is posted twice. -/
structure Notified (w : Store) (as : List Happening) : Prop where
  handled : ∀ before, before <+: as → ∀ i ∈ (run (step codec config) w before).pending,
    ∃ more, ReadAgain codec config (run (step codec config) w before) more i
  once : Each (step codec config) (Uncut codec config) w as →
    (told (run (step codec config) w as)).Nodup

/-- What is posted for a complete event. -/
def due (posted : Redis.MemberSet String) (event : ASDLCEvent) : Option GateMessage :=
  if event.meta "request_id" "" ∈ posted then none
  else (channelOf config event).map (messageOf config event)

/-- What is posted for a batch of gate requests. -/
def posts (posted : Redis.MemberSet String) : List ASDLCEvent → List GateMessage
  | [] => []
  | event :: events =>
    if Incomplete event then posts posted events
    else
      match due config posted event with
      | none => posts posted events
      | some message => message :: posts (posted.sadd message.requestId) events

/-- The next command is answered. -/
def Replied (outcomes : List (Outcome Error)) (next : List (Outcome Error) → Prop) : Prop :=
  ∃ rest, outcomes = .ok :: rest ∧ next rest

/-- The acknowledgement is carried out. -/
def Acked (outcomes : List (Outcome Error)) (next : List (Outcome Error) → Prop) : Prop :=
  ∃ o rest, outcomes = o :: rest ∧ o.effective = true ∧ next rest

/-- Every event of a batch is a gate request, and the commands for it are answered, its
acknowledgement at least carried out. -/
def Answered (posted : Redis.MemberSet String) : List ASDLCEvent → List (Outcome Error) → Prop
  | [], _ => True
  | event :: events, outcomes => event.eventType = .gateRequested ∧
      if Incomplete event then Acked outcomes fun rest => Answered posted events rest
      else Replied outcomes fun checked =>
        match due config posted event with
        | none => Acked checked fun rest => Answered posted events rest
        | some message => Replied checked fun sent => Replied sent fun marked =>
          Replied marked fun kept =>
            Acked kept fun rest => Answered (posted.sadd message.requestId) events rest

/-- A turn reads nothing, or a batch that is answered. -/
def Attended (w : Store) : Happening → Prop
  | .iterate now (.ok :: outcomes) => ∃ events,
      (reader codec config).decodeAll now (w.batch 10) = .ok events ∧
        Answered config w.posted events outcomes
  | .iterate _ (.lost _ :: _) => w.batch 10 = []
  | _ => True

/-- What an attended turn posts. -/
def posting (w : Store) : Happening → List GateMessage
  | .iterate now (.ok :: _) =>
    match (reader codec config).decodeAll now (w.batch 10) with
    | .ok events => posts config w.posted events
    | .error _ => []
  | _ => []

/-- A turn reads nothing, or a batch of gate requests whose commands are answered, and none of
them has been posted before and forgotten. -/
def Served (w : Store) (op : Happening) : Prop :=
  Attended codec config w op ∧ ∀ message ∈ posting codec config w op, message.requestId ∉ told w

/-! ## One batch -/

section

variable {config} {event : ASDLCEvent} {events : List ASDLCEvent} {w : Store}

/-- Acknowledge an event and go on with the others. -/
def finish (config : SlackBridgeConfig) (event : ASDLCEvent) (events : List ASDLCEvent) :
    Async Unit :=
  .call (.xack event.eventId) fun _ => handleEvents config events

/-- Go on with the others after an exception. -/
def orElse {α : Type} (config : SlackBridgeConfig) (events : List ASDLCEvent)
    (next : α → Async Unit) : Except Error α → Async Unit
  | .ok a => next a
  | .error _ => handleEvents config events

/-- The commands for a gate request. -/
theorem handleEvents_cons (h : event.eventType = .gateRequested) :
    handleEvents config (event :: events)
      = if Incomplete event then finish config event events
        else .call (.sismember (event.meta "request_id" "")) (orElse config events fun posted =>
          if posted then finish config event events
          else match channelOf config event with
            | none => finish config event events
            | some channelConfig =>
              .call (.chatPostMessage (messageOf config event channelConfig))
                (orElse config events fun _ =>
                  .call (.sadd (event.meta "request_id" "")) (orElse config events fun _ =>
                    .call (.expire duplicateDetectionTtl) (orElse config events fun _ =>
                      finish config event events)))) := by
  have hfinish : (do
      try let _ ← acknowledgeEvent event.eventId
      catch _ => pure ()
      handleEvents config events : Async Unit) = finish config event events := by
    apply congrArg (Program.call (I := interface) (.xack event.eventId))
    funext r
    cases r <;> rfl
  rw [handleEvents, if_pos h]
  unfold handleGateRequested
  by_cases hi : Incomplete event
  · rw [if_pos hi, if_pos hi]
    exact hfinish
  · rw [if_neg hi, if_neg hi]
    apply congrArg (Program.call (I := interface) (.sismember (event.meta "request_id" "")))
    funext r
    cases r with
    | error e => rfl
    | ok posted =>
      cases posted with
      | true => exact hfinish
      | false =>
        cases hchannel : channelOf config event with
        | none =>
          simp only [orElse]
          exact hfinish
        | some channelConfig =>
          simp only [orElse]
          apply congrArg (Program.call (I := interface)
            (.chatPostMessage (messageOf config event channelConfig)))
          funext r
          cases r with
          | error e => rfl
          | ok ts =>
            apply congrArg (Program.call (I := interface) (.sadd (event.meta "request_id" "")))
            funext r
            cases r with
            | error e => rfl
            | ok n =>
              apply congrArg (Program.call (I := interface) (.expire duplicateDetectionTtl))
              funext r
              cases r with
              | error e => rfl
              | ok b => exact hfinish

theorem uses_orElse {α : Type} {A : Cmd → Prop} {next : α → Async Unit}
    (hnext : ∀ a, (next a).Uses A) (hevents : (handleEvents config events).Uses A)
    (r : Except Error α) : (orElse config events next r).Uses A := by
  cases r with
  | ok a => exact hnext a
  | error e => exact hevents

/-- A batch reads nothing, and acknowledges its own events. -/
theorem uses_handleEvents {A : Cmd → Prop}
    (hA : ∀ c, (∀ n, c ≠ .xreadgroup n) → (∀ eventId, c ≠ .xack eventId) → A c)
    (hack : ∀ event ∈ events, A (.xack event.eventId)) : (handleEvents config events).Uses A := by
  induction events with
  | nil => trivial
  | cons event events ih =>
    have hrest := ih fun e he => hack e (List.mem_cons_of_mem _ he)
    have hfinish : (finish config event events).Uses A :=
      ⟨hack event List.mem_cons_self, fun _ => hrest⟩
    by_cases htype : event.eventType = .gateRequested
    · rw [handleEvents_cons htype]
      split
      · exact hfinish
      · refine ⟨hA _ nofun nofun, uses_orElse (fun posted => ?_) hrest⟩
        split
        · exact hfinish
        · split
          · exact hfinish
          · refine ⟨hA _ nofun nofun, uses_orElse (fun _ => ?_) hrest⟩
            refine ⟨hA _ nofun nofun, uses_orElse (fun _ => ?_) hrest⟩
            exact ⟨hA _ nofun nofun, uses_orElse (fun _ => hfinish) hrest⟩
    · rw [handleEvents, if_neg htype]
      exact hrest

/-- What is acknowledged stays so. -/
theorem not_pending_play {i : ℕ} (h : i ∉ w.pending) (outcomes : List (Outcome Error)) :
    i ∉ (play serve outcomes (handleEvents config events) w).2.pending := by
  have huses : (handleEvents config events).Uses fun c : Cmd => ∀ n, c ≠ .xreadgroup n :=
    uses_handleEvents (fun _ h _ => h) fun _ _ _ h => by cases h
  refine (huses.keeps fun (c : Cmd) hc (w : Store) hw => ?_).play (S := fun w : Store => i ∉ w.pending) h outcomes
  cases c with
  | xreadgroup n => exact absurd rfl (hc n)
  | xack eventId => exact fun hmem => hw (List.mem_of_mem_filter hmem)
  | _ => exact hw

/-- An entry of another batch stays pending. -/
theorem pending_play {i : ℕ} (h : i ∈ w.pending) (hother : ∀ e ∈ events, e.eventId ≠ some i)
    (outcomes : List (Outcome Error)) :
    i ∈ (play serve outcomes (handleEvents config events) w).2.pending := by
  have huses : (handleEvents config events).Uses fun c : Cmd => c ≠ .xack (some i) :=
    uses_handleEvents (fun _ _ h => h _) fun e he heq => by
      injection heq with heq
      exact hother e he heq
  refine (huses.keeps fun (c : Cmd) hc (w : Store) hw => ?_).play (S := fun w : Store => i ∈ w.pending) h outcomes
  cases c with
  | xreadgroup n => exact List.mem_append_left _ hw
  | xack eventId =>
    refine List.mem_filter.mpr ⟨hw, ?_⟩
    simpa using fun heq => hc (congrArg Cmd.xack heq)
  | _ => exact hw

/-- The entries of a batch are with the consumer, each once. -/
structure Delivered (w : Store) (events : List ASDLCEvent) : Prop where
  pending : ∀ e ∈ events, ∃ i, e.eventId = some i ∧ i ∈ w.pending
  nodup : (events.map ASDLCEvent.eventId).Nodup

/-- The batch has been acknowledged. -/
def Cleared (w : Store) (events : List ASDLCEvent) : Prop :=
  ∀ e ∈ events, ∀ i, e.eventId = some i → i ∉ w.pending

theorem Delivered.tail (h : Delivered w (event :: events)) : Delivered w events :=
  ⟨fun e he => h.pending e (List.mem_cons_of_mem _ he), (List.nodup_cons.mp h.nodup).2⟩

/-- The others stay with the consumer when an event is acknowledged. -/
theorem Delivered.xack (h : Delivered w (event :: events)) :
    Delivered (serve (.xack event.eventId) w).1 events := by
  refine ⟨?_, h.tail.nodup⟩
  intro e he
  obtain ⟨i, hi, hmem⟩ := h.tail.pending e he
  refine ⟨i, hi, List.mem_filter.mpr ⟨hmem, ?_⟩⟩
  have hne : event.eventId ≠ e.eventId := fun heq =>
    (List.nodup_cons.mp h.nodup).1 (heq ▸ List.mem_map_of_mem he)
  simpa [hi] using hne

/-- An event that is passed over stays with the consumer. -/
theorem Delivered.not_cleared (h : Delivered w (event :: events)) {v : Store}
    (hv : v.pending = w.pending) (outcomes : List (Outcome Error)) :
    ¬ Cleared (play serve outcomes (handleEvents config events) v).2 (event :: events) := by
  obtain ⟨i, hi, hmem⟩ := h.pending event List.mem_cons_self
  intro hcleared
  refine hcleared event List.mem_cons_self i hi (pending_play (hv ▸ hmem) ?_ outcomes)
  intro e he heq
  exact (List.nodup_cons.mp h.nodup).1 (hi.trans heq.symm ▸ List.mem_map_of_mem he)

/-- An event whose turn has not come is with the consumer. -/
theorem Delivered.waiting (h : Delivered w (event :: events)) {v : Store}
    (hv : v.pending = w.pending) : ¬ Cleared v (event :: events) := by
  obtain ⟨i, hi, hmem⟩ := h.pending event List.mem_cons_self
  exact fun hcleared => hcleared event List.mem_cons_self i hi (hv ▸ hmem)

/-- What is known of the rest of a batch: it is cleared when it is answered, and then posts
what it should. -/
def Settles (config : SlackBridgeConfig) (events : List ASDLCEvent) : Prop :=
  ∀ (outcomes : List (Outcome Error)) (w : Store), Delivered w events →
    let r := play serve outcomes (handleEvents config events) w
    (Cleared r.2 events ↔ Answered config w.posted events outcomes) ∧
      (Answered config w.posted events outcomes →
        r.1.finished = true ∧ r.2.messages = w.messages ++ posts config w.posted events)

theorem finish_settles (ih : Settles config events) (outcomes : List (Outcome Error)) {w v : Store}
    (h : Delivered w (event :: events)) (hv : v.pending = w.pending) :
    let r := play serve outcomes (finish config event events) v
    let next := fun rest => Answered config v.posted events rest
    (Cleared r.2 (event :: events) ↔ Acked outcomes next) ∧
      (Acked outcomes next → r.1.finished = true ∧
        r.2.messages = v.messages ++ posts config v.posted events) := by
  have h' : Delivered v (event :: events) := ⟨hv ▸ h.pending, h.nodup⟩
  cases outcomes with
  | nil =>
    refine ⟨iff_of_false (h'.waiting rfl) ?_, ?_⟩ <;>
      · rintro ⟨o, rest, hnil, -⟩
        cases hnil
  | cons o rest =>
    have hacked : ∀ next, Acked (o :: rest) next ↔ o.effective = true ∧ next rest := by
      intro next
      constructor
      · rintro ⟨o', rest', heq, ho, hnext⟩
        cases heq
        exact ⟨ho, hnext⟩
      · exact fun ⟨ho, hnext⟩ => ⟨o, rest, rfl, ho, hnext⟩
    simp only [finish, play_call, hacked]
    cases ho : o.effective with
    | false =>
      have hsame : (serve.perform o (.xack event.eventId) v).1 = v := by
        rw [Server.perform_state, ho]
        rfl
      rw [hsame]
      exact ⟨iff_of_false (h'.not_cleared rfl rest) (by simp), by simp⟩
    | true =>
      have hperform : (serve.perform o (.xack event.eventId) v).1
          = (serve (.xack event.eventId) v).1 := by
        rw [Server.perform_state, ho]
        rfl
      rw [hperform]
      obtain ⟨hiff, hmessages⟩ := ih rest _ h'.xack
      simp only [true_and]
      refine ⟨?_, hmessages⟩
      refine Iff.trans ?_ hiff
      constructor
      · exact fun hcleared e he => hcleared e (List.mem_cons_of_mem _ he)
      · intro hcleared e he i hi
        cases List.mem_cons.mp he with
        | inr htail => exact hcleared e htail i hi
        | inl heq =>
          apply not_pending_play
          intro hmem
          have := (List.mem_filter.mp hmem).2
          simp [← heq, hi] at this

/-- A command of an event is answered, or the event is passed over. -/
theorem replied_settles (h : Delivered w (event :: events)) {v : Store}
    (hv : v.pending = w.pending) {c : Cmd} (hc : (serve c v).1.pending = v.pending)
    {next : Reply c → Async Unit} {K : List (Outcome Error) → Prop} {messages : List GateMessage}
    (hnext : ∀ rest, let r := play serve rest (next (serve c v).2) (serve c v).1
      (Cleared r.2 (event :: events) ↔ K rest) ∧
        (K rest → r.1.finished = true ∧ r.2.messages = messages))
    (outcomes : List (Outcome Error)) :
    let r := play serve outcomes (.call c (orElse config events next)) v
    (Cleared r.2 (event :: events) ↔ Replied outcomes K) ∧
      (Replied outcomes K → r.1.finished = true ∧ r.2.messages = messages) := by
  have hfail : ∀ o rest, o ≠ (.ok : Outcome Error) → ¬ Replied (o :: rest) K := by
    rintro o rest ho ⟨rest', heq, -⟩
    cases heq
    exact ho rfl
  cases outcomes with
  | nil =>
    refine ⟨iff_of_false (h.waiting hv) ?_, ?_⟩ <;>
      · rintro ⟨rest, hnil, -⟩
        cases hnil
  | cons o rest =>
    cases o with
    | ok =>
      have hreplied : Replied (.ok :: rest) K ↔ K rest := by simp [Replied]
      rw [hreplied]
      exact hnext rest
    | refused e =>
      have hnot := hfail (.refused e) rest (by simp)
      exact ⟨iff_of_false (h.not_cleared hv rest) hnot, fun hreplied => absurd hreplied hnot⟩
    | lost e =>
      have hnot := hfail (.lost e) rest (by simp)
      exact ⟨iff_of_false (h.not_cleared (hc.trans hv) rest) hnot,
        fun hreplied => absurd hreplied hnot⟩

/-- **What becomes of a batch.**  It is cleared exactly when it is answered, and then all that
is due has been posted. -/
theorem settles (config : SlackBridgeConfig) (events : List ASDLCEvent) : Settles config events := by
  induction events with
  | nil =>
    intro outcomes w _
    refine ⟨iff_of_true (fun e he => by cases he) trivial, fun _ => ?_⟩
    simp [handleEvents, posts]
  | cons event events ih =>
    intro outcomes w h
    by_cases htype : event.eventType = .gateRequested
    · rw [handleEvents_cons htype]
      by_cases hincomplete : Incomplete event
      · simp only [if_pos hincomplete, Answered, posts, htype, true_and]
        exact finish_settles ih outcomes h rfl
      · simp only [if_neg hincomplete, Answered, posts, htype, true_and]
        apply replied_settles h rfl rfl
        intro checked
        by_cases hposted : event.meta "request_id" "" ∈ w.posted
        · have hreply : (serve (.sismember (event.meta "request_id" "")) w).2 = true := by
            simp [serve, hposted]
          simp only [hreply, due, if_pos hposted, if_true]
          exact finish_settles ih checked h rfl
        · have hreply : (serve (.sismember (event.meta "request_id" "")) w).2 = false := by
            simp [serve, hposted]
          simp only [hreply, due, if_neg hposted, Bool.false_eq_true, if_false]
          cases hchannel : channelOf config event with
          | none => exact finish_settles ih checked h rfl
          | some channelConfig =>
            set message := messageOf config event channelConfig
            simp only [Option.map_some]
            apply replied_settles h rfl rfl
            intro sent
            apply replied_settles h (v := (serve (.chatPostMessage message) w).1) rfl rfl
            intro marked
            apply replied_settles h (v := (serve (.sadd (event.meta "request_id" ""))
              (serve (.chatPostMessage message) w).1).1) rfl rfl
            intro kept
            have hmessages : w.messages ++ message :: posts config
                (w.posted.sadd message.requestId) events = (w.messages ++ [message]) ++ posts config
                (w.posted.sadd message.requestId) events := by simp
            rw [hmessages]
            exact finish_settles ih kept h rfl
    · rw [handleEvents, if_neg htype]
      refine ⟨iff_of_false (h.not_cleared rfl outcomes) ?_, ?_⟩
      · exact fun hanswered => htype hanswered.1
      · exact fun hanswered => absurd hanswered.1 htype

/-- A batch does not post twice, nor what has been posted. -/
theorem posts_nodup (posted : Redis.MemberSet String) :
    ((posts config posted events).map GateMessage.requestId).Nodup ∧
      ∀ message ∈ posts config posted events, message.requestId ∉ posted := by
  induction events generalizing posted with
  | nil => simp [posts]
  | cons event events ih =>
    unfold posts
    split
    · exact ih posted
    · cases hdue : due config posted event with
      | none => exact ih posted
      | some message =>
        obtain ⟨hnodup, hnew⟩ := ih (posted.sadd message.requestId)
        have hid : message.requestId ∉ posted := by
          unfold due at hdue
          split at hdue
          · cases hdue
          · next hposted =>
            obtain ⟨channelConfig, -, rfl⟩ := Option.map_eq_some_iff.mp hdue
            exact hposted
        refine ⟨?_, ?_⟩
        · rw [List.map_cons, List.nodup_cons]
          refine ⟨?_, hnodup⟩
          rw [List.mem_map]
          rintro ⟨m, hm, heq⟩
          exact hnew m hm (by simp [heq])
        · intro m hm
          cases List.mem_cons.mp hm with
          | inl heq => exact heq ▸ hid
          | inr htail => exact fun hposted => hnew m htail (by simp [hposted])

/-! ## One turn -/

variable {codec}

/-- The events of a batch are numbered as its entries are. -/
theorem eventId_decodeAll {now : Time} {messages : List (ℕ × RawEntry)}
    (h : (reader codec config).decodeAll now messages = .ok events) :
    events.map ASDLCEvent.eventId = messages.map fun m => some m.1 := by
  induction messages generalizing events with
  | nil =>
    cases h
    rfl
  | cons m messages ih =>
    obtain ⟨event, hevent, h⟩ := bind_eq_ok.mp h
    obtain ⟨rest, hrest, h⟩ := bind_eq_ok.mp h
    cases h
    obtain ⟨-, -, -, -, -, -, rfl⟩ := ASDLCEvent.ofRaw_eq_ok.mp hevent
    simp [ih hrest]

theorem mem_batch {i : ℕ} {count : ℕ} (h : i ∈ (w.batch count).map Prod.fst) : w.delivered ≤ i := by
  simp only [Store.batch, List.map_map, List.mem_map, Function.comp] at h
  obtain ⟨⟨data, k⟩, hmem, rfl⟩ := h
  exact (List.mem_zipIdx hmem).1

theorem batch_nodup (w : Store) (count : ℕ) : ((w.batch count).map Prod.fst).Nodup := by
  have hids : (w.batch count).map Prod.fst
      = List.range' w.delivered ((w.stream.drop w.delivered).take count).length := by
    simp [Store.batch, Function.comp_def, List.zipIdx_map_snd]
  rw [hids]
  exact List.nodup_range'

/-- What a turn does with the answer to its read. -/
def afterRead (codec : Codec) (config : SlackBridgeConfig) (now : Time) :
    Except Error (List (ℕ × RawEntry)) → Async Unit
  | .error _ => pure ()
  | .ok messages =>
    match (reader codec config).decodeAll now messages with
    | .error _ => pure ()
    | .ok events => try handleEvents config events catch _ => pure ()

theorem iteration_eq (now : Time) :
    iteration codec config now = .call (.xreadgroup 10) (afterRead codec config now) := by
  apply congrArg (Program.call (I := interface) (.xreadgroup 10))
  funext r
  cases r with
  | error e => rfl
  | ok messages =>
    cases hdecode : (reader codec config).decodeAll now messages with
    | error e => simp [afterRead, hdecode]
    | ok events => simp [afterRead, hdecode]

/-- The store after a turn that reads a batch of events is that after the batch. -/
theorem play_afterRead {now : Time} {messages : List (ℕ × RawEntry)}
    (h : (reader codec config).decodeAll now messages = .ok events)
    (outcomes : List (Outcome Error)) (w : Store) :
    play serve outcomes (afterRead codec config now (.ok messages)) w
      = ((play serve outcomes (handleEvents config events) w).1.elim .ret fun _ => .ret (),
        (play serve outcomes (handleEvents config events) w).2) := by
  simp only [afterRead, h]
  exact play_elim_finished serve outcomes (handleEvents config events) .ret (fun _ => .ret ()) w
    (fun _ => rfl) fun _ => rfl

variable {now : Time} {outcomes : List (Outcome Error)}

/-- The store once a batch has been read. -/
def Store.read (w : Store) : Store := (serve (.xreadgroup 10) w).1

/-- What is read is with the consumer. -/
theorem delivered_read (hw : w.pending = [])
    (h : (reader codec config).decodeAll now (w.batch 10) = .ok events) :
    Delivered w.read events := by
  have hids := eventId_decodeAll h
  constructor
  · intro e he
    have hmem : e.eventId ∈ (w.batch 10).map fun m => some m.1 := hids ▸ List.mem_map_of_mem he
    obtain ⟨m, hm, heq⟩ := List.mem_map.mp hmem
    refine ⟨m.1, heq.symm, ?_⟩
    simp only [Store.read, serve, hw, List.nil_append]
    exact List.mem_map_of_mem hm
  · rw [hids]
    have hnodup := (batch_nodup w 10).map fun _ _ => Option.some.inj
    rwa [List.map_map] at hnodup

/-- Nothing is left of a batch exactly when it is cleared. -/
theorem pending_eq_nil_iff (hw : w.pending = [])
    (h : (reader codec config).decodeAll now (w.batch 10) = .ok events) :
    (play serve outcomes (handleEvents config events) w.read).2.pending = [] ↔
      Cleared (play serve outcomes (handleEvents config events) w.read).2 events := by
  have hids := eventId_decodeAll h
  constructor
  · intro hnil e _ i _
    simp [hnil]
  · intro hcleared
    rw [List.eq_nil_iff_forall_not_mem]
    intro i hi
    have hread : i ∈ w.read.pending := by
      by_contra hnot
      exact not_pending_play hnot outcomes hi
    simp only [Store.read, serve, hw, List.nil_append] at hread
    obtain ⟨m, hm, rfl⟩ := List.mem_map.mp hread
    have hmem : some m.1 ∈ events.map ASDLCEvent.eventId := by
      rw [hids]
      exact List.mem_map_of_mem hm
    obtain ⟨e, he, heq⟩ := List.mem_map.mp hmem
    exact hcleared e he m.1 heq hi

/-- **The step lemma, forwards and backwards.**  A happening leaves nothing pending exactly when
it is attended. -/
theorem pending_step_iff (hw : w.pending = []) (op : Happening) :
    (step codec config w op).pending = [] ↔ Attended codec config w op := by
  cases op with
  | publish data => exact iff_of_true hw trivial
  | expire => exact iff_of_true hw trivial
  | iterate now outcomes =>
    cases outcomes with
    | nil => exact iff_of_true hw trivial
    | cons o rest =>
      simp only [step, iteration_eq, play_call]
      cases o with
      | refused e => exact iff_of_true (by simpa [afterRead] using hw) trivial
      | lost e => simp [afterRead, Attended, serve, hw]
      | ok =>
        change (play serve rest (afterRead codec config now (.ok (w.batch 10))) w.read).2.pending = []
          ↔ _
        cases h : (reader codec config).decodeAll now (w.batch 10) with
        | error e =>
          have hbatch : w.batch 10 ≠ [] := by
            intro hnil
            rw [hnil] at h
            cases h
          refine iff_of_false ?_ ?_
          · simpa [afterRead, h, Store.read, serve, hw] using hbatch
          · rintro ⟨events, hevents, -⟩
            rw [h] at hevents
            cases hevents
        | ok events =>
          rw [play_afterRead h]
          refine ((pending_eq_nil_iff hw h).trans
            (settles config events rest w.read (delivered_read hw h)).1).trans ?_
          simp [Attended, h, Store.read, serve]

/-- An attended happening posts what it should, and does not end between a post and its mark. -/
theorem Attended.posts (hw : w.pending = []) {op : Happening} (h : Attended codec config w op) :
    Uncut codec config w op ∧
      (step codec config w op).messages = w.messages ++ posting codec config w op := by
  cases op with
  | publish data => exact ⟨trivial, by simp [step, posting]⟩
  | expire => exact ⟨trivial, by simp [step, posting]⟩
  | iterate now outcomes =>
    cases outcomes with
    | nil => exact ⟨fun _ => by simp [iteration_eq], by simp [step, posting]⟩
    | cons o rest =>
      simp only [Uncut, step, iteration_eq, play_call]
      cases o with
      | refused e => simp [afterRead, posting]
      | lost e => simp [afterRead, posting, serve]
      | ok =>
        obtain ⟨events, hevents, hanswered⟩ := h
        have hread : (serve.perform (.ok : Outcome Error) (.xreadgroup 10) w)
            = (w.read, .ok (w.batch 10)) := rfl
        rw [hread, play_afterRead hevents]
        obtain ⟨hfinished, hmessages⟩ :=
          (settles config events rest w.read (delivered_read hw hevents)).2 hanswered
        constructor
        · intro requestId
          cases hp : (play serve rest (handleEvents config events) w.read).1 with
          | ret a => simp
          | raise e => simp
          | call c k => rw [hp] at hfinished; cases hfinished
        · simp only [posting, hevents]
          exact hmessages

/-! ## Runs -/

/-- An invariant of all commands is kept by every turn. -/
theorem step_keeps {S : Store → Prop} (hserve : ∀ c w, S w → S (serve c w).1)
    (hstream : ∀ w data, S w → S { w with stream := w.stream ++ [data] })
    (hposted : ∀ w, S w → S { w with posted := .empty }) (h : S w) (op : Happening) :
    S (step codec config w op) := by
  cases op with
  | publish data => exact hstream w data h
  | expire => exact hposted w h
  | iterate now outcomes => exact (keeps_of_server hserve _).play h outcomes

variable (codec config) in
/-- The position in the stream only grows. -/
theorem delivered_run (d : ℕ) (h : d ≤ w.delivered) (as : List Happening) :
    d ≤ (run (step codec config) w as).delivered := by
  refine run_invariant' (I := fun w : Store => d ≤ w.delivered) ?_ h as
  intro w op hw
  refine step_keeps (S := fun w : Store => d ≤ w.delivered) ?_ (fun _ _ h => h) (fun _ h => h) hw op
  intro c w hw
  cases c with
  | xreadgroup n => exact Nat.le_add_right_of_le hw
  | _ => exact hw

/-- What is pending is behind the position. -/
theorem pending_lt_run {i : ℕ} (h : ∀ i ∈ w.pending, i < w.delivered) (as : List Happening)
    (hi : i ∈ (run (step codec config) w as).pending) :
    i < (run (step codec config) w as).delivered := by
  refine run_invariant' (I := fun w : Store => ∀ i ∈ w.pending, i < w.delivered) ?_ h as i hi
  intro w op hw
  refine step_keeps (S := fun w : Store => ∀ i ∈ w.pending, i < w.delivered) ?_ (fun _ _ h => h)
    (fun _ h => h) hw op
  intro c w hw
  cases c with
  | xreadgroup n =>
    intro i hi
    cases List.mem_append.mp hi with
    | inl hold => exact Nat.lt_add_right _ (hw i hold)
    | inr hnew =>
      simp only [Store.batch, List.map_map, List.mem_map, Function.comp] at hnew
      obtain ⟨⟨data, k⟩, hmem, rfl⟩ := hnew
      have hlt := List.snd_lt_add_of_mem_zipIdx hmem
      simpa [serve, Store.batch] using hlt
  | xack eventId => exact fun i hi => hw i (List.mem_of_mem_filter hi)
  | _ => exact hw

variable (codec config) in
/-- Messages are never taken back. -/
theorem messages_run {l : List GateMessage} (h : l <+: w.messages) (as : List Happening) :
    l <+: (run (step codec config) w as).messages := by
  refine run_invariant' (I := fun w : Store => l <+: w.messages) ?_ h as
  intro w op hw
  refine step_keeps (S := fun w : Store => l <+: w.messages) ?_ (fun _ _ h => h) (fun _ h => h) hw op
  intro c w hw
  cases c with
  | chatPostMessage message => exact hw.trans (List.prefix_append _ _)
  | _ => exact hw

/-- An entry behind the position is not read again. -/
theorem not_readAgain {i : ℕ} (h : i < w.delivered) (more : List Happening) :
    ¬ ReadAgain codec config w more i := by
  rintro ⟨before, op, after, rfl, hreads⟩
  have hdelivered := delivered_run codec config w.delivered le_rfl before
  have hle : (run (step codec config) w before).delivered ≤ i := by
    unfold reads at hreads
    split at hreads
    · exact mem_batch hreads
    · cases hreads
  omega

/-- **Notification over runs.**  Whatever fails and wherever a process ends: every entry that is
read is acknowledged or read again, and no request is posted twice, exactly when every turn
reads nothing, or gate requests only, whose commands are answered, and none that was posted
before and forgotten. -/
theorem notified_iff (codec : Codec) (config : SlackBridgeConfig) (as : List Happening) :
    Notified codec config .empty as ↔
      Each (step codec config) (Served codec config) .empty as := by
  have hstart : ∀ i ∈ Store.empty.pending, i < Store.empty.delivered := nofun
  constructor
  · intro h
    have hnil : ∀ before, before <+: as →
        (run (step codec config) .empty before).pending = [] := by
      intro before hbefore
      rw [List.eq_nil_iff_forall_not_mem]
      intro i hi
      obtain ⟨more, hmore⟩ := h.handled before hbefore i hi
      exact not_readAgain (pending_lt_run hstart before hi) more hmore
    have hattended : ∀ before op after, as = before ++ op :: after →
        Attended codec config (run (step codec config) .empty before) op := by
      rintro before op after rfl
      rw [← pending_step_iff (hnil before ⟨_, rfl⟩)]
      have hsnoc := hnil (before ++ [op]) ⟨after, by simp⟩
      rwa [run_append] at hsnoc
    have honce := h.once (each_iff_split.mpr fun before op after heq =>
      ((hattended before op after heq).posts (hnil before ⟨_, heq.symm⟩)).1)
    rw [each_iff_split]
    rintro before op after rfl
    refine ⟨hattended before op after rfl, ?_⟩
    have hmessages := ((hattended before op after rfl).posts (hnil before ⟨_, rfl⟩)).2
    have hlater := messages_run codec config (List.prefix_refl (step codec config
      (run (step codec config) .empty before) op).messages) after
    rw [hmessages] at hlater
    rw [run_append] at honce
    have hnodup := honce.sublist (hlater.sublist.map GateMessage.requestId)
    rw [List.map_append, List.nodup_append] at hnodup
    intro message hmessage htold
    exact hnodup.2.2 _ htold _ (List.mem_map_of_mem hmessage) rfl
  · intro heach
    have hkept : ∀ before, before <+: as →
        (run (step codec config) .empty before).pending = [] ∧
          (told (run (step codec config) .empty before)).Nodup := by
      rintro before ⟨after, rfl⟩
      rw [each_append] at heach
      refine run_invariant (I := fun w : Store => w.pending = [] ∧ (told w).Nodup) ?_
        ⟨rfl, List.nodup_nil⟩ heach.1
      rintro w op ⟨hpending, hnodup⟩ ⟨hattended, hnew⟩
      refine ⟨(pending_step_iff hpending op).mpr hattended, ?_⟩
      rw [told, (hattended.posts hpending).2, List.map_append, List.nodup_append]
      refine ⟨hnodup, ?_, ?_⟩
      · unfold posting
        split
        · split
          · exact (posts_nodup w.posted).1
          · exact List.nodup_nil
        · exact List.nodup_nil
      · rintro a ha b hb rfl
        obtain ⟨message, hmessage, rfl⟩ := List.mem_map.mp hb
        exact hnew message hmessage ha
    refine ⟨fun before hbefore i hi => ?_, fun _ => (hkept as (List.prefix_refl _)).2⟩
    rw [(hkept before hbefore).1] at hi
    cases hi

end

/-- Parsers that know one object. -/
def oneObject : Codec where
  fromIsoFormat _ := .error "Invalid isoformat string"
  loads text := if text = "{..}" then some [("gate_type", "hitl_4_code"), ("request_id", "r")] else none
  repr text := text

/-- Reviews of code go to the reviewers. -/
def codeReviews : SlackBridgeConfig where
  routingPolicy := (∅ : Dict ChannelConfig).insert "hitl_4_code" ⟨"C1", "reviewer"⟩
  rbacMap := ∅

/-- An entry of the stream. -/
def entry (eventType : String) : RawEntry :=
  [("event_type", eventType), ("session_id", "s"), ("metadata", "{..}")]

/-- A gate request that Slack does not take. -/
def notTaken : List Happening :=
  [.publish (entry "gate_requested"),
    .iterate 0 [.ok, .ok, .refused { cls := .exception, message := "ratelimited" }]]

/-- An event of another type. -/
def foreignEvent : List Happening := [.publish (entry "task_created"), .iterate 0 [.ok]]

/-- A request that Slack did not take, and an event of another type, stay with the consumer for
ever, and no later turn reads them. -/
theorem pending_for_ever :
    ¬ Notified oneObject codeReviews .empty notTaken ∧
      ¬ Notified oneObject codeReviews .empty foreignEvent := by
  constructor
  · intro h
    obtain ⟨more, hmore⟩ := h.handled notTaken (List.prefix_refl _) 0 (by decide)
    exact not_readAgain (by decide) more hmore
  · intro h
    obtain ⟨more, hmore⟩ := h.handled foreignEvent (List.prefix_refl _) 0 (by decide)
    exact not_readAgain (by decide) more hmore

end DoxAsdlc.Slack.GateConsumer
