import DoxAsdlc.Infrastructure.ConsumerGroup
import Mathlib.Data.List.Nodup

/-!
# What the recovery recovers

`process_pending` asks for the first hundred entries of the pending list and claims those of
them that have been pending for too long.  What it claims it decides about, one entry after the
other, and the counters say how; but `claimed` counts the same entries again, and what stands
behind the hundredth entry is not seen.

## Main definitions

* `Backlog` — the pending entries of a group.
* `claimedIn`, `Decided` — what a run has claimed, and decided about.
* `Recovered` — what a recovery is for.
-/

namespace DoxAsdlc.ConsumerGroup

open Interaction Interaction.Program

/-- An entry of the pending list, with its age in milliseconds and its fields in the stream. -/
structure PendingEntry where
  id : ℕ
  idle : ℕ
  data : RawEntry
  deriving DecidableEq

/-- The pending entries of a group, in the order of their ids. Of a claimed entry that was
deleted from the stream the server returns the id, or nothing. -/
structure Backlog where
  pending : List PendingEntry
  distinct : (pending.map PendingEntry.id).Nodup
  returnsDeleted : Bool

namespace Backlog

variable (b : Backlog)

/-- `XPENDING`. -/
def page (count : ℕ) : List PendingInfo :=
  (b.pending.take count).map fun p => ⟨p.id, p.idle⟩

/-- `XCLAIM`. -/
def claim (minIdleTime : ℕ) (ids : List ℕ) : List (ℕ × RawEntry) :=
  (b.pending.filter fun p => p.id ∈ ids ∧ minIdleTime ≤ p.idle ∧
    (b.returnsDeleted ∨ p.data ≠ [])).map fun p => (p.id, p.data)

/-- The server, with anything for what is not about the pending list. -/
def respond {σ : Type} (others : Responder interface Error σ) : Responder interface Error σ
  | .xpendingRange count, s => (s, .ok (b.page count))
  | .xclaim minIdleTime ids, s => (s, .ok (b.claim minIdleTime ids))
  | cmd, s => others cmd s

end Backlog

/-- What a command has claimed. -/
def claimedBy : Seen interface Error → List (ℕ × RawEntry)
  | ⟨.xclaim _ _, .ok claimed⟩ => claimed
  | _ => []

/-- What a run has claimed. -/
def claimedIn (seen : List (Seen interface Error)) : List (ℕ × RawEntry) := seen.flatMap claimedBy

/-- The event was given to the handler, or acknowledged without that. -/
def Decided (messageId : ℕ) (event : ASDLCEvent) (seen : List (Seen interface Error)) : Prop :=
  (∃ reply, ⟨.handle event, reply⟩ ∈ seen) ∨ ∃ reply, ⟨.xack (some messageId), reply⟩ ∈ seen

/-- The entry is an event, and there was a decision about it. -/
def EntryDecided (c : EventConsumer) (now : Time) (entry : ℕ × RawEntry)
    (seen : List (Seen interface Error)) : Prop :=
  ∃ event, ASDLCEvent.ofRaw c.codec now entry.1 entry.2 = .ok event ∧ Decided entry.1 event seen

/-- No Redis error was met. -/
def Clean (seen : List (Seen interface Error)) : Prop :=
  ∀ cmd e, ⟨cmd, .error e⟩ ∈ seen → e.isRedis = false

section

variable {c : EventConsumer} {σ : Type} {env : Responder interface Error σ} {s : σ} {i : ℕ}
  {event : ASDLCEvent} {now : Time}

theorem Decided.append_left {seen l : List (Seen interface Error)} (h : Decided i event seen) :
    Decided i event (seen ++ l) :=
  h.imp (fun ⟨reply, hreply⟩ => ⟨reply, List.mem_append_left l hreply⟩)
    fun ⟨reply, hreply⟩ => ⟨reply, List.mem_append_left l hreply⟩

theorem Decided.append_right {seen l : List (Seen interface Error)} (h : Decided i event seen) :
    Decided i event (l ++ seen) :=
  h.imp (fun ⟨reply, hreply⟩ => ⟨reply, List.mem_append_right l hreply⟩)
    fun ⟨reply, hreply⟩ => ⟨reply, List.mem_append_right l hreply⟩

theorem Clean.of_append {l l' : List (Seen interface Error)} (h : Clean (l ++ l')) :
    Clean l ∧ Clean l' :=
  ⟨fun cmd e he => h cmd e (List.mem_append_left l' he),
    fun cmd e he => h cmd e (List.mem_append_right l he)⟩

/-! ## One event -/

theorem acknowledgeFailed_isRedis (stream : String) (eventId : Option ℕ) (e : Error) :
    (acknowledgeFailed stream eventId e).isRedis = false := by
  unfold acknowledgeFailed
  split
  · rfl
  · next h => exact Bool.eq_false_iff.mpr h

/-- Acknowledging asks for the acknowledgement, and raises no Redis error. -/
theorem exec_acknowledgeEvent (id : Option ℕ) :
    (∃ reply, (exec env (c.acknowledgeEvent id) s).seen = [⟨.xack id, reply⟩]) ∧
      ∀ e, (exec env (c.acknowledgeEvent id) s).result = .error e → e.isRedis = false := by
  simp only [EventConsumer.acknowledgeEvent, send, tryCatch_eq, elim_call, exec_call]
  cases (env (.xack id) s).2 with
  | ok b =>
    refine ⟨⟨_, rfl⟩, ?_⟩
    intro e he
    cases he
  | error e =>
    refine ⟨⟨_, rfl⟩, ?_⟩
    intro e' he
    cases he
    exact acknowledgeFailed_isRedis _ _ _

/-- An event that is skipped is acknowledged. -/
theorem exec_skip :
    Decided i event (exec env (do
      let _ ← c.acknowledgeEvent (some i)
      pure .skipped : Async Verdict) s).seen ∧
    ∀ e, (exec env (do
      let _ ← c.acknowledgeEvent (some i)
      pure .skipped : Async Verdict) s).result = .error e → e.isRedis = false := by
  obtain ⟨⟨reply, hseen⟩, herror⟩ := @exec_acknowledgeEvent c σ env s (some i)
  have hdecided : Decided i event (exec env (c.acknowledgeEvent (some i)) s).seen :=
    .inr ⟨reply, hseen ▸ List.mem_singleton_self _⟩
  rw [bind_eq]
  cases hack : (exec env (c.acknowledgeEvent (some i)) s).result with
  | ok b =>
    rw [exec_elim_ok hack]
    refine ⟨hdecided.append_left, ?_⟩
    intro e he
    cases he
  | error e =>
    rw [exec_elim_error hack]
    refine ⟨hdecided.append_left, ?_⟩
    intro e' he
    cases he
    exact herror e hack

/-- An event that is handled is decided about, whatever the handler does. -/
theorem exec_attempt :
    Decided i event (exec env (try do
        let result ← send (.handle event)
        c.concludeRecovery event i result
      catch _ => pure .failed : Async Verdict) s).seen ∧
    ∀ e, (exec env (try do
        let result ← send (.handle event)
        c.concludeRecovery event i result
      catch _ => pure .failed : Async Verdict) s).result ≠ .error e := by
  rw [tryCatch_eq]
  refine ⟨.inl ⟨_, List.mem_cons_self⟩, ?_⟩
  intro e he
  rw [exec_elim, follow] at he
  split at he <;> cases he

/-- A lookup that raises was refused. -/
theorem exec_alreadyProcessed {e : Error}
    (h : (exec env (c.alreadyProcessed event) s).result = .error e) :
    ∃ cmd, ⟨cmd, .error e⟩ ∈ (exec env (c.alreadyProcessed event) s).seen := by
  unfold EventConsumer.alreadyProcessed at h ⊢
  split at h
  · cases h
  · next key hkey =>
    rw [send, exec_call] at h
    simp only [send, exec_call]
    cases hreply : (env (.exists (c.getKey key)) s).2 with
    | ok found =>
      rw [hreply] at h
      cases h
    | error e' =>
      rw [hreply] at h
      cases h
      exact ⟨_, List.mem_cons_self⟩

/-- The recovery of an event decides about it, or raises; a Redis error that it raises was
met. -/
theorem exec_recoverEvent :
    (∀ v, (exec env (c.recoverEvent i event) s).result = .ok v →
        Decided i event (exec env (c.recoverEvent i event) s).seen) ∧
      ∀ e, (exec env (c.recoverEvent i event) s).result = .error e → e.isRedis = true →
        ∃ cmd, ⟨cmd, .error e⟩ ∈ (exec env (c.recoverEvent i event) s).seen := by
  rw [EventConsumer.recoverEvent, bind_eq]
  cases hlookup : (exec env (c.alreadyProcessed event) s).result with
  | error e =>
    rw [exec_elim_error hlookup]
    refine ⟨fun v hv => (by cases hv), ?_⟩
    intro e' he' _
    cases he'
    obtain ⟨cmd, hcmd⟩ := exec_alreadyProcessed hlookup
    exact ⟨cmd, List.mem_append_left _ hcmd⟩
  | ok processed =>
    rw [exec_elim_ok hlookup]
    -- Whichever branch is taken, it decides and raises no Redis error of its own.
    have hbranch (p : Async Verdict)
        (hp : ∀ s, Decided i event (exec env p s).seen ∧
          ∀ e, (exec env p s).result = .error e → e.isRedis = false) (s' : σ)
        (seen : List (Seen interface Error)) :
        (∀ v, (exec env p s').result = .ok v → Decided i event (seen ++ (exec env p s').seen)) ∧
          ∀ e, (exec env p s').result = .error e → e.isRedis = true →
            ∃ cmd, ⟨cmd, .error e⟩ ∈ seen ++ (exec env p s').seen := by
      refine ⟨fun v _ => (hp s').1.append_right, ?_⟩
      intro e he hredis
      rw [(hp s').2 e he] at hredis
      cases hredis
    cases processed with
    | true => exact hbranch _ (fun s => exec_skip) _ _
    | false =>
      cases hhandles : c.canHandle event.eventType with
      | true =>
        refine hbranch _ (fun s => ?_) _ _
        obtain ⟨hdecided, hresult⟩ := @exec_attempt c σ env s i event
        exact ⟨hdecided, fun e he => absurd he (hresult e)⟩
      | false => exact hbranch _ (fun s => exec_skip) _ _

/-- The recovery of an entry. -/
theorem exec_recoverEntry {data : RawEntry} :
    (∀ v, (exec env (c.recoverEntry now i data) s).result = .ok v →
        EntryDecided c now (i, data) (exec env (c.recoverEntry now i data) s).seen) ∧
      ∀ e, (exec env (c.recoverEntry now i data) s).result = .error e → e.isRedis = true →
        ∃ cmd, ⟨cmd, .error e⟩ ∈ (exec env (c.recoverEntry now i data) s).seen := by
  rw [EventConsumer.recoverEntry]
  cases hread : ASDLCEvent.ofRaw c.codec now i data with
  | error e =>
    refine ⟨fun v hv => (by cases hv), ?_⟩
    intro e' he' hredis
    cases he'
    rw [ASDLCEvent.ofRaw_isRedis hread] at hredis
    cases hredis
  | ok event =>
    obtain ⟨hok, herror⟩ := @exec_recoverEvent c σ env s i event
    exact ⟨fun v hv => ⟨event, hread, hok v hv⟩, herror⟩

/-! ## The loop -/

/-- Some fields came with the entry. -/
def hasData (entry : ℕ × RawEntry) : Bool := entry.2 ≠ []

/-- The number of verdicts. -/
def RecoveryResult.handled (r : RecoveryResult) : ℕ := r.processed + r.skipped + r.failed

theorem RecoveryResult.handled_count (r : RecoveryResult) (v : Verdict) :
    (r.count v).handled = r.handled + 1 ∧ (r.count v).claimed = r.claimed := by
  refine ⟨?_, by cases v <;> rfl⟩
  cases v <;> simp only [count, handled] <;> omega

/-- A loop that comes to its end without a Redis error has decided about every entry with
data, and counted it. -/
theorem exec_recoverEntries {counts r : RecoveryResult} {entries : List (ℕ × RawEntry)}
    (hresult : (exec env (c.recoverEntries now counts entries) s).result = .ok r)
    (hclean : Clean (exec env (c.recoverEntries now counts entries) s).seen) :
    r.handled = counts.handled + entries.countP hasData ∧ r.claimed = counts.claimed ∧
      ∀ entry ∈ entries, hasData entry = true →
        EntryDecided c now entry (exec env (c.recoverEntries now counts entries) s).seen := by
  induction entries generalizing counts s with
  | nil =>
    cases hresult
    simp
  | cons entry entries ih =>
    obtain ⟨i, data⟩ := entry
    by_cases hdata : data = []
    · rw [EventConsumer.recoverEntries, if_pos hdata] at hresult hclean ⊢
      obtain ⟨hhandled, hclaimed, hdecided⟩ := ih hresult hclean
      have hno : hasData (i, data) = false := by simp [hasData, hdata]
      refine ⟨?_, hclaimed, ?_⟩
      · rw [hhandled, List.countP_cons_of_neg (by simp [hno])]
      · intro entry hentry hhas
        rcases List.mem_cons.mp hentry with rfl | hentry
        · rw [hno] at hhas
          cases hhas
        · exact hdecided entry hentry hhas
    · have hyes : hasData (i, data) = true := by simp [hasData, hdata]
      obtain ⟨hok, herror⟩ := @exec_recoverEntry c σ env s i now data
      rw [EventConsumer.recoverEntries, if_neg hdata] at hresult hclean ⊢
      cases hentry : (exec env (c.recoverEntry now i data) s).result with
      | error e =>
        rw [exec_elim_error hentry] at hresult hclean
        cases hredis : e.isRedis with
        | true =>
          obtain ⟨cmd, hcmd⟩ := herror e hentry hredis
          have hnot := hclean cmd e (List.mem_append_left _ hcmd)
          rw [hredis] at hnot
          cases hnot
        | false =>
          rw [hredis] at hresult
          cases hresult
      | ok v =>
        rw [exec_elim_ok hentry] at hresult hclean ⊢
        obtain ⟨hhandled, hclaimed, hdecided⟩ := ih hresult hclean.of_append.2
        obtain ⟨hcount, hsame⟩ := counts.handled_count v
        refine ⟨?_, hclaimed.trans hsame, ?_⟩
        · rw [hhandled, hcount, List.countP_cons_of_pos hyes]
          omega
        · intro entry hmem hhas
          rcases List.mem_cons.mp hmem with rfl | hmem
          · obtain ⟨event, hread, hdec⟩ := hok v hentry
            exact ⟨event, hread, hdec.append_left⟩
          · obtain ⟨event, hread, hdec⟩ := hdecided entry hmem hhas
            exact ⟨event, hread, hdec.append_right⟩

/-- The commands about a single event. -/
def AboutEvent : Cmd → Prop
  | .exists _ | .set _ _ | .xack _ | .handle _ => True
  | .xreadgroup _ | .xpendingRange _ | .xclaim _ _ => False

theorem uses_acknowledgeEvent (id : Option ℕ) : Uses AboutEvent (c.acknowledgeEvent id) :=
  uses_tryCatch (uses_command trivial) fun _ => uses_raise _

theorem uses_settle (id : Option ℕ) : Uses AboutEvent (c.settle event id) := by
  unfold EventConsumer.settle
  split
  · exact uses_bind (uses_acknowledgeEvent id) fun _ => uses_ret _
  · exact uses_bind (uses_command trivial) fun _ =>
      uses_bind (uses_acknowledgeEvent id) fun _ => uses_ret _

theorem uses_concludeRecovery (r : HandlerResult) :
    Uses AboutEvent (c.concludeRecovery event i r) := by
  unfold EventConsumer.concludeRecovery
  split
  · exact uses_bind (uses_settle _) fun _ => uses_ret _
  · split
    · exact uses_ret _
    · exact uses_bind (uses_acknowledgeEvent _) fun _ => uses_ret _

theorem uses_alreadyProcessed : Uses AboutEvent (c.alreadyProcessed event) := by
  unfold EventConsumer.alreadyProcessed
  split
  · exact uses_ret _
  · exact uses_command trivial

theorem uses_recoverEvent : Uses AboutEvent (c.recoverEvent i event) := by
  have hskip : Uses AboutEvent (do
      let _ ← c.acknowledgeEvent (some i)
      pure .skipped : Async Verdict) :=
    uses_bind (uses_acknowledgeEvent _) fun _ => uses_ret _
  apply uses_bind uses_alreadyProcessed
  intro processed
  split
  · exact hskip
  · split
    · exact uses_tryCatch (uses_bind (uses_command trivial) fun r => uses_concludeRecovery r)
        fun _ => uses_ret _
    · exact hskip

theorem uses_recoverEntries {A : Cmd → Prop} {counts : RecoveryResult}
    {entries : List (ℕ × RawEntry)}
    (h : ∀ entry ∈ entries, Uses A (c.recoverEntry now entry.1 entry.2)) :
    Uses A (c.recoverEntries now counts entries) := by
  induction entries generalizing counts with
  | nil => exact uses_ret _
  | cons entry entries ih =>
    have hrest {counts : RecoveryResult} : Uses A (c.recoverEntries now counts entries) :=
      ih fun entry' hentry' => h entry' (List.mem_cons_of_mem entry hentry')
    rw [EventConsumer.recoverEntries]
    split
    · exact hrest
    · refine uses_elim (h entry List.mem_cons_self) (fun _ => hrest) ?_
      intro e
      split
      · exact uses_ret _
      · exact uses_raise _

theorem aboutEvent_recoverEntries {counts : RecoveryResult} {entries : List (ℕ × RawEntry)} :
    Uses AboutEvent (c.recoverEntries now counts entries) :=
  uses_recoverEntries fun _ _ => uses_bind (uses_answer _) fun _ => uses_recoverEvent

/-- The decisions about events claim nothing. -/
theorem claimedIn_recoverEntries {counts : RecoveryResult} {entries : List (ℕ × RawEntry)} :
    claimedIn (exec env (c.recoverEntries now counts entries) s).seen = [] := by
  rw [claimedIn, List.flatMap_eq_nil_iff]
  intro x hx
  have habout := aboutEvent_recoverEntries.exec env s hx
  obtain ⟨cmd, reply⟩ := x
  cases cmd with
  | xclaim minIdleTime ids => cases habout
  | _ => rfl

end

/-! ## The whole recovery -/

section

variable {c : EventConsumer} {σ : Type} {others : Responder interface Error σ} {s : σ}
  {now : Time} {b : Backlog} {r : RecoveryResult}

/-- The run of a recovery on a backlog. -/
def recover (c : EventConsumer) (now : Time) (b : Backlog) (others : Responder interface Error σ)
    (s : σ) : Execution interface Error σ RecoveryResult :=
  exec (b.respond others) (c.processPending now) s

/-- The entries of the first page that have been pending for too long. -/
def Backlog.stale (b : Backlog) : List ℕ := staleIds (b.page 100) staleLimit

/-- An id stands for one entry. -/
theorem Backlog.eq_of_id {p q : PendingEntry} (hp : p ∈ b.pending) (hq : q ∈ b.pending)
    (h : p.id = q.id) : p = q :=
  List.inj_on_of_nodup_map b.distinct hp hq h

theorem Backlog.mem_stale {p : PendingEntry} (hp : p ∈ b.pending) :
    p.id ∈ b.stale ↔ p ∈ b.pending.take 100 ∧ staleLimit ≤ p.idle := by
  simp only [stale, staleIds, page, List.mem_map, List.mem_filter, decide_eq_true_eq]
  constructor
  · rintro ⟨info, ⟨⟨q, hq, rfl⟩, hidle⟩, hid⟩
    obtain rfl := b.eq_of_id (List.mem_of_mem_take hq) hp hid
    exact ⟨hq, hidle⟩
  · rintro ⟨htake, hidle⟩
    exact ⟨_, ⟨⟨p, htake, rfl⟩, hidle⟩, rfl⟩

theorem Backlog.mem_claim {p : PendingEntry} (hp : p ∈ b.pending) :
    (p.id, p.data) ∈ b.claim staleLimit b.stale ↔
      (p ∈ b.pending.take 100 ∧ staleLimit ≤ p.idle) ∧ (b.returnsDeleted = true ∨ p.data ≠ []) := by
  simp only [claim, List.mem_map, List.mem_filter, decide_eq_true_eq]
  constructor
  · rintro ⟨q, ⟨hq, hstale, -, hreturned⟩, heq⟩
    obtain rfl := b.eq_of_id hq hp (Prod.ext_iff.mp heq).1
    exact ⟨(b.mem_stale hp).mp hstale, hreturned⟩
  · rintro ⟨hstale, hreturned⟩
    exact ⟨p, ⟨hp, (b.mem_stale hp).mpr hstale, hstale.2, hreturned⟩, rfl⟩

/-- The recovery asks for the first page, and claims what is stale in it, if anything is. -/
theorem recover_eq : recover c now b others s =
    if b.stale = [] then ⟨.ok {}, s, [⟨.xpendingRange 100, .ok (b.page 100)⟩]⟩
    else
      let claimed := b.claim staleLimit b.stale
      let rest := exec (b.respond others)
        (c.recoverEntries now { claimed := claimed.length } claimed) s
      ⟨rest.result, rest.state, ⟨.xpendingRange 100, .ok (b.page 100)⟩ ::
        ⟨.xclaim staleLimit b.stale, .ok claimed⟩ :: rest.seen⟩ := by
  have hempty : (b.page 100 = [] ∨ staleIds (b.page 100) staleLimit = []) ↔ b.stale = [] := by
    refine ⟨?_, .inr⟩
    rintro (hpage | hstale)
    · simp [Backlog.stale, staleIds, hpage]
    · exact hstale
  simp only [recover, EventConsumer.processPending, EventConsumer.getPendingEvents, send,
    tryCatch_eq, bind_eq, elim_call, exec_call, Backlog.respond, answer_ok, elim_ret]
  by_cases hstale : b.stale = []
  · rw [if_pos hstale, if_pos (hempty.mpr hstale)]
    rfl
  · rw [if_neg hstale, if_neg fun h => hstale (hempty.mp h)]
    rfl

/-- A recovery that returns without a Redis error. -/
theorem recover_spec (hresult : (recover c now b others s).result = .ok r)
    (hclean : Clean (recover c now b others s).seen) :
    claimedIn (recover c now b others s).seen = b.claim staleLimit b.stale ∧
      r.handled = (b.claim staleLimit b.stale).countP hasData ∧
      r.claimed = (b.claim staleLimit b.stale).length ∧
      ∀ entry ∈ b.claim staleLimit b.stale, hasData entry = true →
        EntryDecided c now entry (recover c now b others s).seen := by
  rw [recover_eq] at hresult hclean ⊢
  split at hresult
  · next hstale =>
    have hclaim : b.claim staleLimit b.stale = [] := by simp [Backlog.claim, hstale]
    rw [if_pos hstale, hclaim]
    cases hresult
    refine ⟨rfl, rfl, rfl, ?_⟩
    intro entry hentry
    cases hentry
  · next hstale =>
    rw [if_neg hstale] at hclean ⊢
    have hrest : Clean (exec (b.respond others) (c.recoverEntries now
        { claimed := (b.claim staleLimit b.stale).length } (b.claim staleLimit b.stale)) s).seen :=
      fun cmd e he => hclean cmd e (List.mem_cons_of_mem _ (List.mem_cons_of_mem _ he))
    obtain ⟨hhandled, hclaimed, hdecided⟩ := exec_recoverEntries hresult hrest
    refine ⟨?_, ?_, hclaimed, ?_⟩
    · change [] ++ (b.claim staleLimit b.stale ++ claimedIn _) = _
      rw [claimedIn_recoverEntries, List.nil_append, List.append_nil]
    · rw [hhandled]
      simp [RecoveryResult.handled]
    · intro entry hentry hhas
      obtain ⟨event, hread, hdec⟩ := hdecided entry hentry hhas
      exact ⟨event, hread, Decided.append_right (l := [_, _]) hdec⟩

/-- What a recovery is for: every entry that has been pending for too long is claimed and
decided about, and the counts are those of the claimed entries that came with their data. -/
structure Recovered (c : EventConsumer) (now : Time) (b : Backlog) (r : RecoveryResult)
    (seen : List (Seen interface Error)) : Prop where
  claimed : ∀ p ∈ b.pending, staleLimit ≤ p.idle → (p.id, p.data) ∈ claimedIn seen
  decided : ∀ p ∈ b.pending, staleLimit ≤ p.idle → EntryDecided c now (p.id, p.data) seen
  counted : r.processed + r.skipped + r.failed = (claimedIn seen).countP hasData
  total : r.total = (claimedIn seen).countP hasData

/-- An entry without fields is no event. -/
theorem not_entryDecided_nil {i : ℕ} {seen : List (Seen interface Error)} :
    ¬ EntryDecided c now (i, []) seen := by
  rintro ⟨event, hread, -⟩
  obtain ⟨_, _, sessionId, -, -, hsession, -⟩ := ASDLCEvent.ofRaw_eq_ok.mp hread
  cases hsession

/-- A recovery that returns without a Redis error has done what it is for exactly if nothing
had been pending for too long. The counts of the verdicts are always right; every stale entry
is claimed and decided about exactly if all of them stand in the first page and are still in
the stream. -/
theorem recovered_iff (hresult : (recover c now b others s).result = .ok r)
    (hclean : Clean (recover c now b others s).seen) :
    (Recovered c now b r (recover c now b others s).seen ↔
        ∀ p ∈ b.pending, p.idle < staleLimit) ∧
      r.processed + r.skipped + r.failed
        = (claimedIn (recover c now b others s).seen).countP hasData ∧
      ((∀ p ∈ b.pending, staleLimit ≤ p.idle →
          (p.id, p.data) ∈ claimedIn (recover c now b others s).seen ∧
            EntryDecided c now (p.id, p.data) (recover c now b others s).seen) ↔
        ∀ p ∈ b.pending, staleLimit ≤ p.idle → p ∈ b.pending.take 100 ∧ p.data ≠ []) := by
  obtain ⟨hclaimedIn, hhandled, hclaimed, hdecided⟩ := recover_spec hresult hclean
  rw [hclaimedIn]
  refine ⟨⟨fun h p hp => ?_, fun h => ?_⟩, hhandled, ?_⟩
  · by_contra hidle
    have hmem := h.claimed p hp (Nat.not_lt.mp hidle)
    have htotal := h.total
    rw [hclaimedIn] at hmem htotal
    -- The claimed entries are counted twice.
    have hpos := List.length_pos_of_mem hmem
    simp only [RecoveryResult.total, RecoveryResult.handled] at htotal hhandled
    omega
  · have hfresh : ∀ p ∈ b.pending, ¬ staleLimit ≤ p.idle := fun p hp => Nat.not_le.mpr (h p hp)
    have hclaim : b.claim staleLimit b.stale = [] := by
      simp only [Backlog.claim, List.map_eq_nil_iff, List.filter_eq_nil_iff, decide_eq_true_eq]
      intro p hp hstale
      exact hfresh p hp hstale.2.1
    rw [hclaim] at hhandled hclaimed
    refine ⟨fun p hp hidle => absurd hidle (hfresh p hp),
      fun p hp hidle => absurd hidle (hfresh p hp), ?_, ?_⟩
    · rw [hclaimedIn, hclaim]
      exact hhandled
    · rw [hclaimedIn, hclaim]
      simp only [RecoveryResult.total, RecoveryResult.handled, List.countP_nil,
        List.length_nil] at hhandled hclaimed ⊢
      omega
  · constructor
    · intro h p hp hidle
      obtain ⟨hmem, hdec⟩ := h p hp hidle
      refine ⟨((Backlog.mem_claim hp).mp hmem).1.1, ?_⟩
      intro hdata
      rw [hdata] at hdec
      exact not_entryDecided_nil hdec
    · intro h p hp hidle
      obtain ⟨htake, hdata⟩ := h p hp hidle
      have hmem := (Backlog.mem_claim hp).mpr ⟨⟨htake, hidle⟩, .inr hdata⟩
      exact ⟨hmem, hdecided _ hmem (by simp [hasData, hdata])⟩

end

/-! ## One stale entry -/

/-- A consumer of a handler for everything. -/
def eagerConsumer : EventConsumer where
  codec := ⟨fun _ => .ok 0, fun _ => none, id⟩
  tenancy := ⟨false, "default", none⟩
  groupName := "handlers"
  streamName := "events"
  canHandle := fun _ => true

/-- Every command is answered, and the handler succeeds. -/
def smooth : Responder interface Error Unit
  | .exists _, s => (s, .ok false)
  | .set _ _, s => (s, .ok ())
  | .xack _, s => (s, .ok true)
  | .handle _, s => (s, .ok { success := true })
  | .xreadgroup _, s | .xpendingRange _, s | .xclaim _ _, s => (s, .ok [])

/-- One entry that has been pending for two minutes. -/
def oneStale : Backlog where
  pending := [⟨7, 120000, [("session_id", "s1")]⟩]
  distinct := by decide
  returnsDeleted := false

/-- Its recovery meets no error. -/
theorem clean_oneStale : Clean (recover eagerConsumer 0 oneStale smooth ()).seen := by
  intro cmd e he
  have hseen : (recover eagerConsumer 0 oneStale smooth ()).seen.map (fun x => x.2.isOk)
      = [true, true, true, true] := by decide
  have hok := List.mem_map_of_mem (f := fun x : Seen interface Error => x.2.isOk) he
  rw [hseen] at hok
  simp [Except.isOk, Except.toBool] at hok

/-- The one entry is counted twice. -/
theorem one_counted_twice : ¬ ∀ (c : EventConsumer) (now : Time) (b : Backlog)
    (others : Responder interface Error Unit) (r : RecoveryResult),
    (recover c now b others ()).result = .ok r → Clean (recover c now b others ()).seen →
      Recovered c now b r (recover c now b others ()).seen := by
  intro h
  have hresult : (recover eagerConsumer 0 oneStale smooth ()).result
      = .ok { processed := 1, claimed := 1 } := by decide
  have htotal := (h _ _ _ _ _ hresult clean_oneStale).total
  revert htotal
  decide

/-- A recovery of one stale entry. -/
theorem recovered_iff_oneStale :
    ¬ Recovered eagerConsumer 0 oneStale { processed := 1, claimed := 1 }
      (recover eagerConsumer 0 oneStale smooth ()).seen := by
  have hresult : (recover eagerConsumer 0 oneStale smooth ()).result
      = .ok { processed := 1, claimed := 1 } := by decide
  rw [(recovered_iff hresult clean_oneStale).1]
  decide

end DoxAsdlc.ConsumerGroup
