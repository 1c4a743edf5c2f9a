import DoxAsdlc.Infrastructure.FailureCount
import DoxAsdlc.Workers.WorkerPool
import Mathlib.Tactic.FinCases
import Mathlib.Tactic.IntervalCases

/-!
# Every dispatch reaches an agent

The pool and the manager run together, in any interleaving, with redeliveries, faults
and stopped workers.  An `AGENT_STARTED` entry is handed to the agent dispatcher unless
the worker that claimed its key stops in between, or the key was claimed for another
entry.  The key is a function of session, task and epic, so every further dispatch of a
task has the key of the first.

The invariant is that entries which may still be delivered have different keys, and
that a marked key names the one entry of them that has it.

## Main definitions

* `Active`, `KeyFree` — entries that may still be delivered, and keys not in use.
* `HandsOver` — the condition on a step.
* `PoolInv` — the invariant of the pool.
* `Secured` — an agent has been given the entry, or is about to be.
-/

namespace DoxAsdlc

open Interaction Interaction.Program Async

/-! ## The condition -/

section

variable {ι : Type} [DecidableEq ι]

/-- Delivery `j` of entry `i` is under way. -/
def UnderWay (jobs : ι → Job) (cfg : Pool ι) (j : ι) (i : ℕ) : Prop :=
  (∃ r, jobs j = .deliver r ∧ r.entry = i) ∧ cfg.Live j ∧ cfg.history j ≠ []

/-- Entry `i` may be delivered again, or a delivery of it is under way. -/
def Active (jobs : ι → Job) (cfg : Pool ι) (i : ℕ) : Prop :=
  cfg.store.acked .workers i = false ∨ ∃ j, UnderWay jobs cfg j i

/-- The key of this entry, if it is an `AGENT_STARTED` entry, is neither marked nor the
key of an active entry. -/
def KeyFree (env : Env) (jobs : ι → Job) (cfg : Pool ι) (data : StreamEntry) : Prop :=
  ∀ key, startedKey env data = some key → cfg.store.marks (markKey env key) = none ∧
    ∀ i, startedAt env cfg.store i = some key → ¬ Active jobs cfg i

/-- The step does not lose a dispatch: what is published has a free key; no SET NX loses
its answer, and after one that was refused the publication of the error raises too; no
worker stops between SET NX and dispatch; entries are trimmed after their
acknowledgement. -/
def HandsOver (env : Env) (jobs : ι → Job) (cfg : Pool ι) : PoolAction ι → Prop
  | .run j o =>
    (∀ data, cfg.next? j = some (.xadd data) → o.effective = true → KeyFree env jobs cfg data) ∧
    (∀ key id e, cfg.next? j = some (.setNx key id) → o ≠ .lost e) ∧
    (∀ r event e, jobs j = .deliver r → phaseOf env cfg r j = .failed event e .marking → o ≠ .ok)
  | .stop j => ∀ event context, cfg.next? j ≠ some (.dispatch event context)
  | .env (.append event) => KeyFree env jobs cfg event.toStreamDict
  | .env (.expire _) => True
  | .env (.trim n) => ∀ i, i < n → startedAt env cfg.store i ≠ none →
      cfg.store.acked .workers i = true

end

/-! ## What a command changes -/

section

variable (env : Env) (c : Cmd) (w : Store)

theorem serve_stream : (Store.serve env c w).1.stream = w.stream ∨
    ∃ data, c = .xadd data ∧ (Store.serve env c w).1.stream = w.stream ++ [data] := by
  cases c with
  | xadd data => exact .inr ⟨data, rfl, rfl⟩
  | xack group id => cases id <;> exact .inl rfl
  | setNx key id => cases hk : w.marks key <;> simp [Store.serve, hk]
  | _ => exact .inl rfl

theorem serve_acked (i : ℕ) :
    (Store.serve env c w).1.acked .workers i = w.acked .workers i ∨
      c = .xack .workers (some i) ∧ (Store.serve env c w).1.acked .workers i = true := by
  cases c with
  | xack group id =>
    cases id with
    | none => exact .inl rfl
    | some i' =>
      by_cases h : Group.workers = group ∧ i = i'
      · obtain ⟨rfl, rfl⟩ := h
        exact .inr ⟨rfl, by simp [Store.serve, Store.ack]⟩
      · exact .inl (by simp [Store.serve, Store.ack, h])
  | setNx key id => cases hk : w.marks key <;> simp [Store.serve, hk]
  | _ => exact .inl rfl

theorem serve_marks (key : String) :
    (Store.serve env c w).1.marks key = w.marks key ∨
      ∃ id, c = .setNx key id ∧ w.marks key = none ∧
        (Store.serve env c w).1.marks key = some id := by
  cases c with
  | xack group id => cases id <;> exact .inl rfl
  | setNx key' id =>
    cases hk : w.marks key' with
    | some owner => simp [Store.serve, hk]
    | none =>
      by_cases h : key = key'
      · subst h
        exact .inr ⟨id, rfl, hk, by simp [Store.serve, hk]⟩
      · exact .inl (by simp [Store.serve, hk, h])
  | _ => exact .inl rfl

theorem serve_trimmed : (Store.serve env c w).1.trimmed = w.trimmed := by
  cases c with
  | xack group id => cases id <;> rfl
  | setNx key id => cases hk : w.marks key <;> simp [Store.serve, hk]
  | _ => rfl

end

/-! ## Phases and entries -/

/-- The event is what the entry of a delivery reads as. -/
def IsEntry (w : Store) (r : Receipt) (event : ASDLCEvent) : Prop :=
  ∃ data, w.stream[r.entry]? = some data ∧
    ASDLCEvent.fromStreamDict r.now r.entry data = .ok event

/-- The event of a phase is what the entry reads as; it is skipped unless it is
`AGENT_STARTED`. -/
def PhaseOk (w : Store) (r : Receipt) (p : Phase) : Prop :=
  ∀ event, p.event? = some event →
    IsEntry w r event ∧ (event.eventType = .agentStarted ↔ p ≠ .skipped event)

section

variable {env : Env} {w w' : Store} {r : Receipt} {p : Phase} {event : ASDLCEvent}

theorem IsEntry.eventId (h : IsEntry w r event) : event.eventId = some r.entry := by
  obtain ⟨data, -, hread⟩ := h
  exact (ASDLCEvent.fromStreamDict_eq_ok hread).1

theorem IsEntry.startedAt (h : IsEntry w r event) : startedAt env w r.entry
    = if event.eventType = .agentStarted then some (eventIdempotencyKey env event) else none := by
  obtain ⟨data, hdata, hread⟩ := h
  rw [DoxAsdlc.startedAt, hdata, Option.bind_some, startedKey_of_read hread]

theorem IsEntry.mono (h : IsEntry w r event) (hs : w.stream <+: w'.stream) : IsEntry w' r event := by
  obtain ⟨data, hdata, hread⟩ := h
  obtain ⟨l, hl⟩ := hs
  refine ⟨data, ?_, hread⟩
  rw [← hl, List.getElem?_append_left (List.getElem?_eq_some_iff.mp hdata).1, hdata]

theorem PhaseOk.mono (h : PhaseOk w r p) (hs : w.stream <+: w'.stream) : PhaseOk w' r p :=
  fun event he => ⟨(h event he).1.mono hs, (h event he).2⟩

/-- The key of the entry that a phase is about. -/
theorem PhaseOk.started (h : PhaseOk w r p) (he : p.event? = some event)
    (hp : p ≠ .skipped event) :
    startedAt env w r.entry = some (eventIdempotencyKey env event) := by
  obtain ⟨hentry, htype⟩ := h event he
  rw [hentry.startedAt, if_pos (htype.mpr hp)]

/-- The key of an entry that was received. -/
theorem PhaseOk.received (h : PhaseOk w r p) (hp : p = .received event) :
    startedAt env w r.entry = some (eventIdempotencyKey env event) := by
  subst hp
  exact h.started rfl (by simp)

/-- What a delivery receives is the entry. -/
theorem phaseOk_receive {data : StreamEntry} (hdata : w.entry? r.entry = some data) :
    PhaseOk w r (Phase.receive r (some data)) := by
  have hstream : w.stream[r.entry]? = some data := by
    unfold Store.entry? at hdata
    split at hdata
    · cases hdata
    · exact hdata
  intro event he
  cases hread : ASDLCEvent.fromStreamDict r.now r.entry data with
  | error e => simp [Phase.receive, hread, Phase.event?] at he
  | ok event' =>
    by_cases htype : event'.eventType = .agentStarted
    · simp only [Phase.receive, hread, htype, if_true, Phase.event?, Option.some.injEq] at he ⊢
      subst he
      exact ⟨⟨data, hstream, hread⟩, iff_of_true htype (by simp)⟩
    · cases hfresh : r.fresh with
      | false => simp [Phase.receive, hread, htype, hfresh, Phase.event?] at he
      | true =>
        simp only [Phase.receive, hread, htype, hfresh, if_true, if_false, Phase.event?,
          Option.some.injEq] at he ⊢
        subst he
        exact ⟨⟨data, hstream, hread⟩, iff_of_false htype (by simp)⟩

/-- After the claim a phase is about the event of the phase before. -/
theorem next_event {c : Cmd} {reply : Except Error (Reply c)} {b : Bool} (hp : p ≠ .claiming)
    (hc : p.command env r = some c)
    (he : (p.next env r ⟨c, reply, b⟩).event? = some event) :
    p.event? = some event ∧ (p.next env r ⟨c, reply, b⟩ = .skipped event ↔ p = .skipped event) := by
  cases p with
  | claiming => exact absurd rfl hp
  | closed result => cases hc
  | received event' =>
    cases hc
    rcases reply with e | _ | _ <;> exact ⟨he, by simp [Phase.next]⟩
  | skipped event' => cases hc; cases reply <;> cases he
  | reported event' => cases hc; cases reply <;> cases he
  | failed event' e cause =>
    cases hc
    cases reply with
    | error e => cases he
    | ok id => exact ⟨he, by simp [Phase.next]⟩
  | duplicate event' =>
    cases hc
    cases reply with
    | error e => exact ⟨he, by simp [Phase.next, Phase.acknowledged]⟩
    | ok acked => cases he
  | announced event' =>
    cases hc
    cases reply with
    | error e => exact ⟨he, by simp [Phase.next, Phase.acknowledged]⟩
    | ok acked => cases he
  | _ => cases hc; cases reply <;> exact ⟨he, by simp [Phase.next]⟩

/-- An acknowledged entry is not received. -/
theorem claim_acked (env : Env) (o : Outcome Error) (hacked : w.acked .workers r.entry = true) :
    ∃ result, Phase.claiming.next env r
      ((Store.serve env).exchange o (.claim .workers r.entry) w) = .closed result := by
  cases o with
  | refused e => exact ⟨_, rfl⟩
  | lost e => exact ⟨_, rfl⟩
  | ok =>
    refine ⟨.ok (), ?_⟩
    simp [Store.serve, hacked, Phase.next, Phase.receive]

/-- The event of a phase stays what the entry reads as. -/
theorem PhaseOk.next (h : PhaseOk w r p) {c : Cmd} (hc : p.command env r = some c)
    (o : Outcome Error) :
    PhaseOk w r (p.next env r ((Store.serve env).exchange o c w)) := by
  by_cases hp : p = .claiming
  · subst hp
    cases hc
    cases o with
    | refused e => intro event he; cases he
    | lost e => intro event he; cases he
    | ok =>
      change PhaseOk w r (Phase.receive r (if w.acked .workers r.entry then none
        else w.entry? r.entry))
      cases hacked : w.acked .workers r.entry with
      | true => intro event he; cases he
      | false =>
        cases hdata : w.entry? r.entry with
        | none => intro event he; cases he
        | some data => exact phaseOk_receive hdata
  · intro event he
    obtain ⟨hevent, hskip⟩ := next_event hp hc he
    obtain ⟨hentry, htype⟩ := h event hevent
    exact ⟨hentry, htype.trans (not_congr hskip).symm⟩

end

/-! ## The shape of a pool -/

section

variable {ι : Type} [DecidableEq ι] {env : Env} {jobs : ι → Job} {cfg : Pool ι}

/-- Every delivery is where its machine says and about its entry, and the manager uses
its own commands. -/
structure PoolShape (env : Env) (jobs : ι → Job) (cfg : Pool ι) : Prop where
  follows : ∀ j r, jobs j = .deliver r → cfg.Follows (worker env r) .claiming j
  manager : ∀ j, (∀ r, jobs j ≠ .deliver r) → (cfg.threads j).Uses HandlerCommand
  entry : ∀ j r, jobs j = .deliver r → PhaseOk cfg.store r (phaseOf env cfg r j)

@[simp] theorem phaseOf_exchange_self (r : Receipt) (j : ι) (o : Outcome Error) (c : Cmd)
    (k : Except Error (Reply c) → Async Unit) :
    phaseOf env (cfg.exchange (Store.serve env) j o c k) r j
      = (phaseOf env cfg r j).next env r ((Store.serve env).exchange o c cfg.store) := by
  simp [phaseOf, Config.exchange, worker]

theorem phaseOf_exchange_ne {i j : ι} (hi : i ≠ j) (r : Receipt) (o : Outcome Error) (c : Cmd)
    (k : Except Error (Reply c) → Async Unit) :
    phaseOf env (cfg.exchange (Store.serve env) j o c k) r i = phaseOf env cfg r i := by
  simp [phaseOf, Config.exchange, hi]

/-- What a step of the pool can be. -/
theorem PoolShape.cases (h : PoolShape env jobs cfg) (a : PoolAction ι) :
    (∃ j o c k, a = .run j o ∧ cfg.next? j = some c ∧ cfg.stopped j = false ∧
      cfg.threads j = .call c k ∧ (∀ r, jobs j ≠ .deliver r) ∧ HandlerCommand c ∧
      poolStep env cfg a = cfg.exchange (Store.serve env) j o c k) ∨
    (∃ j o c k r, a = .run j o ∧ cfg.next? j = some c ∧ cfg.stopped j = false ∧
      cfg.threads j = .call c k ∧ jobs j = .deliver r ∧
      (phaseOf env cfg r j).command env r = some c ∧
      poolStep env cfg a = cfg.exchange (Store.serve env) j o c k) ∨
    (∃ j o, a = .run j o ∧ cfg.next? j = none ∧ poolStep env cfg a = cfg) ∨
    (∃ j, a = .stop j ∧ poolStep env cfg a =
      { cfg with stopped := Function.update cfg.stopped j true }) ∨
    (∃ e, a = .env e ∧ poolStep env cfg a = { cfg with store := e.apply cfg.store }) := by
  obtain ⟨j, o, c, k, rfl, hs, hp, hnext, he⟩ | hidle | hstop | henv :=
    Config.step_cases (Store.serve env) Happening.apply cfg a
  · by_cases hj : ∃ r, jobs j = .deliver r
    · obtain ⟨r, hj⟩ := hj
      have hcommand := Phase.program_command ((h.follows j r hj).symm.trans hp)
      exact .inr (.inl ⟨j, o, c, k, r, rfl, hnext, hs, hp, hj, hcommand, he⟩)
    · have hj' : ∀ r, jobs j ≠ .deliver r := fun r hr => hj ⟨r, hr⟩
      have huses := h.manager j hj'
      rw [hp] at huses
      exact .inl ⟨j, o, c, k, rfl, hnext, hs, hp, hj', huses.1, he⟩
  · exact .inr (.inr (.inl hidle))
  · exact .inr (.inr (.inr (.inl hstop)))
  · exact .inr (.inr (.inr (.inr henv)))

/-- The stream only grows. -/
theorem stream_grows (env : Env) (cfg : Pool ι) (a : PoolAction ι) :
    cfg.store.stream <+: (poolStep env cfg a).store.stream := by
  obtain ⟨j, o, c, k, rfl, -, -, -, he⟩ | ⟨j, o, rfl, -, he⟩ | ⟨j, rfl, he⟩ | ⟨e, rfl, he⟩ :=
    Config.step_cases (Store.serve env) Happening.apply cfg a
  · rw [poolStep, he]
    change _ <+: ((Store.serve env).perform o c cfg.store).1.stream
    rw [Server.perform_state]
    split
    · rcases serve_stream env c cfg.store with hs | ⟨data, -, hs⟩
      · rw [hs]
      · rw [hs]
        exact List.prefix_append _ _
    · exact List.prefix_rfl
  · rw [poolStep, he]
  · rw [poolStep, he]
  · rw [poolStep, he]
    cases e with
    | append event => exact List.prefix_append _ _
    | expire key => exact List.prefix_rfl
    | trim n => exact List.prefix_rfl

/-- Every step keeps the shape. -/
theorem PoolShape.step (h : PoolShape env jobs cfg) (a : PoolAction ι) :
    PoolShape env jobs (poolStep env cfg a) := by
  refine ⟨fun j r hj => (h.follows j r hj).step _ _ a, fun j hj =>
    Config.uses_step (h.manager j hj) _ _ a, fun j r hj => ?_⟩
  have hprefix := stream_grows env cfg a
  have hsame (hphase : phaseOf env (poolStep env cfg a) r j = phaseOf env cfg r j) :
      PhaseOk (poolStep env cfg a).store r (phaseOf env (poolStep env cfg a) r j) := by
    rw [hphase]
    exact (h.entry j r hj).mono hprefix
  obtain ⟨i, o, c, k, rfl, -, -, -, hi, -, he⟩ | ⟨i, o, c, k, r', rfl, -, -, -, hi, hc, he⟩ |
    ⟨i, o, rfl, -, he⟩ | ⟨i, rfl, he⟩ | ⟨e, rfl, he⟩ := h.cases a
  · refine hsame ?_
    have hne : j ≠ i := fun hji => hi r (hji ▸ hj)
    rw [he]
    exact phaseOf_exchange_ne hne r o c k
  · by_cases hji : j = i
    · subst hji
      obtain rfl : r = r' := by
        rw [hj] at hi
        exact Job.deliver.inj hi
      have hnext := ((h.entry j r hj).next hc o).mono hprefix
      rw [he] at hnext ⊢
      rw [phaseOf_exchange_self]
      exact hnext
    · refine hsame ?_
      rw [he]
      exact phaseOf_exchange_ne hji r o c k
  · exact hsame (by rw [he])
  · exact hsame (by rw [he]; rfl)
  · exact hsame (by rw [he]; rfl)

omit [DecidableEq ι] in
/-- A delivery that is not stopped and has something to do is under way. -/
theorem PoolShape.underWay (h : PoolShape env jobs cfg) {j : ι} {r : Receipt} {c : Cmd}
    (hj : jobs j = .deliver r) (hs : cfg.stopped j = false)
    (hc : (phaseOf env cfg r j).command env r = some c) (hp : phaseOf env cfg r j ≠ .claiming) :
    UnderWay jobs cfg j r.entry := by
  refine ⟨⟨r, hj, rfl⟩, ⟨hs, ?_⟩, fun hempty => hp ?_⟩
  · rw [h.follows j r hj]
    cases hfinished : ((phaseOf env cfg r j).program env r).finished with
    | false => exact hfinished
    | true => exact absurd ((Phase.finished_iff.mp hfinished).symm.trans hc) (by simp)
  · rw [phaseOf, hempty, Tracker.after_nil]

/-- A step makes no entry active that was not: acknowledgements are not taken back, and
only an entry that is not acknowledged is received. -/
theorem PoolShape.active (h : PoolShape env jobs cfg) {a : PoolAction ι} {i : ℕ}
    (ha : Active jobs (poolStep env cfg a) i) : Active jobs cfg i := by
  have hacked {c : Cmd} {o : Outcome Error} {j : ι} {k : Except Error (Reply c) → Async Unit}
      (hf : (cfg.exchange (Store.serve env) j o c k).store.acked .workers i = false) :
      cfg.store.acked .workers i = false := by
    change ((Store.serve env).perform o c cfg.store).1.acked .workers i = false at hf
    rw [Server.perform_state] at hf
    split at hf
    · rcases serve_acked env c cfg.store i with hsame | ⟨-, htrue⟩
      · rwa [hsame] at hf
      · rw [htrue] at hf
        cases hf
    · exact hf
  have hother {c : Cmd} {o : Outcome Error} {j j' : ι} {k : Except Error (Reply c) → Async Unit}
      (hne : j' ≠ j) (hu : UnderWay jobs (cfg.exchange (Store.serve env) j o c k) j' i) :
      UnderWay jobs cfg j' i := by
    obtain ⟨hjob, ⟨hs, hlive⟩, hbegun⟩ := hu
    refine ⟨hjob, ⟨hs, ?_⟩, ?_⟩
    · simpa [Config.exchange, hne] using hlive
    · simpa [Config.exchange, hne] using hbegun
  obtain ⟨j, o, c, k, rfl, -, -, -, hj, -, he⟩ | ⟨j, o, c, k, r, rfl, -, hs, hp, hj, hc, he⟩ |
    ⟨j, o, rfl, -, he⟩ | ⟨j, rfl, he⟩ | ⟨e, rfl, he⟩ := h.cases a
  · rw [he] at ha
    rcases ha with hf | ⟨j', hu⟩
    · exact .inl (hacked hf)
    · have hne : j' ≠ j := by
        rintro rfl
        obtain ⟨⟨r, hr, -⟩, -⟩ := hu
        exact hj r hr
      exact .inr ⟨j', hother hne hu⟩
  · rcases ha with hf | ⟨j', hu⟩
    · rw [he] at hf
      exact .inl (hacked hf)
    · by_cases hne : j' = j
      · subst hne
        obtain ⟨⟨r', hr', hentry⟩, ⟨-, hlive⟩, -⟩ := hu
        obtain rfl : r' = r := by
          rw [hj] at hr'
          exact (Job.deliver.inj hr').symm
        by_cases hclaim : phaseOf env cfg r' j' = .claiming
        · -- The entry was received just now, so it was not acknowledged.
          refine .inl ?_
          subst hentry
          by_contra hacked'
          obtain ⟨result, hover⟩ := claim_acked env o (by simpa using hacked')
          rw [hclaim] at hc
          cases hc
          have hphase : phaseOf env (poolStep env cfg (.run j' o)) r' j' = .closed result := by
            rw [he, phaseOf_exchange_self, hclaim]
            exact hover
          have hfollows := (h.step (.run j' o)).follows j' r' hj
          rw [hfollows] at hlive
          have hfinished : ((phaseOf env (poolStep env cfg (.run j' o)) r' j').program env r').finished
              = true := by
            rw [hphase, Phase.finished_iff]
            rfl
          exact absurd (hlive.symm.trans hfinished) (by simp)
        · exact .inr ⟨j', hentry ▸ h.underWay hj hs hc hclaim⟩
      · rw [he] at hu
        exact .inr ⟨j', hother hne hu⟩
  · rwa [he] at ha
  · rw [he] at ha
    rcases ha with hf | ⟨j', hjob, ⟨hs, hlive⟩, hbegun⟩
    · exact .inl hf
    · refine .inr ⟨j', hjob, ⟨?_, hlive⟩, hbegun⟩
      by_cases hne : j' = j
      · subst hne
        simp at hs
      · simpa [hne] using hs
  · rw [he] at ha
    rcases ha with hf | hu
    · refine .inl ?_
      cases e <;> exact hf
    · exact .inr hu

end

/-! ## Keys in use -/

section

variable {ι : Type} [DecidableEq ι] {env : Env} {jobs : ι → Job} {cfg : Pool ι}
  {a : PoolAction ι} {i : ℕ} {key : String}

/-- Active entries have different keys, a marked key is marked with the active entry that
has it, and what was trimmed has been acknowledged. -/
structure KeysApart (env : Env) (jobs : ι → Job) (cfg : Pool ι) : Prop where
  acked : ∀ i, cfg.store.acked .workers i = true → i < cfg.store.stream.length
  trimmed_le : cfg.store.trimmed ≤ cfg.store.stream.length
  trimmed : ∀ i, i < cfg.store.trimmed → startedAt env cfg.store i ≠ none →
    cfg.store.acked .workers i = true
  apart : ∀ i i' key, Active jobs cfg i → Active jobs cfg i' →
    startedAt env cfg.store i = some key → startedAt env cfg.store i' = some key → i = i'
  owner : ∀ i key o, Active jobs cfg i → startedAt env cfg.store i = some key →
    cfg.store.marks (markKey env key) = some o → o = some i

omit [DecidableEq ι] in
theorem startedAt_lt {w : Store} (h : startedAt env w i ≠ none) : i < w.stream.length := by
  by_contra hge
  exact h (by rw [startedAt, List.getElem?_eq_none (by omega), Option.bind_none])

/-- The command of a delivery that is about to claim its key. -/
theorem command_setNx {r : Receipt} {p : Phase} {name : String} {id : Option ℕ}
    (h : p.command env r = some (.setNx name id)) : ∃ event, p = .received event ∧
      name = markKey env (eventIdempotencyKey env event) ∧ id = event.eventId := by
  cases p <;> cases h
  exact ⟨_, rfl, rfl, rfl⟩

/-- A new entry has a free key. -/
theorem started_step (h : PoolShape env jobs cfg) (ha : HandsOver env jobs cfg a)
    (hs : startedAt env (poolStep env cfg a).store i = some key) :
    startedAt env cfg.store i = some key ∨
      i = cfg.store.stream.length ∧ cfg.store.marks (markKey env key) = none ∧
        ∀ i', startedAt env cfg.store i' = some key → ¬ Active jobs cfg i' := by
  have hnew (data : StreamEntry) (hfree : KeyFree env jobs cfg data)
      (hstream : (poolStep env cfg a).store.stream = cfg.store.stream ++ [data]) :
      startedAt env cfg.store i = some key ∨
        i = cfg.store.stream.length ∧ cfg.store.marks (markKey env key) = none ∧
          ∀ i', startedAt env cfg.store i' = some key → ¬ Active jobs cfg i' := by
    rw [startedAt, hstream] at hs
    by_cases hlt : i < cfg.store.stream.length
    · rw [List.getElem?_append_left hlt] at hs
      exact .inl hs
    · by_cases hi : i = cfg.store.stream.length
      · subst hi
        simp only [List.getElem?_concat_length, Option.bind_some] at hs
        exact .inr ⟨rfl, hfree key hs⟩
      · rw [List.getElem?_eq_none (by simp; omega)] at hs
        cases hs
  have hold (hstream : (poolStep env cfg a).store.stream = cfg.store.stream) :
      startedAt env cfg.store i = some key := by
    rw [startedAt, hstream] at hs
    exact hs
  have hrun {j : ι} {o : Outcome Error} {c : Cmd} {k : Except Error (Reply c) → Async Unit}
      (hrun : a = .run j o) (hnext : cfg.next? j = some c)
      (he : poolStep env cfg a = cfg.exchange (Store.serve env) j o c k) :
      startedAt env cfg.store i = some key ∨
        i = cfg.store.stream.length ∧ cfg.store.marks (markKey env key) = none ∧
          ∀ i', startedAt env cfg.store i' = some key → ¬ Active jobs cfg i' := by
    subst hrun
    have hstore : (poolStep env cfg (.run j o)).store
        = if o.effective then (Store.serve env c cfg.store).1 else cfg.store := by
      rw [he]
      exact (Store.serve env).perform_state o c cfg.store
    cases heff : o.effective with
    | false => exact .inl (hold (by rw [hstore, heff]; rfl))
    | true =>
      rw [heff, if_pos rfl] at hstore
      rcases serve_stream env c cfg.store with hsame | ⟨data, rfl, hdata⟩
      · exact .inl (hold (by rw [hstore, hsame]))
      · exact hnew data (ha.1 data hnext heff) (by rw [hstore, hdata])
  obtain ⟨j, o, c, k, hj, hnext, -, -, -, -, he⟩ | ⟨j, o, c, k, r, hj, hnext, -, -, -, -, he⟩ |
    ⟨j, o, rfl, -, he⟩ | ⟨j, rfl, he⟩ | ⟨e, rfl, he⟩ := h.cases a
  · exact hrun hj hnext he
  · exact hrun hj hnext he
  · exact .inl (hold (by rw [he]))
  · exact .inl (hold (by rw [he]))
  · cases e with
    | append event => exact hnew _ ha (by rw [he]; rfl)
    | expire name => exact .inl (hold (by rw [he]; rfl))
    | trim n => exact .inl (hold (by rw [he]; rfl))

/-- Only a delivery that is about to claim its key marks one, and only a free one. -/
theorem marks_step (h : PoolShape env jobs cfg) {name : String} {o : Option ℕ}
    (hm : (poolStep env cfg a).store.marks name = some o) :
    cfg.store.marks name = some o ∨ cfg.store.marks name = none ∧
      ∃ j r event outcome, a = .run j outcome ∧ outcome.effective = true ∧
        jobs j = .deliver r ∧ cfg.stopped j = false ∧ phaseOf env cfg r j = .received event ∧
        cfg.next? j = some (.setNx name (some r.entry)) ∧ name = markKey env (eventIdempotencyKey env event) ∧ o = some r.entry := by
  obtain ⟨j, outcome, c, k, rfl, hnext, hs, hp, hj, hc, he⟩ |
    ⟨j, outcome, c, k, r, rfl, hnext, hs, hp, hj, hc, he⟩ |
    ⟨j, outcome, rfl, -, he⟩ | ⟨j, rfl, he⟩ | ⟨e, rfl, he⟩ := h.cases a
  · rw [he] at hm
    change ((Store.serve env).perform outcome c cfg.store).1.marks name = some o at hm
    rw [Server.perform_state] at hm
    split at hm
    · rcases serve_marks env c cfg.store name with hsame | ⟨id, rfl, -⟩
      · exact .inl (hsame ▸ hm)
      · cases hc
    · exact .inl hm
  · rw [he] at hm
    change ((Store.serve env).perform outcome c cfg.store).1.marks name = some o at hm
    rw [Server.perform_state] at hm
    split at hm
    · rename_i heff
      rcases serve_marks env c cfg.store name with hsame | ⟨id, rfl, hnone, hset⟩
      · exact .inl (hsame ▸ hm)
      · obtain ⟨event, hphase, hname, rfl⟩ := command_setNx hc
        have hid : event.eventId = some r.entry :=
          ((h.entry j r hj) event (by rw [hphase]; rfl)).1.eventId
        refine .inr ⟨hnone, j, r, event, outcome, rfl, heff, hj, hs, hphase, hid ▸ hnext, hname,
          ?_⟩
        exact (Option.some.inj (hm.symm.trans hset)).trans hid
    · exact .inl hm
  · exact .inl (by rwa [he] at hm)
  · exact .inl (by rwa [he] at hm)
  · rw [he] at hm
    cases e with
    | append event => exact .inl hm
    | trim n => exact .inl hm
    | expire key' =>
      refine .inl ?_
      change (if some key' = some name then none else cfg.store.marks name) = some o at hm
      split at hm
      · cases hm
      · exact hm

/-- The last command of a delivery. -/
theorem command_xack {r : Receipt} {p : Phase} {id : Option ℕ}
    (h : p.command env r = some (.xack .workers id)) : ∃ event, p.event? = some event ∧
      id = event.eventId ∧ (p = .skipped event ∨ p = .duplicate event ∨ p = .announced event ∨
        p = .reported event) := by
  cases p <;> cases h <;> simp [Phase.event?]

/-- An entry is acknowledged only by a delivery of it. -/
theorem acked_step (h : PoolShape env jobs cfg)
    (hacked : (poolStep env cfg a).store.acked .workers i = true) :
    cfg.store.acked .workers i = true ∨ ∃ j r event, jobs j = .deliver r ∧ r.entry = i ∧
      (phaseOf env cfg r j).event? = some event ∧
      (phaseOf env cfg r j = .skipped event ∨ phaseOf env cfg r j = .duplicate event ∨
        phaseOf env cfg r j = .announced event ∨ phaseOf env cfg r j = .reported event) := by
  obtain ⟨j, o, c, k, rfl, -, -, -, hj, hc, he⟩ | ⟨j, o, c, k, r, rfl, -, -, -, hj, hc, he⟩ |
    ⟨j, o, rfl, -, he⟩ | ⟨j, rfl, he⟩ | ⟨e, rfl, he⟩ := h.cases a
  · rw [he] at hacked
    change ((Store.serve env).perform o c cfg.store).1.acked .workers i = true at hacked
    rw [Server.perform_state] at hacked
    split at hacked
    · rcases serve_acked env c cfg.store i with hsame | ⟨rfl, -⟩
      · exact .inl (hsame ▸ hacked)
      · cases hc
    · exact .inl hacked
  · rw [he] at hacked
    change ((Store.serve env).perform o c cfg.store).1.acked .workers i = true at hacked
    rw [Server.perform_state] at hacked
    split at hacked
    · rcases serve_acked env c cfg.store i with hsame | ⟨rfl, -⟩
      · exact .inl (hsame ▸ hacked)
      · obtain ⟨event, hevent, hid, hphase⟩ := command_xack hc
        have hentry := ((h.entry j r hj) event hevent).1.eventId
        exact .inr ⟨j, r, event, hj, by simpa [hentry] using hid.symm, hevent, hphase⟩
    · exact .inl hacked
  · exact .inl (by rwa [he] at hacked)
  · exact .inl (by rwa [he] at hacked)
  · rw [he] at hacked
    cases e <;> exact .inl hacked

/-- Only trimming trims, and only what is there. -/
theorem trimmed_step (env : Env) (cfg : Pool ι) (a : PoolAction ι) :
    (poolStep env cfg a).store.trimmed = cfg.store.trimmed ∨ ∃ n, a = .env (.trim n) ∧
      (poolStep env cfg a).store.trimmed = max cfg.store.trimmed (min n cfg.store.stream.length) := by
  obtain ⟨j, o, c, k, rfl, -, -, -, he⟩ | ⟨j, o, rfl, -, he⟩ | ⟨j, rfl, he⟩ | ⟨e, rfl, he⟩ :=
    Config.step_cases (Store.serve env) Happening.apply cfg a
  · refine .inl ?_
    rw [poolStep, he]
    change ((Store.serve env).perform o c cfg.store).1.trimmed = _
    rw [Server.perform_state]
    split
    · exact serve_trimmed env c cfg.store
    · rfl
  · exact .inl (by rw [poolStep, he])
  · exact .inl (by rw [poolStep, he])
  · rw [poolStep, he]
    cases e with
    | append event => exact .inl rfl
    | expire key => exact .inl rfl
    | trim n => exact .inr ⟨n, rfl, rfl⟩

/-- Acknowledgements are not taken back. -/
theorem acked_mono (a : PoolAction ι) (hacked : cfg.store.acked .workers i = true) :
    (poolStep env cfg a).store.acked .workers i = true := by
  obtain ⟨j, o, c, k, rfl, -, -, -, he⟩ | ⟨j, o, rfl, -, he⟩ | ⟨j, rfl, he⟩ | ⟨e, rfl, he⟩ :=
    Config.step_cases (Store.serve env) Happening.apply cfg a
  · rw [poolStep, he]
    change ((Store.serve env).perform o c cfg.store).1.acked .workers i = true
    rw [Server.perform_state]
    split
    · rcases serve_acked env c cfg.store i with hsame | ⟨-, htrue⟩
      · rw [hsame, hacked]
      · exact htrue
    · exact hacked
  · rwa [poolStep, he]
  · rwa [poolStep, he]
  · rw [poolStep, he]
    cases e <;> exact hacked

/-- A step that meets the condition keeps the keys apart. -/
theorem KeysApart.step (hk : KeysApart env jobs cfg) (h : PoolShape env jobs cfg)
    (ha : HandsOver env jobs cfg a) : KeysApart env jobs (poolStep env cfg a) := by
  have hlength : cfg.store.stream.length ≤ (poolStep env cfg a).store.stream.length :=
    (stream_grows env cfg a).length_le
  refine ⟨fun i hi => ?_, ?_, fun i hi hs => ?_, fun i i' key hi hi' hs hs' => ?_,
    fun i key o hi hs hm => ?_⟩
  · rcases acked_step h hi with hold | ⟨j, r, event, hj, rfl, hevent, -⟩
    · have hlt := hk.acked i hold
      omega
    · obtain ⟨data, hdata, -⟩ := ((h.entry j r hj) event hevent).1
      have hlt := (List.getElem?_eq_some_iff.mp hdata).1
      omega
  · have hle := hk.trimmed_le
    rcases trimmed_step env cfg a with hsame | ⟨n, -, hmax⟩
    · omega
    · omega
  · have hle := hk.trimmed_le
    have hlt : i < cfg.store.stream.length := by
      rcases trimmed_step env cfg a with hsame | ⟨n, -, hmax⟩
      · omega
      · omega
    obtain ⟨key, hkey⟩ := Option.ne_none_iff_exists'.mp hs
    have hold : startedAt env cfg.store i ≠ none := by
      rcases started_step h ha hkey with hold | ⟨hi', -, -⟩
      · simp [hold]
      · omega
    rcases trimmed_step env cfg a with hsame | ⟨n, rfl, hmax⟩
    · exact acked_mono a (hk.trimmed i (by omega) hold)
    · by_cases hi' : i < cfg.store.trimmed
      · exact acked_mono _ (hk.trimmed i hi' hold)
      · exact acked_mono _ (ha i (by omega) hold)
  · have hact := h.active hi
    have hact' := h.active hi'
    rcases started_step h ha hs with hold | ⟨rfl, -, hfree⟩
    · rcases started_step h ha hs' with hold' | ⟨rfl, -, hfree⟩
      · exact hk.apart i i' key hact hact' hold hold'
      · exact absurd hact (hfree i hold)
    · rcases started_step h ha hs' with hold' | ⟨rfl, -, -⟩
      · exact absurd hact' (hfree i' hold')
      · rfl
  · have hact := h.active hi
    rcases marks_step h hm with hold | ⟨hnone, j, r, event, -, -, -, hj, hs', hphase, -, hname, rfl⟩
    · rcases started_step h ha hs with hold' | ⟨-, hfree, -⟩
      · exact hk.owner i key o hact hold' hold
      · rw [hfree] at hold
        cases hold
    · obtain rfl : key = eventIdempotencyKey env event := (markKey_inj env).mp hname
      have hstarted : startedAt env cfg.store r.entry = some (eventIdempotencyKey env event) :=
        (h.entry j r hj).received hphase
      have hactive : Active jobs cfg r.entry :=
        .inr ⟨j, h.underWay hj hs' (by rw [hphase]; rfl) (by rw [hphase]; simp)⟩
      rcases started_step h ha hs with hold | ⟨-, -, hfree⟩
      · rw [hk.apart i r.entry _ hact hactive hold hstarted]
      · exact absurd hactive (hfree _ hstarted)

end

/-! ## Entries that were taken -/

/-- A delivery in this phase has taken its entry, or found it taken. -/
def Phase.past : Phase → Bool
  | .duplicate _ | .taken _ | .ran _ _ | .announced _ | .reported _ => true
  | .failed _ _ cause => cause != .marking
  | _ => false

/-- Some delivery has taken entry `i`. -/
def Begun {ι : Type} (env : Env) (jobs : ι → Job) (cfg : Pool ι) (i : ℕ) : Prop :=
  (∃ key, startedAt env cfg.store i = some key ∧
    cfg.store.marks (markKey env key) = some (some i)) ∨
  cfg.store.acked .workers i = true ∨
  ∃ j r, jobs j = .deliver r ∧ r.entry = i ∧ (phaseOf env cfg r j).past = true

/-- The step is the one in which a delivery takes entry `i`. -/
def TakesNow {ι : Type} (env : Env) (jobs : ι → Job) (cfg : Pool ι) (a : PoolAction ι) (i : ℕ) :
    Prop :=
  ∃ j r event, a = .run j .ok ∧ jobs j = .deliver r ∧ r.entry = i ∧ cfg.stopped j = false ∧
    phaseOf env cfg r j = .received event ∧
    cfg.store.marks (markKey env (eventIdempotencyKey env event)) = none

section

variable {ι : Type} [DecidableEq ι] {env : Env} {jobs : ι → Job} {cfg : Pool ι}
  {a : PoolAction ι} {i : ℕ} {r : Receipt} {p : Phase}

theorem past_event (h : p.past = true) : ∃ event, p.event? = some event := by
  cases p with
  | claiming => cases h
  | closed result => cases h
  | _ => exact ⟨_, rfl⟩

/-- Where the phases that have taken the entry come from. -/
theorem past_next {c : Cmd} {reply : Except Error (Reply c)} {b : Bool}
    (hc : p.command env r = some c) (hpast : (p.next env r ⟨c, reply, b⟩).past = true) :
    p.past = true ∨ (∃ event, p = .received event) ∨
      (∃ event e, p = .failed event e .marking) ∧ ∃ a, reply = .ok a := by
  cases p with
  | claiming =>
    cases hc
    rcases reply with e | _ | data
    · cases hpast
    · cases hpast
    · simp only [Phase.next, Phase.receive] at hpast
      cases hread : ASDLCEvent.fromStreamDict r.now r.entry data with
      | error e => simp [hread, Phase.past] at hpast
      | ok event =>
        simp only [hread] at hpast
        split at hpast
        · cases hpast
        · split at hpast <;> cases hpast
  | received event => exact .inr (.inl ⟨event, rfl⟩)
  | skipped event => cases hc; cases reply <;> cases hpast
  | closed result => cases hc
  | failed event e cause =>
    by_cases hcause : cause = .marking
    · subst hcause
      cases hc
      cases reply with
      | error e => cases hpast
      | ok id => exact .inr (.inr ⟨⟨event, e, rfl⟩, id, rfl⟩)
    · exact .inl (by simpa [Phase.past] using hcause)
  | _ => exact .inl rfl

/-- An entry is taken by the delivery that marks its key. -/
theorem begun_step (h : PoolShape env jobs cfg) (hk : KeysApart env jobs cfg)
    (ha : HandsOver env jobs cfg a) (hs : startedAt env (poolStep env cfg a).store i ≠ none)
    (hb : Begun env jobs (poolStep env cfg a) i) :
    Begun env jobs cfg i ∨ TakesNow env jobs cfg a i := by
  have hstarted (hlt : i < cfg.store.stream.length) : startedAt env cfg.store i ≠ none := by
    obtain ⟨key, hkey⟩ := Option.ne_none_iff_exists'.mp hs
    rcases started_step h ha hkey with hold | ⟨hi, -, -⟩
    · simp [hold]
    · omega
  rcases hb with ⟨key, hkey, hm⟩ | hacked | ⟨j, r, hj, rfl, hpast⟩
  · rcases marks_step h hm with hold | ⟨hnone, j, r, event, o, rfl, heff, hj, hs', hphase, hnext,
      hname, hentry⟩
    · rcases started_step h ha hkey with hold' | ⟨-, hfree, -⟩
      · exact .inl (.inl ⟨key, hold', hold⟩)
      · rw [hfree] at hold
        cases hold
    · have hi : r.entry = i := (Option.some.inj hentry).symm
      cases o with
      | ok => exact .inr ⟨j, r, event, rfl, hj, hi, hs', hphase, hname ▸ hnone⟩
      | refused e => cases heff
      | lost e => exact absurd rfl (ha.2.1 _ _ e hnext)
  · rcases acked_step h hacked with hold | ⟨j, r, event, hj, rfl, hevent, hphase⟩
    · exact .inl (.inr (.inl hold))
    · refine .inl (.inr (.inr ⟨j, r, hj, rfl, ?_⟩))
      have hentry := (h.entry j r hj) event hevent
      rcases hphase with hskip | hphase | hphase | hphase
      · obtain ⟨data, hdata, -⟩ := hentry.1
        have hlt := (List.getElem?_eq_some_iff.mp hdata).1
        have hne : event.eventType ≠ .agentStarted := fun ht => hentry.2.mp ht hskip
        exact absurd (by rw [hentry.1.startedAt, if_neg hne]) (hstarted hlt)
      · rw [hphase]; rfl
      · rw [hphase]; rfl
      · rw [hphase]; rfl
  · have hsame (heq : phaseOf env (poolStep env cfg a) r j = phaseOf env cfg r j) :
        Begun env jobs cfg r.entry := .inr (.inr ⟨j, r, hj, rfl, heq ▸ hpast⟩)
    obtain ⟨j', o, c, k, rfl, -, -, -, hj', -, he⟩ | ⟨j', o, c, k, r', rfl, -, hs', -, hj', hc, he⟩ |
      ⟨j', o, rfl, -, he⟩ | ⟨j', rfl, he⟩ | ⟨e, rfl, he⟩ := h.cases a
    · have hne : j ≠ j' := fun hjj => hj' r (hjj ▸ hj)
      exact .inl (hsame (by rw [he]; exact phaseOf_exchange_ne hne r o c k))
    · by_cases hne : j = j'
      · subst hne
        obtain rfl : r = r' := by
          rw [hj] at hj'
          exact Job.deliver.inj hj'
        rw [he, phaseOf_exchange_self] at hpast
        rcases past_next hc hpast with hold | ⟨event, hphase⟩ | ⟨⟨event, e, hphase⟩, hok⟩
        · exact .inl (.inr (.inr ⟨j, r, hj, rfl, hold⟩))
        · have hstart : startedAt env cfg.store r.entry = some (eventIdempotencyKey env event) :=
            (h.entry j r hj).received hphase
          have hactive : Active jobs cfg r.entry :=
            .inr ⟨j, h.underWay hj hs' hc (by rw [hphase]; simp)⟩
          cases o with
          | ok =>
            cases hm : cfg.store.marks (markKey env (eventIdempotencyKey env event)) with
            | none => exact .inr ⟨j, r, event, rfl, hj, rfl, hs', hphase, hm⟩
            | some owner =>
              have howner := hk.owner r.entry _ owner hactive hstart hm
              exact .inl (.inl ⟨_, hstart, by rw [hm, howner]⟩)
          | refused e =>
            rw [hphase] at hc hpast
            cases hc
            cases hpast
          | lost e =>
            rw [hphase] at hc hpast
            cases hc
            cases hpast
        · obtain ⟨reply, hreply⟩ := hok
          cases o with
          | ok => exact absurd rfl (ha.2.2 r event e hj hphase)
          | refused e' => cases hreply
          | lost e' => cases hreply
      · exact .inl (hsame (by rw [he]; exact phaseOf_exchange_ne hne r o c k))
    · exact .inl (hsame (by rw [he]))
    · exact .inl (hsame (by rw [he]; rfl))
    · exact .inl (hsame (by rw [he]; rfl))

omit [DecidableEq ι] in
/-- Only entries of the stream are taken. -/
theorem Begun.lt (hb : Begun env jobs cfg i) (h : PoolShape env jobs cfg)
    (hk : KeysApart env jobs cfg) : i < cfg.store.stream.length := by
  rcases hb with ⟨key, hkey, -⟩ | hacked | ⟨j, r, hj, rfl, hpast⟩
  · exact startedAt_lt (show startedAt env cfg.store i ≠ none by simp [hkey])
  · exact hk.acked i hacked
  · obtain ⟨event, hevent⟩ := past_event hpast
    obtain ⟨data, hdata, -⟩ := ((h.entry j r hj) event hevent).1
    exact (List.getElem?_eq_some_iff.mp hdata).1

omit [DecidableEq ι] in
/-- What a delivery does next is what its phase says. -/
theorem PoolShape.next? (h : PoolShape env jobs cfg) {j : ι} (hj : jobs j = .deliver r)
    (hs : cfg.stopped j = false) : cfg.next? j = (phaseOf env cfg r j).command env r := by
  have hfollows := h.follows j r hj
  unfold Config.Follows at hfollows
  rw [Config.next?, hs, hfollows]
  exact Phase.head?_program env r (phaseOf env cfg r j)

/-- The step that takes an entry claims its key. -/
theorem TakesNow.exchange (ht : TakesNow env jobs cfg a i) (h : PoolShape env jobs cfg) :
    ∃ j r event k, a = .run j .ok ∧ jobs j = .deliver r ∧ r.entry = i ∧ cfg.stopped j = false ∧
      phaseOf env cfg r j = .received event ∧
      cfg.store.marks (markKey env (eventIdempotencyKey env event)) = none ∧
      poolStep env cfg a = cfg.exchange (Store.serve env) j .ok
        (.setNx (markKey env (eventIdempotencyKey env event)) event.eventId) k := by
  obtain ⟨j, r, event, rfl, hj, hi, hs, hphase, hm⟩ := ht
  have hcommand : (phaseOf env cfg r j).command env r
      = some (.setNx (markKey env (eventIdempotencyKey env event)) event.eventId) := by
    rw [hphase]
    rfl
  obtain ⟨j', o, c, k, hrun, -, -, -, hj', -⟩ | ⟨j', o, c, k, r', hrun, -, -, -, hj', hc, he⟩ |
    ⟨j', o, hrun, hnone, -⟩ | ⟨j', hrun, -⟩ | ⟨e, hrun, -⟩ := h.cases (.run j .ok)
  · cases hrun
    exact absurd hj (hj' r)
  · cases hrun
    obtain rfl : r = r' := by
      rw [hj] at hj'
      exact Job.deliver.inj hj'
    rw [hcommand] at hc
    cases hc
    exact ⟨j, r, event, k, rfl, hj, hi, hs, hphase, hm, he⟩
  · cases hrun
    rw [h.next? hj hs, hcommand] at hnone
    cases hnone
  · cases hrun
  · cases hrun

end

/-! ## Handed over -/

section

variable {ι : Type} {env : Env} {jobs : ι → Job} {cfg : Pool ι} {a : PoolAction ι} {i : ℕ}

/-- A command that hands an event to the agent dispatcher. -/
def Cmd.isDispatch : Cmd → Bool
  | .dispatch _ _ => true
  | _ => false

/-- A delivery of entry `i` has handed it to the dispatcher. -/
def Handed (jobs : ι → Job) (cfg : Pool ι) (i : ℕ) : Prop :=
  ∃ j r, jobs j = .deliver r ∧ r.entry = i ∧ ∃ x ∈ cfg.history j, x.cmd.isDispatch = true

/-- A delivery of entry `i` hands it to the dispatcher with its next command. -/
def AboutToHand (jobs : ι → Job) (cfg : Pool ι) (i : ℕ) : Prop :=
  ∃ j r, jobs j = .deliver r ∧ r.entry = i ∧
    ∃ event context, cfg.next? j = some (.dispatch event context)

/-- An agent has been given entry `i`, or is about to be. -/
def Secured (jobs : ι → Job) (cfg : Pool ι) (i : ℕ) : Prop :=
  Handed jobs cfg i ∨ AboutToHand jobs cfg i

variable [DecidableEq ι]

/-- What an agent has been given, or is about to be, stays so. -/
theorem Secured.step (hs : Secured jobs cfg i) (ha : HandsOver env jobs cfg a) :
    Secured jobs (poolStep env cfg a) i := by
  rcases hs with ⟨j, r, hj, hi, x, hx, hcmd⟩ | ⟨j, r, hj, hi, event, context, hnext⟩
  · refine .inl ⟨j, r, hj, hi, x, ?_, hcmd⟩
    obtain ⟨j', o, c, k, rfl, -, -, -, he⟩ | ⟨j', o, rfl, -, he⟩ | ⟨j', rfl, he⟩ | ⟨e, rfl, he⟩ :=
      Config.step_cases (Store.serve env) Happening.apply cfg a
    · rw [poolStep, he]
      by_cases hjj : j = j'
      · subst hjj
        simp [Config.exchange, hx]
      · simpa [Config.exchange, hjj] using hx
    · rwa [poolStep, he]
    · rwa [poolStep, he]
    · rwa [poolStep, he]
  · obtain ⟨j', o, c, k, rfl, -, hp, hnext', he⟩ | ⟨j', o, rfl, -, he⟩ | ⟨j', rfl, he⟩ |
      ⟨e, rfl, he⟩ := Config.step_cases (Store.serve env) Happening.apply cfg a
    · by_cases hjj : j = j'
      · subst hjj
        obtain rfl : c = .dispatch event context := Option.some.inj (hnext'.symm.trans hnext)
        refine .inl ⟨j, r, hj, hi, (Store.serve env).exchange o (.dispatch event context) cfg.store,
          ?_, rfl⟩
        rw [poolStep, he]
        simp [Config.exchange]
      · refine .inr ⟨j, r, hj, hi, event, context, ?_⟩
        rw [poolStep, he]
        simpa [Config.next?, Config.exchange, hjj] using hnext
    · exact .inr ⟨j, r, hj, hi, event, context, by rwa [poolStep, he]⟩
    · have hjj : j ≠ j' := by
        rintro rfl
        exact ha event context hnext
      refine .inr ⟨j, r, hj, hi, event, context, ?_⟩
      rw [poolStep, he]
      simpa [Config.next?, hjj] using hnext
    · exact .inr ⟨j, r, hj, hi, event, context, by rwa [poolStep, he]⟩

/-- The invariant: what was taken is secured. -/
structure PoolInv (env : Env) (jobs : ι → Job) (cfg : Pool ι) : Prop where
  shape : PoolShape env jobs cfg
  keys : KeysApart env jobs cfg
  secured : ∀ i, startedAt env cfg.store i ≠ none → Begun env jobs cfg i → Secured jobs cfg i

/-- **One step.**  A step that meets the condition keeps the invariant. -/
theorem PoolInv.step (h : PoolInv env jobs cfg) (ha : HandsOver env jobs cfg a) :
    PoolInv env jobs (poolStep env cfg a) := by
  refine ⟨h.shape.step a, h.keys.step h.shape ha, fun i hs hb => ?_⟩
  rcases begun_step h.shape h.keys ha hs hb with hold | htakes
  · have hlt : i < cfg.store.stream.length := hold.lt h.shape h.keys
    have hs' : startedAt env cfg.store i ≠ none := by
      obtain ⟨key, hkey⟩ := Option.ne_none_iff_exists'.mp hs
      rcases started_step h.shape ha hkey with hold' | ⟨hi, -, -⟩
      · simp [hold']
      · omega
    exact (h.secured i hs' hold).step ha
  · obtain ⟨j, r, event, k, rfl, hj, hi, hstop, hphase, hmarks, he⟩ := htakes.exchange h.shape
    have htaken : phaseOf env (poolStep env cfg (.run j .ok)) r j = .taken event := by
      rw [he, phaseOf_exchange_self, hphase]
      simp [Store.serve, hmarks, Phase.next]
    have hstop' : (poolStep env cfg (.run j .ok)).stopped j = false := by
      rw [he]
      exact hstop
    have hnext := (h.shape.step (.run j .ok)).next? hj hstop'
    rw [htaken] at hnext
    exact .inr ⟨j, r, hj, hi, event, _, hnext⟩

/-- Every `AGENT_STARTED` entry has been handed to the dispatcher, or the next command of
a delivery does it, or the next redelivery will. -/
def EntriesHanded (env : Env) (jobs : ι → Job) (cfg : Pool ι) : Prop :=
  ∀ i, startedAt env cfg.store i ≠ none → Secured jobs cfg i ∨ Redeliverable env cfg.store i

/-- A worker is told that its key is marked only when it is marked with its own entry. -/
def DropsOwn (cfg : Pool ι) : PoolAction ι → Prop
  | .run j .ok => ∀ key id owner, cfg.next? j = some (.setNx key id) →
      cfg.store.marks key = some owner → owner = id
  | _ => True

omit [DecidableEq ι] in
/-- An entry that was not taken is pending and will be executed. -/
theorem PoolInv.redeliverable (h : PoolInv env jobs cfg) (hs : startedAt env cfg.store i ≠ none)
    (hb : ¬ Begun env jobs cfg i) :
    cfg.store.acked .workers i = false ∧ Redeliverable env cfg.store i := by
  obtain ⟨key, hkey⟩ := Option.ne_none_iff_exists'.mp hs
  have hacked : cfg.store.acked .workers i = false := by
    by_contra hne
    exact hb (.inr (.inl (by simpa using hne)))
  have htrimmed : ¬ i < cfg.store.trimmed := by
    intro hlt
    have htrue := h.keys.trimmed i hlt hs
    rw [hacked] at htrue
    cases htrue
  refine ⟨hacked, DoxAsdlc.redeliverable hkey hacked htrimmed ?_⟩
  cases hm : cfg.store.marks (markKey env key) with
  | none => rfl
  | some owner =>
    have howner := h.keys.owner i key owner (.inl hacked) hkey hm
    exact absurd (.inl ⟨key, hkey, by rw [hm, howner]⟩) hb

omit [DecidableEq ι] in
theorem PoolInv.handed (h : PoolInv env jobs cfg) : EntriesHanded env jobs cfg := by
  intro i hs
  by_cases hb : Begun env jobs cfg i
  · exact .inl (h.secured i hs hb)
  · exact .inr (h.redeliverable hs hb).2

theorem PoolInv.dropsOwn (h : PoolInv env jobs cfg) (a : PoolAction ι) : DropsOwn cfg a := by
  obtain ⟨j, o, c, k, rfl, hnext, -, -, -, hc, -⟩ | ⟨j, o, c, k, r, rfl, hnext, hs, -, hj, hc, -⟩ |
    ⟨j, o, rfl, hnone, -⟩ | ⟨j, rfl, -⟩ | ⟨e, rfl, -⟩ := h.shape.cases a
  · cases o with
    | ok =>
      intro key id owner hset
      rw [hnext] at hset
      cases hset
      cases hc
    | refused e => trivial
    | lost e => trivial
  · cases o with
    | ok =>
      intro key id owner hset hm
      rw [hnext] at hset
      cases hset
      obtain ⟨event, hphase, rfl, rfl⟩ := command_setNx hc
      have hentry := (h.shape.entry j r hj) event (by rw [hphase]; rfl)
      have hstarted : startedAt env cfg.store r.entry = some (eventIdempotencyKey env event) :=
        (h.shape.entry j r hj).received hphase
      have hactive : Active jobs cfg r.entry :=
        .inr ⟨j, h.shape.underWay hj hs hc (by rw [hphase]; simp)⟩
      rw [hentry.1.eventId]
      exact h.keys.owner r.entry _ owner hactive hstarted hm
    | refused e => trivial
    | lost e => trivial
  · cases o with
    | ok =>
      intro key id owner hset
      rw [hnone] at hset
      cases hset
    | refused e => trivial
    | lost e => trivial
  · trivial
  · trivial

omit [DecidableEq ι] in
theorem poolInv_start (env : Env) (jobs : ι → Job) (tasks : Redis.Keys String TaskHash) :
    PoolInv env jobs (Pool.start env (Store.unpublished tasks) jobs) := by
  have hnone (i : ℕ) : startedAt env (Store.unpublished tasks) i = none := rfl
  refine ⟨⟨fun j r hj => ?_, fun j hj => uses_job hj, fun j r hj event he => ?_⟩,
    ⟨fun i hi => ?_, le_rfl, fun i hi => ?_, fun i i' key _ _ hs => ?_, fun i key o _ hs => ?_⟩,
    fun i hs => absurd (hnone i) hs⟩
  · exact Config.follows_start (worker env r) _ (by rw [hj]; rfl)
  · cases he
  · cases hi
  · cases hi
  · cases hs
  · cases hs

/-- **Every dispatch reaches an agent.**  In a run whose steps meet the condition, at
every point every `AGENT_STARTED` entry is handed over, about to be, or waiting for a
redelivery that will do it, and a duplicate is only ever a redelivery.  When all jobs
have ended and all such entries are acknowledged, all have been handed over. -/
theorem started_entries_handed (env : Env) (jobs : ι → Job) (tasks : Redis.Keys String TaskHash)
    (as : List (PoolAction ι))
    (h : Each (poolStep env) (HandsOver env jobs)
      (Pool.start env (Store.unpublished tasks) jobs) as) :
    Along (poolStep env) (EntriesHanded env jobs) (fun cfg a _ => DropsOwn cfg a)
      (Pool.start env (Store.unpublished tasks) jobs) as ∧
    let cfg := run (poolStep env) (Pool.start env (Store.unpublished tasks) jobs) as
    cfg.Done →
      (∀ i, startedAt env cfg.store i ≠ none → cfg.store.acked .workers i = true) →
      ∀ i, startedAt env cfg.store i ≠ none → Handed jobs cfg i := by
  have hstart := poolInv_start env jobs tasks
  refine ⟨along_of_each (fun cfg a hcfg ha => PoolInv.step hcfg ha) (fun cfg hcfg => hcfg.handed)
    (fun cfg a hcfg _ => hcfg.dropsOwn a) hstart h, ?_⟩
  intro cfg hdone hacked i hs
  have hcfg : PoolInv env jobs cfg := run_invariant (fun s a => PoolInv.step) hstart h
  rcases hcfg.secured i hs (.inr (.inl (hacked i hs))) with hhanded | ⟨j, r, -, -, event, context, hnext⟩
  · exact hhanded
  · have hfinished := hdone j
    unfold Config.next? at hnext
    split at hnext
    · cases hnext
    · cases hp : cfg.threads j <;> rw [hp] at hnext hfinished
      · cases hnext
      · cases hnext
      · cases hfinished

end

/-! ## Two runs -/

/-- The dispatch of task `t`, as somebody publishes it. -/
def dispatched : ASDLCEvent :=
  { eventType := .agentStarted, sessionId := ⟨"s", blank_s⟩, timestamp := 0, taskId := some "t"
    epicId := some "e", metadata := [("agent_type", "coding-agent")] }

/-- A published dispatch is handed over by its delivery. -/
theorem dispatch_handed_run :
    let jobs : Unit → Job := fun _ => .deliver ⟨0, true, 0⟩
    let as : List (PoolAction Unit) := .env (.append dispatched) :: List.replicate 5 (.run () .ok)
    Handed jobs (run (poolStep plainEnv) (Pool.start plainEnv (Store.unpublished fun _ => none) jobs)
      as) 0 := by
  intro jobs as
  have hrun {cfg : Pool Unit} {c : Cmd} (hnext : cfg.next? () = some c)
      (hc : ∀ data, c = .xadd data → startedKey plainEnv data = none)
      (hphase : ∀ event e, phaseOf plainEnv cfg ⟨0, true, 0⟩ () ≠ .failed event e .marking) :
      HandsOver plainEnv jobs cfg (.run () .ok) := by
    refine ⟨fun data hdata _ key hkey => ?_, fun key id e hset => ?_, fun r event e hj hp => ?_⟩
    · rw [hc data (Option.some.inj (hnext.symm.trans hdata))] at hkey
      cases hkey
    · simp
    · cases hj
      exact absurd hp (hphase event e)
  have heach : Each (poolStep plainEnv) (HandsOver plainEnv jobs)
      (Pool.start plainEnv (Store.unpublished fun _ => none) jobs) as := by
    refine ⟨fun key _ => ⟨rfl, fun i hi => by cases hi⟩, ?_, ?_, ?_, ?_, ?_, trivial⟩
    · exact hrun rfl (fun data h => by cases h) fun event e h => by cases h
    · exact hrun rfl (fun data h => by cases h) fun event e h => by cases h
    · exact hrun rfl (fun data h => by cases h) fun event e h => by cases h
    · exact hrun rfl (fun data h => by cases h; exact startedKey_of_ne _ (by decide)) fun event e h => by cases h
    · exact hrun rfl (fun data h => by cases h) fun event e h => by cases h
  refine (started_entries_handed plainEnv jobs _ as heach).2 (fun j => rfl) (fun i hi => ?_) 0 ?_
  · have hlength : (run (poolStep plainEnv) (Pool.start plainEnv (Store.unpublished fun _ => none)
        jobs) as).store.stream.length = 2 := by decide
    have hlt := startedAt_lt hi
    rw [hlength] at hlt
    interval_cases i
    · decide
    · exact absurd (by decide) hi
  · decide

/-- The jobs of a run in which task `t` fails for the fifth time: its dispatch, the
delivery of that, the event of the failure, and the delivery of the debugger's dispatch. -/
def debuggerJobs : Fin 4 → Job
  | 0 => .assign 0 ⟨"t", "s", "e", .pending, 0, 0, 4, none, none, []⟩ "coding-agent" "normal"
  | 1 => .deliver ⟨0, true, 0⟩
  | 2 => .manage 0 agentError
  | 3 => .deliver ⟨2, true, 0⟩

/-- Each job runs to its end before the next one starts. -/
def debuggerRun : Pool (Fin 4) :=
  let task : Task := ⟨"t", "s", "e", .pending, 0, 0, 4, none, none, []⟩
  run (poolStep plainEnv)
    (Pool.start plainEnv (Store.unpublished (Store.ofTask plainEnv task).tasks) debuggerJobs)
    (((List.finRange 4).zip [3, 5, 4, 3]).flatMap fun job => .replicate job.2 (.run job.1 .ok))

/-- The debugger's dispatch has the key of the first one: it is acknowledged as a
duplicate and no agent is ever given it. -/
theorem debugger_dispatch_dropped :
    startedAt plainEnv debuggerRun.store 2 ≠ none ∧
      debuggerRun.store.acked .workers 2 = true ∧ debuggerRun.Done ∧
      ¬ Handed debuggerJobs debuggerRun 2 := by
  refine ⟨by decide, by decide, ?_, ?_⟩
  · have hall : ∀ j, (debuggerRun.threads j).finished = true := by decide
    exact hall
  · rintro ⟨j, r, hj, hi, x, hx, hdispatch⟩
    fin_cases j
    · cases hj
    · cases hj
      cases hi
    · cases hj
    · have hall : (debuggerRun.history 3).all (fun x => !x.cmd.isDispatch) = true := by
        decide
      have hnot := List.all_eq_true.mp hall x hx
      simp [hdispatch] at hnot

end DoxAsdlc
