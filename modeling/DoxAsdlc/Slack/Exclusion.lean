import DoxAsdlc.Slack.DecisionHandler

/-!
# One decision for one gate

Any number of approvals and rejections of one gate in Slack, interleaved command by command.
The lock may expire as soon as it has a time to live, a handler may be stopped between any two
of its commands, and a command may fail.

While the gate is pending, the one handler that is inside holds the lock; once it has written
its decision, the lock is no longer needed.

## Main definitions

* `Exclusive` — one event, the status that belongs to it, and no lock that stays.
* `Spared` — the condition on the steps.
* `Held`, `Decided` — the invariant, before and after the decision.

## Main results

* `exclusive_of_spared` — exclusion over runs.
-/

namespace DoxAsdlc.Slack

open Interaction Interaction.Program

/-- The handlers of one gate. -/
abbrev Handlers (ι : Type) := Config interface Store Error Bool ι

/-- The decision on a gate that an entry of the stream announces. -/
def decisionOf (requestId : String) (data : StreamEntry) : Option EventType :=
  (data .eventType).filter fun t => (t = .gateApproved ∨ t = .gateRejected) ∧
    ((data .metadata).getD []).lookup "request_id" = some requestId

/-- The decisions on a gate that have been published. -/
def published (requestId : String) (w : Store) : List EventType :=
  w.stream.filterMap (decisionOf requestId)

/-- The status that is stored for a gate. -/
def storedStatus (requestId : String) (w : Store) : Option String :=
  (w.gates (gateKey requestId)).bind GateData.statusOf

/-- The status that belongs to an event. -/
def statusFor : EventType → String
  | .gateApproved => "APPROVED"
  | _ => "REJECTED"

section

variable {ι : Type} (env : Env) (config : SlackBridgeConfig) (requestId : String)
  (calls : ι → Decision)

/-- Every call at its beginning. -/
def begin (w : Store) : Handlers ι := Config.start w fun j => (calls j).handle requestId env config

/-- One step; the surroundings let the lock expire. -/
abbrev step [DecidableEq ι] (cfg : Handlers ι) (a : Action ι Error Unit) : Handlers ι :=
  cfg.step serve (fun _ w => w.expired (lockKey requestId)) a

/-- Every call has returned or was stopped. -/
def Over (cfg : Handlers ι) : Prop := ∀ j, cfg.next? j = none

/-- **Exclusion.**  One decision at most is published; when every call is over, its status is
the one stored, and no lock outlives its time. -/
structure Exclusive (cfg : Handlers ι) : Prop where
  once : (published requestId cfg.store).length ≤ 1
  agrees : Over cfg → ∀ t ∈ published requestId cfg.store,
    storedStatus requestId cfg.store = some (statusFor t)
  unlocked : Over cfg →
    (cfg.store.expired (lockKey requestId)).locks (lockKey requestId) = none

/-- A gate on which nothing has been published, and that is not locked. -/
structure Untouched (w : Store) : Prop where
  undecided : published requestId w = []
  unlocked : w.locks (lockKey requestId) = none

/-- A command whose failure does no harm: a lock is not set without an answer, nor left without
a time to live, and an event is not published without an answer, nor left without its status. -/
def Harmless : Cmd → Outcome Error → Prop
  | .setnx _, .lost _ | .expire _ _, .refused _ | .xadd _, .lost _ | .set _ _, .refused _ => False
  | _, _ => True

/-- A handler that is about to issue a command may be stopped. -/
def Stoppable : Cmd → Prop
  | .expire _ _ | .set _ _ => False
  | _ => True

/-- No failure or stop leaves a lock without its time to live or an event without its status,
and the lock of a pending gate does not expire while a handler that is running holds it. -/
def Spared (cfg : Handlers ι) : Action ι Error Unit → Prop
  | .run j o => ∀ c, cfg.next? j = some c → Harmless c o
  | .stop j => ∀ c, cfg.next? j = some c → Stoppable c
  | .env _ => storedStatus requestId cfg.store = some "PENDING" →
      ∀ j c, cfg.next? j = some c → c = .setnx (lockKey requestId)

end

/-! ## What a command does to the gate -/

section

variable {requestId : String} {w : Store}

theorem published_xadd (data : StreamEntry) :
    published requestId (serve (.xadd data) w).1
      = published requestId w ++ (decisionOf requestId data).toList := by
  cases h : decisionOf requestId data <;> simp [serve, published, h]

theorem stream_serve {c : Cmd} (h : ∀ data, c ≠ .xadd data) : (serve c w).1.stream = w.stream := by
  cases c with
  | xadd data => exact absurd rfl (h data)
  | setnx key => simp only [serve]; split <;> rfl
  | expire key seconds => simp only [serve]; split <;> rfl
  | _ => rfl

theorem published_serve {c : Cmd} (h : ∀ data, c ≠ .xadd data) :
    published requestId (serve c w).1 = published requestId w := by
  rw [published, stream_serve h, published]

theorem gates_serve {c : Cmd} (h : ∀ key data, c ≠ .set key data) :
    (serve c w).1.gates = w.gates := by
  cases c with
  | set key data => exact absurd rfl (h key data)
  | setnx key => simp only [serve]; split <;> rfl
  | expire key seconds => simp only [serve]; split <;> rfl
  | _ => rfl

theorem storedStatus_serve {c : Cmd} (h : ∀ key data, c ≠ .set key data) :
    storedStatus requestId (serve c w).1 = storedStatus requestId w := by
  rw [storedStatus, gates_serve h, storedStatus]

/-- The decision is read off the event that announces it. -/
theorem decisionOf_event {env : Env} {d : Decision} {gateStatus : GateData} {event : ASDLCEvent}
    (h : d.event requestId gateStatus = .ok event) :
    decisionOf requestId (event.prepared env).toStreamDict = some d.verdict.eventType := by
  unfold Decision.event at h
  obtain ⟨sessionId, -, hevent⟩ := bind_eq_ok.mp h
  cases hevent
  cases hv : d.verdict <;>
    simp [decisionOf, ASDLCEvent.toStreamDict, ASDLCEvent.prepared, Verdict.eventType,
      Option.filter]

theorem statusFor_eventType (v : Verdict) : statusFor v.eventType = v.status := by
  cases v <;> rfl

end

/-! ## The invariant -/

/-- Has the handler locked the gate, and not released it? -/
def Phase.inside : Phase → Bool
  | locking | closed _ => false
  | _ => true

section

variable (requestId : String)

/-- The handler inside a pending gate has the lock, and has published what it is about to
write. -/
def HasLock (d : Decision) (w : Store) : Phase → Prop
  | .guarding => w.locks (lockKey requestId) = some .persistent ∧ published requestId w = []
  | .writing _ => w.locks (lockKey requestId) ≠ none ∧
      published requestId w = [d.verdict.eventType]
  | .publishing gateStatus event => w.locks (lockKey requestId) ≠ none ∧
      published requestId w = [] ∧ d.event requestId gateStatus = .ok event
  | .reading | .abandoning _ | .releasing _ =>
    w.locks (lockKey requestId) ≠ none ∧ published requestId w = []
  | .locking | .givingUp _ | .closed _ => False

variable {ι : Type}

/-- A pending gate: no handler is inside, or one that has the lock. -/
def Held (calls : ι → Decision) (v : ι → Phase) (w : Store) : Prop :=
  (∀ i, (v i).inside = false) ∧ published requestId w = [] ∨
    ∃ j, (∀ i, i ≠ j → (v i).inside = false) ∧ HasLock requestId (calls j) w (v j)

/-- Is the handler about to publish or to write? -/
def Phase.deciding : Phase → Bool
  | publishing _ _ | writing _ => true
  | _ => false

/-- Any other gate: no handler publishes or writes, and what was published is stored. -/
structure Decided (v : ι → Phase) (w : Store) : Prop where
  idle : ∀ i, (v i).deciding = false
  agrees : published requestId w = [] ∨ ∃ verdict : Verdict,
    published requestId w = [verdict.eventType] ∧
      storedStatus requestId w = some verdict.status

/-- A lock without a time to live is about to get one. -/
def Attended (v : ι → Phase) (w : Store) : Prop :=
  w.locks (lockKey requestId) = some .persistent → ∃ j, v j = .guarding

/-- The invariant of the handlers, by what each does next. -/
structure Orderly (calls : ι → Decision) (v : ι → Phase) (w : Store) : Prop where
  pending : storedStatus requestId w = some "PENDING" → Held requestId calls v w
  decided : storedStatus requestId w ≠ some "PENDING" → Decided requestId v w
  attended : Attended requestId v w

end

section

variable {ι : Type} [DecidableEq ι] {requestId : String} {env : Env} {calls : ι → Decision}
  {v : ι → Phase} {w : Store} {j : ι}

/-- A handler that has the lock is inside. -/
theorem HasLock.inside {d : Decision} {p : Phase} (h : HasLock requestId d w p) :
    p.inside = true := by
  cases p <;> first | rfl | exact h.elim

theorem HasLock.locked {d : Decision} {p : Phase} (h : HasLock requestId d w p) :
    w.locks (lockKey requestId) ≠ none := by
  cases p with
  | guarding => simp [h.1]
  | reading => exact h.1
  | abandoning e => exact h.1
  | publishing gateStatus event => exact h.1
  | writing gateStatus => exact h.1
  | releasing result => exact h.1
  | locking => exact h.elim
  | givingUp e => exact h.elim
  | closed result => exact h.elim

/-- What the handler inside has published is its own decision. -/
theorem HasLock.once {d : Decision} {p : Phase} (h : HasLock requestId d w p) :
    (published requestId w).length ≤ 1 := by
  cases p with
  | guarding => simp [h.2]
  | reading => simp [h.2]
  | abandoning e => simp [h.2]
  | publishing gateStatus event => simp [h.2.1]
  | writing gateStatus => simp [h.2]
  | releasing result => simp [h.2]
  | locking => exact h.elim
  | givingUp e => exact h.elim
  | closed result => exact h.elim

/-- The one inside is the one that has the lock. -/
theorem Held.hasLock (h : Held requestId calls v w) (hj : (v j).inside = true) :
    (∀ i, i ≠ j → (v i).inside = false) ∧ HasLock requestId (calls j) w (v j) := by
  obtain ⟨hout, -⟩ | ⟨k, hothers, hlock⟩ := h
  · simp [hout j] at hj
  · by_cases hjk : j = k
    · exact hjk ▸ ⟨hothers, hlock⟩
    · simp [hothers j hjk] at hj

omit [DecidableEq ι] in
/-- Without a lock nobody is inside. -/
theorem Held.free (h : Held requestId calls v w) (hfree : w.locks (lockKey requestId) = none) :
    (∀ i, (v i).inside = false) ∧ published requestId w = [] := by
  obtain hout | ⟨k, -, hlock⟩ := h
  · exact hout
  · exact absurd hfree hlock.locked

/-- A handler that is outside and stays there changes nothing. -/
theorem Held.aside (h : Held requestId calls v w) (hj : (v j).inside = false) {p : Phase}
    (hp : p.inside = false) : Held requestId calls (Function.update v j p) w := by
  have hout : ∀ i, (v i).inside = false → (Function.update v j p i).inside = false := by
    intro i hi
    by_cases hij : i = j
    · simp [hij, hp]
    · simpa [hij] using hi
  obtain ⟨hall, hnone⟩ | ⟨k, hothers, hlock⟩ := h
  · exact .inl ⟨fun i => hout i (hall i), hnone⟩
  · have hkj : k ≠ j := by
      rintro rfl
      simp [hlock.inside] at hj
    exact .inr ⟨k, fun i hi => hout i (hothers i hi), by simpa [hkj] using hlock⟩

/-- The one inside moves on, in or out. -/
theorem held_update {w' : Store} (hothers : ∀ i, i ≠ j → (v i).inside = false) {p : Phase}
    (hp : HasLock requestId (calls j) w' p ∨ p.inside = false ∧ published requestId w' = []) :
    Held requestId calls (Function.update v j p) w' := by
  have hout : ∀ i, i ≠ j → (Function.update v j p i).inside = false := by
    intro i hi
    simpa [hi] using hothers i hi
  cases hp with
  | inl hlock => exact .inr ⟨j, hout, by simpa using hlock⟩
  | inr hleft =>
    refine .inl ⟨?_, hleft.2⟩
    intro i
    by_cases hi : i = j
    · simp [hi, hleft.1]
    · exact hout i hi

/-- A command that neither publishes nor writes leaves the gate as it is. -/
theorem published_perform {c : Cmd} (h : ∀ data, c ≠ .xadd data) (o : Outcome Error) :
    published requestId (serve.perform o c w).1 = published requestId w := by
  cases o with
  | refused e => rfl
  | _ => exact published_serve h

theorem storedStatus_perform {c : Cmd} (h : ∀ key data, c ≠ .set key data) (o : Outcome Error) :
    storedStatus requestId (serve.perform o c w).1 = storedStatus requestId w := by
  cases o with
  | refused e => rfl
  | _ => exact storedStatus_serve h

/-- The object of a gate that is pending. -/
theorem exists_of_pending (h : storedStatus requestId w = some "PENDING") :
    ∃ gateStatus, w.gates (gateKey requestId) = some gateStatus ∧
      gateStatus.statusOf = some "PENDING" :=
  Option.bind_eq_some_iff.mp h

variable (requestId env calls) in
/-- The phases after the next command of a handler. -/
def moved (v : ι → Phase) (w : Store) (j : ι) (o : Outcome Error) (c : Cmd) : ι → Phase :=
  Function.update v j ((v j).next requestId env (calls j) (serve.exchange o c w))

/-- A handler that asks for the lock of a pending gate gets it when nobody is inside. -/
theorem Held.locking (h : Held requestId calls v w) (hj : v j = .locking) {o : Outcome Error}
    (ho : Harmless (.setnx (lockKey requestId)) o) :
    Held requestId calls (moved requestId env calls v w j o (.setnx (lockKey requestId)))
      (serve.perform o (.setnx (lockKey requestId)) w).1 := by
  have hout : (v j).inside = false := by rw [hj]; rfl
  cases o with
  | lost e => exact ho.elim
  | refused e =>
    rw [moved, hj]
    exact h.aside hout rfl
  | ok =>
    rw [moved, hj]
    cases hlock : w.locks (lockKey requestId) with
    | some lock =>
      have hperform : serve.perform (.ok : Outcome Error) (.setnx (lockKey requestId)) w
          = (w, .ok false) := by simp [serve, hlock]
      simp only [Server.exchange, hperform]
      exact h.aside hout rfl
    | none =>
      obtain ⟨hall, hnone⟩ := h.free hlock
      have hperform : serve.perform (.ok : Outcome Error) (.setnx (lockKey requestId)) w
          = ({ w with locks := Function.update w.locks (lockKey requestId) (some .persistent) },
              .ok true) := by simp [serve, hlock]
      simp only [Server.exchange, hperform]
      apply held_update fun i _ => hall i
      exact .inl ⟨by simp, hnone⟩

/-- What the handler inside a pending gate does with a command that is not the write of its
status. -/
theorem HasLock.move {d : Decision} {p : Phase} (h : HasLock requestId d w p)
    (hpending : storedStatus requestId w = some "PENDING") {o : Outcome Error} {c : Cmd}
    (hc : p.command requestId env d = some c) (ho : Harmless c o)
    (hset : ∀ key data, c ≠ .set key data) :
    HasLock requestId d (serve.perform o c w).1
        (p.next requestId env d (serve.exchange o c w)) ∨
      (p.next requestId env d (serve.exchange o c w)).inside = false ∧
        published requestId (serve.perform o c w).1 = [] := by
  cases p with
  | locking => exact h.elim
  | givingUp e => exact h.elim
  | closed result => exact h.elim
  | guarding =>
    cases hc
    obtain ⟨hlock, hnone⟩ := h
    have hsame : published requestId (serve (.expire (lockKey requestId) lockTtl) w).1 = [] :=
      (published_serve (by simp)).trans hnone
    cases o with
    | refused e => exact ho.elim
    | ok => exact .inl ⟨by simp [serve, hlock], hsame⟩
    | lost e => exact .inr ⟨rfl, hsame⟩
  | reading =>
    cases hc
    obtain ⟨hlock, hnone⟩ := h
    have hfailed : ∀ e, HasLock requestId d w (Phase.failed e) ∨
        (Phase.failed e).inside = false ∧ published requestId w = [] := by
      intro e
      unfold Phase.failed
      split
      · exact .inr ⟨rfl, hnone⟩
      · exact .inl ⟨hlock, hnone⟩
    cases o with
    | refused e => exact hfailed e
    | lost e => exact hfailed e
    | ok =>
      obtain ⟨gateStatus, hgate, hstatus⟩ := exists_of_pending hpending
      left
      simp only [Server.exchange, Server.perform_ok, serve, hgate, Phase.next, Phase.checked,
        hstatus, if_true, Phase.found]
      cases hevent : d.event requestId gateStatus with
      | error e => exact ⟨hlock, hnone⟩
      | ok event => exact ⟨hlock, hnone, hevent⟩
  | abandoning e =>
    cases hc
    right
    refine ⟨?_, (published_perform (by simp) o).trans h.2⟩
    cases o <;> rfl
  | releasing result =>
    cases hc
    right
    refine ⟨?_, (published_perform (by simp) o).trans h.2⟩
    cases o <;> rfl
  | publishing gateStatus event =>
    cases hc
    obtain ⟨hlock, hnone, hevent⟩ := h
    left
    cases o with
    | lost e => exact ho.elim
    | refused e => exact ⟨hlock, hnone⟩
    | ok =>
      refine ⟨hlock, ?_⟩
      rw [Server.perform_ok, published_xadd, hnone, decisionOf_event hevent]
      rfl
  | writing gateStatus =>
    cases hc
    exact absurd rfl (hset _ _)

variable (env) in
/-- The one inside writes its decision. -/
theorem Held.writing (h : Held requestId calls v w) {gateStatus : GateData}
    (hj : v j = .writing gateStatus) {o : Outcome Error}
    (ho : Harmless (.set (gateKey requestId) ((calls j).decided gateStatus)) o) :
    let c := Cmd.set (gateKey requestId) ((calls j).decided gateStatus)
    storedStatus requestId (serve.perform o c w).1 = some (calls j).verdict.status ∧
      Decided requestId (moved requestId env calls v w j o c) (serve.perform o c w).1 := by
  obtain ⟨hothers, hlock⟩ := h.hasLock (j := j) (by rw [hj]; rfl)
  rw [hj] at hlock
  have hstored : ∀ o : Outcome Error, o.effective = true → storedStatus requestId
      (serve.perform o (.set (gateKey requestId) ((calls j).decided gateStatus)) w).1
        = some (calls j).verdict.status := by
    intro o ho
    rw [Server.perform_state, if_pos ho]
    simp [serve, storedStatus, Decision.decided, GateData.statusOf]
  have heffective : o.effective = true := by
    cases o with
    | refused e => exact ho.elim
    | _ => rfl
  refine ⟨hstored o heffective, ?_, .inr ⟨(calls j).verdict, ?_, hstored o heffective⟩⟩
  · intro i
    by_cases hi : i = j
    · subst hi
      rw [moved, hj, Function.update_self]
      cases o <;> rfl
    · have hout := hothers i hi
      rw [moved, Function.update_of_ne hi]
      cases hp : v i with
      | publishing gateStatus event => rw [hp] at hout; cases hout
      | writing gateStatus => rw [hp] at hout; cases hout
      | _ => rfl
  · exact (published_perform (by simp) o).trans hlock.2

theorem deciding_failed (e : Error) : (Phase.failed e).deciding = false := by
  unfold Phase.failed
  split <;> rfl

/-- Nobody goes on to decide a gate that is not pending. -/
theorem deciding_next {d : Decision} {p : Phase} (hp : p.deciding = false)
    (hpending : storedStatus requestId w ≠ some "PENDING") {c : Cmd}
    (hc : p.command requestId env d = some c) (o : Outcome Error) :
    (p.next requestId env d (serve.exchange o c w)).deciding = false := by
  cases p with
  | locking =>
    cases hc
    cases o with
    | ok => cases hlock : w.locks (lockKey requestId) <;> simp [serve, hlock] <;> rfl
    | _ => rfl
  | reading =>
    cases hc
    cases o with
    | ok =>
      simp only [Server.exchange, Server.perform_ok, serve, Phase.next]
      cases hgate : w.gates (gateKey requestId) with
      | none => rfl
      | some gateStatus =>
        have hstatus : gateStatus.statusOf ≠ some "PENDING" := by
          simpa [storedStatus, hgate] using hpending
        rw [Phase.checked, if_neg hstatus]
        rfl
    | _ => exact deciding_failed _
  | givingUp e =>
    cases hc
    cases o <;> exact deciding_failed _
  | publishing gateStatus event => cases hp
  | writing gateStatus => cases hp
  | closed result => cases hc
  | _ =>
    cases hc
    cases o <;> rfl

/-- Once a gate is pending no more, nobody decides it. -/
theorem Decided.run (h : Decided requestId v w) (hpending : storedStatus requestId w ≠ some "PENDING")
    {c : Cmd} (hc : (v j).command requestId env (calls j) = some c) (o : Outcome Error) :
    storedStatus requestId (serve.perform o c w).1 = storedStatus requestId w ∧
      Decided requestId (moved requestId env calls v w j o c) (serve.perform o c w).1 := by
  have hidle := h.idle j
  have hset : ∀ key data, c ≠ .set key data := by
    rintro key data rfl
    cases hp : v j <;> rw [hp] at hc hidle <;> cases hc
    cases hidle
  have hxadd : ∀ data, c ≠ .xadd data := by
    rintro data rfl
    cases hp : v j <;> rw [hp] at hc hidle <;> cases hc
    cases hidle
  refine ⟨storedStatus_perform hset o, ?_, ?_⟩
  · intro i
    by_cases hi : i = j
    · subst hi
      rw [moved, Function.update_self]
      exact deciding_next hidle hpending hc o
    · rw [moved, Function.update_of_ne hi]
      exact h.idle i
  · rw [published_perform hxadd, storedStatus_perform hset]
    exact h.agrees

/-- A lock without a time to live is attended to, whoever moves. -/
theorem Attended.run (h : Attended requestId v w) {c : Cmd}
    (hc : (v j).command requestId env (calls j) = some c) {o : Outcome Error} (ho : Harmless c o) :
    Attended requestId (moved requestId env calls v w j o c) (serve.perform o c w).1 := by
  intro hlock
  have hkept : v j ≠ .guarding → w.locks (lockKey requestId) = some .persistent →
      ∃ i, moved requestId env calls v w j o c i = .guarding := by
    intro hj hbefore
    obtain ⟨i, hi⟩ := h hbefore
    have hij : i ≠ j := by
      rintro rfl
      exact hj hi
    exact ⟨i, by rw [moved, Function.update_of_ne hij, hi]⟩
  cases hp : v j with
  | locking =>
    have hj : v j ≠ .guarding := by simp [hp]
    rw [hp] at hc
    cases hc
    cases o with
    | lost e => exact ho.elim
    | refused e => exact hkept hj hlock
    | ok =>
      cases hfree : w.locks (lockKey requestId) with
      | none => exact ⟨j, by rw [moved, hp, Function.update_self]; simp [serve, hfree, Phase.next]⟩
      | some lock => exact hkept hj (by simpa [serve, hfree] using hlock)
  | guarding =>
    rw [hp] at hc
    cases hc
    cases o with
    | refused e => exact ho.elim
    | _ => cases hfree : w.locks (lockKey requestId) <;> simp [serve, hfree] at hlock
  | closed result =>
    rw [hp] at hc
    cases hc
  | reading =>
    rw [hp] at hc
    cases hc
    apply hkept (by simp [hp])
    cases o <;> exact hlock
  | publishing gateStatus event =>
    rw [hp] at hc
    cases hc
    apply hkept (by simp [hp])
    cases o <;> exact hlock
  | writing gateStatus =>
    rw [hp] at hc
    cases hc
    apply hkept (by simp [hp])
    cases o <;> exact hlock
  | _ =>
    rw [hp] at hc
    cases hc
    apply hkept (by simp [hp])
    cases o with
    | refused e => exact hlock
    | _ => simp [serve] at hlock

/-- **What the next command of a handler does.** -/
theorem Orderly.run (h : Orderly requestId calls v w) {c : Cmd}
    (hc : (v j).command requestId env (calls j) = some c) {o : Outcome Error} (ho : Harmless c o) :
    Orderly requestId calls (moved requestId env calls v w j o c) (serve.perform o c w).1 := by
  by_cases hpending : storedStatus requestId w = some "PENDING"
  · have hheld := h.pending hpending
    by_cases hwriting : ∃ gateStatus, v j = .writing gateStatus
    · obtain ⟨gateStatus, hj⟩ := hwriting
      have hc' := hc
      rw [hj] at hc'
      cases hc'
      obtain ⟨hstored, hdecided⟩ := hheld.writing env hj ho
      refine ⟨?_, fun _ => hdecided, h.attended.run hc ho⟩
      intro hagain
      rw [hstored] at hagain
      exact absurd (Option.some.inj hagain) (Verdict.status_ne_pending _)
    · have hset : ∀ key data, c ≠ .set key data := by
        rintro key data rfl
        cases hp : v j <;> rw [hp] at hc <;> cases hc
        exact hwriting ⟨_, hp⟩
      have hsame : storedStatus requestId (serve.perform o c w).1 = storedStatus requestId w :=
        storedStatus_perform hset o
      refine ⟨fun _ => ?_, fun hnot => absurd (hsame.trans hpending) hnot, h.attended.run hc ho⟩
      cases hinside : (v j).inside with
      | true =>
        obtain ⟨hothers, hlock⟩ := hheld.hasLock hinside
        exact held_update hothers (hlock.move hpending hc ho hset)
      | false =>
        cases hp : v j with
        | locking =>
          rw [hp] at hc
          cases hc
          exact hheld.locking hp ho
        | closed result => rw [hp] at hc; cases hc
        | _ => rw [hp] at hinside; cases hinside
  · obtain ⟨hsame, hdecided⟩ := (h.decided hpending).run hpending hc o
    refine ⟨?_, fun _ => hdecided, h.attended.run hc ho⟩
    intro hnow
    exact absurd (hsame ▸ hnow) hpending

/-- A handler that is stopped does nothing more. -/
theorem Orderly.stop (h : Orderly requestId calls v w)
    (hj : ∀ c, (v j).command requestId env (calls j) = some c → Stoppable c)
    (result : Except Error Bool) :
    Orderly requestId calls (Function.update v j (.closed result)) w where
  pending hpending := by
    have hheld := h.pending hpending
    cases hinside : (v j).inside with
    | false => exact hheld.aside hinside rfl
    | true =>
      obtain ⟨hothers, hlock⟩ := hheld.hasLock hinside
      apply held_update hothers
      refine .inr ⟨rfl, ?_⟩
      cases hp : v j with
      | writing gateStatus => exact (hj (.set _ _) (by rw [hp]; rfl)).elim
      | guarding => rw [hp] at hlock; exact hlock.2
      | reading => rw [hp] at hlock; exact hlock.2
      | abandoning e => rw [hp] at hlock; exact hlock.2
      | releasing r => rw [hp] at hlock; exact hlock.2
      | publishing gateStatus event => rw [hp] at hlock; exact hlock.2.1
      | _ => rw [hp] at hlock; exact hlock.elim
  decided hpending := by
    have hdecided := h.decided hpending
    refine ⟨?_, hdecided.agrees⟩
    intro i
    by_cases hi : i = j
    · simp [hi, Phase.deciding]
    · simpa [hi] using hdecided.idle i
  attended hlock := by
    obtain ⟨i, hi⟩ := h.attended hlock
    have hij : i ≠ j := by
      rintro rfl
      exact (hj (.expire _ _) (by rw [hi]; rfl)).elim
    exact ⟨i, by simpa [hij] using hi⟩

variable (env) in
omit [DecidableEq ι] in
/-- The lock expires. -/
theorem Orderly.expire (h : Orderly requestId calls v w)
    (hfree : storedStatus requestId w = some "PENDING" →
      ∀ j c, (v j).command requestId env (calls j) = some c → c = .setnx (lockKey requestId)) :
    Orderly requestId calls v (w.expired (lockKey requestId)) := by
  unfold Store.expired
  split
  · refine ⟨fun hpending => ?_, fun hpending => ?_, fun hlock => by simp at hlock⟩
    · have hout : ∀ i, (v i).inside = false := by
        intro i
        cases hp : v i with
        | locking => rfl
        | closed result => rfl
        | _ => cases hfree hpending i _ (by rw [hp]; rfl)
      obtain ⟨-, hnone⟩ | ⟨j, -, hlock⟩ := h.pending hpending
      · exact .inl ⟨hout, hnone⟩
      · have hin := hlock.inside
        rw [hout j] at hin
        cases hin
    · exact ⟨(h.decided hpending).idle, (h.decided hpending).agrees⟩
  · exact h

/-! ## Runs -/

variable {config : SlackBridgeConfig} {cfg : Handlers ι}

variable (requestId env config calls) in
/-- The phases of the handlers; one that was stopped does nothing more. -/
def phases (cfg : Handlers ι) (j : ι) : Phase :=
  if cfg.stopped j then .closed (.ok false)
  else cfg.positions (fun j => decider requestId env (calls j))
    (fun j => Phase.start config (calls j)) j

variable (requestId env config calls) in
/-- The handlers are where their phases say, and orderly. -/
structure Sound (cfg : Handlers ι) : Prop where
  follows : ∀ j, cfg.Follows (decider requestId env (calls j)) (Phase.start config (calls j)) j
  orderly : Orderly requestId calls (phases requestId env calls config cfg) cfg.store

omit [DecidableEq ι] in
/-- What a handler issues next is the command of its phase. -/
theorem Sound.next? (h : Sound requestId env calls config cfg) (j : ι) :
    cfg.next? j = (phases requestId env calls config cfg j).command requestId env (calls j) := by
  unfold Config.next? phases
  split
  · rfl
  · rw [h.follows j]
    exact Phase.head?_program requestId env (calls j) _

omit [DecidableEq ι] in
theorem sound_begin (h : Untouched requestId w) :
    Sound requestId env calls config (begin env config requestId calls w) where
  follows j := Config.follows_start (decider requestId env (calls j)) w
    (Phase.program_start requestId env (calls j) config).symm
  orderly := by
    have hstart : ∀ j, phases requestId env calls config (begin env config requestId calls w) j
        = Phase.start config (calls j) := fun _ => rfl
    have hout : ∀ j, (Phase.start config (calls j)).inside = false ∧
        (Phase.start config (calls j)).deciding = false := by
      intro j
      unfold Phase.start
      split <;> exact ⟨rfl, rfl⟩
    refine ⟨fun _ => .inl ⟨fun i => ?_, h.undecided⟩, fun _ => ⟨fun i => ?_, .inl h.undecided⟩, ?_⟩
    · rw [hstart]
      exact (hout i).1
    · rw [hstart]
      exact (hout i).2
    · intro hlock
      rw [show (begin env config requestId calls w).store = w from rfl, h.unlocked] at hlock
      cases hlock

/-- **The step lemma.**  A step that spares the handlers leaves them orderly. -/
theorem Sound.step (h : Sound requestId env calls config cfg) {a : Action ι Error Unit}
    (ha : Spared requestId cfg a) :
    Sound requestId env calls config (Slack.step requestId cfg a) := by
  refine ⟨fun j => (h.follows j).step _ _ a, ?_⟩
  obtain ⟨j, o, c, rfl, hrunning, hc, hstore, hstopped, hphases⟩ | ⟨j, o, rfl, he⟩ |
    ⟨j, rfl, hstore, hstopped, hphases⟩ | ⟨e, rfl, hstore, hstopped, hphases⟩ :=
    Config.step_positions h.follows serve (fun _ w => w.expired (lockKey requestId)) a
  · have hj : phases requestId env calls config cfg j
        = cfg.positions (fun j => decider requestId env (calls j))
            (fun j => Phase.start config (calls j)) j := by
      rw [phases, if_neg (by simp [hrunning])]
    have hcommand : (phases requestId env calls config cfg j).command requestId env (calls j)
        = some c := by
      rw [hj, ← Phase.head?_program]
      exact hc
    have hnext := h.orderly.run hcommand (ha c ((h.next? j).trans hcommand))
    rw [hstore]
    convert hnext using 1
    funext i
    unfold moved
    by_cases hi : i = j
    · subst hi
      rw [Function.update_self, phases, hstopped, if_neg (by simp [hrunning]), hphases,
        Function.update_self, hj]
      rfl
    · rw [Function.update_of_ne hi, phases, phases, hstopped, hphases, Function.update_of_ne hi]
  · have he' : Slack.step requestId cfg (.run j o) = cfg := he
    rw [he']
    exact h.orderly
  · have hstop := h.orderly.stop (j := j) (fun c hc => ha c ((h.next? j).trans hc)) (.ok false)
    rw [hstore]
    convert hstop using 1
    funext i
    by_cases hi : i = j
    · subst hi
      rw [Function.update_self, phases, hstopped, if_pos (by simp)]
    · rw [Function.update_of_ne hi, phases, phases, hstopped, hphases, Function.update_of_ne hi]
  · have hexpire := h.orderly.expire env fun hpending j c hc =>
      ha hpending j c ((h.next? j).trans hc)
    rw [hstore]
    convert hexpire using 1
    funext i
    rw [phases, phases, hstopped, hphases]

omit [DecidableEq ι] in
/-- Handlers that are orderly exclude each other. -/
theorem Sound.exclusive (h : Sound requestId env calls config cfg) : Exclusive requestId cfg := by
  have hover : Over cfg → ∀ j, (phases requestId env calls config cfg j).inside = false := by
    intro hover j
    have hnone := (h.next? j).symm.trans (hover j)
    cases hp : phases requestId env calls config cfg j with
    | locking => rfl
    | closed result => rfl
    | _ => rw [hp] at hnone; cases hnone
  refine ⟨?_, ?_, ?_⟩
  · by_cases hpending : storedStatus requestId cfg.store = some "PENDING"
    · obtain ⟨-, hnone⟩ | ⟨j, -, hlock⟩ := h.orderly.pending hpending
      · simp [hnone]
      · exact hlock.once
    · obtain hnone | ⟨verdict, hone, -⟩ := (h.orderly.decided hpending).agrees
      · simp [hnone]
      · simp [hone]
  · intro hdone t ht
    by_cases hpending : storedStatus requestId cfg.store = some "PENDING"
    · obtain ⟨-, hnone⟩ | ⟨j, -, hlock⟩ := h.orderly.pending hpending
      · simp [hnone] at ht
      · have hin := hlock.inside
        rw [hover hdone j] at hin
        cases hin
    · obtain hnone | ⟨verdict, hone, hstored⟩ := (h.orderly.decided hpending).agrees
      · simp [hnone] at ht
      · rw [hone, List.mem_singleton] at ht
        rw [hstored, ht, statusFor_eventType]
  · intro hdone
    unfold Store.expired
    split
    · simp
    · next hvolatile =>
      cases hlock : cfg.store.locks (lockKey requestId) with
      | none => rfl
      | some lock =>
        cases lock with
        | volatile => exact absurd hlock hvolatile
        | persistent =>
          obtain ⟨j, hj⟩ := h.orderly.attended hlock
          have hout := hover hdone j
          rw [hj] at hout
          cases hout

/-- **Exclusion over runs.**  However the handlers of a gate are interleaved: if no failure or
stop leaves a lock without its time to live or an event without its status, and the lock never
expires under a handler that is inside, every state reached is exclusive. -/
theorem exclusive_of_spared (env : Env) (config : SlackBridgeConfig) (requestId : String)
    (calls : ι → Decision) (w : Store) (hw : Untouched requestId w)
    (as : List (Action ι Error Unit))
    (has : Each (step requestId) (Spared requestId) (begin env config requestId calls w) as) :
    Along (step requestId) (Exclusive requestId) (fun _ _ _ => True)
      (begin env config requestId calls w) as :=
  along_of_each (I := Sound requestId env calls config) (fun _ _ h ha => h.step ha)
    (fun _ h => h.exclusive) (fun _ _ _ _ => trivial) (sound_begin hw) has

omit [DecidableEq ι] in
theorem harmless_ok (c : Cmd) : Harmless c .ok := by
  cases c <;> trivial

end

/-- The reviewers' channel, with one reviewer. -/
def reviewers : ChannelConfig := ⟨"C1", "reviewer"⟩

/-- A configuration that routes reviews of code to it. -/
def reviewing : SlackBridgeConfig where
  routingPolicy := (∅ : Dict ChannelConfig).insert "hitl_4_code" reviewers
  rbacMap := (∅ : Dict (List String)).insert "U1" ["reviewer"]

/-- A gate that is pending. -/
def pendingGate : GateData
  | .status => some (some "PENDING")
  | .sessionId => some (some "s")
  | _ => none

/-- Nothing but the gate. -/
def oneGate : Store where
  gates := Function.update (fun _ => none) (gateKey "r") (some pendingGate)
  locks := fun _ => none
  stream := []

/-- An approval and a rejection. -/
def contrary : Fin 2 → Decision
  | 0 => approval 0 "d0" "U1" reviewers
  | 1 => rejection 0 "d1" "U1" "tests fail" reviewers

/-- Commands that are all answered. -/
def answered {ι : Type} (turns : List ι) : List (Action ι Error Unit) := turns.map fun j => .run j .ok

/-- The two in turns, the second while the first is inside. -/
theorem contrary_exclusive : Along (step "r") (Exclusive "r") (fun _ _ _ => True)
    (begin plainEnv reviewing "r" contrary oneGate) (answered [0, 0, 1, 0, 0, 0, 0]) := by
  apply exclusive_of_spared plainEnv reviewing "r" contrary oneGate ⟨rfl, rfl⟩
  simp only [answered, List.map_cons, List.map_nil, each_cons, each_nil]
  exact ⟨fun c _ => harmless_ok c, fun c _ => harmless_ok c, fun c _ => harmless_ok c,
    fun c _ => harmless_ok c, fun c _ => harmless_ok c, fun c _ => harmless_ok c,
    fun c _ => harmless_ok c, trivial⟩

/-- The lock expires under the approval, and the gate is rejected before it goes on. -/
def expiredLock : List (Action (Fin 2) Error Unit) :=
  answered [0, 0, 0] ++ [.env ()] ++ answered [1, 1, 1, 1, 1, 1, 0, 0, 0]

/-- An approval that is stopped after some commands. -/
def stoppedAfter (n : ℕ) : List (Action Unit Error Unit) :=
  answered (List.replicate n ()) ++ [.stop ()]

/-- A lock that expires too early lets a gate be rejected and approved; a handler that is
stopped before it has given the lock its time to live locks the gate for ever, and one that is
stopped before it has written the status leaves an approved gate pending. -/
theorem rejected_and_approved :
    (¬ Along (step "r") (Exclusive "r") (fun _ _ _ => True)
      (begin plainEnv reviewing "r" contrary oneGate) expiredLock) ∧
    (¬ Along (step "r") (Exclusive "r") (fun _ _ _ => True)
      (begin plainEnv reviewing "r" (fun _ : Unit => contrary 0) oneGate) (stoppedAfter 1)) ∧
    ¬ Along (step "r") (Exclusive "r") (fun _ _ _ => True)
      (begin plainEnv reviewing "r" (fun _ : Unit => contrary 0) oneGate) (stoppedAfter 4) := by
  refine ⟨fun h => ?_, fun h => ?_, fun h => ?_⟩
  · exact absurd h.last.once (by decide)
  · exact absurd (h.last.unlocked fun _ => rfl) (by decide)
  · exact absurd (h.last.agrees (fun _ => rfl) .gateApproved (by decide))
      (by decide)

end DoxAsdlc.Slack
