import DoxAsdlc.Workers.Dispatch

/-!
# One result for each entry

The same pool, and the results it publishes.  A delivery that has claimed the key of
its entry owes a result until one has been published.  What has been published and
what is owed for an entry together are its credit; a step changes it only by claiming
the key, as long as the error that is published after a fault replaces a result that
was not published.

## Main definitions

* `PublishesOnce` — the condition on a step.
* `publications`, `owed` — the results published and owed for an entry.
* `DeliveryInv` — the invariant.
* `PublishedOnce` — the law.
-/

namespace DoxAsdlc

open Interaction Interaction.Program Async

/-! ## Results published and owed -/

/-- The entries that announce a result. -/
def isResult (data : StreamEntry) : Bool :=
  data .eventType == some .agentCompleted || data .eventType == some .agentError

/-- The exchange published a result. -/
def publishes (x : Exchange interface Error) : Bool :=
  x.effective && match x.cmd with
    | .xadd data => isResult data
    | _ => false

/-- A delivery in this phase owes a result: it has claimed its key, and nothing has been
published. -/
def Phase.owes : Phase → Bool
  | .taken _ | .ran _ _ => true
  | .failed _ _ cause => cause == .dispatch || cause == .publication false
  | _ => false

/-- A delivery in this phase takes its entry with the next command. -/
def Phase.takes (env : Env) (w : Store) : Phase → Outcome Error → Bool
  | .received event, .ok => (w.marks (markKey env (eventIdempotencyKey env event))).isNone
  | _, _ => false

section

variable {ι : Type} [DecidableEq ι] [Fintype ι]

/-- A quantity of the history of a delivery of entry `i`. -/
def ofEntry (jobs : ι → Job) (i : ℕ) (f : Receipt → List (Exchange interface Error) → ℕ) (j : ι)
    (h : List (Exchange interface Error)) : ℕ :=
  match jobs j with
  | .deliver r => if r.entry = i then f r h else 0
  | _ => 0

/-- How many results have been published for entry `i`. -/
def publications (jobs : ι → Job) (i : ℕ) (cfg : Pool ι) : ℕ :=
  cfg.tally (ofEntry jobs i fun _ h => h.countP publishes)

/-- How many are owed. -/
def owed (env : Env) (jobs : ι → Job) (i : ℕ) (cfg : Pool ι) : ℕ :=
  cfg.tally (ofEntry jobs i fun r h => ((worker env r).after .claiming h).owes.toNat)

/-- The step loses no result and publishes none twice: besides what `HandsOver` asks, an
error is published exactly if a result is owed, a worker that owes one is not stopped,
and a key expires when its entry is not active any more. -/
def PublishesOnce (env : Env) (jobs : ι → Job) (cfg : Pool ι) (a : PoolAction ι) : Prop :=
  HandsOver env jobs cfg a ∧ match a with
    | .run j o => ∀ r event e cause, jobs j = .deliver r → cfg.stopped j = false →
        phaseOf env cfg r j = .failed event e cause →
        o.effective = (Phase.failed event e cause).owes
    | .stop j => ∀ r, jobs j = .deliver r → (phaseOf env cfg r j).owes = false
    | .env (.expire name) => ∀ i key, startedAt env cfg.store i = some key →
        name = markKey env key → cfg.store.marks name = some (some i) → ¬ Active jobs cfg i
    | _ => True

/-- No more than one result is published for an entry, and when no delivery of it is under
way there is one, or none and the entry is pending and will be executed again. -/
def PublishedOnce (env : Env) (jobs : ι → Job) (cfg : Pool ι) : Prop :=
  ∀ i, startedAt env cfg.store i ≠ none → publications jobs i cfg ≤ 1 ∧
    ((∀ j, ¬ UnderWay jobs cfg j i) → publications jobs i cfg = 1 ∨
      publications jobs i cfg = 0 ∧ cfg.store.acked .workers i = false ∧
        Redeliverable env cfg.store i)

end

/-! ## One exchange -/

section

variable {env : Env} {r : Receipt} {p : Phase} {w : Store} {c : Cmd} {o : Outcome Error}

@[simp] theorem isResult_resultEvent (now : Time) (event : ASDLCEvent) (result : AgentResult) :
    isResult (resultEvent now event result).toStreamDict = true := by
  cases h : result.success <;> simp [isResult, resultEvent, ASDLCEvent.toStreamDict, h]

@[simp] theorem isResult_errorEvent (now : Time) (event : ASDLCEvent) (message : String) :
    isResult (errorEvent now event message).toStreamDict = true := rfl

/-- A delivery that owes a result has something to do. -/
theorem owes_command (h : p.owes = true) : ∃ c, p.command env r = some c := by
  cases p with
  | closed result => cases h
  | _ => exact ⟨_, rfl⟩

theorem receive_owes (data : Option StreamEntry) : (Phase.receive r data).owes = false := by
  cases data with
  | none => rfl
  | some data =>
    cases hread : ASDLCEvent.fromStreamDict r.now r.entry data with
    | error e => simp [Phase.receive, hread, Phase.owes]
    | ok event =>
      simp only [Phase.receive, hread]
      split
      · rfl
      · split <;> rfl

/-- **Credit.**  What an exchange publishes and what is owed after it is what was owed
before, except when the key is claimed. -/
theorem credit_next (hc : p.command env r = some c)
    (ho : ∀ event e cause, p = .failed event e cause → o.effective = p.owes) :
    (publishes ((Store.serve env).exchange o c w)).toNat
        + (p.next env r ((Store.serve env).exchange o c w)).owes.toNat
      = p.owes.toNat + (p.takes env w o).toNat := by
  cases p with
  | closed result => cases hc
  | claiming =>
    cases hc
    cases o with
    | refused e => rfl
    | lost e => rfl
    | ok =>
      change 0 + (Phase.receive r _).owes.toNat = 0
      rw [receive_owes]
      rfl
  | received event =>
    cases hc
    cases o with
    | refused e => rfl
    | lost e => rfl
    | ok =>
      cases hm : w.marks (markKey env (eventIdempotencyKey env event)) <;>
        simp [Store.serve, hm, publishes, Phase.next, Phase.owes, Phase.takes]
  | taken event => cases hc; cases o <;> rfl
  | ran event result =>
    cases hc
    cases o <;> simp [Phase.next, Phase.owes, Phase.takes, publishes, Server.exchange,
      Outcome.effective]
  | failed event e cause =>
    cases hc
    have heff := ho event e cause rfl
    rw [← heff]
    cases o <;> rfl
  | duplicate event => cases hc; cases o <;> rfl
  | announced event => cases hc; cases o <;> rfl
  | reported event => cases hc; cases o <;> rfl
  | skipped event => cases hc; cases o <;> rfl

end

/-! ## The credit of an entry -/

section

variable {ι : Type} [DecidableEq ι] [Fintype ι] {env : Env} {jobs : ι → Job} {cfg : Pool ι}
  {a : PoolAction ι} {i : ℕ}

/-- What has been published and what is owed for an entry. -/
def credit (env : Env) (jobs : ι → Job) (i : ℕ) (cfg : Pool ι) : ℕ :=
  publications jobs i cfg + owed env jobs i cfg

omit [DecidableEq ι] [Fintype ι] in
theorem ofEntry_deliver {j : ι} {r : Receipt} (hj : jobs j = .deliver r)
    (f : Receipt → List (Exchange interface Error) → ℕ) (h : List (Exchange interface Error)) :
    ofEntry jobs i f j h = if r.entry = i then f r h else 0 := by
  rw [ofEntry, hj]

omit [DecidableEq ι] [Fintype ι] in
theorem ofEntry_of_ne {j : ι} (hj : ∀ r, jobs j ≠ .deliver r)
    (f : Receipt → List (Exchange interface Error) → ℕ) (h : List (Exchange interface Error)) :
    ofEntry jobs i f j h = 0 := by
  cases hjob : jobs j with
  | deliver r => exact absurd hjob (hj r)
  | manage now event => rw [ofEntry, hjob]
  | assign now task agentType mode => rw [ofEntry, hjob]

/-- A delivery of another entry does not count. -/
theorem credit_exchange_ne {j : ι} {o : Outcome Error} {c : Cmd}
    {k : Except Error (Reply c) → Async Unit} (hj : ∀ r, jobs j = .deliver r → r.entry ≠ i) :
    credit env jobs i (cfg.exchange (Store.serve env) j o c k) = credit env jobs i cfg := by
  have hzero (f : Receipt → List (Exchange interface Error) → ℕ)
      (h : List (Exchange interface Error)) : ofEntry jobs i f j h = 0 := by
    by_cases hjob : ∃ r, jobs j = .deliver r
    · obtain ⟨r, hjob⟩ := hjob
      rw [ofEntry_deliver hjob, if_neg (hj r hjob)]
    · exact ofEntry_of_ne (fun r hr => hjob ⟨r, hr⟩) f h
  have hpublished := Config.tally_exchange (ofEntry jobs i fun _ h => h.countP publishes)
    (Store.serve env) cfg j o c k
  have howed := Config.tally_exchange
    (ofEntry jobs i fun r h => ((worker env r).after .claiming h).owes.toNat)
    (Store.serve env) cfg j o c k
  rw [hzero, hzero, Nat.zero_add, Nat.zero_add] at hpublished howed
  rw [credit, credit, publications, owed, hpublished, howed]
  rfl

/-- A delivery of the entry changes its credit by taking it. -/
theorem credit_exchange {j : ι} {r : Receipt} {o : Outcome Error} {c : Cmd}
    {k : Except Error (Reply c) → Async Unit} (hj : jobs j = .deliver r) (hi : r.entry = i)
    (hc : (phaseOf env cfg r j).command env r = some c)
    (ho : ∀ event e cause, phaseOf env cfg r j = .failed event e cause →
      o.effective = (phaseOf env cfg r j).owes) :
    credit env jobs i (cfg.exchange (Store.serve env) j o c k)
      = credit env jobs i cfg + ((phaseOf env cfg r j).takes env cfg.store o).toNat := by
  have hnext := credit_next (w := cfg.store) hc ho
  have hpublished := Config.tally_exchange (ofEntry jobs i fun _ h => h.countP publishes)
    (Store.serve env) cfg j o c k
  have howed := Config.tally_exchange
    (ofEntry jobs i fun r h => ((worker env r).after .claiming h).owes.toNat)
    (Store.serve env) cfg j o c k
  rw [ofEntry_deliver hj, ofEntry_deliver hj, if_pos hi, if_pos hi] at hpublished howed
  rw [List.countP_append, List.countP_singleton] at hpublished
  rw [Tracker.after_snoc] at howed
  change (phaseOf env cfg r j).owes.toNat + _
    = ((phaseOf env cfg r j).next env r _).owes.toNat + _ at howed
  rw [credit, credit, publications, owed, publications, owed]
  cases hp : publishes ((Store.serve env).exchange o c cfg.store) with
  | false =>
    simp only [hp, Bool.toNat_false, Bool.false_eq_true, if_false] at hnext hpublished
    omega
  | true =>
    simp only [hp, Bool.toNat_true, if_true] at hnext hpublished
    omega

omit [DecidableEq ι] [Fintype ι] in
/-- A delivery that takes its entry. -/
theorem takes_iff {j : ι} {r : Receipt} {o : Outcome Error} (hj : jobs j = .deliver r)
    (hs : cfg.stopped j = false) :
    (phaseOf env cfg r j).takes env cfg.store o = true ↔
      TakesNow env jobs cfg (.run j o) r.entry := by
  constructor
  · intro ht
    cases hp : phaseOf env cfg r j <;> rw [hp] at ht <;> cases o <;> first
      | cases ht
      | exact ⟨j, r, _, rfl, hj, rfl, hs, hp, Option.isNone_iff_eq_none.mp ht⟩
  · rintro ⟨j', r', event, hrun, hj', -, -, hp, hm⟩
    cases hrun
    obtain rfl : r = r' := by
      rw [hj] at hj'
      exact Job.deliver.inj hj'
    rw [hp]
    exact Option.isNone_iff_eq_none.mpr hm

/-- **One step.**  The credit of an entry changes when the entry is taken. -/
theorem credit_step (h : PoolShape env jobs cfg) (ha : PublishesOnce env jobs cfg a) (i : ℕ) :
    (¬ TakesNow env jobs cfg a i → credit env jobs i (poolStep env cfg a) = credit env jobs i cfg) ∧
    (TakesNow env jobs cfg a i →
      credit env jobs i (poolStep env cfg a) = credit env jobs i cfg + 1) := by
  obtain ⟨j, o, c, k, rfl, -, -, -, hj, -, he⟩ | ⟨j, o, c, k, r, rfl, hnext, hs, -, hj, hc, he⟩ |
    ⟨j, o, rfl, hnone, he⟩ | ⟨j, rfl, he⟩ | ⟨e, rfl, he⟩ := h.cases a
  · rw [he]
    have hsame : credit env jobs i (cfg.exchange (Store.serve env) j o c k) = credit env jobs i cfg :=
      credit_exchange_ne fun r hr => absurd hr (hj r)
    refine ⟨fun _ => hsame, ?_⟩
    rintro ⟨j', r, event, hrun, hj', -⟩
    cases hrun
    exact absurd hj' (hj r)
  · rw [he]
    by_cases hi : r.entry = i
    · subst hi
      have hcredit : credit env jobs r.entry (cfg.exchange (Store.serve env) j o c k)
          = credit env jobs r.entry cfg + ((phaseOf env cfg r j).takes env cfg.store o).toNat :=
        credit_exchange hj rfl hc fun event e cause hp => hp ▸ ha.2 r event e cause hj hs hp
      rw [← takes_iff hj hs]
      constructor
      · intro hnot
        rw [hcredit, Bool.eq_false_iff.mpr hnot]
        rfl
      · intro htakes
        rw [hcredit, htakes]
        rfl
    · have hne : ∀ r', jobs j = .deliver r' → r'.entry ≠ i := by
        intro r' hr'
        rw [hj] at hr'
        cases hr'
        exact hi
      refine ⟨fun _ => credit_exchange_ne hne, ?_⟩
      rintro ⟨j', r', event, hrun, hj', hi', -⟩
      cases hrun
      exact absurd hi' (hne r' hj')
  · rw [he]
    refine ⟨fun _ => rfl, ?_⟩
    rintro ⟨j', r, event, hrun, hj, -, hs, hp, -⟩
    cases hrun
    rw [h.next? hj hs, hp] at hnone
    cases hnone
  · rw [he]
    refine ⟨fun _ => rfl, ?_⟩
    rintro ⟨j', r, event, hrun, -⟩
    cases hrun
  · rw [he]
    refine ⟨fun _ => rfl, ?_⟩
    rintro ⟨j', r, event, hrun, -⟩
    cases hrun

/-! ## Runs -/

/-- The invariant: the credit of an entry is one once the entry has been taken, a key stays
marked while its entry is active, and whoever owes a result is running. -/
structure DeliveryInv (env : Env) (jobs : ι → Job) (cfg : Pool ι) : Prop where
  pool : PoolInv env jobs cfg
  running : ∀ j r, jobs j = .deliver r → (phaseOf env cfg r j).owes = true → cfg.stopped j = false
  credit_le : ∀ i, credit env jobs i cfg ≤ 1
  taken : ∀ i, startedAt env cfg.store i ≠ none → Begun env jobs cfg i → credit env jobs i cfg = 1
  marked : ∀ i, Active jobs cfg i → credit env jobs i cfg = 1 →
    ∃ key, startedAt env cfg.store i = some key ∧
      cfg.store.marks (markKey env key) = some (some i)

omit [Fintype ι] in
/-- A mark stays until it expires. -/
theorem marks_kept {name : String} {owner : Option ℕ} (hm : cfg.store.marks name = some owner)
    (ha : a ≠ .env (.expire name)) : (poolStep env cfg a).store.marks name = some owner := by
  obtain ⟨j, o, c, k, rfl, -, -, -, he⟩ | ⟨j, o, rfl, -, he⟩ | ⟨j, rfl, he⟩ | ⟨e, rfl, he⟩ :=
    Config.step_cases (Store.serve env) Happening.apply cfg a
  · rw [poolStep, he]
    change ((Store.serve env).perform o c cfg.store).1.marks name = some owner
    rw [Server.perform_state]
    split
    · rcases serve_marks env c cfg.store name with hsame | ⟨id, -, hnone, -⟩
      · rw [hsame, hm]
      · rw [hnone] at hm
        cases hm
    · exact hm
  · rwa [poolStep, he]
  · rwa [poolStep, he]
  · rw [poolStep, he]
    cases e with
    | append event => exact hm
    | trim n => exact hm
    | expire name' =>
      have hne : name' ≠ name := fun heq => ha (by rw [heq])
      change (if some name' = some name then none else cfg.store.marks name) = some owner
      rw [if_neg (by simpa using hne), hm]

/-- Whoever owes a result after a step is running. -/
theorem running_step (h : DeliveryInv env jobs cfg) (ha : PublishesOnce env jobs cfg a) {j : ι}
    {r : Receipt} (hj : jobs j = .deliver r)
    (howes : (phaseOf env (poolStep env cfg a) r j).owes = true) :
    (poolStep env cfg a).stopped j = false := by
  obtain ⟨j', o, c, k, rfl, -, hs, -, hj', -, he⟩ | ⟨j', o, c, k, r', rfl, -, hs, -, hj', hc, he⟩ |
    ⟨j', o, rfl, -, he⟩ | ⟨j', rfl, he⟩ | ⟨e, rfl, he⟩ := h.pool.shape.cases a
  · have hne : j ≠ j' := fun hjj => hj' r (hjj ▸ hj)
    rw [he, phaseOf_exchange_ne hne] at howes
    rw [he]
    exact h.running j r hj howes
  · rw [he]
    by_cases hne : j = j'
    · subst hne
      exact hs
    · rw [he, phaseOf_exchange_ne hne] at howes
      exact h.running j r hj howes
  · rw [he] at howes ⊢
    exact h.running j r hj howes
  · rw [he] at howes ⊢
    change (phaseOf env cfg r j).owes = true at howes
    have hne : j ≠ j' := by
      rintro rfl
      rw [ha.2 r hj] at howes
      cases howes
    simpa [hne] using h.running j r hj howes
  · rw [he] at howes ⊢
    exact h.running j r hj howes

omit [DecidableEq ι] in
/-- An entry can be taken while it has no credit. -/
theorem DeliveryInv.takesNow (h : DeliveryInv env jobs cfg) (ht : TakesNow env jobs cfg a i) :
    credit env jobs i cfg = 0 := by
  obtain ⟨j, r, event, rfl, hj, rfl, hs, hphase, hm⟩ := ht
  have hactive : Active jobs cfg r.entry :=
    .inr ⟨j, h.pool.shape.underWay hj hs (by rw [hphase]; rfl) (by rw [hphase]; simp)⟩
  have hstarted : startedAt env cfg.store r.entry = some (eventIdempotencyKey env event) :=
    (h.pool.shape.entry j r hj).received hphase
  have hle := h.credit_le r.entry
  by_contra hne
  obtain ⟨key, hkey, hmarked⟩ := h.marked r.entry hactive (by omega)
  obtain rfl : key = eventIdempotencyKey env event := Option.some.inj (hkey.symm.trans hstarted)
  rw [hm] at hmarked
  cases hmarked

omit [DecidableEq ι] [Fintype ι] in
/-- What an entry of the stream is does not change. -/
theorem startedAt_mono {w w' : Store} {key : String} (h : startedAt env w i = some key)
    (hs : w.stream <+: w'.stream) : startedAt env w' i = some key := by
  have hlt : i < w.stream.length := 
    startedAt_lt (show startedAt env w i ≠ none by simp [h])
  obtain ⟨l, hl⟩ := hs
  rw [startedAt, ← hl, List.getElem?_append_left hlt]
  exact h

/-- **One step.**  A step that meets the condition keeps the invariant. -/
theorem DeliveryInv.step (h : DeliveryInv env jobs cfg) (ha : PublishesOnce env jobs cfg a) :
    DeliveryInv env jobs (poolStep env cfg a) := by
  have hcredit := credit_step h.pool.shape ha
  refine ⟨h.pool.step ha.1, fun j r hj => running_step h ha hj, fun i => ?_, fun i hs hb => ?_,
    fun i hactive hone => ?_⟩
  · by_cases ht : TakesNow env jobs cfg a i
    · rw [(hcredit i).2 ht, h.takesNow ht]
    · rw [(hcredit i).1 ht]
      exact h.credit_le i
  · rcases begun_step h.pool.shape h.pool.keys ha.1 hs hb with hold | ht
    · have hlt : i < cfg.store.stream.length := hold.lt h.pool.shape h.pool.keys
      have hs' : startedAt env cfg.store i ≠ none := by
        obtain ⟨key, hkey⟩ := Option.ne_none_iff_exists'.mp hs
        rcases started_step h.pool.shape ha.1 hkey with hold' | ⟨hi, -, -⟩
        · simp [hold']
        · omega
      have hone := h.taken i hs' hold
      have hnot : ¬ TakesNow env jobs cfg a i := by
        intro ht
        have hzero := h.takesNow ht
        omega
      rw [(hcredit i).1 hnot, hone]
    · rw [(hcredit i).2 ht, h.takesNow ht]
  · have hactive' : Active jobs cfg i := h.pool.shape.active hactive
    have hprefix := stream_grows env cfg a
    by_cases ht : TakesNow env jobs cfg a i
    · obtain ⟨j, r, event, k, rfl, hj, rfl, -, hphase, hm, he⟩ := ht.exchange h.pool.shape
      have hentry := h.pool.shape.entry j r hj
      have hstarted : startedAt env cfg.store r.entry = some (eventIdempotencyKey env event) :=
        hentry.received hphase
      refine ⟨_, startedAt_mono hstarted hprefix, ?_⟩
      have hid := (hentry event (by rw [hphase]; rfl)).1.eventId
      rw [he]
      change (Store.serve env (.setNx _ event.eventId) cfg.store).1.marks _ = _
      simp [Store.serve, hm, hid]
    · rw [(hcredit i).1 ht] at hone
      obtain ⟨key, hkey, hmarked⟩ := h.marked i hactive' hone
      refine ⟨key, startedAt_mono hkey hprefix, marks_kept hmarked ?_⟩
      rintro rfl
      exact ha.2 i key hkey rfl hmarked hactive'

omit [DecidableEq ι] in
/-- Where nothing is under way, nothing is owed. -/
theorem DeliveryInv.published (h : DeliveryInv env jobs cfg) : PublishedOnce env jobs cfg := by
  intro i hs
  have hle := h.credit_le i
  refine ⟨by unfold credit at hle; omega, fun hidle => ?_⟩
  have howed : owed env jobs i cfg = 0 := by
    refine Finset.sum_eq_zero fun j _ => ?_
    by_cases hj : ∃ r, jobs j = .deliver r
    · obtain ⟨r, hj⟩ := hj
      rw [ofEntry_deliver hj]
      split
      · rename_i hi
        cases howes : (phaseOf env cfg r j).owes with
        | false =>
          change (phaseOf env cfg r j).owes.toNat = 0
          rw [howes]
          rfl
        | true =>
          have hs := h.running j r hj howes
          obtain ⟨c, hc⟩ : ∃ c, (phaseOf env cfg r j).command env r = some c := owes_command howes
          have hclaim : phaseOf env cfg r j ≠ .claiming := by
            intro hp
            rw [hp] at howes
            cases howes
          exact absurd (hi ▸ h.pool.shape.underWay hj hs hc hclaim) (hidle j)
      · rfl
    · exact ofEntry_of_ne (fun r hr => hj ⟨r, hr⟩) _ _
  by_cases hb : Begun env jobs cfg i
  · have hone := h.taken i hs hb
    unfold credit at hone
    exact .inl (by omega)
  · obtain ⟨hacked, hredeliverable⟩ := h.pool.redeliverable hs hb
    have hzero : credit env jobs i cfg ≠ 1 := by
      intro hone
      exact hb (.inl (h.marked i (.inl hacked) hone))
    unfold credit at hle hzero
    exact .inr ⟨by omega, hacked, hredeliverable⟩

omit [DecidableEq ι] in
theorem deliveryInv_start (env : Env) (jobs : ι → Job) (tasks : Redis.Keys String TaskHash) :
    DeliveryInv env jobs (Pool.start env (Store.unpublished tasks) jobs) := by
  have hzero (i : ℕ) : credit env jobs i (Pool.start env (Store.unpublished tasks) jobs) = 0 := by
    have hnothing (f : Receipt → List (Exchange interface Error) → ℕ) (hf : ∀ r, f r [] = 0) :
        (Pool.start env (Store.unpublished tasks) jobs).tally (ofEntry jobs i f) = 0 := by
      refine Finset.sum_eq_zero fun j _ => ?_
      by_cases hj : ∃ r, jobs j = .deliver r
      · obtain ⟨r, hj⟩ := hj
        rw [ofEntry_deliver hj]
        split
        · exact hf r
        · rfl
      · exact ofEntry_of_ne (fun r hr => hj ⟨r, hr⟩) _ _
    rw [credit, publications, owed, hnothing _ fun _ => rfl, hnothing _ fun _ => rfl]
  refine ⟨poolInv_start env jobs tasks, fun j r hj h => ?_, fun i => by rw [hzero]; omega,
    fun i hs => absurd rfl hs, fun i _ hone => ?_⟩
  · cases h
  · rw [hzero] at hone
    cases hone

/-- **One result for each entry.**  In a run whose steps meet the condition, at every point
an entry has at most one result, and when no delivery of it is under way it has exactly
one, or none and will be executed again. -/
theorem results_published_once (env : Env) (jobs : ι → Job) (tasks : Redis.Keys String TaskHash)
    (as : List (PoolAction ι))
    (h : Each (poolStep env) (PublishesOnce env jobs)
      (Pool.start env (Store.unpublished tasks) jobs) as) :
    Along (poolStep env) (PublishedOnce env jobs) (fun _ _ _ => True)
      (Pool.start env (Store.unpublished tasks) jobs) as :=
  along_of_each (fun _ _ hcfg ha => DeliveryInv.step hcfg ha) (fun _ hcfg => hcfg.published)
    (fun _ _ _ _ => trivial) (deliveryInv_start env jobs tasks) h

end

/-! ## Two runs -/

/-- One delivery of the first entry. -/
def oneDelivery : Unit → Job := fun _ => .deliver ⟨0, true, 0⟩

/-- The pool after a dispatch was published and delivered, with these outcomes. -/
def deliveredWith (os : List (Outcome Error)) : Pool Unit :=
  run (poolStep plainEnv) (Pool.start plainEnv (Store.unpublished fun _ => none) oneDelivery)
    (.env (.append dispatched) :: os.map (.run ()))

/-- A delivery without faults publishes one result. -/
theorem result_published_once_run :
    PublishedOnce plainEnv oneDelivery (deliveredWith (List.replicate 5 .ok)) ∧
      publications oneDelivery 0 (deliveredWith (List.replicate 5 .ok)) = 1 := by
  have hrun {cfg : Pool Unit} {c : Cmd} (hnext : cfg.next? () = some c)
      (hc : ∀ data, c = .xadd data → startedKey plainEnv data = none)
      (hphase : ∀ event e cause, phaseOf plainEnv cfg ⟨0, true, 0⟩ () ≠ .failed event e cause) :
      PublishesOnce plainEnv oneDelivery cfg (.run () .ok) := by
    refine ⟨⟨fun data hdata _ key hkey => ?_, fun key id e hset => by simp,
      fun r event e hj hp => ?_⟩, fun r event e cause hj _ hp => ?_⟩
    · rw [hc data (Option.some.inj (hnext.symm.trans hdata))] at hkey
      cases hkey
    · cases hj
      exact absurd hp (hphase event e _)
    · cases hj
      exact absurd hp (hphase event e cause)
  have heach : Each (poolStep plainEnv) (PublishesOnce plainEnv oneDelivery)
      (Pool.start plainEnv (Store.unpublished fun _ => none) oneDelivery)
      (.env (.append dispatched) :: (List.replicate 5 .ok).map (.run ())) := by
    refine ⟨⟨fun key _ => ⟨rfl, fun i hi => by cases hi⟩, trivial⟩, ?_, ?_, ?_, ?_, ?_, trivial⟩
    · exact hrun rfl (fun data h => by cases h) fun event e cause h => by cases h
    · exact hrun rfl (fun data h => by cases h) fun event e cause h => by cases h
    · exact hrun rfl (fun data h => by cases h) fun event e cause h => by cases h
    · exact hrun rfl (fun data h => by cases h; exact startedKey_of_ne _ (by decide))
        fun event e cause h => by cases h
    · exact hrun rfl (fun data h => by cases h) fun event e cause h => by cases h
  exact ⟨(results_published_once plainEnv oneDelivery _ _ heach).last, by decide⟩

/-- The acknowledgement after the result is refused: the one `except` publishes an error as
well. -/
theorem result_and_error_published :
    let cfg := deliveredWith [.ok, .ok, .ok, .ok, .refused ⟨.redisError, "down", []⟩, .ok, .ok]
    publications oneDelivery 0 cfg = 2 ∧
      (cfg.store.stream.map fun data => data .eventType)
        = [some .agentStarted, some .agentCompleted, some .agentError] ∧
      cfg.store.acked .workers 0 = true := by
  decide

end DoxAsdlc
