import DoxAsdlc.Swarm.Dispatcher

/-!
# The statuses of a session

The end of a swarm is stored by three commands: the status, the time, and the report.  A
client that reads in between finds a complete session without its report, and a failure in
between, or when the end is announced, has the session marked as failed after it was
complete.  Where neither happens, readers and the order of the statuses are as they should
be: `orderly_of_undisturbed`.

## Main definitions

* `Legal` — the sequences of statuses that a session may have.
* `System.Observes` — what a reader of a complete session finds.
* `System.Undisturbed` — no read in between, and no failure after the session is complete.
-/

namespace DoxAsdlc.Swarm

open Interaction Interaction.Program

/-- The session failed, and was neither complete nor failed before. -/
def FailedOnce (statuses : List SwarmStatus) : Prop :=
  ∃ before, statuses = before ++ [.failed] ∧ .complete ∉ before ∧ .failed ∉ before

/-- The statuses of a session, in order: from pending to complete, or to a failure, and none
after either. -/
def Legal (statuses : List SwarmStatus) : Prop :=
  statuses <+: [.pending, .inProgress, .aggregating, .complete] ∨ FailedOnce statuses

namespace Phase

/-- The session is stored as complete, and its report is not. -/
def halfFinal : Phase → Bool
  | timing _ | reporting _ => true
  | _ => false

/-- A failure of the next command leaves a complete session behind. -/
def harmedBy : Phase → Outcome Error → Bool
  | completing _, .lost _ => true
  | timing _, o | reporting _, o | publishing _, o => o.failed
  | _, _ => false

/-- The status that the next command stores. -/
def status : Phase → Option SwarmStatus
  | creating => some .pending
  | starting => some .inProgress
  | aggregating => some .aggregating
  | completing _ => some .complete
  | failing _ => some .failed
  | _ => none

/-- The statuses so far. -/
def StatusesAt (statuses : List SwarmStatus) : Phase → Prop
  | creating => statuses = []
  | expiring | starting => statuses = [.pending]
  | announcing | reading | polling _ _ | aggregating => statuses = [.pending, .inProgress]
  | fetching | rereading _ | completing _ =>
    statuses = [.pending, .inProgress, .aggregating]
  | timing _ | reporting _ | publishing _ =>
    statuses = [.pending, .inProgress, .aggregating, .complete]
  | failing _ =>
    statuses = [.pending, .inProgress] ∨ statuses = [.pending, .inProgress, .aggregating]
  | publishingFailure _ => FailedOnce statuses
  | closed _ => Legal statuses

/-- What is there of the end of a session that is stored as complete. -/
def EndAt (s : Stored) : Phase → Prop
  | timing _ => True
  | reporting _ => (Redis.hget s.session .completedAt).join ≠ none
  | publishing _ | closed _ =>
    (Redis.hget s.session .completedAt).join ≠ none ∧
      (Redis.hget s.session .unifiedReport).join ≠ none
  | _ => False

end Phase

/-- The statuses after a command of the coroutine. -/
theorem statuses_written (config : SwarmConfig) (r : SwarmRun) (φ : Phase) (o : Outcome Error)
    (s : Stored) :
    (φ.written config r o s).statuses
      = if o.effective then s.statuses ++ φ.status.toList else s.statuses := by
  unfold Phase.written
  cases o.effective with
  | false => rfl
  | true => cases φ <;> first | rfl | exact (List.append_nil _).symm

theorem legal_of_statusesAt {statuses : List SwarmStatus} {φ : Phase}
    (h : φ.StatusesAt statuses) : Legal statuses := by
  cases φ with
  | closed result => exact h
  | publishingFailure e => exact .inr h
  | failing e =>
    obtain rfl | rfl := h
    · exact .inl (by decide)
    · exact .inl (by decide)
  | _ =>
    cases h
    exact .inl ⟨_, rfl⟩

theorem failedOnce_of_failing {statuses : List SwarmStatus} {e : Error}
    (h : (Phase.failing e).StatusesAt statuses) : FailedOnce (statuses ++ [.failed]) := by
  obtain rfl | rfl := h
  · exact ⟨_, rfl, by decide, by decide⟩
  · exact ⟨_, rfl, by decide, by decide⟩

namespace System

variable {κ : Type} (sys : System κ) [DecidableEq κ]

/-- A client that is answered with a complete session is answered with its end. -/
def Observes (cfg : Pool κ) (a : Happening κ) (_ : Pool κ) : Prop :=
  ∀ k, a = .run (.other k) .ok →
    cfg.next? (.other k) = some (.hgetall sys.swarm.sessionId) →
      ∀ session, (sys.stored cfg).read = .ok (some session) → session.status = .complete →
        session.completedAt ≠ none ∧ session.unifiedReport ≠ none

/-- No client reads the session between its completion and its report, and nothing fails once
it is stored as complete. -/
def Undisturbed (cfg : Pool κ) (a : Happening κ) : Prop :=
  (∀ o, a = .run .dispatcher o → cfg.next? .dispatcher ≠ none →
      (sys.phase cfg).harmedBy o = false) ∧
    ∀ k, a = .run (.other k) .ok →
      cfg.next? (.other k) = some (.hgetall sys.swarm.sessionId) →
        (sys.phase cfg).halfFinal = false

/-- What is known in a state of an undisturbed run. -/
structure Orderly (cfg : Pool κ) : Prop where
  running : sys.Running cfg
  statuses : (sys.phase cfg).StatusesAt (sys.stored cfg).statuses
  ending : Redis.hget (sys.stored cfg).session .status = some .complete →
    (sys.phase cfg).EndAt (sys.stored cfg)

variable {sys} {s : Stored} {φ φ' : Phase} {o : Outcome Error}

omit [DecidableEq κ] in
theorem statusesAt_waiting {l : List SwarmStatus} (session : SwarmSession) (polls : ℕ)
    (h : l = [.pending, .inProgress]) : (Phase.waiting session polls).StatusesAt l := by
  cases polls <;> exact h

omit [DecidableEq κ] in
/-- A command of the coroutine keeps the order of the statuses. -/
theorem statusesAt_moves {l : List SwarmStatus} (h : φ.StatusesAt l)
    (hm : Moves sys.config sys.textSimilarity sys.flow sys.swarm s φ o φ')
    (hsafe : φ.harmedBy o = false) :
    φ'.StatusesAt (if o.effective then l ++ φ.status.toList else l) := by
  cases hm with
  | undispatched hφ ho =>
    cases o with
    | ok => cases ho
    | refused e => exact legal_of_statusesAt h
    | lost e =>
      cases φ with
      | creating | starting | expiring | announcing =>
        cases h
        exact .inl ⟨_, rfl⟩
      | _ => cases hφ
  | fails hφ ho =>
    cases o with
    | ok => cases ho
    | refused e =>
      cases φ with
      | reading | polling _ _ | aggregating => exact .inl h
      | fetching | rereading _ | completing _ => exact .inr h
      | timing _ | reporting _ | publishing _ => cases hsafe
      | _ => cases hφ
    | lost e =>
      cases φ with
      | reading | polling _ _ =>
        cases h
        exact .inl rfl
      | aggregating | fetching | rereading _ =>
        cases h
        exact .inr rfl
      | completing _ | timing _ | reporting _ | publishing _ => cases hsafe
      | _ => cases hφ
  | recorded => exact failedOnce_of_failing h
  | unrecorded ho =>
    cases o with
    | ok => cases ho
    | refused e => exact legal_of_statusesAt h
    | lost e => exact .inr (failedOnce_of_failing h)
  | failed =>
    change Legal (if o.effective then l ++ [] else l)
    rw [List.append_nil, ite_self]
    exact .inr h
  | read => exact statusesAt_waiting _ _ ((List.append_nil _).trans h)
  | polled => exact statusesAt_waiting _ _ ((List.append_nil _).trans h)
  | unread =>
    cases h
    exact .inl rfl
  | lost =>
    cases h
    exact .inr rfl
  | published =>
    cases h
    exact .inl ⟨_, rfl⟩
  | _ =>
    cases h
    rfl

omit [DecidableEq κ] in
theorem hget_written (f : SessionField) :
    Redis.hget (φ.written sys.config sys.swarm o s).session f
      = if o.effective then
          ((φ.mapping sys.config sys.swarm).bind (· f)).or (Redis.hget s.session f)
        else Redis.hget s.session f := by
  unfold Phase.written
  cases o.effective with
  | false => rfl
  | true =>
    cases φ.mapping sys.config sys.swarm with
    | none => rfl
    | some m => exact Redis.hget_hset s.session m f

omit [DecidableEq κ] in
/-- The stored status changes as the next command says. -/
theorem status_written :
    Redis.hget (φ.written sys.config sys.swarm o s).session .status
      = if o.effective then φ.status.or (Redis.hget s.session .status)
        else Redis.hget s.session .status := by
  rw [hget_written]
  cases φ <;> rfl

omit [DecidableEq κ] in
/-- Only one command makes a session complete. -/
theorem not_complete_written (h : Redis.hget s.session .status ≠ some .complete)
    (hφ : φ.status ≠ some .complete) :
    Redis.hget (φ.written sys.config sys.swarm o s).session .status ≠ some .complete := by
  rw [status_written]
  split
  · intro hc
    rcases Option.or_eq_some_iff.mp hc with hstored | ⟨-, hbefore⟩
    · exact hφ hstored
    · exact h hbefore
  · exact h

omit [DecidableEq κ] in
theorem endAt_of_session_eq {s' : Stored} (hs : s'.session = s.session) (h : φ.EndAt s) :
    φ.EndAt s' := by
  cases φ with
  | timing report => trivial
  | reporting report | publishing report | closed result =>
    simp only [Phase.EndAt] at h ⊢
    rw [hs]
    exact h
  | _ => exact h.elim

omit [DecidableEq κ] in
/-- A command of the coroutine keeps what is known of the end of a complete session. -/
theorem endAt_moves (h : Redis.hget s.session .status = some .complete → φ.EndAt s)
    (hm : Moves sys.config sys.textSimilarity sys.flow sys.swarm s φ o φ')
    (hsafe : φ.harmedBy o = false)
    (hc : Redis.hget (φ.written sys.config sys.swarm o s).session .status = some .complete) :
    φ'.EndAt (φ.written sys.config sys.swarm o s) := by
  cases φ with
  | completing report =>
    cases hm with
    | undispatched hφ => cases hφ
    | fails hφ ho =>
      cases o with
      | ok => cases ho
      | refused e => exact (h hc).elim
      | lost e => cases hsafe
    | completed => trivial
  | timing report =>
    cases hm with
    | undispatched hφ => cases hφ
    | fails hφ ho =>
      cases o with
      | ok => cases ho
      | refused e => cases hsafe
      | lost e => cases hsafe
    | timed => simp [Phase.EndAt, hget_written, Phase.mapping, Outcome.effective]
  | reporting report =>
    cases hm with
    | undispatched hφ => cases hφ
    | fails hφ ho =>
      cases o with
      | ok => cases ho
      | refused e => cases hsafe
      | lost e => cases hsafe
    | reported =>
      rw [status_written] at hc
      have hend := h hc
      simpa [Phase.EndAt, hget_written, Phase.mapping, Outcome.effective, Redis.Hash.field]
        using hend
  | publishing report =>
    cases hm with
    | undispatched hφ => cases hφ
    | fails hφ ho =>
      cases o with
      | ok => cases ho
      | refused e => cases hsafe
      | lost e => cases hsafe
    | published => exact h hc
  | closed result =>
    cases hm with
    | undispatched hφ => cases hφ
    | fails hφ => cases hφ
  | _ => exact absurd hc (not_complete_written (fun hst => h hst) (by simp [Phase.status]))

/-! ## Runs -/

theorem Orderly.step {cfg : Pool κ} (h : sys.Orderly cfg) {a : Happening κ}
    (ha : sys.Undisturbed cfg a) : sys.Orderly (System.step cfg a) := by
  obtain ⟨o, hrun, hn, hm, hstored⟩ | ⟨-, hphase, haside⟩ := h.running.step_cases a
  · have hsafe : (sys.phase cfg).harmedBy o = false := by
      cases hφ : sys.phase cfg with
      | closed result => rfl
      | _ =>
        rw [← hφ]
        refine ha.1 o hrun ?_
        rw [hn, hφ]
        nofun
    refine ⟨h.running.step a, ?_, ?_⟩
    · rw [hstored, statuses_written]
      exact statusesAt_moves h.statuses hm hsafe
    · intro hc
      rw [hstored] at hc ⊢
      exact endAt_moves h.ending hm hsafe hc
  · refine ⟨h.running.step a, ?_, ?_⟩
    · rw [hphase, haside.statuses]
      exact h.statuses
    · intro hc
      rcases haside.session with hsame | hnone
      · rw [hphase]
        rw [hsame] at hc
        exact endAt_of_session_eq hsame (h.ending hc)
      · rw [hnone] at hc
        cases hc

omit [DecidableEq κ] in
theorem orderly_start : sys.Orderly sys.start := by
  refine ⟨running_start, congrArg Stored.statuses sys.fresh, fun hc => ?_⟩
  have hnone : (sys.stored sys.start).session = none := congrArg Stored.session sys.fresh
  rw [hnone] at hc
  cases hc

omit [DecidableEq κ] in
/-- A reader finds the end of a complete session, unless it comes in between. -/
theorem Orderly.observes {cfg cfg' : Pool κ} (h : sys.Orderly cfg) {a : Happening κ}
    (ha : sys.Undisturbed cfg a) : sys.Observes cfg a cfg' := by
  intro k hk hn session hread hcomplete
  obtain ⟨hash, hstored, hhash⟩ := Stored.read_eq_some hread
  obtain ⟨-, -, hstatus, hcompleted, hreport⟩ := SwarmSession.fromHash_eq_ok hhash
  have hget : ∀ f, Redis.hget (sys.stored cfg).session f = hash f := by
    intro f
    rw [hstored]
    rfl
  have hend := h.ending (by rw [hget, hstatus, hcomplete])
  have hquiet : (sys.phase cfg).halfFinal = false := ha.2 k hk hn
  rw [hcompleted, hreport, ← hget, ← hget]
  cases hφ : sys.phase cfg with
  | publishing report | closed result =>
    rw [hφ] at hend
    exact hend
  | timing report | reporting report =>
    rw [hφ] at hquiet
    cases hquiet
  | _ =>
    rw [hφ] at hend
    exact hend.elim

/-- **The order of the statuses.**  In every run in which no client reads the session between
its completion and its report, and nothing fails once it is complete, the statuses come in
order and every reader of a complete session finds its time and its report. -/
theorem orderly_of_undisturbed (sys : System κ) (as : List (Happening κ))
    (h : Each System.step sys.Undisturbed sys.start as) :
    Along System.step (fun cfg => Legal (sys.stored cfg).statuses) sys.Observes sys.start as :=
  along_of_each (fun _ _ hcfg ha => hcfg.step ha) (fun _ hcfg => legal_of_statusesAt hcfg.statuses)
    (fun _ _ hcfg ha => hcfg.observes ha) orderly_start h

/-! ## A swarm with a reader -/

/-- A reader of sessions writes none. -/
theorem uses_getSession (sessionId id : String) : (getSession id).Uses (Spares sessionId) := by
  refine uses_bind (uses_command trivial) fun found => ?_
  cases found with
  | none => exact uses_ret _
  | some h => exact uses_bind (uses_answer _) fun _ => uses_ret _

/-- A swarm without reviewers, and a client that asks once how it stands. -/
def watched : System Unit where
  config := {
    aggregateTimeoutSeconds_pos := SwarmConfig.sixty_pos
    maxConcurrentSwarms_pos := SwarmConfig.five_pos
    defaultReviewers := [] }
  textSimilarity := fun _ _ => 0
  flow := .direct
  swarm := {
    sessionId := "swarm-1"
    targetPath := "src/"
    createdAt := 0
    reportedAt := 1
    completedAt := 2 }
  registry := fun _ => false
  outcomes := fun _ => .error { cls := .valueError, message := "" }
  others := fun _ =>
    ⟨do let _ ← getSession "swarm-1", uses_bind (uses_getSession _ _) fun _ => uses_ret _⟩
  store := fun _ => .empty
  fresh := rfl

/-- Steps of the coroutine that are answered. -/
def progress (n : ℕ) : List (Happening Unit) := List.replicate n (.run .dispatcher .ok)

/-- The client asks as the end of the swarm is announced. -/
def patient : List (Happening Unit) :=
  progress 12 ++ [.run (.other ()) .ok, .run .dispatcher .ok]

/-- The announcement fails. -/
def unannounced : List (Happening Unit) :=
  progress 12 ++
    [.run .dispatcher (.refused { cls := .redisError, message := "" }), .run .dispatcher .ok]

/-- The session as soon as it is complete. -/
def halfSession : SwarmSession where
  id := "swarm-1"
  targetPath := "src/"
  reviewers := []
  status := .complete
  createdAt := 0
  completedAt := none
  unifiedReport := none

omit [DecidableEq κ] in
theorem undisturbed_answered (cfg : Pool κ) : sys.Undisturbed cfg (.run .dispatcher .ok) := by
  refine ⟨fun o ho _ => ?_, nofun⟩
  cases ho
  cases sys.phase cfg <;> rfl

theorem each_progress (cfg : Pool Unit) (n : ℕ) :
    Each System.step watched.Undisturbed cfg (progress n) := by
  induction n generalizing cfg with
  | zero => trivial
  | succ n ih => exact ⟨undisturbed_answered cfg, ih _⟩

theorem orderly_of_undisturbed_patient :
    Along System.step (fun cfg => Legal (watched.stored cfg).statuses) watched.Observes
      watched.start patient := by
  refine orderly_of_undisturbed watched patient ?_
  refine (each_append _ _ _).mpr ⟨each_progress _ _, ⟨nofun, fun _ _ _ => rfl⟩, ?_, trivial⟩
  exact undisturbed_answered _

/-- A client that asks as soon as the session is complete finds neither time nor report, and
a session whose end cannot be announced has failed after it was complete. -/
theorem half_final_session :
    (watched.stored (run System.step watched.start (progress 10))).read = .ok (some halfSession) ∧
      ¬ watched.Observes (run System.step watched.start (progress 10)) (.run (.other ()) .ok)
        (run System.step watched.start (progress 10 ++ [.run (.other ()) .ok])) ∧
      (watched.stored (run System.step watched.start unannounced)).statuses
        = [.pending, .inProgress, .aggregating, .complete, .failed] ∧
      ¬ Legal [.pending, .inProgress, .aggregating, .complete, .failed] := by
  refine ⟨rfl, fun h => (h () rfl rfl halfSession rfl rfl).1 rfl, rfl, ?_⟩
  rintro (hle | ⟨before, hbefore, hcomplete, -⟩)
  · exact absurd hle.length_le (by decide)
  · refine hcomplete ?_
    have hdrop := congrArg List.dropLast hbefore
    rw [List.dropLast_concat] at hdrop
    rw [← hdrop]
    decide

end System

end DoxAsdlc.Swarm
