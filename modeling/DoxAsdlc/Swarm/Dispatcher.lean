import DoxAsdlc.Swarm.Aggregator
import DoxAsdlc.Swarm.RedisStore

/-!
# The swarm dispatcher

A swarm is one coroutine that creates the session, starts a task for every reviewer, waits
for the results for a limited time and merges what is there, and then the tasks of the
reviewers.  They share nothing but the keys of the session, and anybody may read these.

The readings of the clock, the id, and what the executor of a review comes to are
arguments.

## Main definitions

* `dispatchSwarm`, `runReviewer`, `collectResults`, `finalizeSwarm`, `failSwarm` — the parts.
* `runSwarm`, `processSwarm` — the whole, and what the API leaves to its background task.
* `Phase`, `dispatcher` — where the coroutine stands, and the machine that follows it.
* `System`, `Client` — a swarm, its reviewers, and anybody else.
-/

namespace DoxAsdlc.Swarm

open Interaction Interaction.Program

/-- One run of a swarm: what is asked for, and the readings of the environment. -/
structure SwarmRun where
  sessionId : String
  targetPath : String
  reviewerTypes : Option (List String) := none
  createdAt : Time
  reportedAt : Time
  completedAt : Time

/-- The types that the registry has reviewers for. -/
abbrev Registry := String → Bool

/-- `str` of a list of plain names. -/
def listText (names : List String) : String :=
  "[" ++ String.intercalate ", " (names.map fun name => "'" ++ name ++ "'") ++ "]"

section

variable (config : SwarmConfig) (textSimilarity : Similarity) (r : SwarmRun)

/-- The reviewers that the session lists. -/
def SwarmRun.reviewers : List String := requestedReviewers config r.reviewerTypes

/-- The reviewers that are started: those that the registry has. -/
def SwarmRun.spawned (registry : Registry) : List String :=
  (r.reviewers config).filter fun reviewerType => registry reviewerType

/-- `dispatch_swarm`, up to the tasks that it starts. -/
def dispatchSwarm : Async String := do
  let session ← createSession config r.sessionId r.createdAt r.targetPath r.reviewerTypes
  updateStatus session.id .inProgress
  send (.publish "SWARM_STARTED" ("Swarm started: " ++ session.id)
    ("Target: " ++ r.targetPath ++ ", Reviewers: " ++ listText session.reviewers))
  return session.id

/-- The result that stands for an executor that raised. -/
def failedResult (reviewerType : String) (e : Error) : ReviewerResult where
  reviewerType := reviewerType
  status := "failed"
  durationSeconds := 0
  errorMessage := some e.str

/-- `_run_reviewer`, for what its executor came to. -/
def runReviewer (sessionId reviewerType : String) (outcome : Except Error ReviewerResult) :
    Async Unit := do
  let result := match outcome with
    | .ok result => result
    | .error e => failedResult reviewerType e
  storeReviewerResult config sessionId reviewerType result
  send (.publish "SWARM_REVIEWER_COMPLETE" ("Reviewer complete: " ++ reviewerType)
    ("Session: " ++ sessionId ++ ", Status: " ++ result.status))

/-- `collect_results`. -/
def collectResults (sessionId : String) (timeoutSeconds : Option ℕ := none) :
    Async Results := do
  match ← getSession sessionId with
  | none => throw { cls := .valueError, message := "Session not found: " ++ sessionId }
  | some session => do
      let timeout := (timeoutSeconds.filter (· ≠ 0)).getD config.aggregateTimeoutSeconds
      -- The answer, whether all reviewers are through, is not looked at.
      let _ ← waitForCompletion sessionId session.reviewers timeout
      updateStatus sessionId .aggregating
      send (.hgetallResults sessionId)

/-- `finalize_swarm`. -/
def finalizeSwarm (sessionId : String) (unifiedReport : UnifiedReport) (now : Time) :
    Async Unit := do
  updateStatus sessionId .complete (some now)
  send (.hset sessionId (.field .unifiedReport (some unifiedReport)))
  send (.publish "SWARM_COMPLETE" ("Swarm complete: " ++ sessionId)
    ("Total findings: " ++ toString unifiedReport.totalFindings))

/-- `fail_swarm`. -/
def failSwarm (sessionId error : String) : Async Unit := do
  updateStatus sessionId .failed
  send (.publish "SWARM_FAILED" ("Swarm failed: " ++ sessionId) error)

/-- From the results to the end. -/
def reportSwarm (results : Results) : Async UnifiedReport := do
  match ← getSession r.sessionId with
  | none => throw { cls := .valueError, message := "Session lost: " ++ r.sessionId }
  | some session => do
      let report := aggregate config textSimilarity session results r.reportedAt
      finalizeSwarm r.sessionId report r.completedAt
      return report

/-- Collect, aggregate and finalize. -/
def completeSwarm : Async UnifiedReport := do
  let results ← collectResults config r.sessionId
  reportSwarm config textSimilarity r results

/-- `run_swarm`. -/
def runSwarm : Async UnifiedReport := do
  let _ ← dispatchSwarm config r
  try completeSwarm config textSimilarity r
  catch e => do
    failSwarm r.sessionId e.str
    throw e

/-- `run_swarm_background`, up to its `finally`. -/
def processSwarm : Async Unit :=
  try do
    let _ ← completeSwarm config textSimilarity r
  catch e =>
    try failSwarm r.sessionId e.str
    catch _ => pure ()

/-- Who runs the swarm: `run_swarm`, or the API with its background task. -/
inductive Flow where
  | direct | background
  deriving DecidableEq, Repr

/-- The coroutine of a swarm. -/
def Flow.program : Flow → Async Unit
  | .direct => do
      let _ ← runSwarm config textSimilarity r
  | .background => do
      let _ ← dispatchSwarm config r
      processSwarm config textSimilarity r

end

/-! ## Where the coroutine stands -/

/-- The phases of the coroutine, each named for what it does next. -/
inductive Phase where
  | creating
  | expiring
  | starting
  | announcing
  | reading
  | polling (session : SwarmSession) (left : ℕ)
  | aggregating
  | fetching
  | rereading (results : Results)
  | completing (report : UnifiedReport)
  | timing (report : UnifiedReport)
  | reporting (report : UnifiedReport)
  | publishing (report : UnifiedReport)
  | failing (e : Error)
  | publishingFailure (e : Error)
  | closed (result : Except Error Unit)

namespace Phase

variable (config : SwarmConfig) (textSimilarity : Similarity) (flow : Flow) (r : SwarmRun)

/-- The wait with so many polls left. -/
def waiting (session : SwarmSession) : ℕ → Phase
  | 0 => aggregating
  | polls + 1 => polling session polls

/-- How the coroutine ends after a failure. -/
def failed (e : Error) : Except Error Unit :=
  match flow with
  | .direct => .error e
  | .background => .ok ()

/-- A part of what is done about a failure, and the end. -/
def following (e : Error) (p : Async Unit) : Async Unit :=
  match flow with
  | .direct => p.elim (fun _ => .raise e) .raise
  | .background => p.elim .ret fun _ => .ret ()

/-- What follows a failure. -/
def recovery (e : Error) : Async Unit := following flow e (failSwarm r.sessionId e.str)

/-- A part of what is tried, and what follows when it fails. -/
def trying (p : Async UnifiedReport) : Async Unit := p.elim (fun _ => .ret ()) (recovery flow r)

/-- What is left to do in a phase. -/
def program : Phase → Async Unit
  | creating => flow.program config textSimilarity r
  | expiring => (do
      send (.expire (sessionKey config r.sessionId))
      updateStatus r.sessionId .inProgress
      send (.publish "SWARM_STARTED" ("Swarm started: " ++ r.sessionId)
        ("Target: " ++ r.targetPath ++ ", Reviewers: " ++ listText (r.reviewers config)))
      trying flow r (completeSwarm config textSimilarity r))
  | starting => (do
      updateStatus r.sessionId .inProgress
      send (.publish "SWARM_STARTED" ("Swarm started: " ++ r.sessionId)
        ("Target: " ++ r.targetPath ++ ", Reviewers: " ++ listText (r.reviewers config)))
      trying flow r (completeSwarm config textSimilarity r))
  | announcing => (do
      send (.publish "SWARM_STARTED" ("Swarm started: " ++ r.sessionId)
        ("Target: " ++ r.targetPath ++ ", Reviewers: " ++ listText (r.reviewers config)))
      trying flow r (completeSwarm config textSimilarity r))
  | reading => trying flow r (completeSwarm config textSimilarity r)
  | polling session left => trying flow r (do
      let _ ← waitForCompletion r.sessionId session.reviewers (left + 1)
      updateStatus r.sessionId .aggregating
      let results ← send (.hgetallResults r.sessionId)
      reportSwarm config textSimilarity r results)
  | aggregating => trying flow r (do
      updateStatus r.sessionId .aggregating
      let results ← send (.hgetallResults r.sessionId)
      reportSwarm config textSimilarity r results)
  | fetching => trying flow r (do
      let results ← send (.hgetallResults r.sessionId)
      reportSwarm config textSimilarity r results)
  | rereading results => trying flow r (reportSwarm config textSimilarity r results)
  | completing report => trying flow r (do
      finalizeSwarm r.sessionId report r.completedAt
      return report)
  | timing report => trying flow r (do
      send (.hset r.sessionId (.field .completedAt (some r.completedAt)))
      send (.hset r.sessionId (.field .unifiedReport (some report)))
      send (.publish "SWARM_COMPLETE" ("Swarm complete: " ++ r.sessionId)
        ("Total findings: " ++ toString report.totalFindings))
      return report)
  | reporting report => trying flow r (do
      send (.hset r.sessionId (.field .unifiedReport (some report)))
      send (.publish "SWARM_COMPLETE" ("Swarm complete: " ++ r.sessionId)
        ("Total findings: " ++ toString report.totalFindings))
      return report)
  | publishing report => trying flow r (do
      send (.publish "SWARM_COMPLETE" ("Swarm complete: " ++ r.sessionId)
        ("Total findings: " ++ toString report.totalFindings))
      return report)
  | failing e => recovery flow r e
  | publishingFailure e => following flow e
      (send (.publish "SWARM_FAILED" ("Swarm failed: " ++ r.sessionId) e.str))
  | closed result => answer result

/-- The phase after an exchange with the server. -/
def next : Phase → Exchange interface Error → Phase
  | creating, ⟨.hset _ _, .ok _, _⟩ => expiring
  | creating, ⟨.hset _ _, .error e, _⟩ => closed (.error e)
  | expiring, ⟨.expire _, .ok _, _⟩ => starting
  | expiring, ⟨.expire _, .error e, _⟩ => closed (.error e)
  | starting, ⟨.hset _ _, .ok _, _⟩ => announcing
  | starting, ⟨.hset _ _, .error e, _⟩ => closed (.error e)
  | announcing, ⟨.publish _ _ _, .ok _, _⟩ => reading
  | announcing, ⟨.publish _ _ _, .error e, _⟩ => closed (.error e)
  | reading, ⟨.hgetall _, .ok none, _⟩ =>
    failing { cls := .valueError, message := "Session not found: " ++ r.sessionId }
  | reading, ⟨.hgetall _, .ok (some h), _⟩ =>
    match SwarmSession.fromHash h with
    | .ok session => waiting session config.aggregateTimeoutSeconds
    | .error e => failing e
  | reading, ⟨.hgetall _, .error e, _⟩ => failing e
  | polling session left, ⟨.smembersProgress _, .ok completed, _⟩ =>
    if session.reviewers.all (· ∈ completed) then aggregating else waiting session left
  | polling _ _, ⟨.smembersProgress _, .error e, _⟩ => failing e
  | aggregating, ⟨.hset _ _, .ok _, _⟩ => fetching
  | aggregating, ⟨.hset _ _, .error e, _⟩ => failing e
  | fetching, ⟨.hgetallResults _, .ok results, _⟩ => rereading results
  | fetching, ⟨.hgetallResults _, .error e, _⟩ => failing e
  | rereading _, ⟨.hgetall _, .ok none, _⟩ =>
    failing { cls := .valueError, message := "Session lost: " ++ r.sessionId }
  | rereading results, ⟨.hgetall _, .ok (some h), _⟩ =>
    match SwarmSession.fromHash h with
    | .ok session => completing (aggregate config textSimilarity session results r.reportedAt)
    | .error e => failing e
  | rereading _, ⟨.hgetall _, .error e, _⟩ => failing e
  | completing report, ⟨.hset _ _, .ok _, _⟩ => timing report
  | completing _, ⟨.hset _ _, .error e, _⟩ => failing e
  | timing report, ⟨.hset _ _, .ok _, _⟩ => reporting report
  | timing _, ⟨.hset _ _, .error e, _⟩ => failing e
  | reporting report, ⟨.hset _ _, .ok _, _⟩ => publishing report
  | reporting _, ⟨.hset _ _, .error e, _⟩ => failing e
  | publishing _, ⟨.publish _ _ _, .ok _, _⟩ => closed (.ok ())
  | publishing _, ⟨.publish _ _ _, .error e, _⟩ => failing e
  | failing e, ⟨.hset _ _, .ok _, _⟩ => publishingFailure e
  | failing _, ⟨.hset _ _, .error e, _⟩ => closed (failed flow e)
  | publishingFailure e, ⟨.publish _ _ _, .ok _, _⟩ => closed (failed flow e)
  | publishingFailure _, ⟨.publish _ _ _, .error e, _⟩ => closed (failed flow e)
  | phase, _ => phase

/-- The session as it is created. -/
def created : SwarmSession where
  id := r.sessionId
  targetPath := r.targetPath
  reviewers := r.reviewers config
  status := .pending
  createdAt := r.createdAt

/-- The next command. -/
def command : Phase → Option Cmd
  | creating => some (.hset r.sessionId (created config r).mapping)
  | expiring => some (.expire (sessionKey config r.sessionId))
  | starting => some (.hset r.sessionId (.field .status .inProgress))
  | announcing => some (.publish "SWARM_STARTED" ("Swarm started: " ++ r.sessionId)
      ("Target: " ++ r.targetPath ++ ", Reviewers: " ++ listText (r.reviewers config)))
  | reading | rereading _ => some (.hgetall r.sessionId)
  | polling _ _ => some (.smembersProgress r.sessionId)
  | aggregating => some (.hset r.sessionId (.field .status .aggregating))
  | fetching => some (.hgetallResults r.sessionId)
  | completing _ => some (.hset r.sessionId (.field .status .complete))
  | timing _ => some (.hset r.sessionId (.field .completedAt (some r.completedAt)))
  | reporting report => some (.hset r.sessionId (.field .unifiedReport (some report)))
  | publishing report => some (.publish "SWARM_COMPLETE" ("Swarm complete: " ++ r.sessionId)
      ("Total findings: " ++ toString report.totalFindings))
  | failing _ => some (.hset r.sessionId (.field .status .failed))
  | publishingFailure e =>
    some (.publish "SWARM_FAILED" ("Swarm failed: " ++ r.sessionId) e.str)
  | closed _ => none

theorem head?_program (p : Phase) :
    (p.program config textSimilarity flow r).head? = p.command config r := by
  cases p with
  | creating => cases flow <;> rfl
  | failing e => cases flow <;> rfl
  | publishingFailure e => cases flow <;> rfl
  | closed result => cases result <;> rfl
  | _ => rfl

theorem program_waiting (session : SwarmSession) (polls : ℕ) :
    (waiting session polls).program config textSimilarity flow r = trying flow r (do
      let _ ← waitForCompletion r.sessionId session.reviewers polls
      updateStatus r.sessionId .aggregating
      let results ← send (.hgetallResults r.sessionId)
      reportSwarm config textSimilarity r results) := by
  cases polls <;> rfl

end Phase

/-- The machine that follows the coroutine of a swarm. -/
def dispatcher (config : SwarmConfig) (textSimilarity : Similarity) (flow : Flow)
    (r : SwarmRun) : Tracker interface Error Unit Phase where
  program := Phase.program config textSimilarity flow r
  next := Phase.next config textSimilarity flow r
  follows := by
    intro p c k h reply b
    cases p with
    | creating =>
      cases flow with
      | direct =>
        cases h
        cases reply with
        | error e => rfl
        | ok u =>
          simp [Phase.program, Phase.next, Phase.trying, updateStatus, SwarmRun.reviewers]
          rfl
      | background =>
        cases h
        cases reply with
        | error e => rfl
        | ok u =>
          simp [Phase.program, Phase.next, Phase.trying, processSwarm, updateStatus,
            SwarmRun.reviewers]
          rfl
    | expiring =>
      cases h
      cases reply <;> rfl
    | starting =>
      cases h
      cases reply <;> rfl
    | announcing =>
      cases h
      cases reply <;> rfl
    | reading =>
      cases h
      rcases reply with e | _ | hash
      · rfl
      · rfl
      · change _ = Phase.program config textSimilarity flow r
          (match SwarmSession.fromHash hash with
            | .ok session => Phase.waiting session config.aggregateTimeoutSeconds
            | .error e => .failing e)
        cases hread : SwarmSession.fromHash hash with
        | error e => simp [hread, Phase.program]
        | ok session =>
          rw [Phase.program_waiting]
          simp [hread, Phase.trying]
    | polling session left =>
      cases h
      cases reply with
      | error e => rfl
      | ok completed =>
        change _ = Phase.program config textSimilarity flow r
          (if session.reviewers.all (· ∈ completed) then .aggregating
            else .waiting session left)
        by_cases hall : session.reviewers.all (· ∈ completed) = true
        · simp only [answer_ok, elim_ret]
          rw [if_pos hall, if_pos hall]
          rfl
        · simp only [answer_ok, elim_ret]
          rw [if_neg hall, if_neg hall, Phase.program_waiting]
          simp [Phase.trying]
    | aggregating =>
      cases h
      cases reply <;> rfl
    | fetching =>
      cases h
      cases reply <;> rfl
    | rereading results =>
      cases h
      rcases reply with e | _ | hash
      · rfl
      · rfl
      · change _ = Phase.program config textSimilarity flow r
          (match SwarmSession.fromHash hash with
            | .ok session =>
              .completing (aggregate config textSimilarity session results r.reportedAt)
            | .error e => .failing e)
        cases hread : SwarmSession.fromHash hash with
        | error e => simp [hread, Phase.program]
        | ok session => simp [hread, Phase.program, Phase.trying]
    | completing report =>
      cases h
      cases reply with
      | error e => rfl
      | ok u => simp [Phase.program, Phase.next, Phase.trying]
    | timing report =>
      cases h
      cases reply <;> rfl
    | reporting report =>
      cases h
      cases reply <;> rfl
    | publishing report =>
      cases h
      cases reply <;> rfl
    | failing e =>
      cases flow <;> cases h <;> cases reply <;> rfl
    | publishingFailure e =>
      cases flow <;> cases h <;> cases reply <;> rfl
    | closed result => cases result <;> cases h

/-! ## What a command of the coroutine does -/

/-- The error of an outcome that has one. -/
def errorOf : Outcome Error → Option Error
  | .ok => none
  | .refused e | .lost e => some e

namespace Phase

/-- The phases outside the `try`, before it. -/
def dispatching : Phase → Bool
  | creating | expiring | starting | announcing => true
  | _ => false

/-- The phases inside the `try`. -/
def tried : Phase → Bool
  | reading | polling _ _ | aggregating | fetching | rereading _ | completing _ | timing _
  | reporting _ | publishing _ => true
  | _ => false

/-- What is written to the hash of the session. -/
def mapping (config : SwarmConfig) (r : SwarmRun) : Phase → Option SessionHash
  | creating => some (created config r).mapping
  | starting => some (.field .status .inProgress)
  | aggregating => some (.field .status .aggregating)
  | completing _ => some (.field .status .complete)
  | timing _ => some (.field .completedAt (some r.completedAt))
  | reporting report => some (.field .unifiedReport (some report))
  | failing _ => some (.field .status .failed)
  | _ => none

end Phase

section

variable (config : SwarmConfig) (textSimilarity : Similarity) (flow : Flow) (r : SwarmRun)

/-- The moves of the coroutine, from what is stored for its session. -/
inductive Moves (s : Stored) : Phase → Outcome Error → Phase → Prop where
  | undispatched {φ : Phase} {o : Outcome Error} {e : Error} (hφ : φ.dispatching = true)
      (ho : errorOf o = some e) : Moves s φ o (.closed (.error e))
  | created : Moves s .creating .ok .expiring
  | expires : Moves s .expiring .ok .starting
  | started : Moves s .starting .ok .announcing
  | announced : Moves s .announcing .ok .reading
  | fails {φ : Phase} {o : Outcome Error} {e : Error} (hφ : φ.tried = true)
      (ho : errorOf o = some e) : Moves s φ o (.failing e)
  | unread {e : Error} : Moves s .reading .ok (.failing e)
  | read {session : SwarmSession} :
      Moves s .reading .ok (.waiting session config.aggregateTimeoutSeconds)
  | all {session : SwarmSession} {left : ℕ} : Moves s (.polling session left) .ok .aggregating
  | polled {session : SwarmSession} {left : ℕ} :
      Moves s (.polling session left) .ok (.waiting session left)
  | aggregating : Moves s .aggregating .ok .fetching
  | fetched : Moves s .fetching .ok (.rereading s.results)
  | lost {results : Results} {e : Error} : Moves s (.rereading results) .ok (.failing e)
  | aggregated {results : Results} {session : SwarmSession} :
      Moves s (.rereading results) .ok
        (.completing (aggregate config textSimilarity session results r.reportedAt))
  | completed {report : UnifiedReport} : Moves s (.completing report) .ok (.timing report)
  | timed {report : UnifiedReport} : Moves s (.timing report) .ok (.reporting report)
  | reported {report : UnifiedReport} : Moves s (.reporting report) .ok (.publishing report)
  | published {report : UnifiedReport} : Moves s (.publishing report) .ok (.closed (.ok ()))
  | recorded {e : Error} : Moves s (.failing e) .ok (.publishingFailure e)
  | unrecorded {e e' : Error} {o : Outcome Error} (ho : errorOf o = some e') :
      Moves s (.failing e) o (.closed (Phase.failed flow e'))
  | failed {e : Error} {o : Outcome Error} {result : Except Error Unit} :
      Moves s (.publishingFailure e) o (.closed result)

variable {config textSimilarity flow r}

/-- The moves after a command that was answered. -/
theorem moves_ok {p : Phase} {c : Cmd} (hc : p.command config r = some c) (w : Store) :
    Moves config textSimilarity flow r (w r.sessionId) p .ok
      (Phase.next config textSimilarity flow r p (Store.serve.exchange .ok c w)) := by
  cases p with
  | creating =>
    cases hc
    exact .created
  | expiring =>
    cases hc
    exact .expires
  | starting =>
    cases hc
    exact .started
  | announcing =>
    cases hc
    exact .announced
  | reading =>
    cases hc
    have hread : ∀ found : Option SessionHash, Moves config textSimilarity flow r
        (w r.sessionId) .reading .ok (Phase.next config textSimilarity flow r .reading
          ⟨.hgetall r.sessionId, .ok found, true⟩) := by
      intro found
      cases found with
      | none => exact .unread
      | some h =>
        rw [Phase.next]
        cases SwarmSession.fromHash h with
        | ok session => exact .read
        | error e => exact .unread
    exact hread _
  | polling session left =>
    cases hc
    change Moves _ _ _ _ _ _ _ (if _ then _ else _)
    split
    · exact .all
    · exact .polled
  | aggregating =>
    cases hc
    exact .aggregating
  | fetching =>
    cases hc
    exact .fetched
  | rereading results =>
    cases hc
    have hread : ∀ found : Option SessionHash, Moves config textSimilarity flow r
        (w r.sessionId) (.rereading results) .ok (Phase.next config textSimilarity flow r
          (.rereading results) ⟨.hgetall r.sessionId, .ok found, true⟩) := by
      intro found
      cases found with
      | none => exact .lost
      | some h =>
        rw [Phase.next]
        cases SwarmSession.fromHash h with
        | ok session => exact .aggregated
        | error e => exact .lost
    exact hread _
  | completing report =>
    cases hc
    exact .completed
  | timing report =>
    cases hc
    exact .timed
  | reporting report =>
    cases hc
    exact .reported
  | publishing report =>
    cases hc
    exact .published
  | failing e =>
    cases hc
    exact .recorded
  | publishingFailure e =>
    cases hc
    exact .failed
  | closed result => cases hc

/-- The moves after a command that was not: the swarm fails if it is inside the `try`. -/
theorem moves_error {p : Phase} {c : Cmd} (hc : p.command config r = some c) {o : Outcome Error}
    {e : Error} (ho : errorOf o = some e) (w : Store) :
    Moves config textSimilarity flow r (w r.sessionId) p o
      (Phase.next config textSimilarity flow r p (Store.serve.exchange o c w)) := by
  cases o with
  | ok => cases ho
  | refused e' | lost e' =>
    cases p with
    | creating | expiring | starting | announcing =>
      cases hc
      exact .undispatched rfl rfl
    | failing =>
      cases hc
      exact .unrecorded rfl
    | publishingFailure =>
      cases hc
      exact .failed
    | closed => cases hc
    | _ =>
      cases hc
      exact .fails rfl rfl

/-- The machine makes no other moves. -/
theorem moves_next {p : Phase} {c : Cmd} (hc : p.command config r = some c) (o : Outcome Error)
    (w : Store) :
    Moves config textSimilarity flow r (w r.sessionId) p o
      (Phase.next config textSimilarity flow r p (Store.serve.exchange o c w)) := by
  cases o with
  | ok => exact moves_ok hc w
  | refused e | lost e => exact moves_error hc rfl w

/-- What a session is after a command of the coroutine. -/
def Phase.written (p : Phase) (config : SwarmConfig) (r : SwarmRun) (o : Outcome Error)
    (s : Stored) : Stored :=
  match o.effective, p.mapping config r with
  | true, some m => s.write m
  | _, _ => s

theorem stored_command {p : Phase} {c : Cmd} (hc : p.command config r = some c)
    (o : Outcome Error) (w : Store) :
    (Store.serve.perform o c w).1 r.sessionId = p.written config r o (w r.sessionId) := by
  have hwrite : ∀ m, (Store.serve.perform o (.hset r.sessionId m) w).1 r.sessionId
      = match o.effective, some m with
        | true, some m => (w r.sessionId).write m
        | _, _ => w r.sessionId := by
    intro m
    rw [Server.perform_state]
    cases o.effective with
    | false => rfl
    | true => exact Function.update_self _ _ _
  have hquiet : ∀ c, (∀ w', (Store.serve c w').1 = w') →
      (Store.serve.perform o c w).1 r.sessionId = w r.sessionId := by
    intro c hserve
    rw [Server.perform_state, hserve, ite_self]
  unfold Phase.written
  cases p with
  | creating | starting | aggregating | completing _ | timing _ | reporting _ | failing _ =>
    cases hc
    exact hwrite _
  | closed result => cases hc
  | _ =>
    cases hc
    rw [hquiet _ fun _ => rfl]
    cases o.effective <;> rfl

end

/-! ## A swarm at work -/

/-- The commands that write nothing of a session. -/
def Spares (sessionId : String) : Cmd → Prop
  | .hset id _ | .hsetResult id _ _ | .saddProgress id _ => id ≠ sessionId
  | _ => True

/-- The commands that do not write the hash of a session. -/
def LeavesSession (sessionId : String) (c : Cmd) : Prop := ∀ m, c ≠ .hset sessionId m

/-- Anybody else: such a client may read the session, and writes other ones only. -/
structure Bystander (sessionId : String) where
  program : Async Unit
  spares : program.Uses (Spares sessionId)

/-- A swarm among others, with a session of its own. -/
structure System (κ : Type) where
  config : SwarmConfig
  textSimilarity : Similarity
  flow : Flow
  swarm : SwarmRun
  registry : Registry
  outcomes : ℕ → Except Error ReviewerResult
  others : κ → Bystander swarm.sessionId
  store : Store
  fresh : store swarm.sessionId = .empty

/-- The clients: the coroutine of the swarm, the tasks it starts, and the others. -/
inductive Client (κ : Type) where
  | dispatcher
  | reviewer (i : ℕ)
  | other (k : κ)
  deriving DecidableEq

namespace System

variable {κ : Type} (sys : System κ)

/-- What a client runs.  A task that is scheduled before it is started only makes for more
runs. -/
def program : Client κ → Async Unit
  | .dispatcher => sys.flow.program sys.config sys.textSimilarity sys.swarm
  | .reviewer i =>
    match (sys.swarm.spawned sys.config sys.registry)[i]? with
    | none => .ret ()
    | some reviewerType =>
      runReviewer sys.config sys.swarm.sessionId reviewerType (sys.outcomes i)
  | .other k => (sys.others k).program

/-- The clients together. -/
abbrev Pool (κ : Type) := Config interface Store Error Unit (Client κ)

/-- What may happen. -/
abbrev Happening (κ : Type) := Action (Client κ) Error Expiry

/-- All clients at their beginning. -/
def start : Pool κ := Config.start sys.store sys.program

variable [DecidableEq κ]

/-- One step. -/
abbrev step (cfg : Pool κ) (a : Happening κ) : Pool κ := cfg.step Store.serve Store.expire a

/-- What is stored for the session. -/
def stored (cfg : Pool κ) : Stored := cfg.store sys.swarm.sessionId

/-- Where the coroutine of the swarm stands. -/
def phase (cfg : Pool κ) : Phase :=
  (Swarm.dispatcher sys.config sys.textSimilarity sys.flow sys.swarm).after .creating
    (cfg.history .dispatcher)

/-- The coroutine is followed, and nobody else writes the hash of the session. -/
structure Running (cfg : Pool κ) : Prop where
  follows : cfg.Follows (Swarm.dispatcher sys.config sys.textSimilarity sys.flow sys.swarm)
    .creating .dispatcher
  aside : ∀ j, j ≠ .dispatcher → (cfg.threads j).Uses (LeavesSession sys.swarm.sessionId)

end System

/-- A reviewer writes its result and no session. -/
theorem uses_runReviewer (config : SwarmConfig) (sessionId id reviewerType : String)
    (outcome : Except Error ReviewerResult) :
    (runReviewer config id reviewerType outcome).Uses (LeavesSession sessionId) := by
  have hquiet : ∀ c : Cmd, LeavesSession sessionId c → (send c).Uses (LeavesSession sessionId) :=
    fun _ hc => uses_command hc
  have hstore : ∀ result, (storeReviewerResult config id reviewerType result).Uses
      (LeavesSession sessionId) := fun _ =>
    uses_bind (hquiet _ nofun) fun _ => uses_bind (hquiet _ nofun) fun _ =>
      uses_bind (hquiet _ nofun) fun _ => hquiet _ nofun
  cases outcome <;> exact uses_bind (hstore _) fun _ => hquiet _ nofun

/-- What a step leaves of a session that it does not write: the hash may be gone. -/
structure Aside (s s' : Stored) : Prop where
  session : s'.session = s.session ∨ s'.session = none
  statuses : s'.statuses = s.statuses

namespace System

variable {κ : Type} [DecidableEq κ] {sys : System κ} {cfg : Pool κ}

omit [DecidableEq κ] in
theorem running_start : sys.Running sys.start := by
  refine ⟨Config.follows_start _ _ rfl, fun j hj => ?_⟩
  cases j with
  | dispatcher => exact absurd rfl hj
  | reviewer i =>
    change (sys.program (.reviewer i)).Uses _
    rw [program]
    cases (sys.swarm.spawned sys.config sys.registry)[i]? with
    | none => exact uses_ret ()
    | some reviewerType => exact uses_runReviewer _ _ _ _ _
  | other k =>
    refine (sys.others k).spares.mono fun c hc m hm => ?_
    subst hm
    exact hc rfl

theorem Running.step (h : sys.Running cfg) (a : Happening κ) : sys.Running (step cfg a) :=
  ⟨h.follows.step _ _ a, fun j hj => Config.uses_step (h.aside j hj) _ _ a⟩

omit [DecidableEq κ] in
theorem aside_update {f : Stored → Stored} (hf : ∀ s, Aside s (f s)) (w : Store)
    (sessionId id : String) :
    Aside (w sessionId) (Function.update w id (f (w id)) sessionId) := by
  by_cases hid : sessionId = id
  · subst hid
    rw [Function.update_self]
    exact hf _
  · rw [Function.update_of_ne hid]
    exact ⟨.inl rfl, rfl⟩

omit [DecidableEq κ] in
/-- A command that does not write the hash of a session leaves it aside. -/
theorem aside_serve {sessionId : String} {c : Cmd} (hc : LeavesSession sessionId c)
    (o : Outcome Error) (w : Store) :
    Aside (w sessionId) ((Store.serve.perform o c w).1 sessionId) := by
  rw [Server.perform_state]
  split
  · cases c with
    | hset id m =>
      have hid : sessionId ≠ id := fun h => hc m (h ▸ rfl)
      change Aside _ (Function.update w id _ sessionId)
      rw [Function.update_of_ne hid]
      exact ⟨.inl rfl, rfl⟩
    | hsetResult id ty result =>
      exact aside_update (f := fun s => s.withResult ty result) (fun _ => ⟨.inl rfl, rfl⟩) w
        sessionId id
    | saddProgress id ty =>
      exact aside_update (f := fun s => s.withProgress ty) (fun _ => ⟨.inl rfl, rfl⟩) w
        sessionId id
    | _ => exact ⟨.inl rfl, rfl⟩
  · exact ⟨.inl rfl, rfl⟩

omit [DecidableEq κ] in
/-- The end of a key leaves a session aside. -/
theorem aside_expire (sessionId : String) (e : Expiry) (w : Store) :
    Aside (w sessionId) (Store.expire e w sessionId) := by
  cases e with
  | session id =>
    exact aside_update (f := fun s => { s with session := none }) (fun _ => ⟨.inr rfl, rfl⟩) w
      sessionId id
  | results id =>
    exact aside_update (f := fun s => { s with results := ∅ }) (fun _ => ⟨.inl rfl, rfl⟩) w
      sessionId id
  | progress id =>
    exact aside_update (f := fun s => { s with progress := .empty }) (fun _ => ⟨.inl rfl, rfl⟩)
      w sessionId id

/-- **What a step does to the session**: it is the coroutine's next command, or it moves
nothing and leaves the session aside. -/
theorem Running.step_cases (h : sys.Running cfg) (a : Happening κ) :
    (∃ o, a = .run .dispatcher o ∧
      cfg.next? .dispatcher = (sys.phase cfg).command sys.config sys.swarm ∧
      Moves sys.config sys.textSimilarity sys.flow sys.swarm (sys.stored cfg) (sys.phase cfg) o
        (sys.phase (System.step cfg a)) ∧
      sys.stored (System.step cfg a)
        = (sys.phase cfg).written sys.config sys.swarm o (sys.stored cfg)) ∨
    ((∀ o, a = .run .dispatcher o → cfg.next? .dispatcher = none) ∧
      sys.phase (System.step cfg a) = sys.phase cfg ∧
      Aside (sys.stored cfg) (sys.stored (System.step cfg a))) := by
  obtain ⟨o, c, ha, hn, hhead, hstore, hphase⟩ | ⟨hn, hphase, hrest⟩ :=
    h.follows.step_after Store.serve Store.expire a
  · have hc : (sys.phase cfg).command sys.config sys.swarm = some c :=
      (Phase.head?_program _ _ _ _ _).symm.trans hhead
    refine .inl ⟨o, ha, hn.trans hc.symm, ?_, ?_⟩
    · have hnext : sys.phase (System.step cfg a) = Phase.next _ _ _ _ (sys.phase cfg) _ := hphase
      rw [hnext]
      exact moves_next hc o cfg.store
    · rw [stored, hstore]
      exact stored_command hc o cfg.store
  · refine .inr ⟨hn, hphase, ?_⟩
    rcases hrest with hstore | ⟨i, o, c, k, hi, -, hp, hstore⟩ | ⟨e, -, hstore⟩
    · rw [stored, stored, hstore]
      exact ⟨.inl rfl, rfl⟩
    · have hc := h.aside i hi
      rw [hp] at hc
      rw [stored, stored, hstore]
      exact aside_serve hc.1 o cfg.store
    · rw [stored, stored, hstore]
      exact aside_expire _ e cfg.store

end System

end DoxAsdlc.Swarm
