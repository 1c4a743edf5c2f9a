import DoxAsdlc.Interaction.Pool
import DoxAsdlc.Redis.Hash
import DoxAsdlc.Redis.MemberSet
import DoxAsdlc.Swarm.Models

/-!
# Sessions in Redis

A session is a hash.  The results of its reviewers are a second hash, and the reviewers
that are through are a set; all three keys carry the id of the session, and all three
expire.  The statuses that were ever stored for a session are kept beside it, so that
statements can speak about them.

## Main definitions

* `Stored`, `Store`, `Cmd` — what is stored, and the commands.
* `SwarmSession.fromHash`, `getSession` — a session is read.
* `createSession`, `updateStatus`, `storeReviewerResult`, `waitForCompletion` — what the
  session manager and the store do.
-/

namespace DoxAsdlc.Swarm

open Interaction Interaction.Program

deriving instance DecidableEq for SwarmSession

/-- The fields of the hash of a session. -/
inductive SessionField where
  | id | targetPath | reviewers | status | createdAt | completedAt | unifiedReport
  deriving DecidableEq, Repr

namespace SessionField

/-- What a field holds: no completion time and no report are stored as empty texts. -/
abbrev Value : SessionField → Type
  | id | targetPath => String
  | reviewers => List String
  | status => SwarmStatus
  | createdAt => Time
  | completedAt => Option Time
  | unifiedReport => Option UnifiedReport

/-- The name of a field. -/
def name : SessionField → String
  | id => "id"
  | targetPath => "target_path"
  | reviewers => "reviewers"
  | status => "status"
  | createdAt => "created_at"
  | completedAt => "completed_at"
  | unifiedReport => "unified_report"

end SessionField

abbrev SessionHash := Redis.Hash SessionField.Value

/-- Results by reviewer type. -/
abbrev Results := AList fun _ : String => ReviewerResult

/-! ## The store -/

/-- What is stored for one session, and the statuses it has had, the first one first. -/
structure Stored where
  session : Option SessionHash
  results : Results
  progress : Redis.MemberSet String
  statuses : List SwarmStatus

/-- A session that was never created. -/
def Stored.empty : Stored := ⟨none, ∅, .empty, []⟩

/-- Sessions by id. -/
abbrev Store := String → Stored

inductive Cmd where
  | hset (sessionId : String) (mapping : SessionHash)
  | expire (key : String)
  | hgetall (sessionId : String)
  | hsetResult (sessionId reviewerType : String) (result : ReviewerResult)
  | saddProgress (sessionId reviewerType : String)
  | smembersProgress (sessionId : String)
  | hgetallResults (sessionId : String)
  | publish (msgType subject description : String)

abbrev Reply : Cmd → Type
  | .hgetall _ => Option SessionHash
  | .smembersProgress _ => Redis.MemberSet String
  | .hgetallResults _ => Results
  | _ => Unit

abbrev interface : Interface := ⟨Cmd, Reply⟩

namespace Stored

/-- A write to the hash of the session. -/
def write (s : Stored) (mapping : SessionHash) : Stored :=
  { s with
    session := Redis.hset s.session mapping
    statuses := s.statuses ++ (mapping .status).toList }

/-- A result. -/
def withResult (s : Stored) (reviewerType : String) (result : ReviewerResult) : Stored :=
  { s with results := s.results.insert reviewerType result }

/-- A reviewer that is through. -/
def withProgress (s : Stored) (reviewerType : String) : Stored :=
  { s with progress := s.progress.sadd reviewerType }

end Stored

/-- What each command does.  Messages go elsewhere, and when a key expires is up to the
environment. -/
def Store.serve : Server interface Store
  | .hset sessionId mapping, w =>
    (Function.update w sessionId ((w sessionId).write mapping), ())
  | .expire _, w => (w, ())
  | .hgetall sessionId, w => (w, (w sessionId).session)
  | .hsetResult sessionId reviewerType result, w =>
    (Function.update w sessionId ((w sessionId).withResult reviewerType result), ())
  | .saddProgress sessionId reviewerType, w =>
    (Function.update w sessionId ((w sessionId).withProgress reviewerType), ())
  | .smembersProgress sessionId, w => (w, (w sessionId).progress)
  | .hgetallResults sessionId, w => (w, (w sessionId).results)
  | .publish _ _ _, w => (w, ())

/-- The keys that expire. -/
inductive Expiry where
  | session (sessionId : String)
  | results (sessionId : String)
  | progress (sessionId : String)
  deriving DecidableEq, Repr

/-- A key expires. -/
def Store.expire : Expiry → Store → Store
  | .session sessionId, w =>
    Function.update w sessionId { w sessionId with session := none }
  | .results sessionId, w =>
    Function.update w sessionId { w sessionId with results := ∅ }
  | .progress sessionId, w =>
    Function.update w sessionId { w sessionId with progress := .empty }

abbrev Async (α : Type) := Program interface Error α

abbrev send (c : Cmd) : Async (Reply c) := command (I := interface) c

/-! ## Keys -/

variable (config : SwarmConfig)

/-- `_session_key`. -/
def sessionKey (sessionId : String) : String := config.keyPrefix ++ ":session:" ++ sessionId

/-- `_results_key`. -/
def resultsKey (sessionId : String) : String := config.keyPrefix ++ ":results:" ++ sessionId

/-- `_progress_key`. -/
def progressKey (sessionId : String) : String := config.keyPrefix ++ ":progress:" ++ sessionId

/-! ## Reading a session -/

/-- `data[name]`. -/
def required (h : SessionHash) (f : SessionField) : Except Error f.Value :=
  match h f with
  | some v => .ok v
  | none => .error { cls := .keyError, message := f.name }

/-- A session from its hash. -/
def SwarmSession.fromHash (h : SessionHash) : Except Error SwarmSession := do
  let id ← required h .id
  let targetPath ← required h .targetPath
  let reviewers ← required h .reviewers
  let status ← required h .status
  match h .createdAt with
  | none => throw { cls := .valueError, message := "1 validation error for SwarmSession" }
  | some createdAt =>
    return {
      id := id
      targetPath := targetPath
      reviewers := reviewers
      status := status
      createdAt := createdAt
      completedAt := (h .completedAt).join
      unifiedReport := (h .unifiedReport).join }

/-- What a read of the session comes to. -/
def Stored.read (s : Stored) : Except Error (Option SwarmSession) :=
  match s.session with
  | none => .ok none
  | some h => (SwarmSession.fromHash h).map some

theorem required_eq_ok {h : SessionHash} {f : SessionField} {v : f.Value} :
    required h f = .ok v ↔ h f = some v := by
  unfold required
  cases h f <;> simp

/-- A session that is read has its fields from the hash. -/
theorem SwarmSession.fromHash_eq_ok {h : SessionHash} {session : SwarmSession}
    (hs : SwarmSession.fromHash h = .ok session) :
    h .id = some session.id ∧ h .reviewers = some session.reviewers ∧
      h .status = some session.status ∧ session.completedAt = (h .completedAt).join ∧
      session.unifiedReport = (h .unifiedReport).join := by
  simp only [fromHash, bind_eq_ok] at hs
  obtain ⟨id, hid, targetPath, -, reviewers, hreviewers, status, hstatus, hs⟩ := hs
  cases hcreated : h .createdAt with
  | none =>
    rw [hcreated] at hs
    cases hs
  | some createdAt =>
    rw [hcreated] at hs
    cases hs
    exact ⟨required_eq_ok.mp hid, required_eq_ok.mp hreviewers, required_eq_ok.mp hstatus, rfl, rfl⟩

theorem Stored.read_eq_some {s : Stored} {session : SwarmSession}
    (hs : s.read = .ok (some session)) :
    ∃ h, s.session = some h ∧ SwarmSession.fromHash h = .ok session := by
  unfold Stored.read at hs
  cases hhash : s.session with
  | none =>
    rw [hhash] at hs
    cases hs
  | some h =>
    rw [hhash] at hs
    change (SwarmSession.fromHash h).map some = .ok (some session) at hs
    refine ⟨h, rfl, ?_⟩
    cases hread : SwarmSession.fromHash h with
    | error e =>
      rw [hread] at hs
      cases hs
    | ok found =>
      rw [hread] at hs
      cases hs
      rfl

/-- `get_session`. -/
def getSession (sessionId : String) : Async (Option SwarmSession) := do
  match ← send (.hgetall sessionId) with
  | none => return none
  | some h => do
      let session ← answer (SwarmSession.fromHash h)
      return some session

/-! ## Writing a session -/

/-- The hash of a session. -/
def SwarmSession.mapping (session : SwarmSession) : SessionHash
  | .id => some session.id
  | .targetPath => some session.targetPath
  | .reviewers => some session.reviewers
  | .status => some session.status
  | .createdAt => some session.createdAt
  | .completedAt => some session.completedAt
  | .unifiedReport => some session.unifiedReport

/-- The reviewers that were asked for, or the default ones. -/
def requestedReviewers : Option (List String) → List String
  | none | some [] => config.defaultReviewers
  | some types => types

/-- `create_session`; the id and the time are readings of the environment. -/
def createSession (sessionId : String) (now : Time) (targetPath : String)
    (reviewerTypes : Option (List String)) : Async SwarmSession := do
  let session : SwarmSession := {
    id := sessionId
    targetPath := targetPath
    reviewers := requestedReviewers config reviewerTypes
    status := .pending
    createdAt := now }
  send (.hset sessionId session.mapping)
  send (.expire (sessionKey config sessionId))
  return session

/-- `update_status`. -/
def updateStatus (sessionId : String) (status : SwarmStatus)
    (completedAt : Option Time := none) : Async Unit := do
  send (.hset sessionId (.field .status status))
  match completedAt with
  | none => pure ()
  | some now => send (.hset sessionId (.field .completedAt (some now)))

/-! ## Results -/

/-- `store_reviewer_result`. -/
def storeReviewerResult (sessionId reviewerType : String) (result : ReviewerResult) :
    Async Unit := do
  send (.hsetResult sessionId reviewerType result)
  send (.saddProgress sessionId reviewerType)
  send (.expire (resultsKey config sessionId))
  send (.expire (progressKey config sessionId))

/-- `wait_for_completion`, by the polls that are left: there is one each second. -/
def waitForCompletion (sessionId : String) (expectedReviewers : List String) : ℕ → Async Bool
  | 0 => return false
  | polls + 1 => do
      let completed ← send (.smembersProgress sessionId)
      if expectedReviewers.all (· ∈ completed) then return true
      else waitForCompletion sessionId expectedReviewers polls

end DoxAsdlc.Swarm
