import DoxAsdlc.Coordination.Presence
import Mathlib.Data.List.DropRight

/-!
# The presence after calls

An instance is present from its registration until it is unregistered, with the session id of its
latest registration and the time of its latest heartbeat.  But a registration without a session id
leaves the one of an earlier registration where it is, and a heartbeat of an instance that is not
registered makes it present.

## Main definitions

* `expected` — the presence that calls are to lead to.
* `InOrder` — the calls of an instance that lead to it.

## Main results

* `readPresence_exact` — when the presence is what it is to be.
-/

namespace DoxAsdlc.Coordination

open Redis

/-! ## What is to be present -/

namespace PresenceCall

/-- The instance of a call. -/
def instanceId : PresenceCall → String
  | register _ id _ | heartbeat _ id | unregister id => id

/-- The call unregisters its instance. -/
def unregisters : PresenceCall → Bool
  | unregister _ => true
  | _ => false

/-- The session id of a registration, if it has one. -/
def session? : PresenceCall → Option (Option String)
  | register _ _ sessionId => some (given sessionId)
  | _ => none

end PresenceCall

/-- The calls of an instance. -/
def own (id : String) (calls : List PresenceCall) : List PresenceCall :=
  calls.filter fun c => c.instanceId = id

/-- An instance that is registered: its session id, and its latest heartbeat. -/
structure Registration where
  sessionId : Option String
  heartbeat : Time

/-- What a call of an instance makes of its registration. -/
def Registration.next : Option Registration → PresenceCall → Option Registration
  | _, .register now _ sessionId => some ⟨given sessionId, wholeSeconds now⟩
  | r, .heartbeat now _ => r.map fun r => { r with heartbeat := wholeSeconds now }
  | _, .unregister _ => none

/-- A record with a heartbeat. -/
def recordOf (active : Option Bool) (heartbeat : Time) (sessionId : Option String) : PresenceHash
  | .active => active
  | .lastHeartbeat => some heartbeat
  | .sessionId => sessionId

/-- The presence that calls are to lead to: of an instance that was registered and not unregistered
since, the session id of its latest registration and its latest heartbeat; it is active if that is
not too long ago. -/
def expected (now : Time) (timeoutMinutes : ℤ) (calls : List PresenceCall) (id : String) :
    Option PresenceInfo :=
  ((own id calls).foldl Registration.next none).map fun r =>
    presenceInfo now timeoutMinutes id (recordOf (some true) r.heartbeat r.sessionId)

/-- The calls since an instance was last unregistered. -/
def sinceUnregistered (l : List PresenceCall) : List PresenceCall :=
  l.rtakeWhile fun c => !c.unregisters

/-- The session ids of the registrations since then. -/
def sessions (l : List PresenceCall) : List (Option String) :=
  (sinceUnregistered l).filterMap PresenceCall.session?

/-- The calls of an instance, since it was last unregistered: there is a registration among them if
there are any, and if the last one has no session id, none has. -/
structure InOrder (l : List PresenceCall) : Prop where
  registered : sinceUnregistered l ≠ [] → sessions l ≠ []
  renewed : (sessions l).getLast? = some none → ∀ s ∈ sessions l, s = none

/-! ## What the calls of an instance lead to -/

/-- What a call of an instance makes of its record. -/
def PresenceCall.onRecord : Option PresenceHash → PresenceCall → Option PresenceHash
  | r, register now _ sessionId => hset r (registration now sessionId)
  | r, heartbeat now _ => hset r (.field .lastHeartbeat (wholeSeconds now))
  | _, unregister _ => none

/-- The record of an instance depends on its own calls. -/
theorem foldl_onKeys (calls : List PresenceCall) (p : Keys String PresenceHash) (id : String) :
    calls.foldl PresenceCall.onKeys p id = (own id calls).foldl PresenceCall.onRecord (p id) := by
  induction calls generalizing p with
  | nil => rfl
  | cons c calls ih =>
    rw [List.foldl_cons, ih]
    by_cases hid : c.instanceId = id
    · have hown : own id (c :: calls) = c :: own id calls := by simp [own, hid]
      rw [hown, List.foldl_cons]
      cases c <;> cases hid <;>
        simp [PresenceCall.onKeys, PresenceCall.onRecord, PresenceCall.instanceId]
    · have hown : own id (c :: calls) = own id calls := by simp [own, hid]
      have hsame : c.onKeys p id = p id := by
        cases c <;> simp [PresenceCall.onKeys, Keys.modify_apply] <;>
          exact fun h => absurd h.symm hid
      rw [hown, hsame]

theorem registration_eq (now : Time) (sessionId : Option String) :
    registration now sessionId = recordOf (some true) (wholeSeconds now) (given sessionId) := by
  ext f : 1
  cases f <;> rfl

theorem field_eq (t : Time) :
    (Hash.field .lastHeartbeat t : PresenceHash) = recordOf none t none := by
  ext f : 1
  cases f <;> simp [recordOf]

theorem overlay_recordOf (a b : Option Bool) (t u : Time) (s s' : Option String) :
    (recordOf a t s).overlay (recordOf b u s') = recordOf (b.or a) u (s'.or s) := by
  ext f : 1
  cases f <;> simp [recordOf, Hash.overlay_apply]

theorem sinceUnregistered_concat (l : List PresenceCall) (c : PresenceCall) :
    sinceUnregistered (l ++ [c]) = if c.unregisters then [] else sinceUnregistered l ++ [c] := by
  cases h : c.unregisters <;> simp [sinceUnregistered, h]

theorem sessions_concat (l : List PresenceCall) (c : PresenceCall) :
    sessions (l ++ [c]) = if c.unregisters then [] else sessions l ++ c.session?.toList := by
  rw [sessions, sinceUnregistered_concat]
  split
  · rfl
  · cases hc : c.session? <;> simp [sessions, hc]

/-- The last session id that was given since the instance was last unregistered. -/
def lastGiven (l : List PresenceCall) : Option String := ((sessions l).filterMap id).getLast?

/-- Where the calls of an instance lead to. -/
inductive Stage (l : List PresenceCall) : Prop where
  | gone (hsince : sinceUnregistered l = []) (hrecord : l.foldl PresenceCall.onRecord none = none)
      (hnext : l.foldl Registration.next none = none)
  | beating (t : Time) (hsince : sinceUnregistered l ≠ []) (hsessions : sessions l = [])
      (hrecord : l.foldl PresenceCall.onRecord none = some (recordOf none t none))
      (hnext : l.foldl Registration.next none = none)
  | registered (s : Option String) (t : Time) (hlast : (sessions l).getLast? = some s)
      (hrecord : l.foldl PresenceCall.onRecord none = some (recordOf (some true) t (lastGiven l)))
      (hnext : l.foldl Registration.next none = some ⟨s, t⟩)

namespace Stage

variable {l : List PresenceCall}

theorem unregister (id : String) : Stage (l ++ [.unregister id]) :=
  .gone (by simp [sinceUnregistered_concat, PresenceCall.unregisters])
    (by simp [PresenceCall.onRecord]) (by simp [Registration.next])

/-- A heartbeat leaves the session ids as they are. -/
theorem heartbeat (hl : Stage l) (now : Time) (id : String) : Stage (l ++ [.heartbeat now id]) := by
  have hne : sinceUnregistered (l ++ [.heartbeat now id]) ≠ [] := by
    simp [sinceUnregistered_concat, PresenceCall.unregisters]
  have hsame : sessions (l ++ [.heartbeat now id]) = sessions l := by
    simp [sessions_concat, PresenceCall.unregisters, PresenceCall.session?]
  cases hl with
  | gone hsince hrecord hnext =>
    refine .beating (wholeSeconds now) hne ?_ ?_ ?_
    · rw [hsame, sessions, hsince, List.filterMap_nil]
    · simp [hrecord, PresenceCall.onRecord, hset, field_eq]
    · simp [hnext, Registration.next]
  | beating t _ hsessions hrecord hnext =>
    refine .beating (wholeSeconds now) hne (hsame.trans hsessions) ?_ ?_
    · simp [hrecord, PresenceCall.onRecord, hset, field_eq, overlay_recordOf]
    · simp [hnext, Registration.next]
  | registered s t hlast hrecord hnext =>
    refine .registered s (wholeSeconds now) (hsame ▸ hlast) ?_ ?_
    · simp [hrecord, PresenceCall.onRecord, hset, field_eq, overlay_recordOf, lastGiven, hsame]
    · simp [hnext, Registration.next]

/-- A registration puts its session id over the last one that was given. -/
theorem register (hl : Stage l) (now : Time) (id : String) (sessionId : Option String) :
    Stage (l ++ [.register now id sessionId]) := by
  have hsessions : sessions (l ++ [.register now id sessionId]) =
      sessions l ++ [given sessionId] := by
    simp [sessions_concat, PresenceCall.unregisters, PresenceCall.session?]
  have hgiven : lastGiven (l ++ [.register now id sessionId]) =
      (given sessionId).or (lastGiven l) := by
    rw [lastGiven, lastGiven, hsessions, List.filterMap_append, List.getLast?_append]
    cases given sessionId <;> rfl
  refine .registered (given sessionId) (wholeSeconds now) (by simp [hsessions]) ?_
    (by simp [Registration.next])
  rw [List.foldl_concat, hgiven, PresenceCall.onRecord, registration_eq]
  cases hl with
  | gone hsince hrecord _ => simp [hrecord, hset, lastGiven, sessions, hsince]
  | beating t _ hnil hrecord _ => simp [hrecord, hset, lastGiven, hnil, overlay_recordOf]
  | registered s t _ hrecord _ => simp [hrecord, hset, overlay_recordOf]

end Stage

theorem stage (l : List PresenceCall) : Stage l := by
  induction l using List.reverseRecOn with
  | nil => exact .gone rfl rfl rfl
  | append_singleton l c ih =>
    cases c with
    | register now id sessionId => exact ih.register now id sessionId
    | heartbeat now id => exact ih.heartbeat now id
    | unregister id => exact .unregister id

/-! ## When the presence is what it is to be -/

/-- The last of some values that is there is the last one, if none is there when it is not. -/
theorem getLast?_filterMap_id {α : Type} {l : List (Option α)} {a : Option α}
    (h : l.getLast? = some a) :
    (l.filterMap id).getLast? = a ↔ (l.getLast? = some none → ∀ x ∈ l, x = none) := by
  obtain ⟨l, rfl⟩ := List.getLast?_eq_some_iff.mp h
  cases a with
  | none => simp [or_imp]
  | some a => simp

theorem presenceInfo_session (now : Time) (timeout : ℤ) (id : String) (r : PresenceHash) :
    (presenceInfo now timeout id r).sessionId = r .sessionId := by
  simp only [presenceInfo]
  split <;> rfl

/-- **The presence is what the calls are to lead to** exactly when the calls of each instance are in
order. -/
theorem readPresence_exact (order : IterationOrder (String × FieldText))
    (config : CoordinationConfig) (now : Time) (timeoutMinutes : Option ℤ)
    (calls : List PresenceCall) :
    ∃ result, readPresence order config now timeoutMinutes
        (calls.foldl PresenceCall.onHash .empty) = some result ∧
      (result.map Prod.fst).Nodup ∧ ∀ id,
        ((∀ info, (id, info) ∈ result ↔
          expected now (effectiveTimeout config timeoutMinutes) calls id = some info) ↔
            InOrder (own id calls)) := by
  obtain ⟨result, hread, hnodup, hmem⟩ :=
    (represents_empty.run calls).readPresence order config now timeoutMinutes
  refine ⟨result, hread, hnodup, fun id => ?_⟩
  simp only [hmem, foldl_onKeys, ← Option.ext_iff, expected]
  cases stage (own id calls) with
  | gone hsince hrecord hnext =>
    rw [hrecord, hnext]
    exact iff_of_true rfl ⟨absurd hsince, by simp [sessions, hsince]⟩
  | beating t hsince hsessions hrecord hnext =>
    rw [hrecord, hnext]
    exact iff_of_false nofun fun h => h.registered hsince hsessions
  | registered s t hlast hrecord hnext =>
    have hne : sessions (own id calls) ≠ [] := by
      intro hnil
      simp [hnil] at hlast
    rw [hrecord, hnext, Option.map_some, Option.map_some, Option.some_inj]
    constructor
    · intro h
      have hsession := congrArg PresenceInfo.sessionId h
      rw [presenceInfo_session, presenceInfo_session] at hsession
      exact ⟨fun _ => hne, (getLast?_filterMap_id hlast).mp hsession⟩
    · intro h
      rw [lastGiven, (getLast?_filterMap_id hlast).mpr h.renewed]

/-- A registration without a session id has the session id of the one before. -/
theorem inherited_session :
    let calls := [.register 0 "orchestrator" (some "session-1"), .register 0 "orchestrator" none]
    ∃ result info,
      readPresence .asAnswered {} 0 none (calls.foldl PresenceCall.onHash .empty) = some result ∧
      ("orchestrator", info) ∈ result ∧
      expected 0 (effectiveTimeout {} none) calls "orchestrator" ≠ some info :=
  ⟨[("orchestrator", ⟨"orchestrator", true, 0, some "session-1"⟩)],
    ⟨"orchestrator", true, 0, some "session-1"⟩, by decide, by decide,
    by decide⟩

end DoxAsdlc.Coordination
