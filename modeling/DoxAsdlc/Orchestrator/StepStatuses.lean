import DoxAsdlc.Orchestrator.DevOpsActivity
import Mathlib.Data.List.DropRight

/-!
# What the steps of an activity show

The updates of the steps are applied after all other messages, also those that came after the
message that ended the activity.  So a step of an ended activity may be running, and what a step
shows is its last update before the end if it is the first of its updates of the latest instant, or
says the same.

## Main definitions

* `Post`, `Thread` — what the messages say about an activity, from its last start on.
* `Upheld` — what the steps of an activity are to show.
* `Settled` — a thread of which they show it.

## Main results

* `buildActivities_thread` — an activity is what its thread leads to.
* `upheld_iff` — when the steps show what they are to.
-/

namespace DoxAsdlc.Orchestrator.DevOps

open JsonText Swarm.ResponseParser Coordination

/-! ## Threads -/

/-- Instants are compared as integers. -/
local instance : Preorder Time := Int.instLinearOrder.toPreorder

/-- What a message says about an activity. -/
inductive Post where
  | started (activity : DevOpsActivity)
  | updated (update : StepUpdate)
  | completed (timestamp : Time)
  | failed (timestamp : Time) (error : Value)

namespace Post

/-- The update of a step. -/
def update? : Post → Option StepUpdate
  | updated update => some update
  | _ => none

/-- The message ends the activity. -/
def terminal : Post → Bool
  | completed _ | failed _ _ => true
  | _ => false

/-- The activity is complete. -/
def completes : Post → Bool
  | completed _ => true
  | _ => false

end Post

section

variable (maxDigits depth : ℕ)

/-- What a message says about an activity, if it can be read. -/
def post? (activityId : String) (msg : CoordinationMessage) : Option Post := do
  let (id, payload) ← payloadOf maxDigits depth msg.payload.description
  if id = activityId then
    match msg.type with
    | .devopsStarted => (createActivityFromStarted activityId payload msg.timestamp).map .started
    | .devopsStepUpdate =>
      let stepName := getOf payload "step" .null
      if truthy stepName then
        (parseStepStatus (getOf payload "status" (.str (some "running")))).map fun status =>
          .updated ⟨stepName, status, msg.timestamp⟩
      else none
    | .devopsComplete => some (.completed msg.timestamp)
    | .devopsFailed => some (.failed msg.timestamp (getOf payload "error" .null))
    | _ => none
  else none

/-- What is said about an activity, in the order of time. -/
def postsOf (activityId : String) (messages : List CoordinationMessage) : List Post :=
  (Paging.sortedBy CoordinationMessage.timestamp messages).filterMap
    (post? maxDigits depth activityId)

end

/-- The start of an activity, and what was said later. -/
structure Thread where
  start : DevOpsActivity
  later : List Post

namespace Thread

/-- A start begins anew. -/
def next : Option Thread → Post → Option Thread
  | _, .started activity => some ⟨activity, []⟩
  | t, post => t.map fun t => { t with later := t.later ++ [post] }

variable (t : Thread)

/-- The message that ended the activity, the last one of them. -/
def terminal? : Option Post := (t.later.filter Post.terminal).getLast?

/-- The updates of the steps. -/
def updates : List StepUpdate := t.later.filterMap Post.update?

/-- The updates before the end of the activity, if it has ended. -/
def before : List StepUpdate :=
  if t.terminal?.isNone then t.updates
  else ((t.later.rdropWhile fun post => !post.terminal).dropLast).filterMap Post.update?

/-- The updates of a step. -/
def about (name : String) (updates : List StepUpdate) : List StepUpdate :=
  updates.filter fun update => update.stepName = .str (some name)

/-- The last status of a step before the end. -/
def lastStatus (name : String) : Option DevOpsStepStatus :=
  (about name t.before).getLast?.map StepUpdate.status

/-- The status in the first update of a step of the latest instant, of all its updates. -/
def takenStatus (name : String) : Option DevOpsStepStatus :=
  ((about name t.updates).argmax StepUpdate.timestamp).map StepUpdate.status

end Thread

/-- What is said about an activity, from its last start on. -/
def threadOf (maxDigits depth : ℕ) (activityId : String) (messages : List CoordinationMessage) :
    Option Thread :=
  (postsOf maxDigits depth activityId messages).foldl Thread.next none

/-- What the steps of an activity are to show: none is running after the end; a step that was
running when the activity failed has let one fail with the error; and the status of each is the
last one before the end, also that of a step that was running then, unless it is spared. -/
structure Upheld (spared : Prop) (t : Thread) (activity : DevOpsActivity) : Prop where
  idle : activity.status ≠ .inProgress → ∀ step ∈ activity.steps, step.status ≠ .running
  blamed : ∀ timestamp error, activity.status = .failed →
    t.terminal? = some (.failed timestamp error) →
    (∃ step ∈ activity.steps, t.lastStatus step.name = some .running) →
    ∃ step ∈ activity.steps, step.status = .failed ∧ optionalText error = some step.error
  shown : ∀ step ∈ activity.steps, ∀ status, t.lastStatus step.name = some status →
    (spared → activity.status ≠ .inProgress → status ≠ .running) → step.status = status

/-- Of each step, the first update of the latest instant does not say that it is running, if the
activity has ended, and says what the last one before the end said, if there is one; and where a
step was running when the activity failed, there is no error and that update of some step says that
it failed. -/
structure Settled (spared : Prop) (t : Thread) : Prop where
  idle : t.terminal? ≠ none → ∀ step ∈ t.start.steps, t.takenStatus step.name ≠ some .running
  blamed : ∀ timestamp error, t.terminal? = some (.failed timestamp error) →
    (∃ step ∈ t.start.steps, t.lastStatus step.name = some .running) →
    ∃ step ∈ t.start.steps, t.takenStatus step.name = some .failed ∧ error = .null
  shown : ∀ step ∈ t.start.steps, ∀ status, t.lastStatus step.name = some status →
    (spared → t.terminal? ≠ none → status ≠ .running) → t.takenStatus step.name = some status

/-! ## Following the loop -/

/-- What has been gathered of an activity. -/
def Gathered.at (g : Gathered) (activityId : String) :
    Option (DevOpsActivity × List StepUpdate) := do
  return (← g.activities.get? activityId, ← g.stepUpdates.get? activityId)

/-- Both dictionaries have the same keys. -/
def Gathered.Paired (g : Gathered) : Prop :=
  ∀ id, (g.activities.get? id).isSome = (g.stepUpdates.get? id).isSome

/-- What a later message makes of what was gathered. -/
def apply (s : DevOpsActivity × List StepUpdate) : Post → DevOpsActivity × List StepUpdate
  | .started _ => s
  | .updated update => (s.1, s.2 ++ [update])
  | .completed timestamp => (completeActivity s.1 timestamp, s.2)
  | .failed timestamp error => ((failActivity s.1 timestamp error).getD s.1, s.2)

/-- What a message makes of what was gathered. -/
def applyNext : Option (DevOpsActivity × List StepUpdate) → Post →
    Option (DevOpsActivity × List StepUpdate)
  | _, .started activity => some (activity, [])
  | s, post => s.map (apply · post)

/-- What a thread leads to, before the updates are applied. -/
def Thread.state (t : Thread) : DevOpsActivity × List StepUpdate :=
  t.later.foldl apply (t.start, [])

variable {maxDigits depth : ℕ} {g : Gathered} {id : String} {t : Thread}

theorem Gathered.Paired.at_eq (h : g.Paired) (id : String) : g.at id = none ∧ g.activities.get? id = none ∧
    g.stepUpdates.get? id = none ∨ ∃ s, g.at id = some s ∧ g.activities.get? id = some s.1 ∧
      g.stepUpdates.get? id = some s.2 := by
  have hid := h id
  cases ha : g.activities.get? id with
  | none =>
    have hu : g.stepUpdates.get? id = none := by simpa [ha] using hid
    simp [Gathered.at, ha, hu]
  | some a =>
    obtain ⟨u, hu⟩ : ∃ u, g.stepUpdates.get? id = some u := by
      simpa [ha, Option.isSome_iff_exists] using hid.symm
    exact .inr ⟨(a, u), by simp [Gathered.at, ha, hu]⟩

/-- One activity is put in both dictionaries. -/
structure Gathered.Puts (g g' : Gathered) (key : String) (s : DevOpsActivity × List StepUpdate) :
    Prop where
  activity : g'.activities.get? key = some s.1
  updates : g'.stepUpdates.get? key = some s.2
  others : ∀ k, k ≠ key → g'.activities.get? k = g.activities.get? k ∧
    g'.stepUpdates.get? k = g.stepUpdates.get? k

variable {g' : Gathered} {key : String} {s : DevOpsActivity × List StepUpdate}

theorem Gathered.Puts.paired (h : g.Puts g' key s) (hg : g.Paired) : g'.Paired := by
  intro k
  by_cases hk : k = key
  · simp [hk, h.activity, h.updates]
  · simp [h.others k hk, hg k]

theorem Gathered.Puts.at_eq (h : g.Puts g' key s) :
    g'.at id = if id = key then some s else g.at id := by
  by_cases hid : id = key
  · simp [Gathered.at, hid, h.activity, h.updates]
  · simp [Gathered.at, hid, h.others id hid]

/-- What a post does to the dictionaries. -/
def Gathered.take (g : Gathered) (key : String) : Post → Option Gathered
  | .started activity => some ⟨g.activities.set key activity, g.stepUpdates.set key []⟩
  | .updated update => (g.stepUpdates.get? key).map fun updates =>
    { g with stepUpdates := g.stepUpdates.set key (updates ++ [update]) }
  | .completed timestamp => (g.activities.get? key).map fun activity =>
    { g with activities := g.activities.set key (completeActivity activity timestamp) }
  | .failed timestamp error => ((g.activities.get? key).bind (failActivity · timestamp error)).map
      fun activity => { g with activities := g.activities.set key activity }

/-- A message does what its post does. -/
theorem processMessage_eq {msg : CoordinationMessage} {payload : List (Option String × Value)}
    (h : payloadOf maxDigits depth msg.payload.description = some (key, payload)) :
    processMessage maxDigits depth g msg = (post? maxDigits depth key msg).bind (g.take key) := by
  cases htype : msg.type with
  | devopsStarted =>
    cases ha : createActivityFromStarted key payload msg.timestamp <;>
      simp [processMessage, post?, h, htype, ha, Gathered.take]
  | devopsStepUpdate =>
    by_cases hname : truthy (getOf payload "step" .null) = true
    · cases hstatus : parseStepStatus (getOf payload "status" (.str (some "running"))) <;>
        cases hu : g.stepUpdates.get? key <;>
          simp [processMessage, post?, h, htype, hname, hstatus, hu, Gathered.take]
    · simp [processMessage, post?, h, htype, hname]
  | devopsComplete =>
    cases ha : g.activities.get? key <;>
      simp [processMessage, post?, h, htype, ha, Gathered.take]
  | devopsFailed =>
    cases ha : g.activities.get? key with
    | none => simp [processMessage, post?, h, htype, ha, Gathered.take]
    | some a =>
      cases hf : failActivity a msg.timestamp (getOf payload "error" .null) <;>
        simp [processMessage, post?, h, htype, ha, hf, Gathered.take]
  | _ => simp [processMessage, post?, h, htype]

/-- A post puts what follows from it, or changes nothing. -/
theorem Gathered.Paired.take (h : g.Paired) (key : String) (post : Post) :
    (∃ g' s, g.take key post = some g' ∧ applyNext (g.at key) post = some s ∧ g.Puts g' key s) ∨
      g.take key post = none ∧ applyNext (g.at key) post = g.at key := by
  obtain ⟨hat, ha, hu⟩ | ⟨s, hat, ha, hu⟩ := h.at_eq key
  · cases post with
    | started activity =>
      refine .inl ⟨_, (activity, []), rfl, rfl, ?_, ?_, fun k hk => ?_⟩ <;>
        simp [OrderedDict.get?_set, *]
    | _ => exact .inr (by simp [Gathered.take, applyNext, hat, ha, hu])
  · cases post with
    | started activity =>
      refine .inl ⟨_, (activity, []), rfl, rfl, ?_, ?_, fun k hk => ?_⟩ <;>
        simp [OrderedDict.get?_set, *]
    | updated update =>
      refine .inl ⟨_, (s.1, s.2 ++ [update]), by rw [Gathered.take, hu, Option.map_some],
        by simp [applyNext, hat, apply], ?_, ?_, fun k hk => ?_⟩ <;>
          simp [OrderedDict.get?_set, *]
    | completed timestamp =>
      refine .inl ⟨_, (completeActivity s.1 timestamp, s.2),
        by rw [Gathered.take, ha, Option.map_some], by simp [applyNext, hat, apply], ?_, ?_,
        fun k hk => ?_⟩ <;> simp [OrderedDict.get?_set, *]
    | failed timestamp error =>
      cases hf : failActivity s.1 timestamp error with
      | none => exact .inr (by simp [Gathered.take, applyNext, apply, hat, ha, hf])
      | some activity =>
        refine .inl ⟨_, (activity, s.2),
          by rw [Gathered.take, ha, Option.bind_some, hf, Option.map_some],
          by simp [applyNext, hat, apply, hf], ?_, ?_, fun k hk => ?_⟩ <;>
            simp [OrderedDict.get?_set, *]

/-- What a message does to what was gathered of an activity is what its post does. -/
theorem processMessage_at (h : g.Paired) (msg : CoordinationMessage) (id : String) :
    ((processMessage maxDigits depth g msg).getD g).Paired ∧
      ((processMessage maxDigits depth g msg).getD g).at id =
        ((post? maxDigits depth id msg).map (applyNext (g.at id))).getD (g.at id) := by
  cases hpayload : payloadOf maxDigits depth msg.payload.description with
  | none => simpa [processMessage, post?, hpayload] using h
  | some payload =>
    obtain ⟨key, payload⟩ := payload
    have hother (hid : id ≠ key) : post? maxDigits depth id msg = none := by
      simp [post?, hpayload, Ne.symm hid]
    rw [processMessage_eq hpayload]
    cases hpost : post? maxDigits depth key msg with
    | none =>
      by_cases hid : id = key
      · simpa [hid, hpost] using h
      · simpa [hother hid] using h
    | some post =>
      obtain ⟨g', s, htake, hnext, hputs⟩ | ⟨htake, hnext⟩ := h.take key post
      · refine ⟨by simpa [htake] using hputs.paired h, ?_⟩
        by_cases hid : id = key
        · simp [htake, hputs.at_eq, hid, hpost, hnext]
        · simp [htake, hputs.at_eq, hid, hother hid]
      · refine ⟨by simpa [htake] using h, ?_⟩
        by_cases hid : id = key
        · simp [htake, hid, hpost, hnext]
        · simp [htake, hother hid]

theorem Thread.next_state (t : Option Thread) (post : Post) :
    (Thread.next t post).map Thread.state = applyNext (t.map Thread.state) post := by
  cases post <;> cases t <;> simp [Thread.next, applyNext, Thread.state, apply]

/-- The loop gathers of each activity what its thread leads to. -/
theorem gather_at (messages : List CoordinationMessage) (id : String) :
    (gather maxDigits depth messages).Paired ∧
      (gather maxDigits depth messages).at id =
        (threadOf maxDigits depth id messages).map Thread.state := by
  have hrun : ∀ (l : List CoordinationMessage) (g : Gathered) (t : Option Thread), g.Paired →
      g.at id = t.map Thread.state →
      (l.foldl (fun g msg => (processMessage maxDigits depth g msg).getD g) g).Paired ∧
      (l.foldl (fun g msg => (processMessage maxDigits depth g msg).getD g) g).at id =
        ((l.filterMap (post? maxDigits depth id)).foldl Thread.next t).map Thread.state := by
    intro l
    induction l with
    | nil => exact fun g t hg hat => ⟨hg, hat⟩
    | cons msg l ih =>
      intro g t hg hat
      obtain ⟨hpaired, hstep⟩ := @processMessage_at maxDigits _ g hg msg id
      cases hpost : post? maxDigits depth id msg with
      | none => simpa [hpost] using ih _ t hpaired (by simpa [hpost, hat] using hstep)
      | some post =>
        have hnext := ih _ (Thread.next t post) hpaired
          (by simpa [hpost, hat, Thread.next_state] using hstep)
        simpa [hpost] using hnext
  exact hrun _ _ none (fun _ => rfl) rfl

/-! ## The updates -/

/-- The updates of all activities applied, each once. -/
theorem get?_foldlM_applyEntry {entries : List (String × List StepUpdate)}
    {activities activities' : OrderedDict String DevOpsActivity}
    (h : entries.foldlM applyEntry activities = some activities')
    (hnodup : (entries.map Prod.fst).Nodup) (id : String) :
    activities'.get? id = match entries.lookup id with
      | some updates => (activities.get? id).bind (applyStepUpdates · updates)
      | none => activities.get? id := by
  induction entries generalizing activities with
  | nil =>
    cases h
    rfl
  | cons entry entries ih =>
    obtain ⟨hfresh, hrest⟩ := List.nodup_cons.mp hnodup
    obtain ⟨first, hfirst, hlater⟩ := Option.bind_eq_some_iff.mp h
    have hget : first.get? id =
        if id = entry.1 then (activities.get? id).bind (applyStepUpdates · entry.2)
        else activities.get? id := by
      rw [applyEntry] at hfirst
      by_cases hid : id = entry.1
      · cases ha : activities.get? entry.1 with
        | none =>
          rw [ha] at hfirst
          cases hfirst
          simp [hid, ha]
        | some activity =>
          rw [ha] at hfirst
          obtain ⟨activity', happly, rfl⟩ := Option.map_eq_some_iff.mp hfirst
          simp [hid, ha, OrderedDict.get?_set, happly]
      · cases ha : activities.get? entry.1 with
        | none =>
          rw [ha] at hfirst
          cases hfirst
          simp [hid]
        | some activity =>
          rw [ha] at hfirst
          obtain ⟨activity', -, rfl⟩ := Option.map_eq_some_iff.mp hfirst
          simp [hid, OrderedDict.get?_set]
    rw [ih hlater hrest, hget, OrderedDict.lookup_cons_ite]
    by_cases hid : id = entry.1
    · have hnone : entries.lookup id = none := by
        rw [List.lookup_eq_none_iff]
        intro e he
        simpa [hid] using fun heq => hfresh (List.mem_map.mpr ⟨e, he, heq.symm⟩)
      simp [hid, hid ▸ hnone]
    · simp [hid]

/-- An activity is what its thread leads to, with the updates applied. -/
theorem buildActivities_thread {messages : List CoordinationMessage}
    {activities : OrderedDict String DevOpsActivity}
    (h : buildActivities maxDigits depth messages = some activities) {activity : DevOpsActivity}
    (hmem : (id, activity) ∈ activities.entries) :
    ∃ t, threadOf maxDigits depth id messages = some t ∧
      applyStepUpdates t.state.1 t.state.2 = some activity := by
  obtain ⟨hpaired, hat⟩ := @gather_at maxDigits depth messages id
  have hget := get?_foldlM_applyEntry h (OrderedDict.nodup _) id
  rw [activities.get?_of_mem hmem] at hget
  obtain ⟨-, ha, hu⟩ | ⟨s, hs, ha, hu⟩ := hpaired.at_eq id
  · rw [OrderedDict.get?] at hu
    simp [ha, hu] at hget
  · rw [hs] at hat
    obtain ⟨t, ht, hstate⟩ := Option.map_eq_some_iff.mp hat.symm
    rw [OrderedDict.get?] at hu
    exact ⟨t, ht, by simpa [ha, hu, hstate] using hget.symm⟩

/-- The latest update of a step that is taken: the first one of the latest instant. -/
theorem get?_stepStatuses (updates : List StepUpdate) (name : Value) :
    (stepStatuses updates).get? name =
      (updates.filter fun update => update.stepName = name).argmax StepUpdate.timestamp := by
  induction updates using List.reverseRecOn with
  | nil => rfl
  | append_singleton updates update ih =>
    rw [stepStatuses, List.foldl_concat, ← stepStatuses]
    by_cases hname : update.stepName = name
    · subst hname
      rw [List.filter_append, List.filter_singleton, decide_eq_true rfl, cond_true,
        List.argmax_concat, ← ih]
      cases hknown : (stepStatuses updates).get? update.stepName with
      | none => simp [OrderedDict.get?_set]
      | some known =>
        by_cases hlt : known.timestamp < update.timestamp <;>
          simp [hlt, hknown, OrderedDict.get?_set]
    · rw [List.filter_append, List.filter_singleton, decide_eq_false hname, cond_false,
        List.append_nil, ← ih]
      cases (stepStatuses updates).get? update.stepName with
      | none => simp [OrderedDict.get?_set, Ne.symm hname]
      | some known =>
        by_cases hlt : known.timestamp < update.timestamp <;>
          simp [hlt, OrderedDict.get?_set, Ne.symm hname]

/-! ## What is shown -/

/-- An activity that has only been started. -/
def Fresh (activity : DevOpsActivity) : Prop :=
  activity.status = .inProgress ∧
    ∀ step ∈ activity.steps, step.status = .pending ∧ step.error = none

theorem fresh_createActivityFromStarted {payload : List (Option String × Value)} {timestamp : Time}
    {activity : DevOpsActivity}
    (h : createActivityFromStarted id payload timestamp = some activity) : Fresh activity := by
  simp only [createActivityFromStarted, Option.bind_eq_bind, Option.bind_eq_some_iff] at h
  obtain ⟨_, _, _, _, _, _, hactivity⟩ := h
  cases hactivity
  simp [Fresh]

theorem fresh_of_post? {msg : CoordinationMessage} {activity : DevOpsActivity}
    (h : post? maxDigits depth id msg = some (.started activity)) : Fresh activity := by
  obtain ⟨⟨key, payload⟩, -, hpost⟩ := Option.bind_eq_some_iff.mp h
  cases htype : msg.type with
  | devopsStarted =>
    by_cases hkey : key = id
    · simp [htype, hkey] at hpost
      exact fresh_createActivityFromStarted hpost
    · simp [hkey] at hpost
  | _ => simp [htype] at hpost

/-- The thread of an activity begins with its start. -/
theorem fresh_of_threadOf {messages : List CoordinationMessage}
    (h : threadOf maxDigits depth id messages = some t) : Fresh t.start := by
  have hrun : ∀ (posts : List Post) (t₀ : Option Thread),
      (∀ activity, .started activity ∈ posts → Fresh activity) →
      (∀ t, t₀ = some t → Fresh t.start) →
      ∀ t, posts.foldl Thread.next t₀ = some t → Fresh t.start := by
    intro posts
    induction posts with
    | nil => exact fun t₀ _ h₀ => h₀
    | cons post posts ih =>
      intro t₀ hposts h₀
      refine ih _ (fun a ha => hposts a (List.mem_cons_of_mem _ ha)) fun t ht => ?_
      cases post with
      | started activity =>
        cases ht
        exact hposts activity List.mem_cons_self
      | _ =>
        obtain ⟨t', ht', rfl⟩ := Option.map_eq_some_iff.mp ht
        exact h₀ t' ht'
  refine hrun _ none (fun activity hactivity => ?_) (by simp) t h
  obtain ⟨msg, -, hpost⟩ := List.mem_filterMap.mp hactivity
  exact fresh_of_post? hpost

/-- What a step shows. -/
def DevOpsStep.view (step : DevOpsStep) : String × DevOpsStepStatus × Option String :=
  (step.name, step.status, step.error)

/-- The status of an activity that was ended so. -/
def statusAfter : Option Post → DevOpsActivityStatus
  | none => .inProgress
  | some (.failed _ _) => .failed
  | some _ => .completed

/-- The status of a step without updates. -/
def Thread.restStatus (t : Thread) : DevOpsStepStatus :=
  if t.later.any Post.completes then .completed else .pending

theorem view_updateStep (statuses : OrderedDict Value StepUpdate) (step : DevOpsStep) :
    (updateStep statuses step).view = (step.name,
      ((statuses.get? (.str (some step.name))).map StepUpdate.status).getD step.status,
      step.error) := by
  cases h : statuses.get? (.str (some step.name)) <;> simp [updateStep, h, DevOpsStep.view]

theorem mapM_failStep {steps : List DevOpsStep} {timestamp : Time} {error : Value}
    (h : ∀ step ∈ steps, step.status ≠ .running) :
    steps.mapM (failStep timestamp error) = some steps := by
  induction steps with
  | nil => rfl
  | cons step steps ih =>
    obtain ⟨hstep, hrest⟩ := List.forall_mem_cons.mp h
    simp [List.mapM_cons, failStep, hstep, ih hrest]

/-- Only a running step fails with its activity. -/
theorem failActivity_of_idle {activity : DevOpsActivity} {timestamp : Time} {error : Value}
    (h : ∀ step ∈ activity.steps, step.status ≠ .running) :
    failActivity activity timestamp error =
      some { activity with status := .failed, completedAt := some timestamp } := by
  simp [failActivity, mapM_failStep h]

theorem Thread.restStatus_ne_running (t : Thread) : t.restStatus ≠ .running := by
  rw [restStatus]
  split <;> simp

theorem view_completeStep {step : DevOpsStep} (h : step.status ≠ .running)
    (hfailed : step.status ≠ .failed) (timestamp : Time) :
    (completeStep timestamp step).view = (step.name, .completed, step.error) := by
  cases hstatus : step.status <;> simp_all [completeStep, DevOpsStep.view]

/-- Before the updates are applied, the steps are all pending, or all completed. -/
theorem Thread.state_eq (h : Fresh t.start) :
    t.state.1.status = statusAfter t.terminal? ∧ t.state.2 = t.updates ∧
      t.state.1.steps.map DevOpsStep.view =
        t.start.steps.map fun step => (step.name, t.restStatus, none) := by
  obtain ⟨start, later⟩ := t
  induction later using List.reverseRecOn with
  | nil =>
    refine ⟨h.1, rfl, List.map_congr_left fun step hstep => ?_⟩
    simp [DevOpsStep.view, restStatus, h.2 step hstep]
  | append_singleton later post ih =>
    obtain ⟨hstatus, hupdates, hsteps⟩ := ih h
    have hrest : ∀ step ∈ (state ⟨start, later⟩).1.steps,
        step.status = restStatus ⟨start, later⟩ := by
      intro step hstep
      have hview : step.view ∈ (state ⟨start, later⟩).1.steps.map DevOpsStep.view :=
        List.mem_map_of_mem hstep
      rw [hsteps] at hview
      obtain ⟨first, -, heq⟩ := List.mem_map.mp hview
      exact (congrArg (·.2.1) heq).symm
    have hidle : ∀ step ∈ (state ⟨start, later⟩).1.steps, step.status ≠ .running := by
      intro step hstep
      rw [hrest step hstep]
      exact restStatus_ne_running _
    have hstate : state ⟨start, later ++ [post]⟩ = apply (state ⟨start, later⟩) post :=
      List.foldl_concat ..
    rw [hstate]
    simp only [terminal?, updates, restStatus, List.filter_append, List.filterMap_append,
      List.any_append] at hstatus hupdates hsteps ⊢
    cases post with
    | started activity =>
      simp [apply, hstatus, hupdates, hsteps, Post.terminal, Post.update?, Post.completes]
    | updated update =>
      simp [apply, hstatus, hupdates, hsteps, Post.terminal, Post.update?, Post.completes]
    | completed timestamp =>
      refine ⟨by simp [apply, completeActivity, Post.terminal, statusAfter],
        by simp [apply, hupdates, Post.update?], ?_⟩
      have hcompleted : ((state ⟨start, later⟩).1.steps.map (completeStep timestamp)).map
          DevOpsStep.view = (state ⟨start, later⟩).1.steps.map fun step =>
            (step.name, .completed, step.error) := by
        rw [List.map_map]
        refine List.map_congr_left fun step hstep => view_completeStep (hidle step hstep) ?_ _
        rw [hrest step hstep, restStatus]
        split <;> simp
      have hnames := congrArg (List.map fun v : String × DevOpsStepStatus × Option String =>
        (v.1, DevOpsStepStatus.completed, v.2.2)) hsteps
      simpa [apply, completeActivity, hcompleted, Post.completes, DevOpsStep.view,
        Function.comp_def] using hnames
    | failed timestamp error =>
      simp [apply, failActivity_of_idle hidle, hupdates, hsteps, Post.terminal, Post.update?,
        Post.completes, statusAfter]

theorem Thread.takenStatus_eq (t : Thread) (name : String) :
    t.takenStatus name =
      ((stepStatuses t.updates).get? (.str (some name))).map StepUpdate.status := by
  rw [get?_stepStatuses]
  rfl

/-- What an activity shows at the end. -/
theorem view_of_applyStepUpdates (h : Fresh t.start) {activity : DevOpsActivity}
    (hactivity : applyStepUpdates t.state.1 t.state.2 = some activity) :
    activity.status = statusAfter t.terminal? ∧
      activity.steps.map DevOpsStep.view = t.start.steps.map fun step =>
        (step.name, (t.takenStatus step.name).getD t.restStatus, none) := by
  obtain ⟨hstatus, hupdates, hsteps⟩ := t.state_eq h
  rw [applyStepUpdates] at hactivity
  split at hactivity
  · cases hactivity
    refine ⟨hstatus, ?_⟩
    have hviews := congrArg (List.map fun v : String × DevOpsStepStatus × Option String =>
      (v.1, (t.takenStatus v.1).getD v.2.1, v.2.2)) hsteps
    simp only [List.map_map, Function.comp_def, DevOpsStep.view] at hviews
    simpa [view_updateStep, hupdates, ← t.takenStatus_eq, Function.comp_def] using hviews
  · cases hactivity

/-- The updates before the end are updates. -/
theorem Thread.before_subset (t : Thread) : t.before ⊆ t.updates := by
  intro update hupdate
  rw [before] at hupdate
  split at hupdate
  · exact hupdate
  · obtain ⟨post, hpost, hread⟩ := List.mem_filterMap.mp hupdate
    refine List.mem_filterMap.mpr ⟨post, ?_, hread⟩
    exact (List.rdropWhile_prefix _ _).subset ((List.dropLast_prefix _).subset hpost)

/-- A step that has an update before the end has an update. -/
theorem Thread.takenStatus_ne_none {name : String} {status : DevOpsStepStatus}
    (h : t.lastStatus name = some status) : t.takenStatus name ≠ none := by
  obtain ⟨update, hupdate, -⟩ := Option.map_eq_some_iff.mp h
  have hmem : update ∈ about name t.updates := by
    obtain ⟨hbefore, hname⟩ := List.mem_filter.mp (List.mem_of_getLast? hupdate)
    exact List.mem_filter.mpr ⟨t.before_subset hbefore, hname⟩
  rw [takenStatus, Ne, Option.map_eq_none_iff, List.argmax_eq_none]
  exact List.ne_nil_of_mem hmem

theorem statusAfter_eq_inProgress {post : Option Post} :
    statusAfter post = .inProgress ↔ post = none := by
  match post with
  | none => simp [statusAfter]
  | some (.failed _ _) => simp [statusAfter]
  | some (.started _) | some (.updated _) | some (.completed _) => simp [statusAfter]

theorem optionalText_eq_some_none {error : Value} :
    optionalText error = some none ↔ error = .null := by
  match error with
  | .null => simp [optionalText]
  | .str none | .str (some _) => simp [optionalText]
  | .bool _ | .int _ | .float _ | .arr _ | .obj _ => simp [optionalText]

/-- What a step shows that has an update. -/
theorem Thread.getD_takenStatus {name : String} {status : DevOpsStepStatus}
    (h : t.takenStatus name ≠ none ∨ status = .running ∨ status = .failed) :
    (t.takenStatus name).getD t.restStatus = status ↔ t.takenStatus name = some status := by
  cases htaken : t.takenStatus name with
  | some taken => simp
  | none =>
    have hrest : t.restStatus ≠ status := by
      rcases h with h | rfl | rfl
      · exact absurd htaken h
      · exact t.restStatus_ne_running
      · rw [restStatus]
        split <;> simp
    simp [hrest]

/-- **What the steps of an activity show**: no step of an ended activity is running, a failed
activity has a failed step with the error where one was running, and each step shows its last
update before the end, if and only if for each step the first of its updates of the latest instant,
also of those after the end, is not that it is running, if the activity has ended, and has the
status of the last one before the end, and no step was running when the activity failed, or
nothing is the error and one of these updates says that its step failed. -/
theorem upheld_iff {maxDigits depth : ℕ} {messages : List CoordinationMessage}
    {activities : OrderedDict String DevOpsActivity}
    (h : buildActivities maxDigits depth messages = some activities) {id : String}
    {activity : DevOpsActivity} (hactivity : (id, activity) ∈ activities.entries) :
    ∃ t, threadOf maxDigits depth id messages = some t ∧
      ∀ spared, Upheld spared t activity ↔ Settled spared t := by
  obtain ⟨t, ht, happly⟩ := buildActivities_thread h hactivity
  refine ⟨t, ht, fun spared => ?_⟩
  obtain ⟨hstatus, hsteps⟩ := view_of_applyStepUpdates (fresh_of_threadOf ht) happly
  have hall (P : String × DevOpsStepStatus × Option String → Prop) :
      (∀ step ∈ activity.steps, P step.view) ↔ ∀ step ∈ t.start.steps,
        P (step.name, (t.takenStatus step.name).getD t.restStatus, none) := by
    rw [← List.forall_mem_map (f := DevOpsStep.view), hsteps, List.forall_mem_map]
  have hany (P : String × DevOpsStepStatus × Option String → Prop) :
      (∃ step ∈ activity.steps, P step.view) ↔ ∃ step ∈ t.start.steps,
        P (step.name, (t.takenStatus step.name).getD t.restStatus, none) := by
    simpa [not_forall] using not_congr (hall fun v => ¬ P v)
  have hended : activity.status ≠ .inProgress ↔ t.terminal? ≠ none := by
    rw [hstatus, Ne, statusAfter_eq_inProgress]
  have hidle := hall fun v => v.2.1 ≠ .running
  have hrunning := hany fun v => t.lastStatus v.1 = some .running
  have hfailed (error : Value) := hany fun v => v.2.1 = .failed ∧ optionalText error = some v.2.2
  have hshown := hall fun v => ∀ status, t.lastStatus v.1 = some status →
    (spared → activity.status ≠ .inProgress → status ≠ .running) → v.2.1 = status
  simp only [DevOpsStep.view, ne_eq, Thread.getD_takenStatus (.inr (.inl rfl)),
    Thread.getD_takenStatus (.inr (.inr rfl)), optionalText_eq_some_none] at hidle hrunning hfailed
  constructor
  · intro hupheld
    refine ⟨fun hterminal => hidle.mp (hupheld.idle (hended.mpr hterminal)), ?_, ?_⟩
    · intro timestamp error hterminal hwas
      have hstatus' : activity.status = .failed := by simp [hstatus, hterminal, statusAfter]
      exact (hfailed error).mp
        (hupheld.blamed timestamp error hstatus' hterminal (hrunning.mpr hwas))
    · intro step hstep status hlast hspared
      rw [← hended] at hspared
      exact (Thread.getD_takenStatus (.inl (t.takenStatus_ne_none hlast))).mp
        (hshown.mp hupheld.shown step hstep status hlast hspared)
  · intro hsettled
    refine ⟨fun hactive => hidle.mpr (hsettled.idle (hended.mp hactive)), ?_, ?_⟩
    · intro timestamp error _ hterminal hwas
      exact (hfailed error).mpr (hsettled.blamed timestamp error hterminal (hrunning.mp hwas))
    · refine hshown.mpr fun step hstep status hlast hspared => ?_
      rw [hended] at hspared
      simp [hsettled.shown step hstep status hlast hspared]

/-- An operation of one step that is complete while the step is running. -/
private def unfinished : List CoordinationMessage :=
  [(.devopsStarted, "\x7b\"activity_id\":\"a\",\"operation\":\"Deploy\",\"steps\":[\"Push\"]\x7d"),
    (.devopsStepUpdate, "\x7b\"activity_id\":\"a\",\"step\":\"Push\"\x7d"),
    (.devopsComplete, "\x7b\"activity_id\":\"a\"\x7d")].zipIdx.map fun ((type, text), i) =>
      { id := "m", type := type, fromInstance := "devops", toInstance := "all", timestamp := i,
        payload := ⟨"", text⟩ }

private def unfinishedActivity : DevOpsActivity where
  id := "a"
  operation := "Deploy"
  status := .completed
  startedAt := 0
  completedAt := some 2
  steps := [⟨"Push", .running, some 1, none, none⟩]

private theorem buildActivities_unfinished : ∃ activities,
    buildActivities 4300 900 unfinished = some activities ∧
      activities.entries = [("a", unfinishedActivity)] := by
  have hsorted : Paging.Sorted CoordinationMessage.timestamp unfinished := by
    simp [Paging.Sorted, unfinished]
  have hmap : (buildActivities 4300 900 unfinished).map OrderedDict.entries =
      some [("a", unfinishedActivity)] := by
    simp only [buildActivities, gather, Paging.sortedBy_eq_self hsorted]
    decide +kernel
  exact Option.map_eq_some_iff.mp hmap

/-- The case of an operation that is complete while a step is running. -/
theorem upheld_iff_unfinished : ∃ activities activity t,
    buildActivities 4300 900 unfinished = some activities ∧ ("a", activity) ∈ activities.entries ∧
      threadOf 4300 900 "a" unfinished = some t ∧
        ∀ spared, Upheld spared t activity ↔ Settled spared t := by
  obtain ⟨activities, hbuild, hentries⟩ := buildActivities_unfinished
  have hmem : ("a", unfinishedActivity) ∈ activities.entries := by simp [hentries]
  obtain ⟨t, ht, hiff⟩ := upheld_iff hbuild hmem
  exact ⟨activities, unfinishedActivity, t, hbuild, hmem, ht, hiff⟩

/-- Its step is running, although the activity is complete. -/
theorem not_upheld : ∃ activities, buildActivities 4300 900 unfinished = some activities ∧
    ∃ activity, ("a", activity) ∈ activities.entries ∧
      ∀ spared t, ¬ Upheld spared t activity := by
  obtain ⟨activities, hbuild, hentries⟩ := buildActivities_unfinished
  refine ⟨activities, hbuild, unfinishedActivity, by simp [hentries], fun spared t h => ?_⟩
  exact h.idle (by simp [unfinishedActivity]) ⟨"Push", .running, some 1, none, none⟩
    (by simp [unfinishedActivity]) rfl

end DoxAsdlc.Orchestrator.DevOps
