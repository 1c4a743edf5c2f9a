import DoxAsdlc.Coordination.Types
import DoxAsdlc.Structures.OrderedDict
import DoxAsdlc.Structures.Paging
import DoxAsdlc.Swarm.ResponseParser

/-!
# DevOps activities

The activities that are built from the coordination messages about DevOps operations.  What a
message says is the JSON object of its description.  A message that cannot be read is left out.

The limits of `json.loads` are parameters.

## Main definitions

* `DevOpsStep`, `DevOpsActivity` — the data.
* `processMessage` — one message.
* `buildActivities` — all messages, and then the updates of the steps.
-/

namespace DoxAsdlc.Orchestrator.DevOps

open JsonText Swarm.ResponseParser Coordination

/-- The status of a step. -/
inductive DevOpsStepStatus where
  | pending | running | completed | failed
  deriving DecidableEq

/-- The status of an activity. -/
inductive DevOpsActivityStatus where
  | inProgress | completed | failed
  deriving DecidableEq

/-- A step of an operation. -/
structure DevOpsStep where
  name : String
  status : DevOpsStepStatus
  startedAt : Option Time := none
  completedAt : Option Time := none
  error : Option String := none
  deriving DecidableEq

/-- An operation with its steps. -/
structure DevOpsActivity where
  id : String
  operation : String
  status : DevOpsActivityStatus
  startedAt : Time
  completedAt : Option Time := none
  steps : List DevOpsStep
  deriving DecidableEq

/-- An update of a step: its name as it was given, the status and the time. -/
structure StepUpdate where
  stepName : Value
  status : DevOpsStepStatus
  timestamp : Time
  deriving DecidableEq

/-- The dictionaries that the messages are gathered in. -/
structure Gathered where
  activities : OrderedDict String DevOpsActivity
  stepUpdates : OrderedDict String (List StepUpdate)

/-! ## Messages -/

/-- What a field that is a text accepts. -/
def text? : Value → Option String
  | .str text => text
  | _ => none

/-- The values that a loop over a value goes through: a dictionary has each key once.  A text that
is not made of characters has one that is no name. -/
def iterated : Value → Option (List Value)
  | .arr items => some items
  | .obj fields => some ((fields.map Prod.fst).eraseDups.map .str)
  | .str text => text.map fun s => s.toList.map fun c => .str (some (String.singleton c))
  | _ => none

/-- `_create_activity_from_started`; `none` where a text is missing or the steps are no sequence of
texts. -/
def createActivityFromStarted (activityId : String) (payload : List (Option String × Value))
    (timestamp : Time) : Option DevOpsActivity := do
  let operation := getOf payload "operation" (.str (some "Unknown operation"))
  let stepNames ← iterated (getOf payload "steps" (.arr []))
  let names ← stepNames.mapM text?
  return {
    id := activityId
    operation := ← text? operation
    status := .inProgress
    startedAt := timestamp
    steps := names.map fun name => { name := name, status := .pending } }

/-- `_parse_step_status`; only a text has a `lower`. -/
def parseStepStatus : Value → Option DevOpsStepStatus
  | .str text =>
    match text.map String.toLower with
    | some "running" => some .running
    | some "completed" => some .completed
    | some "failed" => some .failed
    | _ => some .pending
  | _ => none

/-- A pending step is completed with the activity. -/
def completeStep (timestamp : Time) (step : DevOpsStep) : DevOpsStep :=
  if step.status = .pending then { step with status := .completed, completedAt := some timestamp }
  else step

/-- `_complete_activity`. -/
def completeActivity (activity : DevOpsActivity) (timestamp : Time) : DevOpsActivity :=
  { activity with
    status := .completed
    completedAt := some timestamp
    steps := activity.steps.map (completeStep timestamp) }

/-- A running step fails with the activity; its error is a text or nothing. -/
def failStep (timestamp : Time) (error : Value) (step : DevOpsStep) : Option DevOpsStep :=
  if step.status = .running then
    (optionalText error).map fun error =>
      { step with status := .failed, completedAt := some timestamp, error := error }
  else some step

/-- `_fail_activity`. -/
def failActivity (activity : DevOpsActivity) (timestamp : Time) (error : Value) :
    Option DevOpsActivity := do
  return { activity with
    status := .failed
    completedAt := some timestamp
    steps := ← activity.steps.mapM (failStep timestamp error) }

variable (maxDigits depth : ℕ)

/-- The id and the object that a description has.  Only a text is the id of an activity. -/
def payloadOf (description : String) : Option (String × List (Option String × Value)) :=
  match loads maxDigits depth description.toList with
  | .ok (.obj payload) =>
    match getOf payload "activity_id" .null with
    | .str (some activityId) => if activityId = "" then none else some (activityId, payload)
    | _ => none
  | _ => none

/-- A turn of the loop over the messages; `none` for a message that changes nothing, as it is
left out, raises or is about no activity. -/
def processMessage (g : Gathered) (msg : CoordinationMessage) : Option Gathered := do
  let (activityId, payload) ← payloadOf maxDigits depth msg.payload.description
  match msg.type with
  | .devopsStarted =>
    let activity ← createActivityFromStarted activityId payload msg.timestamp
    return ⟨g.activities.set activityId activity, g.stepUpdates.set activityId []⟩
  | .devopsStepUpdate =>
    let stepName := getOf payload "step" .null
    let stepStatus := getOf payload "status" (.str (some "running"))
    if truthy stepName then
      let updates ← g.stepUpdates.get? activityId
      let status ← parseStepStatus stepStatus
      return { g with stepUpdates :=
        g.stepUpdates.set activityId (updates ++ [⟨stepName, status, msg.timestamp⟩]) }
    else none
  | .devopsComplete =>
    let activity ← g.activities.get? activityId
    return { g with activities :=
      g.activities.set activityId (completeActivity activity msg.timestamp) }
  | .devopsFailed =>
    let activity ← g.activities.get? activityId
    let activity ← failActivity activity msg.timestamp (getOf payload "error" .null)
    return { g with activities := g.activities.set activityId activity }
  | _ => none

/-- The loop over the messages, in the order of their times. -/
def gather (messages : List CoordinationMessage) : Gathered :=
  (Paging.sortedBy CoordinationMessage.timestamp messages).foldl
    (fun g msg => (processMessage maxDigits depth g msg).getD g) ⟨.empty, .empty⟩

/-! ## Updates -/

/-- The latest status of each step: a later update counts if its time is greater.  Numbers that are
equal are one key in a Python dictionary, but no step has a number as its name. -/
def stepStatuses (updates : List StepUpdate) : OrderedDict Value StepUpdate :=
  updates.foldl (fun statuses update =>
    match statuses.get? update.stepName with
    | none => statuses.set update.stepName update
    | some known =>
      if known.timestamp < update.timestamp then statuses.set update.stepName update
      else statuses) .empty

/-- A step with its latest status. -/
def updateStep (statuses : OrderedDict Value StepUpdate) (step : DevOpsStep) : DevOpsStep :=
  match statuses.get? (.str (some step.name)) with
  | some update =>
    { name := step.name
      status := update.status
      startedAt :=
        step.startedAt.or (if update.status = .pending then none else some update.timestamp)
      completedAt :=
        if update.status = .completed ∨ update.status = .failed then some update.timestamp
        else none
      error := step.error }
  | none => step

/-- A value that may be a key. -/
def hashable : Value → Bool
  | .arr _ | .obj _ => false
  | _ => true

/-- `_apply_step_updates`; `none` for the `TypeError` of a name that is no key. -/
def applyStepUpdates (activity : DevOpsActivity) (updates : List StepUpdate) :
    Option DevOpsActivity :=
  if updates.all fun update => hashable update.stepName then
    some { activity with steps := activity.steps.map (updateStep (stepStatuses updates)) }
  else none

/-- The updates of one activity applied. -/
def applyEntry (activities : OrderedDict String DevOpsActivity)
    (entry : String × List StepUpdate) : Option (OrderedDict String DevOpsActivity) :=
  match activities.get? entry.1 with
  | some activity => (applyStepUpdates activity entry.2).map (activities.set entry.1)
  | none => some activities

/-- `_build_activities`; `none` where it raises. -/
def buildActivities (messages : List CoordinationMessage) :
    Option (OrderedDict String DevOpsActivity) :=
  let g := gather maxDigits depth messages
  g.stepUpdates.entries.foldlM applyEntry g.activities

end DoxAsdlc.Orchestrator.DevOps
