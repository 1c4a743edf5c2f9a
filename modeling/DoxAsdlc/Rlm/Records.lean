import DoxAsdlc.Development.Models

/-!
# Results of explorations as dictionaries

A result of an exploration is written to a file as a dictionary of dictionaries, and made again
from what is read.  Instants become texts; a pair of line numbers becomes a list; two rates are
written that are computed anew when they are asked for.

A field that does not hold a value of its type is an error here.  Python would keep the value; no
such dictionary is ever written.

## Main definitions

* `IsoFormat` — instants as texts.
* `AuditedResult` and its parts — the complete record of an exploration.
* `toDict`, `fromDict` — its dictionary, and the record of a dictionary.

## Main results

* `AuditedResult.fromDict_toDict` — reading gives back what was written.
-/

namespace DoxAsdlc.Rlm

/-- `datetime.isoformat` and `datetime.fromisoformat`. -/
structure IsoFormat where
  isoformat : Time → String
  fromisoformat : String → Option Time
  fromisoformat_isoformat : ∀ t, fromisoformat (isoformat t) = some t
  isoformat_ne_empty : ∀ t, isoformat t ≠ ""

/-! ## Values in dictionaries -/

namespace Json

open Agents (typeError)

/-- `data[key]`. -/
def item : Json → String → Except Error Json
  | .obj fields, key =>
    match field? fields key with
    | some value => .ok value
    | none => .error ⟨.keyError, "'" ++ key ++ "'", []⟩
  | other, _ => .error (typeError ("'" ++ other.typeName ++ "' object is not subscriptable"))

/-- The value is of another type. -/
def mistyped {α : Type} (value : Json) : Except Error α :=
  .error (typeError ("unexpected " ++ value.typeName))

def asText : Json → Except Error String
  | .str s => .ok s
  | other => mistyped other

def asBool : Json → Except Error Bool
  | .bool b => .ok b
  | other => mistyped other

def asInt : Json → Except Error ℤ
  | .int n => .ok n
  | other => mistyped other

def asNumber : Json → Except Error ℚ
  | .float x => .ok x
  | .int n => .ok n
  | other => mistyped other

def asArgs : Json → Except Error Args
  | .obj fields => .ok fields
  | other => mistyped other

def asTexts (value : Json) : Except Error (List String) := do
  (← value.elements).mapM asText

/-- `None` or a value. -/
def asOptional {α : Type} (read : Json → Except Error α) (value : Json) :
    Except Error (Option α) :=
  if value.truthy then (read value).map some else .ok none

/-- A text or `None`, which stay as they are. -/
def asOptionalText : Json → Except Error (Option String)
  | .null => .ok none
  | other => (asText other).map some

/-- A pair of numbers. -/
def asPair : Json → Except Error (ℤ × ℤ)
  | .arr [.int a, .int b] => .ok (a, b)
  | other => mistyped other

/-- A text or nothing. -/
def ofOptionalText : Option String → Json
  | none => .null
  | some s => .str s

def ofTexts (texts : List String) : Json := .arr (texts.map .str)

@[simp] theorem item_obj (fields : List (String × Json)) (key : String) :
    item (.obj fields) key = match field? fields key with
      | some value => .ok value
      | none => .error ⟨.keyError, "'" ++ key ++ "'", []⟩ := rfl

@[simp] theorem get_obj (fields : List (String × Json)) (key : String) (default : Json) :
    get (.obj fields) key default = .ok ((field? fields key).getD default) := rfl

@[simp] theorem asText_str (s : String) : asText (.str s) = .ok s := rfl
@[simp] theorem asBool_bool (b : Bool) : asBool (.bool b) = .ok b := rfl
@[simp] theorem asInt_int (n : ℤ) : asInt (.int n) = .ok n := rfl
@[simp] theorem asNumber_float (x : ℚ) : asNumber (.float x) = .ok x := rfl
@[simp] theorem asArgs_obj (fields : List (String × Json)) : asArgs (.obj fields) = .ok fields := rfl

/-- Reading what was written of every element. -/
theorem mapM_map {α : Type} {toDict : α → Json} {fromDict : Json → Except Error α}
    (h : ∀ a, fromDict (toDict a) = .ok a) (l : List α) : (l.map toDict).mapM fromDict = .ok l := by
  have hall : ∀ a ∈ l, (fromDict ∘ toDict) a = .ok (id a) := fun a _ => h a
  rw [List.mapM_map, mapM_eq_map hall, List.map_id]

@[simp] theorem asTexts_ofTexts (texts : List String) : asTexts (ofTexts texts) = .ok texts :=
  mapM_map asText_str texts

@[simp] theorem asOptionalText_ofOptionalText (s : Option String) :
    asOptionalText (ofOptionalText s) = .ok s := by
  cases s <;> rfl

end Json

open Json (asText asBool asInt asNumber asArgs asTexts asOptional asOptionalText asPair
  ofOptionalText ofTexts)

/-! ## The records -/

structure AuditedToolCall where
  toolName : String
  arguments : Args
  result : String
  durationMs : ℚ
  timestamp : Time

structure AuditedCitation where
  filePath : String
  lineStart : ℤ
  lineEnd : ℤ
  contentHash : String
  snippet : Option String := none

structure AuditedFinding where
  description : String
  evidence : String
  sourceFile : String
  lineRange : Option (ℤ × ℤ) := none
  confidence : ℚ
  tags : List String := []
  valid : 0 ≤ confidence ∧ confidence ≤ 1

structure AuditedStep where
  iteration : ℤ
  thought : String
  toolCalls : List AuditedToolCall
  findingsSoFar : List String
  nextDirection : String
  subcallsUsed : ℤ := 0

structure AuditedTrajectory where
  steps : List AuditedStep
  startTime : Time
  endTime : Option Time
  totalSubcalls : ℤ
  cachedHits : ℤ
  query : String
  contextHints : List String := []

structure AuditedUsage where
  subcallCount : ℤ
  cachedSubcalls : ℤ
  totalTokens : ℤ
  wallTimeSeconds : ℚ
  modelCalls : ℤ
  budgetLimit : ℤ := 50
  budgetRemaining : ℤ := 50

structure AuditedResult where
  taskId : String
  success : Bool
  findings : List AuditedFinding
  synthesis : String
  trajectory : AuditedTrajectory
  usage : AuditedUsage
  citations : List AuditedCitation
  error : Option String := none

/-- `cache_hit_rate`. -/
def AuditedUsage.cacheHitRate (usage : AuditedUsage) : ℚ :=
  if usage.subcallCount = 0 then 0 else usage.cachedSubcalls / usage.subcallCount * 100

/-- `budget_used_percentage`. -/
def AuditedUsage.budgetUsedPercentage (usage : AuditedUsage) : ℚ :=
  if usage.budgetLimit = 0 then 0
  else (usage.budgetLimit - usage.budgetRemaining) / usage.budgetLimit * 100

/-! ## Dictionaries -/

variable (iso : IsoFormat)

/-- `datetime.fromisoformat` of a value. -/
def instant (value : Json) : Except Error Time := do
  let text ← asText value
  match iso.fromisoformat text with
  | some t => .ok t
  | none => .error ⟨.valueError, "Invalid isoformat string: '" ++ text ++ "'", []⟩

@[simp] theorem instant_isoformat (t : Time) : instant iso (.str (iso.isoformat t)) = .ok t := by
  simp [instant, iso.fromisoformat_isoformat, Bind.bind, Except.bind]

namespace AuditedToolCall

def toDict (call : AuditedToolCall) : Json :=
  .obj [("tool_name", .str call.toolName), ("arguments", .obj call.arguments),
    ("result", .str call.result), ("duration_ms", .float call.durationMs),
    ("timestamp", .str (iso.isoformat call.timestamp))]

def fromDict (data : Json) : Except Error AuditedToolCall := do
  return {
    toolName := ← asText (← data.item "tool_name")
    arguments := ← asArgs (← data.item "arguments")
    result := ← asText (← data.item "result")
    durationMs := ← asNumber (← data.item "duration_ms")
    timestamp := ← instant iso (← data.item "timestamp") }

theorem fromDict_toDict (call : AuditedToolCall) : fromDict iso (call.toDict iso) = .ok call := by
  simp [fromDict, toDict, Json.field?, Bind.bind, Except.bind, pure, Except.pure]

end AuditedToolCall

namespace AuditedCitation

def toDict (citation : AuditedCitation) : Json :=
  .obj [("file_path", .str citation.filePath), ("line_start", .int citation.lineStart),
    ("line_end", .int citation.lineEnd), ("content_hash", .str citation.contentHash),
    ("snippet", ofOptionalText citation.snippet)]

def fromDict (data : Json) : Except Error AuditedCitation := do
  return {
    filePath := ← asText (← data.item "file_path")
    lineStart := ← asInt (← data.item "line_start")
    lineEnd := ← asInt (← data.item "line_end")
    contentHash := ← asText (← data.item "content_hash")
    snippet := ← asOptionalText (← data.get "snippet" .null) }

theorem fromDict_toDict (citation : AuditedCitation) :
    fromDict citation.toDict = .ok citation := by
  simp [fromDict, toDict, Json.field?, Bind.bind, Except.bind, pure, Except.pure]

end AuditedCitation

namespace AuditedFinding

/-- `list(self.line_range) if self.line_range else None`. -/
def lineRangeDict : Option (ℤ × ℤ) → Json
  | none => .null
  | some (a, b) => .arr [.int a, .int b]

def toDict (finding : AuditedFinding) : Json :=
  .obj [("description", .str finding.description), ("evidence", .str finding.evidence),
    ("source_file", .str finding.sourceFile), ("line_range", lineRangeDict finding.lineRange),
    ("confidence", .float finding.confidence), ("tags", ofTexts finding.tags)]

def fromDict (data : Json) : Except Error AuditedFinding := do
  let lineRange ← data.get "line_range" .null
  let description ← asText (← data.item "description")
  let evidence ← asText (← data.item "evidence")
  let sourceFile ← asText (← data.item "source_file")
  let lineRange ← asOptional asPair lineRange
  let confidence ← asNumber (← data.get "confidence" (.float 1))
  let tags ← asTexts (← data.get "tags" (.arr []))
  if valid : 0 ≤ confidence ∧ confidence ≤ 1 then
    return {
      description := description
      evidence := evidence
      sourceFile := sourceFile
      lineRange := lineRange
      confidence := confidence
      tags := tags
      valid := valid }
  else .error ⟨.valueError, "Confidence must be 0.0-1.0", []⟩

@[simp] theorem asOptional_lineRangeDict (range : Option (ℤ × ℤ)) :
    asOptional asPair (lineRangeDict range) = .ok range := by
  cases range <;> rfl

theorem fromDict_toDict (finding : AuditedFinding) : fromDict finding.toDict = .ok finding := by
  have hvalid := finding.valid
  simp [fromDict, toDict, Json.field?, Bind.bind, Except.bind, pure, Except.pure, hvalid]

end AuditedFinding

namespace AuditedStep

def toDict (step : AuditedStep) : Json :=
  .obj [("iteration", .int step.iteration), ("thought", .str step.thought),
    ("tool_calls", .arr (step.toolCalls.map (AuditedToolCall.toDict iso))),
    ("findings_so_far", ofTexts step.findingsSoFar), ("next_direction", .str step.nextDirection),
    ("subcalls_used", .int step.subcallsUsed)]

def fromDict (data : Json) : Except Error AuditedStep := do
  return {
    iteration := ← asInt (← data.item "iteration")
    thought := ← asText (← data.item "thought")
    toolCalls := ← (← (← data.get "tool_calls" (.arr [])).elements).mapM
      (AuditedToolCall.fromDict iso)
    findingsSoFar := ← asTexts (← data.get "findings_so_far" (.arr []))
    nextDirection := ← asText (← data.get "next_direction" (.str ""))
    subcallsUsed := ← asInt (← data.get "subcalls_used" (.int 0)) }

theorem fromDict_toDict (step : AuditedStep) : fromDict iso (step.toDict iso) = .ok step := by
  have hcalls := Json.mapM_map (AuditedToolCall.fromDict_toDict iso) step.toolCalls
  simp [fromDict, toDict, Json.field?, Json.elements, Bind.bind, Except.bind, pure, Except.pure,
    hcalls]

end AuditedStep

namespace AuditedTrajectory

/-- The instant of the end, as a text or nothing. -/
def endTimeDict : Option Time → Json
  | none => .null
  | some t => .str (iso.isoformat t)

def toDict (trajectory : AuditedTrajectory) : Json :=
  .obj [("steps", .arr (trajectory.steps.map (AuditedStep.toDict iso))),
    ("start_time", .str (iso.isoformat trajectory.startTime)),
    ("end_time", endTimeDict iso trajectory.endTime),
    ("total_subcalls", .int trajectory.totalSubcalls),
    ("cached_hits", .int trajectory.cachedHits), ("query", .str trajectory.query),
    ("context_hints", ofTexts trajectory.contextHints)]

def fromDict (data : Json) : Except Error AuditedTrajectory := do
  let endTime ← data.get "end_time" .null
  return {
    steps := ← (← (← data.get "steps" (.arr [])).elements).mapM (AuditedStep.fromDict iso)
    startTime := ← instant iso (← data.item "start_time")
    endTime := ← asOptional (instant iso) endTime
    totalSubcalls := ← asInt (← data.get "total_subcalls" (.int 0))
    cachedHits := ← asInt (← data.get "cached_hits" (.int 0))
    query := ← asText (← data.get "query" (.str ""))
    contextHints := ← asTexts (← data.get "context_hints" (.arr [])) }

@[simp] theorem asOptional_endTimeDict (t : Option Time) :
    asOptional (instant iso) (endTimeDict iso t) = .ok t := by
  cases t with
  | none => rfl
  | some t =>
    have htext : iso.isoformat t ≠ "" := iso.isoformat_ne_empty t
    simp [asOptional, endTimeDict, Json.truthy, htext, Except.map]

theorem fromDict_toDict (trajectory : AuditedTrajectory) :
    fromDict iso (trajectory.toDict iso) = .ok trajectory := by
  have hsteps := Json.mapM_map (AuditedStep.fromDict_toDict iso) trajectory.steps
  simp [fromDict, toDict, Json.field?, Json.elements, Bind.bind, Except.bind, pure, Except.pure,
    hsteps]

end AuditedTrajectory

namespace AuditedUsage

def toDict (usage : AuditedUsage) : Json :=
  .obj [("subcall_count", .int usage.subcallCount),
    ("cached_subcalls", .int usage.cachedSubcalls), ("total_tokens", .int usage.totalTokens),
    ("wall_time_seconds", .float usage.wallTimeSeconds), ("model_calls", .int usage.modelCalls),
    ("budget_limit", .int usage.budgetLimit), ("budget_remaining", .int usage.budgetRemaining),
    ("cache_hit_rate", .float usage.cacheHitRate),
    ("budget_used_percentage", .float usage.budgetUsedPercentage)]

def fromDict (data : Json) : Except Error AuditedUsage := do
  return {
    subcallCount := ← asInt (← data.item "subcall_count")
    cachedSubcalls := ← asInt (← data.item "cached_subcalls")
    totalTokens := ← asInt (← data.item "total_tokens")
    wallTimeSeconds := ← asNumber (← data.item "wall_time_seconds")
    modelCalls := ← asInt (← data.item "model_calls")
    budgetLimit := ← asInt (← data.get "budget_limit" (.int 50))
    budgetRemaining := ← asInt (← data.get "budget_remaining" (.int 50)) }

theorem fromDict_toDict (usage : AuditedUsage) : fromDict usage.toDict = .ok usage := by
  simp [fromDict, toDict, Json.field?, Bind.bind, Except.bind, pure, Except.pure]

end AuditedUsage

namespace AuditedResult

def toDict (result : AuditedResult) : Json :=
  .obj [("task_id", .str result.taskId), ("success", .bool result.success),
    ("findings", .arr (result.findings.map AuditedFinding.toDict)),
    ("synthesis", .str result.synthesis), ("trajectory", result.trajectory.toDict iso),
    ("usage", result.usage.toDict),
    ("citations", .arr (result.citations.map AuditedCitation.toDict)),
    ("error", ofOptionalText result.error)]

def fromDict (data : Json) : Except Error AuditedResult := do
  return {
    taskId := ← asText (← data.item "task_id")
    success := ← asBool (← data.item "success")
    findings := ← (← (← data.get "findings" (.arr [])).elements).mapM AuditedFinding.fromDict
    synthesis := ← asText (← data.get "synthesis" (.str ""))
    trajectory := ← AuditedTrajectory.fromDict iso (← data.item "trajectory")
    usage := ← AuditedUsage.fromDict (← data.item "usage")
    citations := ← (← (← data.get "citations" (.arr [])).elements).mapM AuditedCitation.fromDict
    error := ← asOptionalText (← data.get "error" .null) }

/-- **Reading gives back what was written**, field by field. -/
theorem fromDict_toDict (result : AuditedResult) :
    fromDict iso (result.toDict iso) = .ok result := by
  have hfindings := Json.mapM_map AuditedFinding.fromDict_toDict result.findings
  have hcitations := Json.mapM_map AuditedCitation.fromDict_toDict result.citations
  have htrajectory := AuditedTrajectory.fromDict_toDict iso result.trajectory
  have husage := AuditedUsage.fromDict_toDict result.usage
  simp [fromDict, toDict, Json.field?, Json.elements, Bind.bind, Except.bind, pure, Except.pure,
    hfindings, hcitations, htrajectory, husage]

end AuditedResult

/-! ## The index -/

/-- An entry of the index. -/
structure AuditEntry where
  taskId : String
  timestamp : Time
  query : String
  success : Bool
  findingsCount : ℤ
  iterations : ℤ
  subcallsUsed : ℤ
  wallTimeSeconds : ℚ
  filePath : String
  deriving DecidableEq, Repr

namespace AuditEntry

def toDict (entry : AuditEntry) : Json :=
  .obj [("task_id", .str entry.taskId), ("timestamp", .str (iso.isoformat entry.timestamp)),
    ("query", .str entry.query), ("success", .bool entry.success),
    ("findings_count", .int entry.findingsCount), ("iterations", .int entry.iterations),
    ("subcalls_used", .int entry.subcallsUsed),
    ("wall_time_seconds", .float entry.wallTimeSeconds), ("file_path", .str entry.filePath)]

def fromDict (data : Json) : Except Error AuditEntry := do
  return {
    taskId := ← asText (← data.item "task_id")
    timestamp := ← instant iso (← data.item "timestamp")
    query := ← asText (← data.item "query")
    success := ← asBool (← data.item "success")
    findingsCount := ← asInt (← data.item "findings_count")
    iterations := ← asInt (← data.item "iterations")
    subcallsUsed := ← asInt (← data.item "subcalls_used")
    wallTimeSeconds := ← asNumber (← data.item "wall_time_seconds")
    filePath := ← asText (← data.item "file_path") }

theorem fromDict_toDict (entry : AuditEntry) : fromDict iso (entry.toDict iso) = .ok entry := by
  simp [fromDict, toDict, Json.field?, Bind.bind, Except.bind, pure, Except.pure]

end AuditEntry

end DoxAsdlc.Rlm
