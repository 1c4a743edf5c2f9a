import DoxAsdlc.Agents.Protocols
import DoxAsdlc.Core.Events

/-!
# What the agents of the development make

Test suites, implementations, reviews and analyses are built from the answers of a language
model, field by field and with a default for each, so that a field holds a JSON value of any
kind.  Writing one out as text raises where a value is not a text that has to be one.

## Main definitions

* `TestSuite`, `Implementation`, `CodeReview`, `DebugAnalysis` — what the agents make.
* `TestSuite.toPythonCode`, `CodeReview.toMarkdown`, `DebugAnalysis.toMarkdown` — their texts.
* `TestSuite.fromDict` and the like — reading them back from a dictionary.
* `DevelopmentResult` — the result of the development.
-/

namespace DoxAsdlc.Rlm.Json

/-- An `AttributeError`. -/
def attributeError (value : Json) (name : String) : Error :=
  ⟨.exception, "'" ++ value.typeName ++ "' object has no attribute '" ++ name ++ "'", []⟩

/-- `value.get(key, default)`. -/
def get : Json → String → Json → Except Error Json
  | .obj fields, key, default => .ok ((field? fields key).getD default)
  | other, _, _ => .error (attributeError other "get")

/-- `key in value`. -/
def has (key : String) : Json → Except Error Bool
  | .obj fields => .ok (field? fields key).isSome
  | .arr items => .ok (items.any (isText key))
  | .str s => .ok (contains key s)
  | other => .error (Agents.typeError ("argument of type '" ++ other.typeName ++ "' is not iterable"))

/-- A method that only texts have. -/
def onText {α : Type} (name : String) (f : String → α) : Json → Except Error α
  | .str s => .ok (f s)
  | other => .error (attributeError other name)

end DoxAsdlc.Rlm.Json

namespace DoxAsdlc.Development

open Rlm (Json)

/-! ## Enumerations -/

/-- `TestType`. -/
inductive TestType where
  | unit | integration | e2e
  deriving DecidableEq, Repr

/-- The text that stands for a kind of test. -/
def TestType.value : TestType → String
  | .unit => "unit"
  | .integration => "integration"
  | .e2e => "e2e"

/-- `IssueSeverity`. -/
inductive IssueSeverity where
  | low | medium | high | critical
  deriving DecidableEq, Repr

/-- The text that stands for a severity. -/
def IssueSeverity.value : IssueSeverity → String
  | .low => "low"
  | .medium => "medium"
  | .high => "high"
  | .critical => "critical"

/-- The member of an enumeration with a value: a `ValueError` without one. -/
def member {E : Type} (members : List E) (value : E → String) (v : Json) : Except Error E :=
  match members.find? fun m => v.isText (value m) with
  | some m => .ok m
  | none => .error ⟨.valueError, "not a valid value", []⟩

/-- `TestType(value)`. -/
def TestType.of : Json → Except Error TestType :=
  member [.unit, .integration, .e2e] TestType.value

/-- `IssueSeverity(value)`. -/
def IssueSeverity.of : Json → Except Error IssueSeverity :=
  member [.low, .medium, .high, .critical] IssueSeverity.value

/-! ## Test suites -/

/-- `TestCase`. -/
structure TestCase where
  id : Json
  name : Json
  description : Json
  testType : TestType
  code : Json
  requirementRef : Json
  metadata : Json

/-- `TestSuite`. -/
structure TestSuite where
  taskId : Json
  testCases : List TestCase
  setupCode : Json
  teardownCode : Json
  fixtures : Json
  metadata : Json := .obj []

/-- `TestCase.from_dict`. -/
def TestCase.fromDict (data : Json) : Except Error TestCase := do
  return {
    id := ← data.get "id" (.str "")
    name := ← data.get "name" (.str "")
    description := ← data.get "description" (.str "")
    testType := ← TestType.of (← data.get "test_type" (.str "unit"))
    code := ← data.get "code" (.str "")
    requirementRef := ← data.get "requirement_ref" (.str "")
    metadata := ← data.get "metadata" (.obj []) }

/-- `TestSuite.from_dict`. -/
def TestSuite.fromDict (data : Json) : Except Error TestSuite := do
  return {
    taskId := ← data.get "task_id" (.str "")
    testCases := ← (← (← data.get "test_cases" (.arr [])).elements).mapM TestCase.fromDict
    setupCode := ← data.get "setup_code" (.str "")
    teardownCode := ← data.get "teardown_code" (.str "")
    fixtures := ← data.get "fixtures" (.arr [])
    metadata := ← data.get "metadata" (.obj []) }

section

-- `str` of a value.
variable (str : Json → String)

/-- `to_python_code`: the code of every part must be a text, and the fixtures texts to be
joined. -/
def TestSuite.toPythonCode (suite : TestSuite) : Except Error String := do
  let header := Json.str ("\"\"\"Auto-generated tests for task: " ++ str suite.taskId ++ "\"\"\"")
  let setup := if suite.setupCode.truthy then [suite.setupCode, .str ""] else []
  let fixtures ←
    if suite.fixtures.truthy then do
      .ok [.str ("# Fixtures used: " ++ (← suite.fixtures.join ", ")), .str ""]
    else .ok []
  let cases := suite.testCases.flatMap fun tc =>
    [.str ("# " ++ str tc.id ++ ": " ++ str tc.description), tc.code, .str ""]
  let teardown := if suite.teardownCode.truthy then [suite.teardownCode, .str ""] else []
  Json.join "\n" (.arr ([header, .str ""] ++ setup ++ fixtures ++ cases ++ teardown))

end

/-! ## Implementations -/

/-- `CodeFile`. -/
structure CodeFile where
  path : Json
  content : Json
  language : Json
  metadata : Json := .obj []

/-- `Implementation`. -/
structure Implementation where
  taskId : Json
  files : List CodeFile
  imports : Json
  dependencies : Json
  metadata : Json := .obj []

/-- `CodeFile.from_dict`. -/
def CodeFile.fromDict (data : Json) : Except Error CodeFile := do
  return {
    path := ← data.get "path" (.str "")
    content := ← data.get "content" (.str "")
    language := ← data.get "language" (.str "python")
    metadata := ← data.get "metadata" (.obj []) }

/-- `Implementation.from_dict`. -/
def Implementation.fromDict (data : Json) : Except Error Implementation := do
  return {
    taskId := ← data.get "task_id" (.str "")
    files := ← (← (← data.get "files" (.arr [])).elements).mapM CodeFile.fromDict
    imports := ← data.get "imports" (.arr [])
    dependencies := ← data.get "dependencies" (.arr [])
    metadata := ← data.get "metadata" (.obj []) }

/-! ## Reviews -/

/-- `ReviewIssue`. -/
structure ReviewIssue where
  id : Json
  description : Json
  severity : IssueSeverity
  filePath : Json
  lineNumber : Json
  suggestion : Json
  metadata : Json

/-- `CodeReview`. -/
structure CodeReview where
  implementationId : Json
  passed : Json
  issues : List ReviewIssue
  suggestions : Json
  securityConcerns : Json
  metadata : Json := .obj []

/-- `ReviewIssue.from_dict`. -/
def ReviewIssue.fromDict (data : Json) : Except Error ReviewIssue := do
  return {
    id := ← data.get "id" (.str "")
    description := ← data.get "description" (.str "")
    severity := ← IssueSeverity.of (← data.get "severity" (.str "medium"))
    filePath := ← data.get "file_path" (.str "")
    lineNumber := ← data.get "line_number" (.int 0)
    suggestion := ← data.get "suggestion" (.str "")
    metadata := ← data.get "metadata" (.obj []) }

/-- `datetime.fromisoformat(data.get("created_at", …))`: the time is not looked at, but a value
that is no time raises. -/
def checkCreatedAt (isIsoFormat : Json → Bool) (data : Json) : Except Error Unit := do
  let createdAt ← data.get "created_at" .null
  let given ← data.has "created_at"
  if given && !isIsoFormat createdAt then
    .error ⟨.valueError, "Invalid isoformat string", []⟩
  else .ok ()

/-- `CodeReview.from_dict`. -/
def CodeReview.fromDict (isIsoFormat : Json → Bool) (data : Json) : Except Error CodeReview := do
  let review : CodeReview := {
    implementationId := ← data.get "implementation_id" (.str "")
    passed := ← data.get "passed" (.bool false)
    issues := ← (← (← data.get "issues" (.arr [])).elements).mapM ReviewIssue.fromDict
    suggestions := ← data.get "suggestions" (.arr [])
    securityConcerns := ← data.get "security_concerns" (.arr [])
    metadata := ← data.get "metadata" (.obj []) }
  checkCreatedAt isIsoFormat data
  return review

/-! ## Analyses -/

/-- `CodeChange`. -/
structure CodeChange where
  filePath : Json
  originalCode : Json
  newCode : Json
  description : Json
  lineStart : Json
  lineEnd : Json
  metadata : Json := .obj []

/-- `DebugAnalysis`. -/
structure DebugAnalysis where
  failureId : Json
  rootCause : Json
  fixSuggestion : Json
  codeChanges : List CodeChange
  metadata : Json := .obj []

/-- `CodeChange.from_dict`. -/
def CodeChange.fromDict (data : Json) : Except Error CodeChange := do
  return {
    filePath := ← data.get "file_path" (.str "")
    originalCode := ← data.get "original_code" (.str "")
    newCode := ← data.get "new_code" (.str "")
    description := ← data.get "description" (.str "")
    lineStart := ← data.get "line_start" (.int 0)
    lineEnd := ← data.get "line_end" (.int 0)
    metadata := ← data.get "metadata" (.obj []) }

/-- `CodeChange.to_dict`. -/
def CodeChange.toDict (change : CodeChange) : Json :=
  .obj [("file_path", change.filePath), ("original_code", change.originalCode),
    ("new_code", change.newCode), ("description", change.description),
    ("line_start", change.lineStart), ("line_end", change.lineEnd), ("metadata", change.metadata)]

/-- `DebugAnalysis.from_dict`. -/
def DebugAnalysis.fromDict (isIsoFormat : Json → Bool) (data : Json) :
    Except Error DebugAnalysis := do
  let analysis : DebugAnalysis := {
    failureId := ← data.get "failure_id" (.str "")
    rootCause := ← data.get "root_cause" (.str "")
    fixSuggestion := ← data.get "fix_suggestion" (.str "")
    codeChanges := ← (← (← data.get "code_changes" (.arr [])).elements).mapM CodeChange.fromDict
    metadata := ← data.get "metadata" (.obj []) }
  checkCreatedAt isIsoFormat data
  return analysis

/-! ## Texts for readers -/

section

variable (str : Json → String) (today : String)

/-- `CodeReview.to_markdown`; the suggestions and the concerns must be of a kind to go through. -/
def CodeReview.toMarkdown (review : CodeReview) : Except Error String := do
  let status := if review.passed.truthy then "PASSED" else "FAILED"
  let issues := if review.issues = [] then [] else
    ["## Issues", ""] ++ review.issues.flatMap fun issue =>
      ["### " ++ str issue.id ++ ": " ++ str issue.description, "",
        "**Severity:** " ++ issue.severity.value.toUpper,
        "**Location:** " ++ str issue.filePath ++ ":" ++ str issue.lineNumber, "",
        "**Suggestion:** " ++ str issue.suggestion, ""]
  let listed (title : String) (value : Json) : Except Error (List String) :=
    if value.truthy then do
      .ok ([title, ""] ++ (← value.elements).map (fun s => "- " ++ str s) ++ [""])
    else .ok []
  let suggestions ← listed "## Suggestions" review.suggestions
  let concerns ← listed "## Security Concerns" review.securityConcerns
  return "\n".intercalate (["# Code Review", "",
    "**Implementation:** " ++ str review.implementationId, "**Status:** " ++ status,
    "**Date:** " ++ today, ""] ++ issues ++ suggestions ++ concerns)

/-- `DebugAnalysis.to_markdown`: what stands on a line of its own must be a text. -/
def DebugAnalysis.toMarkdown (analysis : DebugAnalysis) : Except Error String :=
  let changes := if analysis.codeChanges = [] then [] else
    [Json.str "## Code Changes", .str ""] ++ (analysis.codeChanges.mapIdx fun i change =>
      [Json.str ("### Change " ++ toString (i + 1) ++ ": " ++ str change.description), .str "",
        .str ("**File:** " ++ str change.filePath),
        .str ("**Lines:** " ++ str change.lineStart ++ "-" ++ str change.lineEnd), .str "",
        .str "**Original:**", .str "```", change.originalCode, .str "```", .str "",
        .str "**New:**", .str "```", change.newCode, .str "```", .str ""]).flatten
  Json.join "\n" (.arr ([.str "# Debug Analysis", .str "",
    .str ("**Failure ID:** " ++ str analysis.failureId), .str ("**Date:** " ++ today), .str "",
    .str "## Root Cause", .str "", analysis.rootCause, .str "", .str "## Suggested Fix", .str "",
    analysis.fixSuggestion, .str ""] ++ changes))

end

/-! ## Test runs and results -/

/-- `TestResult`. -/
structure TestResult where
  testId : String
  passed : Bool
  error : Option String

/-- `TestRunResult`. -/
structure TestRunResult where
  suiteId : String
  results : List TestResult
  passed : ℕ
  failed : ℕ
  coverage : ℚ

/-- `all_passed`. -/
def TestRunResult.allPassed (r : TestRunResult) : Bool := r.failed == 0

/-- `DevelopmentResult`. -/
structure DevelopmentResult where
  success : Bool
  implementation : Option Implementation := none
  testSuite : Option TestSuite := none
  testResult : Option TestRunResult := none
  review : Option CodeReview := none
  errorMessage : Option String := none
  hitl4RequestId : Option String := none
  retryCount : ℕ := 0
  metadata : List (String × String) := []

/-- `DevelopmentResult.failed`. -/
def DevelopmentResult.failure (errorMessage : String) (retryCount : ℕ) : DevelopmentResult where
  success := false
  errorMessage := some errorMessage
  retryCount := retryCount

end DoxAsdlc.Development
