import DoxAsdlc.Development.Workshop

/-!
# The agents of the development

Each agent checks its input, asks the model, builds what it makes from the JSON in the answer,
writes it as artifacts, and reports a result whose metadata has some figures about it.  What is
raised on the way becomes a failure.

## Main definitions

* `UTest.execute`, `Coding.execute`, `Debugger.execute`, `Reviewer.execute` — the agents.
* `buildTestSuite`, `buildImplementation`, `buildDebugAnalysis`, `buildCodeReview` — what they
  make of an answer.
-/

namespace DoxAsdlc.Development

open Interaction Interaction.Program
open Rlm (Json)

variable (S : Setting)

/-! ## Test cases -/

namespace UTest

/-- The metadata that the agent looks at. -/
structure Input where
  taskDescription : String
  acceptanceCriteria : List String

/-- Add a test case to those that are built; one of a kind that does not exist is left out. -/
def addTestCase (built : List TestCase) (data : Json) : Except Error (List TestCase) := do
  let id ← data.get "id" (.str ("TC-" ++ pad3 (built.length + 1)))
  let name ← data.get "name" (.str "")
  let description ← data.get "description" (.str "")
  let kind ← data.get "test_type" (.str "unit")
  match TestType.of kind with
  | .error _ => return built
  | .ok testType =>
    let testCase : TestCase := {
      id := id
      name := name
      description := description
      testType := testType
      code := ← data.get "code" (.str "")
      requirementRef := ← data.get "requirement_ref" (.str "")
      metadata := ← data.get "metadata" (.obj []) }
    return built ++ [testCase]

/-- The test suite in an answer. -/
def buildTestSuite (taskId content : String) : Except Error (Option TestSuite) :=
  match parseJsonFromResponse S.loads content with
  | none => .ok none
  | some data => do
      if !data.truthy then return none
      if !(← data.has "test_cases") then return none
      let testCases ←
        (← (← data.get "test_cases" (.arr [])).elements).foldlM addTestCase []
      if testCases.isEmpty then return none
      return some {
        taskId := .str taskId
        testCases := testCases
        setupCode := ← data.get "setup_code" (.str "")
        teardownCode := ← data.get "teardown_code" (.str "")
        fixtures := ← data.get "fixtures" (.arr []) }

/-- The tests that are listed under a criterion. -/
def listedTests (suite : TestSuite) (number : ℕ) : Except Error (List Json) := do
  let refs ← suite.testCases.mapM fun tc => do
    return (tc.id, ← tc.requirementRef.onText "upper" S.upper)
  return (refs.filter fun r =>
    contains ("AC-" ++ pad3 number) r.2 || contains ("AC-" ++ toString number) r.2).map Prod.fst

/-- `_calculate_criteria_coverage`. -/
def calculateCriteriaCoverage (suite : TestSuite) (acceptanceCriteria : List String) :
    Except Error Json := do
  let coverage ← (List.range acceptanceCriteria.length).mapM fun i => do
    return ("AC-" ++ pad3 (i + 1), Rlm.Json.arr (← listedTests S suite (i + 1)))
  return .obj coverage

/-- `_write_artifacts`. -/
def writeArtifacts (context : Context) (suite : TestSuite) : Async (List String) := do
  let jsonPath ← send (.writeArtifact context.sessionId context.taskId (.json (.testSuite suite))
    .report (context.taskId ++ "_tests.json"))
  let pythonContent ← answer (suite.toPythonCode S.str)
  let pythonPath ← send (.writeArtifact context.sessionId context.taskId
    (.value (.str pythonContent)) .text ("test_" ++ context.taskId ++ ".py"))
  pure [jsonPath, pythonPath]

/-- The result of a success. -/
def succeeded (suite : TestSuite) (artifactPaths : List String) (coverage : Json) :
    Agents.AgentResult Value where
  success := true
  artifactPaths := artifactPaths
  metadata := [
    ("test_count", .json (.int suite.testCases.length)),
    ("fixtures", .json suite.fixtures),
    ("criteria_coverage", .json coverage),
    ("tdd_phase", .json (.str "red"))]

/-- `UTestAgent.execute`. -/
def execute (context : Context) (input : Input) : Async (Agents.AgentResult Value) :=
  guarded <|
    if input.taskDescription = "" then
      pure (failure "No task_description provided in event_metadata" false)
    else if input.acceptanceCriteria = [] then
      pure (failure "No acceptance_criteria provided in event_metadata" false)
    else do
      let content ← send (.generate (S.prompts.testGeneration input.taskDescription
        input.acceptanceCriteria context.contextString))
      match ← answer (buildTestSuite S context.taskId content) with
      | none => pure (failure "Failed to generate test suite from acceptance criteria" true)
      | some suite => do
          let artifactPaths ← writeArtifacts S context suite
          let coverage ← answer (calculateCriteriaCoverage S suite input.acceptanceCriteria)
          pure (succeeded suite artifactPaths coverage)

end UTest

/-! ## The implementation -/

namespace Coding

/-- The metadata that the agent looks at. -/
structure Input where
  taskDescription : String
  testCode : String
  failCount : ℕ
  previousImplementation : String := ""
  testErrors : List String := []
  debugAnalysis : Option DebugAnalysis := none

/-- `_should_use_rlm`. -/
def shouldUseRlm (failCount : ℕ) : Bool :=
  S.enableRlm && S.rlmIntegration && decide (0 < failCount)

/-- `_run_rlm_exploration`. -/
def runRlmExploration (context : Context) (input : Input) : Async (Option String) :=
  if !S.rlmIntegration then pure none
  else
    try do
      let errorsText := "\n".intercalate input.testErrors
      let query := S.prompts.codingQuery input.taskDescription input.testCode
        (if errorsText = "" then "None" else errorsText)
      let failCount := if input.testErrors = [] then 1 else input.testErrors.length
      let trigger ← send (.shouldUseRlm query failCount "coding")
      if trigger then
        let result ← send (.explore query [] context.taskId)
        pure (some result.formattedOutput)
      else pure none
    catch _ => pure none

/-- The exploration before an attempt that is not the first. -/
def explore (context : Context) (input : Input) : Async (Option String) :=
  if shouldUseRlm S input.failCount then runRlmExploration S context input else pure none

/-- `_extract_debug_hints`. -/
def extractDebugHints (analysis : Option DebugAnalysis) : List String :=
  match analysis with
  | none => []
  | some analysis =>
    let hint (front : String) (value : Json) :=
      if value.truthy then [front ++ S.str value] else []
    hint "Root cause: " analysis.rootCause ++ hint "Suggested fix: " analysis.fixSuggestion ++
      analysis.codeChanges.flatMap fun change => hint "Code change: " change.description

/-- The prompt of an attempt. -/
def prompt (context : Context) (input : Input) (rlmContext : String) : String :=
  let hints := extractDebugHints S input.debugAnalysis
  let prompt :=
    if 0 < input.failCount ∧ (input.previousImplementation ≠ "" ∨ input.testErrors ≠ []) then
      S.prompts.retryImplementation input.taskDescription input.testCode
        (if input.previousImplementation = "" then "(no previous implementation available)"
          else input.previousImplementation)
        input.testErrors input.failCount hints
    else
      let prompt := S.prompts.implementation input.taskDescription input.testCode
        context.contextString
      if hints = [] then prompt
      else prompt ++ "\n\n## Debug Hints\n\nConsider these insights when implementing:\n" ++
        "\n".intercalate (hints.map ("- " ++ ·))
  if rlmContext = "" then prompt
  else prompt ++ "\n\n## Additional Context from Codebase Analysis\n\n" ++ rlmContext

/-- The file that is described by a value. -/
def codeFile (data : Json) : Except Error CodeFile := do
  return {
    path := ← data.get "path" (.str "")
    content := ← data.get "content" (.str "")
    language := ← data.get "language" (.str "python") }

/-- The implementation in an answer. -/
def buildImplementation (taskId content : String) : Except Error (Option Implementation) :=
  match parseJsonFromResponse S.loads content with
  | none => .ok none
  | some data => do
      if !data.truthy then return none
      if !(← data.has "files") then return none
      let files ← (← (← data.get "files" (.arr [])).elements).mapM codeFile
      if files.isEmpty then return none
      return some {
        taskId := .str taskId
        files := files
        imports := ← data.get "imports" (.arr [])
        dependencies := ← data.get "dependencies" (.arr []) }

/-- The files of an implementation, one by one. -/
def writeFiles (context : Context) : List CodeFile → Async (List String)
  | [] => pure []
  | file :: files => do
      let fileName ← answer (file.path.onText "replace" fun s => s.map fun c =>
        if c = '/' then '_' else c)
      let filePath ← send (.writeArtifact context.sessionId context.taskId (.value file.content)
        .text (context.taskId ++ "_" ++ fileName))
      let paths ← writeFiles context files
      pure (filePath :: paths)

/-- `_write_artifacts`. -/
def writeArtifacts (context : Context) (implementation : Implementation) :
    Async (List String) := do
  let jsonPath ← send (.writeArtifact context.sessionId context.taskId
    (.json (.implementation implementation)) .report (context.taskId ++ "_implementation.json"))
  let paths ← writeFiles context implementation.files
  pure (jsonPath :: paths)

/-- The result of a success. -/
def succeeded (implementation : Implementation) (artifactPaths : List String) (failCount : ℕ)
    (usedRlm : Bool) : Agents.AgentResult Value where
  success := true
  artifactPaths := artifactPaths
  metadata := [
    ("file_count", .json (.int implementation.files.length)),
    ("imports", .json implementation.imports),
    ("dependencies", .json implementation.dependencies),
    ("fail_count", .json (.int failCount)),
    ("used_rlm", .json (.bool usedRlm)),
    ("tdd_phase", .json (.str "green"))]

/-- `CodingAgent.execute`. -/
def execute (context : Context) (input : Input) : Async (Agents.AgentResult Value) :=
  guarded <|
    if input.taskDescription = "" then
      pure (failure "No task_description provided in event_metadata" false)
    else if input.testCode = "" then
      pure (failure "No test_code provided in event_metadata" false)
    else do
      let rlmContext := (← explore S context input).getD ""
      let content ← send (.generate (prompt S context input rlmContext))
      match ← answer (buildImplementation S context.taskId content) with
      | none => pure (failure "Failed to generate implementation from tests" true)
      | some implementation => do
          let artifactPaths ← writeArtifacts context implementation
          pure (succeeded implementation artifactPaths input.failCount (rlmContext ≠ ""))

end Coding

/-! ## The analysis -/

namespace Debugger

/-- The metadata that the agent looks at. -/
structure Input where
  testOutput : String
  implementation : String
  testCode : String

/-- `_build_context_hints`. -/
def buildContextHints (context : Context) : List String :=
  match context.contextPack with
  | none => []
  | some pack =>
    ((pack.files.take 5).filter fun f => f.1 ≠ "").map (fun f => "Related file: " ++ f.1) ++
      (if pack.interfaces = [] then [] else
        ["Relevant interfaces: " ++ ", ".intercalate pack.interfaces])

/-- `_run_rlm_exploration`. -/
def runRlmExploration (context : Context) (input : Input) : Async (Option Exploration) :=
  if !S.rlmIntegration then pure none
  else
    try do
      let result ← send (.explore (S.prompts.debuggingQuery input.testOutput input.implementation)
        (buildContextHints context) context.taskId)
      pure (some result)
    catch e => pure (some ⟨"", some e.str⟩)

/-- The change that is described by a value. -/
def codeChange (data : Json) : Except Error CodeChange := do
  return {
    filePath := ← data.get "file_path" (.str "")
    originalCode := ← data.get "original_code" (.str "")
    newCode := ← data.get "new_code" (.str "")
    description := ← data.get "description" (.str "")
    lineStart := ← data.get "line_start" (.int 0)
    lineEnd := ← data.get "line_end" (.int 0) }

/-- The analysis in an answer. -/
def buildDebugAnalysis (taskId content : String) : Except Error (Option DebugAnalysis) :=
  match parseJsonFromResponse S.loads content with
  | none => .ok none
  | some data => do
      if !data.truthy then return none
      let codeChanges ← (← (← data.get "code_changes" (.arr [])).elements).mapM codeChange
      return some {
        failureId := ← data.get "failure_id" (.str (taskId ++ "-failure"))
        rootCause := ← data.get "root_cause" (.str "")
        fixSuggestion := ← data.get "fix_suggestion" (.str "")
        codeChanges := codeChanges }

/-- `_generate_debug_analysis`: three questions, the last of which is answered in JSON. -/
def generateDebugAnalysis (context : Context) (input : Input) (rlmContext : String) :
    Async (Option DebugAnalysis) := do
  let failurePrompt := S.prompts.failureAnalysis input.testOutput input.implementation ++
    (if rlmContext = "" then "" else "\n\n## Codebase Context from RLM\n\n" ++ rlmContext)
  let failureAnalysis ← send (.generate failurePrompt)
  let rootCause ← send (.generate (S.prompts.rootCause failureAnalysis
    (if rlmContext = "" then none else some rlmContext) input.testCode))
  let content ← send (.generate (S.prompts.fixSuggestion rootCause input.implementation
    input.testCode))
  answer (buildDebugAnalysis S context.taskId content)

/-- `_write_artifacts`. -/
def writeArtifacts (context : Context) (analysis : DebugAnalysis) : Async (List String) := do
  let jsonPath ← send (.writeArtifact context.sessionId context.taskId
    (.json (.debugAnalysis analysis)) .report (context.taskId ++ "_debug_analysis.json"))
  let markdown ← answer (analysis.toMarkdown S.str S.today)
  let markdownPath ← send (.writeArtifact context.sessionId context.taskId
    (.value (.str markdown)) .report (context.taskId ++ "_debug_analysis.md"))
  pure [jsonPath, markdownPath]

/-- The result of a success. -/
def succeeded (analysis : DebugAnalysis) (artifactPaths : List String) (rlmError : String) :
    Agents.AgentResult Value where
  success := true
  artifactPaths := artifactPaths
  metadata := [
    ("root_cause", .json analysis.rootCause),
    ("fix_suggestion", .json analysis.fixSuggestion),
    ("code_changes", .json (.arr (analysis.codeChanges.map CodeChange.toDict))),
    ("used_rlm", .json (.bool true))] ++
    (if rlmError = "" then [] else [("rlm_error", .json (.str rlmError))])

/-- `DebuggerAgent.execute`. -/
def execute (context : Context) (input : Input) : Async (Agents.AgentResult Value) :=
  guarded <|
    if input.testOutput = "" then
      pure (failure "No test_output provided in event_metadata" false)
    else if input.implementation = "" then
      pure (failure "No implementation provided in event_metadata" false)
    else do
      let explored := (← runRlmExploration S context input).getD ⟨"", none⟩
      match ← generateDebugAnalysis S context input explored.formattedOutput with
      | none => pure (failure "Failed to generate debug analysis from test failures" true)
      | some analysis => do
          let artifactPaths ← writeArtifacts S context analysis
          pure (succeeded analysis artifactPaths (explored.error.getD ""))

end Debugger

/-! ## The review -/

namespace Reviewer

/-- The metadata that the agent looks at. -/
structure Input where
  implementation : String
  testSuite : String
  testResults : String

/-- Add an issue to those that are built; one of a severity that does not exist is left out. -/
def addIssue (built : List ReviewIssue) (data : Json) : Except Error (List ReviewIssue) := do
  let severity ← (← data.get "severity" (.str "medium")).onText "lower" S.lower
  match IssueSeverity.of (.str severity) with
  | .error _ => return built
  | .ok severity =>
    let issue : ReviewIssue := {
      id := ← data.get "id" (.str ("ISSUE-" ++ pad3 (built.length + 1)))
      description := ← data.get "description" (.str "")
      severity := severity
      filePath := ← data.get "file_path" (.str "")
      lineNumber := ← data.get "line_number" (.int 0)
      suggestion := ← data.get "suggestion" (.str "")
      metadata := .obj [("category", ← data.get "category" (.str "quality"))] }
    return built ++ [issue]

/-- The review in an answer. -/
def buildCodeReview (taskId content : String) : Except Error (Option CodeReview) :=
  match parseJsonFromResponse S.loads content with
  | none => .ok none
  | some data => do
      if !data.truthy then return none
      let issues ← (← (← data.get "issues" (.arr [])).elements).foldlM (addIssue S) []
      return some {
        implementationId := .str taskId
        passed := ← data.get "passed" (.bool true)
        issues := issues
        suggestions := ← data.get "suggestions" (.arr [])
        securityConcerns := ← data.get "security_concerns" (.arr []) }

/-- The identifiers of the issues, as a set: a list or an object cannot be in one. -/
def issueIds (issues : List ReviewIssue) : Except Error (List Json) :=
  issues.mapM fun issue =>
    match issue.id with
    | .arr _ | .obj _ => .error (Agents.typeError ("unhashable type: '" ++ issue.id.typeName ++ "'"))
    | id => .ok id

/-- Add a concern that is not there yet: the concerns must be a list. -/
def addConcern (concerns : Json) (concern : String) : Except Error Json := do
  if ← concerns.has concern then return concerns
  match concerns with
  | .arr items => return .arr (items ++ [.str concern])
  | other => .error (other.attributeError "append")

/-- Add a finding that is not there yet. -/
def addFinding (issues : List ReviewIssue) (finding : ReviewIssue) : List ReviewIssue :=
  if issues.any fun issue => issue.id.isText (S.str finding.id) then issues
  else issues ++ [finding]

/-- `_merge_security_findings`; the identifiers of findings are texts. -/
def mergeSecurityFindings (review : CodeReview) (findings : List ReviewIssue) :
    Except Error CodeReview := do
  if findings.isEmpty then return review
  let _ ← issueIds review.issues
  let issues := findings.foldl (addFinding S) review.issues
  let concerns ← findings.foldlM (fun concerns finding =>
    addConcern concerns (S.str finding.description ++ " (line " ++ S.str finding.lineNumber ++ ")"))
    review.securityConcerns
  let hasCriticalIssues := issues.any fun issue =>
    issue.severity = .critical ∨ issue.severity = .high
  return { review with
    issues := issues
    securityConcerns := concerns
    passed := if hasCriticalIssues then .bool false else review.passed }

/-- `_count_severities`. -/
def countSeverities (issues : List ReviewIssue) : Json :=
  .obj <| [IssueSeverity.low, .medium, .high, .critical].map fun severity =>
    (severity.value, .int (issues.countP fun issue => issue.severity = severity))

/-- `_write_artifacts`. -/
def writeArtifacts (context : Context) (review : CodeReview) : Async (List String) := do
  let jsonPath ← send (.writeArtifact context.sessionId context.taskId (.json (.review review))
    .report (context.taskId ++ "_review.json"))
  let markdown ← answer (review.toMarkdown S.str S.today)
  let markdownPath ← send (.writeArtifact context.sessionId context.taskId
    (.value (.str markdown)) .text (context.taskId ++ "_review.md"))
  pure [jsonPath, markdownPath]

/-- The result of a success. -/
def succeeded (review : CodeReview) (artifactPaths : List String) (findings : ℕ) :
    Agents.AgentResult Value where
  success := true
  artifactPaths := artifactPaths
  metadata := [
    ("passed", .json review.passed),
    ("issue_count", .json (.int review.issues.length)),
    ("suggestions", .json review.suggestions),
    ("security_concerns", .json review.securityConcerns),
    ("severity_counts", .json (countSeverities review.issues)),
    ("security_scan_findings", .json (.int findings))]

/-- `ReviewerAgent.execute`. -/
def execute (context : Context) (input : Input) : Async (Agents.AgentResult Value) :=
  guarded <|
    if input.implementation = "" then
      pure (failure "No implementation provided in event_metadata" false)
    else do
      let findings := S.runSecurityScan input.implementation
      let content ← send (.generate (S.prompts.qualityReview input.implementation input.testSuite
        input.testResults))
      match ← answer (buildCodeReview S context.taskId content) with
      | none => pure (failure "Failed to generate code review" true)
      | some review => do
          let review ← answer (mergeSecurityFindings S review findings)
          let artifactPaths ← writeArtifacts S context review
          pure (succeeded review artifactPaths findings.length)

end Reviewer

end DoxAsdlc.Development
