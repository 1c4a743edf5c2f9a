import DoxAsdlc.Development.Agents

/-!
# The orchestrator of test-driven development

Tests are made once.  Then, turn by turn, an implementation is made, the tests are run, and the
implementation is reviewed where they pass; a turn that comes to nothing gives its errors to the
next one, and after some of them the debugger is asked.  What an agent made is taken out of the
metadata of its result.

The orchestrator calls its agents by commands of its own, so that what it does with their results
is apart from what they do.

## Main definitions

* `Call`, `calls` — the commands of the orchestrator.
* `extractTestSuite` and the like — what is taken out of a result.
* `orchestrate` — `run_tdd_loop` with any agents.
* `perform`, `runTddLoop` — the agents of the repository, and the loop with them.
-/

namespace DoxAsdlc.Development

open Interaction Interaction.Program
open Rlm (Json)

/-- What the orchestrator asks for. -/
inductive Call where
  | utest (input : UTest.Input)
  | coding (input : Coding.Input)
  | debugger (input : Debugger.Input)
  | reviewer (input : Reviewer.Input)
  | runTests (testPath : String) (suiteId : Json)
  | requestGate (taskId sessionId gitSha : String) (items : List Evidence) (summary : String)

/-- The answers. -/
abbrev Answer : Call → Type
  | .utest _ | .coding _ | .debugger _ | .reviewer _ => Agents.AgentResult Value
  | .runTests .. => TestRunResult
  | .requestGate .. => GateRequest

/-- The calls and their answers. -/
abbrev calls : Interface := ⟨Call, Answer⟩

/-- A coroutine of the orchestrator. -/
abbrev Loop (α : Type) := Program calls Error α

/-- Make a call. -/
def ask (c : Call) : Loop (Answer c) := command (I := calls) c

variable (S : Setting)

/-! ## What is taken out of a result -/

/-- What is under a key of the metadata: an artifact as it is, and a dictionary read back. -/
def extract {A : Type} (key : String) (ofArtifact : Artifact → Option A)
    (fromDict : Json → Except Error A) (result : Agents.AgentResult Value) : Except Error (Option A) :=
  match result.get key with
  | none => .ok none
  | some (.json data) => if data.truthy then (fromDict data).map some else .ok none
  | some (.artifact artifact) =>
    match ofArtifact artifact with
    | some a => .ok (some a)
    | none => .error ⟨.exception, "object has no attribute 'get'", []⟩

/-- `_extract_test_suite`. -/
def extractTestSuite : Agents.AgentResult Value → Except Error (Option TestSuite) :=
  extract "test_suite" (fun | .testSuite suite => some suite | _ => none) TestSuite.fromDict

/-- `_extract_implementation`. -/
def extractImplementation : Agents.AgentResult Value → Except Error (Option Implementation) :=
  extract "implementation" (fun | .implementation i => some i | _ => none) Implementation.fromDict

/-- `_extract_review`. -/
def extractReview : Agents.AgentResult Value → Except Error (Option CodeReview) :=
  extract "review" (fun | .review review => some review | _ => none)
    (CodeReview.fromDict S.isIsoFormat)

/-- `_extract_debug_analysis`. -/
def extractDebugAnalysis : Agents.AgentResult Value → Except Error (Option DebugAnalysis) :=
  extract "debug_analysis" (fun | .debugAnalysis analysis => some analysis | _ => none)
    (DebugAnalysis.fromDict S.isIsoFormat)

/-- `_extract_test_errors`. -/
def extractTestErrors (result : TestRunResult) : List String :=
  result.results.filterMap fun r =>
    if r.passed then none else r.error.filter fun e => e ≠ ""

/-- The text of an issue. -/
def issueText (issue : ReviewIssue) : String :=
  S.upper issue.severity.value ++ ": " ++ S.str issue.description

/-- `_extract_review_issues`. -/
def extractReviewIssues (review : Option CodeReview) : List String :=
  match review with
  | none => []
  | some review => review.issues.map (issueText S)

/-- `_implementation_to_string`: the contents must be texts. -/
def implementationToString (implementation : Implementation) : Except Error String :=
  Json.join "\n" <| .arr <| implementation.files.flatMap fun file =>
    [.str ("# File: " ++ S.str file.path), file.content, .str ""]

/-- `_format_test_output`. -/
def formatTestOutput (result : TestRunResult) : String :=
  "\n".intercalate <| ["Test Suite: " ++ result.suiteId, "Passed: " ++ toString result.passed,
    "Failed: " ++ toString result.failed, "Coverage: " ++ S.str (.float result.coverage) ++ "%",
    "", "Results:"] ++ result.results.flatMap fun r =>
      ["  " ++ r.testId ++ ": " ++ (if r.passed then "PASSED" else "FAILED")] ++
        match r.error.filter fun e => e ≠ "" with
        | none => []
        | some e => ["    Error: " ++ e]

/-! ## The evidence -/

/-- The evidence of HITL-4, with its summary. -/
def hitl4Evidence (taskDescription : String) (implementation : Implementation) (suite : TestSuite)
    (result : TestRunResult) (review : CodeReview) : Except Error (List Evidence × String) := do
  let implContent ← implementationToString S implementation
  let filePaths := implementation.files.map (·.path)
  let testCode ← suite.toPythonCode S.str
  let reviewContent ← review.toMarkdown S.str S.today
  let verdict := if review.passed.truthy then "PASSED" else "FAILED"
  let concerns ← review.securityConcerns.len
  let files := toString implementation.files.length
  let cases := suite.testCases.length
  let coverage := S.str (.float result.coverage)
  return ([
    { itemType := "artifact"
      path := filePaths.headD (.str "implementation")
      description := "Implementation with " ++ files ++ " file(s)"
      contentHash := S.digest implContent
      metadata := [("files", .arr filePaths), ("imports", implementation.imports),
        ("dependencies", implementation.dependencies)] },
    { itemType := "test_suite"
      path := .str ("tests/" ++ S.str suite.taskId ++ "_test.py")
      description := "Test suite with " ++ toString cases ++ " test case(s)"
      contentHash := S.digest testCode
      metadata := [("test_count", .int cases), ("fixtures", suite.fixtures)] },
    { itemType := "test_result"
      path := .str ("results/" ++ result.suiteId)
      description := "Test results: " ++ toString result.passed ++ " passed, " ++
        toString result.failed ++ " failed"
      contentHash := S.digest (formatTestOutput S result)
      metadata := [("passed", .int result.passed), ("failed", .int result.failed),
        ("coverage", .float result.coverage), ("all_passed", .bool result.allPassed)] },
    { itemType := "review"
      path := .str ("reviews/" ++ S.str review.implementationId)
      description := "Code review: " ++ verdict
      contentHash := S.digest reviewContent
      metadata := [("passed", review.passed), ("issue_count", .int review.issues.length),
        ("security_concerns", .int concerns), ("suggestions", review.suggestions)] }],
    "TDD implementation for: " ++ taskDescription ++ "\nFiles: " ++ files ++ " | Tests: " ++
      toString cases ++ (if cases = 1 then " test" else " tests") ++ " | Coverage: " ++ coverage ++
      "% | Review: " ++ verdict)

/-- `_submit_hitl4_evidence`: there must be a review. -/
def submitHitl4Evidence (context : Context) (taskDescription : String)
    (implementation : Implementation) (suite : TestSuite) (result : TestRunResult)
    (review : Option CodeReview) : Loop GateRequest := do
  match review with
  | none => throw ⟨.exception, "'NoneType' object has no attribute 'to_dict'", []⟩
  | some review => do
      let (items, summary) ←
        answer (hitl4Evidence S taskDescription implementation suite result review)
      ask (.requestGate context.taskId context.sessionId "" items summary)

/-! ## The loop -/

/-- What one turn leaves to the next. -/
structure Carry where
  previousImplementation : String := ""
  testErrors : List String := []
  debugAnalysis : Option DebugAnalysis := none

/-- A review that passed: the gate, if there is a dispatcher. -/
def finish (context : Context) (taskDescription : String) (suite : TestSuite) (failCount : ℕ)
    (implementation : Implementation) (result : TestRunResult) (review : Option CodeReview) :
    Loop DevelopmentResult := do
  let done (success : Bool) (requestId : Option String) (metadata : List (String × String)) :
      DevelopmentResult :=
    { success := success, implementation := some implementation, testSuite := some suite
      testResult := some result, review := review, hitl4RequestId := requestId
      retryCount := failCount, metadata := metadata }
  if S.hitlDispatcher then
    let gate ← submitHitl4Evidence S context taskDescription implementation suite result review
    match gate.rejected with
    | some reason =>
      pure (done false (some gate.requestId) [("hitl4_status", "rejected"),
        ("hitl4_reason", reason.getD "No reason provided")])
    | none => pure (done true (some gate.requestId) [])
  else pure (done true none [])

/-- One turn: a result, or what is carried on. -/
def turn (context : Context) (taskDescription : String) (suite : TestSuite) (failCount : ℕ)
    (carry : Carry) : Loop (DevelopmentResult ⊕ Carry) := do
  let testCode ← answer (suite.toPythonCode S.str)
  let coding ← ask (.coding {
    taskDescription := taskDescription
    testCode := testCode
    failCount := failCount
    previousImplementation := carry.previousImplementation
    testErrors := carry.testErrors
    debugAnalysis := carry.debugAnalysis })
  if coding.success = false then
    return .inl (.failure (coding.errorOr "Failed to generate implementation") failCount)
  match ← answer (extractImplementation coding) with
  | none => return .inl (.failure "Failed to extract implementation from Coding result" failCount)
  | some implementation =>
    let previous ← answer (implementationToString S implementation)
    let tested ←
      try
        let result ← ask (.runTests (context.workspacePath ++ "/tests") suite.taskId)
        pure (Except.ok result : Except Error TestRunResult)
      catch e => pure (.error e)
    match tested with
    | .error e => return .inl (.failure ("Test execution failed: " ++ e.str) failCount)
    | .ok result =>
      if result.allPassed then
        let reviewed ← ask (.reviewer {
          implementation := previous
          testSuite := testCode
          testResults := formatTestOutput S result })
        if reviewed.success = false then
          return .inl (.failure (reviewed.errorOr "Review failed") failCount)
        let review ← answer (extractReview S reviewed)
        let passed := match reviewed.get "passed" with
          | some (.json value) => value.truthy
          | some (.artifact _) => true
          | none => false
        if passed then
          let result ← finish S context taskDescription suite failCount implementation result
            review
          return .inl result
        return .inr {
          previousImplementation := previous
          testErrors := extractReviewIssues S review
          debugAnalysis := none }
      else
        let testErrors := extractTestErrors result
        if S.maxCodingRetries < failCount + 1 then
          let debugged ← ask (.debugger {
            testOutput := formatTestOutput S result
            implementation := previous
            testCode := testCode })
          let analysis ←
            if debugged.success then answer (extractDebugAnalysis S debugged)
            else pure carry.debugAnalysis
          return .inr ⟨previous, testErrors, analysis⟩
        return .inr ⟨previous, testErrors, carry.debugAnalysis⟩

/-- `while True`: five turns more than there are retries. -/
def turns (context : Context) (taskDescription : String) (suite : TestSuite) (failCount : ℕ)
    (carry : Carry) : Loop DevelopmentResult := do
  match ← turn S context taskDescription suite failCount carry with
  | .inl result => return result
  | .inr carry =>
    if _h : S.maxCodingRetries + 5 < failCount + 1 then
      return .failure "Exceeded maximum TDD loop iterations" (failCount + 1)
    else turns context taskDescription suite (failCount + 1) carry
termination_by S.maxCodingRetries + 6 - failCount

/-- `run_tdd_loop`, with any agents. -/
def orchestrate (context : Context) (taskDescription : String) (acceptanceCriteria : List String) :
    Loop DevelopmentResult := do
  let tested ← ask (.utest ⟨taskDescription, acceptanceCriteria⟩)
  if tested.success = false then
    return .failure (tested.errorOr "Failed to generate tests") 0
  match ← answer (extractTestSuite tested) with
  | none => return .failure "Failed to extract test suite from UTest result" 0
  | some suite => turns S context taskDescription suite 0 {}

/-! ## With the agents of the repository -/

/-- What the agents, the runner and the dispatcher do for a call. -/
def perform (context : Context) : (c : Call) → Async (Answer c)
  | .utest input => UTest.execute S context input
  | .coding input => Coding.execute S context input
  | .debugger input => Debugger.execute S context input
  | .reviewer input => Reviewer.execute S context input
  | .runTests testPath suiteId => send (.runTests testPath suiteId)
  | .requestGate taskId sessionId gitSha items summary =>
    send (.requestGate taskId sessionId gitSha items summary)

/-- `run_tdd_loop` with `UTestAgent`, `CodingAgent`, `DebuggerAgent` and `ReviewerAgent`. -/
def runTddLoop (context : Context) (taskDescription : String) (acceptanceCriteria : List String) :
    Async DevelopmentResult :=
  (orchestrate S context taskDescription acceptanceCriteria).translate (perform S context)

end DoxAsdlc.Development
