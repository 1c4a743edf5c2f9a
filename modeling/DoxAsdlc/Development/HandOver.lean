import DoxAsdlc.Development.TddOrchestrator
import DoxAsdlc.Interaction.Transcript

/-!
# What the agents hand over

An agent that succeeds has made an artifact, and the orchestrator is to go on with it.  The
metadata in which it looks for the artifact has figures only.  So nothing is ever handed over:
the loop ends at the test suite, unless no test suite was made in the first place.

## Main definitions

* `Run` — a run of the loop, by calls, each with what was exchanged for it.
* `made`, `taken` — what an agent made, and what the orchestrator takes out of its result.
* `HandsOver`, `Succeeding`, `Heeded` — what is promised of a run.
* `Supplied` — that a test suite is made.
-/

namespace DoxAsdlc.Development

open Interaction Interaction.Program
open Rlm (Json)

variable {S : Setting} {context : Context}

/-! ## What is in the metadata -/

/-- A result of success does not have anything under a key. -/
def Silent (key : String) (result : Agents.AgentResult Value) : Prop :=
  result.success = true → result.get key = none

theorem silent_failure (key errorMessage : String) (shouldRetry : Bool) :
    Silent key (failure errorMessage shouldRetry) := by
  intro h
  cases h

/-- Agents end in a failure, or in what follows what they made. -/
theorem meets_guarded {key : String} {body : Async (Agents.AgentResult Value)}
    (h : body.Meets (fun _ _ => True) (fun _ => True) (Silent key)) :
    (guarded body).Meets (fun _ _ => True) (fun _ => True) (Silent key) :=
  meets_tryCatch h fun e => silent_failure key e.str true

/-- What is asked on the way does not matter. -/
theorem meets_any {α : Type} (p : Async α) :
    p.Meets (fun _ _ => True) (fun _ => True) fun _ => True :=
  meets_trivial (fun _ => trivial) fun _ => trivial

theorem silent_utest (input : UTest.Input) :
    (UTest.execute S context input).Meets (fun _ _ => True) (fun _ => True)
      (Silent "test_suite") := by
  apply meets_guarded
  split
  · exact silent_failure _ _ _
  split
  · exact silent_failure _ _ _
  refine meets_bind (meets_any _) fun content _ => meets_bind (meets_any _) fun made _ => ?_
  cases made with
  | none => exact silent_failure _ _ _
  | some suite =>
    refine meets_bind (meets_any _) fun paths _ => meets_bind (meets_any _) fun coverage _ => ?_
    intro _
    rfl

theorem silent_coding (input : Coding.Input) :
    (Coding.execute S context input).Meets (fun _ _ => True) (fun _ => True)
      (Silent "implementation") := by
  apply meets_guarded
  split
  · exact silent_failure _ _ _
  split
  · exact silent_failure _ _ _
  refine meets_bind (meets_any _) fun explored _ => meets_bind (meets_any _) fun content _ =>
    meets_bind (meets_any _) fun made _ => ?_
  cases made with
  | none => exact silent_failure _ _ _
  | some implementation =>
    refine meets_bind (meets_any _) fun paths _ => ?_
    intro _
    rfl

theorem silent_debugger (input : Debugger.Input) :
    (Debugger.execute S context input).Meets (fun _ _ => True) (fun _ => True)
      (Silent "debug_analysis") := by
  apply meets_guarded
  split
  · exact silent_failure _ _ _
  split
  · exact silent_failure _ _ _
  refine meets_bind (meets_any _) fun explored _ => meets_bind (meets_any _) fun made _ => ?_
  cases made with
  | none => exact silent_failure _ _ _
  | some analysis =>
    refine meets_bind (meets_any _) fun paths _ => ?_
    intro _
    simp only [Debugger.succeeded, Agents.AgentResult.get]
    split <;> rfl

theorem silent_reviewer (input : Reviewer.Input) :
    (Reviewer.execute S context input).Meets (fun _ _ => True) (fun _ => True)
      (Silent "review") := by
  apply meets_guarded
  split
  · exact silent_failure _ _ _
  refine meets_bind (meets_any _) fun content _ => meets_bind (meets_any _) fun made _ => ?_
  cases made with
  | none => exact silent_failure _ _ _
  | some review =>
    refine meets_bind (meets_any _) fun merged _ => meets_bind (meets_any _) fun paths _ => ?_
    intro _
    rfl

/-! ## Runs -/

/-- A run of the loop: the calls of the orchestrator, each with what was exchanged for it. -/
def Run (S : Setting) (context : Context) (taskDescription : String)
    (acceptanceCriteria : List String) (parts : Parts calls interface Error)
    (r : Except Error DevelopmentResult) : Prop :=
  (orchestrate S context taskDescription acceptanceCriteria).Yields (parts.map Prod.fst) r ∧
    Carried (perform S context) parts

/-- Every transcript of the loop with the agents of the repository is one of a run. -/
theorem yields_runTddLoop {taskDescription : String} {acceptanceCriteria : List String}
    {h : List (Exchange interface Error)} {r : Except Error DevelopmentResult} :
    (runTddLoop S context taskDescription acceptanceCriteria).Yields h r ↔
      ∃ parts, Run S context taskDescription acceptanceCriteria parts r ∧
        h = (parts.map Prod.snd).flatten := by
  rw [runTddLoop, yields_translate]
  simp only [Run, and_assoc]

/-- The result of the agent that is called. -/
def agentResult : Exchange calls Error → Option (Agents.AgentResult Value)
  | ⟨.utest _, .ok result, _⟩ => some result
  | ⟨.coding _, .ok result, _⟩ => some result
  | ⟨.debugger _, .ok result, _⟩ => some result
  | ⟨.reviewer _, .ok result, _⟩ => some result
  | _ => none

/-- The artifacts that are written in the course of a call. -/
def made (h : List (Exchange interface Error)) : List Artifact :=
  h.filterMap fun x =>
    match x.cmd with
    | .writeArtifact _ _ (.json artifact) _ _ => some artifact
    | _ => none

/-- What the orchestrator takes out of the result of an agent. -/
def taken (S : Setting) : Call → Agents.AgentResult Value → Option Artifact
  | .utest _, result => (extractTestSuite result).toOption.join.map .testSuite
  | .coding _, result => (extractImplementation result).toOption.join.map .implementation
  | .debugger _, result => (extractDebugAnalysis S result).toOption.join.map .debugAnalysis
  | .reviewer _, result => (extractReview S result).toOption.join.map .review
  | _, _ => none

/-- An agent that reports success has made one artifact, and the orchestrator takes it. -/
def HandsOver (S : Setting) (part : Exchange calls Error × List (Exchange interface Error)) :
    Prop :=
  ∀ result, agentResult part.1 = some result → result.success = true →
    ∃ artifact, made part.2 = [artifact] ∧ taken S part.1.cmd result = some artifact

theorem extract_of_get {A : Type} {key : String} {ofArtifact : Artifact → Option A}
    {fromDict : Json → Except Error A} {result : Agents.AgentResult Value} (h : result.get key = none) :
    extract key ofArtifact fromDict result = .ok none := by
  rw [extract, h]

/-- **Nothing is taken** out of a result of success, whichever agent made it. -/
theorem taken_eq_none {part : Exchange calls Error × List (Exchange interface Error)}
    (hpart : (perform S context part.1.cmd).Yields part.2 part.1.reply)
    {result : Agents.AgentResult Value} (hresult : agentResult part.1 = some result)
    (hsuccess : result.success = true) : taken S part.1.cmd result = none := by
  obtain ⟨⟨call, reply, b⟩, h⟩ := part
  cases reply with
  | error e => cases call <;> cases hresult
  | ok answer =>
    cases call with
    | utest input =>
      cases hresult
      have hget := (silent_utest input).of_yields hpart hsuccess
      rw [taken, extractTestSuite, extract_of_get hget]
      rfl
    | coding input =>
      cases hresult
      have hget := (silent_coding input).of_yields hpart hsuccess
      rw [taken, extractImplementation, extract_of_get hget]
      rfl
    | debugger input =>
      cases hresult
      have hget := (silent_debugger input).of_yields hpart hsuccess
      rw [taken, extractDebugAnalysis, extract_of_get hget]
      rfl
    | reviewer input =>
      cases hresult
      have hget := (silent_reviewer input).of_yields hpart hsuccess
      rw [taken, extractReview, extract_of_get hget]
      rfl
    | runTests testPath suiteId => cases hresult
    | requestGate taskId sessionId gitSha items summary => cases hresult

/-! ## When a test suite is made -/

/-- A command was answered. -/
def Answered (x : Exchange interface Error) : Prop := ∃ a, x.reply = .ok a

/-- The answer of the model. -/
def response? : Exchange interface Error → Option String
  | ⟨.generate _, .ok text, _⟩ => some text
  | _ => none

/-- The answers of the model in the course of a call. -/
def responses (h : List (Exchange interface Error)) : List String := h.filterMap response?

/-- A test suite is made of an answer, and can be written out. -/
def UTest.Usable (S : Setting) (taskId : String) (acceptanceCriteria : List String)
    (text : String) : Prop :=
  ∃ suite code coverage, UTest.buildTestSuite S taskId text = .ok (some suite) ∧
    suite.toPythonCode S.str = .ok code ∧
    UTest.calculateCriteriaCoverage S suite acceptanceCriteria = .ok coverage

/-- `UTestAgent.execute` always returns. -/
theorem guarded_returns {body : Async (Agents.AgentResult Value)} {h : List (Exchange interface Error)}
    {r : Except Error (Agents.AgentResult Value)} (hrun : (guarded body).Yields h r) :
    ∃ result, r = .ok result := by
  obtain ⟨h₁, h₂, r₁, -, -, hrest⟩ := yields_elim.mp hrun
  cases r₁ with
  | ok a => exact ⟨a, hrest.2⟩
  | error e => exact ⟨_, hrest.2⟩

/-- **When `UTestAgent` succeeds.** -/
theorem UTest.success_iff {input : UTest.Input} {h : List (Exchange interface Error)}
    {result : Agents.AgentResult Value} (hrun : (UTest.execute S context input).Yields h (.ok result)) :
    result.success = true ↔ input.taskDescription ≠ "" ∧ input.acceptanceCriteria ≠ [] ∧
      ∀ x ∈ h, Answered x ∧ ∀ text, response? x = some text →
        UTest.Usable S context.taskId input.acceptanceCriteria text := by
  rw [UTest.execute, guarded] at hrun
  by_cases hdescription : input.taskDescription = ""
  · simp [hdescription, failure] at hrun ⊢
    simp [hrun.2]
  by_cases hcriteria : input.acceptanceCriteria = []
  · simp [hdescription, hcriteria, failure] at hrun ⊢
    simp [hrun.2]
  simp only [hdescription, hcriteria, ne_eq, not_false_eq_true, true_and]
  simp only [hdescription, hcriteria, if_false, tryCatch_eq, bind_eq, elim_elim, send, command_eq,
    elim_call, yields_call] at hrun
  obtain ⟨reply, b, h, rfl, hrun⟩ := hrun
  cases reply with
  | error e =>
    simp [failure] at hrun
    simp [hrun.2, Answered]
  | ok text =>
    simp only [answer_ok, elim_ret] at hrun
    cases hbuild : UTest.buildTestSuite S context.taskId text with
    | error e =>
      simp [hbuild, failure] at hrun
      simp [hrun, Answered, response?, UTest.Usable, hbuild]
    | ok built =>
      cases built with
      | none =>
        simp [hbuild, failure] at hrun
        simp [hrun, Answered, response?, UTest.Usable, hbuild]
      | some suite =>
        simp only [hbuild, UTest.writeArtifacts, send, answer_ok, elim_ret, command_eq, bind_eq,
          elim_call, elim_elim, yields_call] at hrun
        obtain ⟨reply', b', h', rfl, hrun⟩ := hrun
        cases reply' with
        | error e =>
          simp [failure] at hrun
          simp [hrun, Answered]
        | ok jsonPath =>
          cases hcode : suite.toPythonCode S.str with
          | error e =>
            simp [hcode, failure] at hrun
            simp [hrun, Answered, response?, UTest.Usable, hbuild, hcode]
          | ok code =>
            simp only [hcode, answer_ok, elim_ret, yields_call] at hrun
            obtain ⟨reply'', b'', h'', rfl, hrun⟩ := hrun
            cases reply'' with
            | error e =>
              simp [failure] at hrun
              simp [hrun, Answered]
            | ok pythonPath =>
              cases hcoverage : UTest.calculateCriteriaCoverage S suite
                  input.acceptanceCriteria with
              | error e =>
                simp [hcoverage, failure] at hrun
                simp [hrun, Answered, response?, UTest.Usable, hbuild, hcode, hcoverage]
              | ok coverage =>
                simp [hcoverage, UTest.succeeded] at hrun
                simp [hrun, Answered, response?, UTest.Usable, hbuild, hcode, hcoverage]

/-! ## What is promised -/

/-- The answers of the model are ones that the agent can make its artifact of. -/
def WellFormed (S : Setting) (context : Context) : Call → List String → Prop
  | .utest input, texts =>
    ∀ t ∈ texts, UTest.Usable S context.taskId input.acceptanceCriteria t
  | .coding _, texts => ∀ t ∈ texts, ∃ implementation text,
      Coding.buildImplementation S context.taskId t = .ok (some implementation) ∧
        implementationToString S implementation = .ok text ∧
        ∀ file ∈ implementation.files, ∃ path, file.path = .str path
  | .debugger _, texts => ∀ t, texts[2]? = some t → ∃ analysis text,
      Debugger.buildDebugAnalysis S context.taskId t = .ok (some analysis) ∧
        analysis.toMarkdown S.str S.today = .ok text
  | .reviewer _, texts => ∀ t ∈ texts, ∃ review text,
      Reviewer.buildCodeReview S context.taskId t = .ok (some review) ∧
        review.toMarkdown S.str S.today = .ok text
  | _, _ => True

/-- The tests pass, the review passes, and the gate is not rejected at once. -/
def Passes : Exchange calls Error → Prop
  | ⟨.runTests .., .ok result, _⟩ => result.allPassed = true
  | ⟨.reviewer _, .ok result, _⟩ =>
    ∃ value, result.get "passed" = some (.json value) ∧ value.truthy = true
  | ⟨.requestGate .., .ok gate, _⟩ => gate.rejected = none
  | _ => True

/-- There is something to do, nothing raises, every answer of the model is well formed, and
everything passes. -/
def Smooth (S : Setting) (context : Context) (taskDescription : String)
    (acceptanceCriteria : List String) (parts : Parts calls interface Error) : Prop :=
  taskDescription ≠ "" ∧ acceptanceCriteria ≠ [] ∧
    ∀ part ∈ parts, (∀ x ∈ part.2, Answered x) ∧
      WellFormed S context part.1.cmd (responses part.2) ∧ Passes part.1

/-- The run ends in a success, with a gate request if there is a dispatcher. -/
def Succeeding (S : Setting) (parts : Parts calls interface Error)
    (r : Except Error DevelopmentResult) : Prop :=
  ∃ result, r = .ok result ∧ result.success = true ∧
    (S.hitlDispatcher = true → result.hitl4RequestId.isSome = true ∧
      ∃ part ∈ parts, ∃ taskId sessionId gitSha items summary,
        part.1.cmd = .requestGate taskId sessionId gitSha items summary)

/-- The issues of a review reach the attempt that follows it. -/
def Heeded (S : Setting) (parts : Parts calls interface Error) : Prop :=
  ∀ before x y rest, parts = before ++ x :: y :: rest →
    ∀ review, made x.2 = [.review review] → ∀ input, y.1.cmd = .coding input →
      ∀ issue ∈ review.issues, issueText S issue ∈ input.testErrors

/-- There is something to do, no command raises, and every answer of the model is one that a test
suite can be made of. -/
def Supplied (S : Setting) (context : Context) (taskDescription : String)
    (acceptanceCriteria : List String) (parts : Parts calls interface Error) : Prop :=
  taskDescription ≠ "" ∧ acceptanceCriteria ≠ [] ∧
    ∀ part ∈ parts, ∀ x ∈ part.2, Answered x ∧ ∀ text, response? x = some text →
      UTest.Usable S context.taskId acceptanceCriteria text

section

variable {taskDescription : String} {acceptanceCriteria : List String}
  {parts : Parts calls interface Error} {r : Except Error DevelopmentResult}

/-- **The shape of a run**: the loop ends after the test suite. -/
theorem Run.shape (h : Run S context taskDescription acceptanceCriteria parts r) :
    ∃ result b exchanges,
      parts = [(⟨.utest ⟨taskDescription, acceptanceCriteria⟩, .ok result, b⟩, exchanges)] ∧
        (UTest.execute S context ⟨taskDescription, acceptanceCriteria⟩).Yields exchanges
          (.ok result) := by
  obtain ⟨hrun, hcarried⟩ := h
  simp only [orchestrate, ask, command_eq, bind_eq, elim_call, yields_call] at hrun
  obtain ⟨reply, b, tail, hparts, hrun⟩ := hrun
  obtain ⟨⟨x, exchanges⟩, rest, rfl, rfl, rfl⟩ := List.map_eq_cons_iff.mp hparts
  have hutest : (UTest.execute S context ⟨taskDescription, acceptanceCriteria⟩).Yields exchanges
    reply := hcarried _ List.mem_cons_self
  obtain ⟨result, rfl⟩ := guarded_returns hutest
  refine ⟨result, b, exchanges, ?_, hutest⟩
  by_cases hsuccess : result.success = true
  · have hget := (silent_utest ⟨taskDescription, acceptanceCriteria⟩).of_yields hutest hsuccess
    simp [hsuccess, extractTestSuite, extract_of_get hget] at hrun
    simp [hrun.1]
  · simp [hsuccess] at hrun
    simp [hrun.1]

/-- **The hand-over.**  What an agent made is taken, a run in which everything goes well succeeds,
and the issues of a review are heeded, exactly if no test suite is made. -/
theorem handsOver_iff (h : Run S context taskDescription acceptanceCriteria parts r) :
    ((∀ part ∈ parts, HandsOver S part) ∧
      (Smooth S context taskDescription acceptanceCriteria parts → Succeeding S parts r) ∧
      Heeded S parts) ↔
    ¬ Supplied S context taskDescription acceptanceCriteria parts := by
  obtain ⟨result, b, exchanges, rfl, hutest⟩ := h.shape
  have hiff := UTest.success_iff hutest
  have hsupplied : Supplied S context taskDescription acceptanceCriteria
      [(⟨.utest ⟨taskDescription, acceptanceCriteria⟩, .ok result, b⟩, exchanges)] ↔
        result.success = true := by
    simp only [Supplied, List.mem_singleton, forall_eq]
    exact hiff.symm
  rw [hsupplied]
  constructor
  · rintro ⟨hhands, -, -⟩ hsuccess
    obtain ⟨artifact, -, htaken⟩ := hhands _ (List.mem_singleton.mpr rfl) result rfl hsuccess
    rw [taken_eq_none (h.2 _ (List.mem_singleton.mpr rfl)) rfl hsuccess] at htaken
    cases htaken
  · intro hfails
    refine ⟨?_, ?_, ?_⟩
    · intro part hpart result' hresult hsuccess
      rw [List.mem_singleton.mp hpart] at hresult
      cases hresult
      exact absurd hsuccess hfails
    · rintro ⟨hdescription, hcriteria, hall⟩
      obtain ⟨hanswered, hwell, -⟩ := hall _ (List.mem_singleton.mpr rfl)
      refine absurd (hiff.mpr ⟨hdescription, hcriteria, ?_⟩) hfails
      intro x hx
      refine ⟨hanswered x hx, ?_⟩
      intro text htext
      exact hwell text (List.mem_filterMap.mpr ⟨x, hx, htext⟩)
    · -- There is only one call.
      intro before x y rest hparts
      have hlength := congrArg List.length hparts
      simp at hlength
      omega

end

/-! ## Two runs -/

/-- A model that answers with one test case, or with something else. -/
def demo : Setting where
  enableRlm := true
  maxCodingRetries := 4
  rlmIntegration := false
  hitlDispatcher := true
  prompts := {
    testGeneration := fun _ _ _ => "Write tests"
    implementation := fun _ _ _ => "Implement"
    retryImplementation := fun _ _ _ _ _ _ => "Implement again"
    qualityReview := fun _ _ _ => "Review"
    failureAnalysis := fun _ _ => "Analyse"
    rootCause := fun _ _ _ => "Explain"
    fixSuggestion := fun _ _ _ => "Fix"
    codingQuery := fun _ _ _ => "Find patterns"
    debuggingQuery := fun _ _ => "Find context" }
  str
    | .str s => s
    | _ => ""
  loads s :=
    if s = "tests" then
      some (.obj [("test_cases", .arr [.obj [("code", .str "assert f() == 1")]])])
    else none
  isIsoFormat _ := true
  lower := id
  upper := id
  today := "2026-01-01"
  digest := id
  runSecurityScan _ := []

def demoContext : Context where
  sessionId := "s"
  taskId := "t"
  tenantId := "default"
  workspacePath := "/w"

/-- The test suite of the model. -/
def demoSuite : TestSuite where
  taskId := .str "t"
  testCases := [{
    id := .str "TC-001", name := .str "", description := .str "", testType := .unit
    code := .str "assert f() == 1", requirementRef := .str "", metadata := .obj [] }]
  setupCode := .str ""
  teardownCode := .str ""
  fixtures := .arr []

/-- The agent makes its test suite, and everything is answered. -/
def suppliedRun : Parts calls interface Error :=
  [(⟨.utest ⟨"f", ["returns one"]⟩,
      .ok (UTest.succeeded demoSuite ["t_tests.json", "test_t.py"] (.obj [("AC-001", .arr [])])),
      true⟩,
    [⟨.generate "Write tests", .ok "tests", true⟩,
      ⟨.writeArtifact "s" "t" (.json (.testSuite demoSuite)) .report "t_tests.json",
        .ok "t_tests.json", true⟩,
      ⟨.writeArtifact "s" "t" (.value (.str
          "\"\"\"Auto-generated tests for task: t\"\"\"\n\n# TC-001: \nassert f() == 1\n"))
        .text "test_t.py", .ok "test_t.py", true⟩])]

theorem usable_demo : UTest.buildTestSuite demo "t" "tests" = .ok (some demoSuite) ∧
    demoSuite.toPythonCode demo.str = .ok
      "\"\"\"Auto-generated tests for task: t\"\"\"\n\n# TC-001: \nassert f() == 1\n" ∧
    UTest.calculateCriteriaCoverage demo demoSuite ["returns one"]
      = .ok (.obj [("AC-001", .arr [])]) := by
  refine ⟨?_, ?_, ?_⟩ <;> rfl

theorem lost_suite :
    Run demo demoContext "f" ["returns one"] suppliedRun
      (.ok (.failure "Failed to extract test suite from UTest result" 0)) ∧
    Smooth demo demoContext "f" ["returns one"] suppliedRun ∧
    ¬ ∀ part ∈ suppliedRun, HandsOver demo part := by
  obtain ⟨hbuild, hcode, hcoverage⟩ := usable_demo
  refine ⟨⟨?_, ?_⟩, ⟨by decide, by decide, ?_⟩, ?_⟩
  · exact ⟨_, true, [], rfl, rfl, rfl⟩
  · intro part hpart
    rw [List.mem_singleton.mp hpart]
    refine ⟨.ok "tests", true, _, rfl, .ok "t_tests.json", true, _, rfl, ?_⟩
    exact ⟨.ok "test_t.py", true, [], rfl, rfl, rfl⟩
  · intro part hpart
    rw [List.mem_singleton.mp hpart]
    refine ⟨?_, ?_, trivial⟩
    · simp [Answered]
    · intro text htext
      obtain rfl : text = "tests" := by simpa [responses, response?] using htext
      exact ⟨demoSuite, _, _, hbuild, hcode, hcoverage⟩
  · intro hhands
    obtain ⟨artifact, -, htaken⟩ := hhands _ (List.mem_singleton.mpr rfl) _ rfl rfl
    cases htaken

/-- Nothing is asked for. -/
def idleRun : Parts calls interface Error :=
  [(⟨.utest ⟨"", []⟩,
      .ok (failure "No task_description provided in event_metadata" false), true⟩, [])]

theorem handsOver_idle :
    ((∀ part ∈ idleRun, HandsOver demo part) ∧
      (Smooth demo demoContext "" [] idleRun → Succeeding demo idleRun
        (.ok (.failure "No task_description provided in event_metadata" 0))) ∧
      Heeded demo idleRun) ↔ ¬ Supplied demo demoContext "" [] idleRun := by
  apply handsOver_iff
  refine ⟨⟨_, true, [], rfl, rfl, rfl⟩, ?_⟩
  intro part hpart
  rw [List.mem_singleton.mp hpart]
  exact ⟨rfl, rfl⟩

end DoxAsdlc.Development
