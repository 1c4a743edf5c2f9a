import DoxAsdlc.Development.HandOver

/-!
# The control of the development loop

What the loop does with the agents and the test runner, whatever they answer.  The attempts are
bounded.  A success has what the last attempt made, and the tests passed in it; the loop goes by
what the reviewer says of its review, and does not look at the review.  An analysis that is given
to an attempt is of the attempt before, unless the debugger failed there: the analysis of an
earlier attempt is then given once more.

## Main definitions

* `Attempt` — an attempt up to its tests.
* `TurnShape` — what one turn may do.
* `Controlled` — what is promised of a run.
* `Dependable` — a debugger fails only where there is no analysis, and a review that is said to
  have passed has passed.

## Main results

* `turn_shape` — the turns of the loop have a shape.
* `controlled` — the attempts are bounded, and runs in which the agents are dependable are
  controlled.
-/

namespace DoxAsdlc.Development

open Interaction Interaction.Program
open Rlm (Json)

/-- What the orchestrator exchanges with its agents. -/
abbrev History := List (Exchange calls Error)

/-! ## Attempts -/

/-- An attempt up to its tests: an implementation was made and tested. -/
structure Attempt where
  input : Coding.Input
  coded : Agents.AgentResult Value
  implementation : Implementation
  testPath : String
  suiteId : Json
  result : TestRunResult
  reached : Bool
  reachedTests : Bool

/-- The exchanges of an attempt. -/
def Attempt.exchanges (t : Attempt) : History :=
  [⟨.coding t.input, .ok t.coded, t.reached⟩,
    ⟨.runTests t.testPath t.suiteId, .ok t.result, t.reachedTests⟩]

/-- The implementation is the one that was made. -/
def Attempt.Made (t : Attempt) : Prop :=
  t.coded.success = true ∧ extractImplementation t.coded = .ok (some t.implementation)

/-- An attempt is made. -/
def isCoding (x : Exchange calls Error) : Bool :=
  match x.cmd with
  | .coding _ => true
  | _ => false

/-- `review_result.metadata.get("passed", False)`, as a truth value. -/
def saysPassed (reviewed : Agents.AgentResult Value) : Bool :=
  match reviewed.get "passed" with
  | some (.json value) => value.truthy
  | some (.artifact _) => true
  | none => false

variable (S : Setting)

/-- What comes last is an attempt whose tests failed, and an analysis that the debugger made of its
output and of its implementation. -/
def FromFailure (before : History) (analysis : DebugAnalysis) : Prop :=
  ∃ (earlier : History) (t : Attempt) (input : Debugger.Input)
    (debugged : Agents.AgentResult Value) (b : Bool),
    before = earlier ++ (t.exchanges ++ [⟨.debugger input, .ok debugged, b⟩]) ∧
      t.Made ∧ t.result.allPassed = false ∧
      input.testOutput = formatTestOutput S t.result ∧
      implementationToString S t.implementation = .ok input.implementation ∧
      debugged.success = true ∧ extractDebugAnalysis S debugged = .ok (some analysis)

/-- The last attempt is the one whose implementation, tests and review are in the result; its tests
passed, and the reviewer said that it passed. -/
def Completed (h : History) (res : DevelopmentResult) : Prop :=
  ∃ (earlier : History) (t : Attempt) (input : Reviewer.Input)
    (reviewed : Agents.AgentResult Value) (b : Bool) (gate : History),
    h = earlier ++ (t.exchanges ++ ⟨.reviewer input, .ok reviewed, b⟩ :: gate) ∧
      (∀ x ∈ gate, isCoding x = false) ∧ t.Made ∧ t.result.allPassed = true ∧
      reviewed.success = true ∧ saysPassed reviewed = true ∧
      extractReview S reviewed = .ok res.review ∧
      res.implementation = some t.implementation ∧ res.testResult = some t.result

/-- An analysis that an attempt is given is made from the failure of the attempt before. -/
def Analysed (before : History) (x : Exchange calls Error) : Prop :=
  ∀ input, x.cmd = .coding input → ∀ analysis, input.debugAnalysis = some analysis →
    FromFailure S before analysis

/-- What is promised of a run: the attempts are bounded, a success is that of the last attempt and
has a review that passed, and analyses are of the attempt before. -/
structure Controlled (h : History) (r : Except Error DevelopmentResult) : Prop where
  attempts : h.countP isCoding ≤ S.maxCodingRetries + 6
  success : ∀ res, r = .ok res → res.success = true → Completed S h res ∧
    ∃ review, res.review = some review ∧ review.passed.truthy = true
  analysed : ∀ before x after, h = before ++ x :: after → Analysed S before x

/-- A debugger fails only in an attempt that was given no analysis, and a reviewer that says that a
review passed has made one that passed. -/
structure Dependable (h : History) : Prop where
  debugger : ∀ (before : History) (t : Attempt) (input : Debugger.Input)
    (debugged : Agents.AgentResult Value) (b : Bool) (after : History),
    h = before ++ (t.exchanges ++ ⟨.debugger input, .ok debugged, b⟩ :: after) →
      debugged.success = false → t.input.debugAnalysis = none
  reviewer : ∀ (input : Reviewer.Input) (reviewed : Agents.AgentResult Value) (b : Bool),
    (⟨.reviewer input, .ok reviewed, b⟩ : Exchange calls Error) ∈ h →
      reviewed.success = true → saysPassed reviewed = true →
        ∃ review, extractReview S reviewed = .ok (some review) ∧ review.passed.truthy = true

/-! ## One turn -/

/-- The turn begins with an attempt that is given what was carried, and there is no other. -/
def Opens (carry : Carry) (h : History) : Prop :=
  h = [] ∨ ∃ input reply b rest, h = ⟨.coding input, reply, b⟩ :: rest ∧
    input.debugAnalysis = carry.debugAnalysis ∧ ∀ x ∈ rest, isCoding x = false

/-- What one turn may do, after so many failures and with what was carried. -/
inductive TurnShape (failCount : ℕ) (carry : Carry) :
    History → Except Error (DevelopmentResult ⊕ Carry) → Prop
  /-- The loop ends without success. -/
  | ended {h r} (opens : Opens carry h)
      (fails : ∀ res, r = .ok (.inl res) → res.success = false)
      (ends : ∀ next, r ≠ .ok (.inr next)) : TurnShape failCount carry h r
  /-- The loop ends with what the attempt made. -/
  | completed {h res} (opens : Opens carry h) (done : Completed S h res) :
      TurnShape failCount carry h (.ok (.inl res))
  /-- The review did not pass. -/
  | refused {h next} (opens : Opens carry h) (forgets : next.debugAnalysis = none) :
      TurnShape failCount carry h (.ok (.inr next))
  /-- The tests failed, and there are retries left. -/
  | failed {h next} (opens : Opens carry h) (few : failCount < S.maxCodingRetries)
      (keeps : next.debugAnalysis = carry.debugAnalysis) :
      TurnShape failCount carry h (.ok (.inr next))
  /-- The tests failed, and the debugger has analysed the failure. -/
  | analysed {h next} (opens : Opens carry h) (many : S.maxCodingRetries ≤ failCount)
      (fresh : ∀ analysis, next.debugAnalysis = some analysis → FromFailure S h analysis) :
      TurnShape failCount carry h (.ok (.inr next))
  /-- The tests failed, and so did the debugger. -/
  | unanalysed {t : Attempt} {input debugged b next} (many : S.maxCodingRetries ≤ failCount)
      (given : t.input.debugAnalysis = carry.debugAnalysis) (fails : debugged.success = false)
      (keeps : next.debugAnalysis = carry.debugAnalysis) :
      TurnShape failCount carry (t.exchanges ++ [⟨.debugger input, .ok debugged, b⟩])
        (.ok (.inr next))

variable {S} {context : Context} {taskDescription : String} {suite : TestSuite} {failCount : ℕ}
  {carry : Carry}

/-- What is asked for at the end is no attempt, and the result has what was made. -/
theorem finish_yields {implementation : Implementation} {result : TestRunResult}
    {review : Option CodeReview} {h : History} {r : Except Error DevelopmentResult}
    (hrun : (finish S context taskDescription suite failCount implementation result review).Yields
      h r) :
    (∀ x ∈ h, isCoding x = false) ∧ ∀ res, r = .ok res →
      res.implementation = some implementation ∧ res.testResult = some result ∧
        res.review = review := by
  rw [finish] at hrun
  split at hrun
  · cases review with
    | none =>
      obtain ⟨rfl, rfl⟩ := hrun
      simp
    | some review =>
      cases hevidence : hitl4Evidence S taskDescription implementation suite result review with
      | error e =>
        simp [submitHitl4Evidence, hevidence] at hrun
        simp [hrun]
      | ok evidence =>
        simp only [submitHitl4Evidence, hevidence, ask, answer_ok, bind_eq, elim_ret, command_eq,
          elim_call, yields_call] at hrun
        obtain ⟨reply, b, rest, rfl, hrun⟩ := hrun
        cases reply with
        | error e =>
          obtain ⟨rfl, rfl⟩ := hrun
          simp [isCoding]
        | ok gate =>
          simp only [answer_ok, elim_ret] at hrun
          split at hrun <;>
            · obtain ⟨rfl, rfl⟩ := hrun
              simp [isCoding]
  · obtain ⟨rfl, rfl⟩ := hrun
    simp

/-! ### The branches of a turn -/

/-- The turn where the tests passed. -/
def reviewTurn (S : Setting) (context : Context) (taskDescription : String) (suite : TestSuite)
    (failCount : ℕ) (testCode previous : String) (implementation : Implementation)
    (result : TestRunResult) : Loop (DevelopmentResult ⊕ Carry) := do
  let reviewed ← ask (.reviewer {
    implementation := previous
    testSuite := testCode
    testResults := formatTestOutput S result })
  if reviewed.success = false then
    return .inl (.failure (reviewed.errorOr "Review failed") failCount)
  let review ← answer (extractReview S reviewed)
  if saysPassed reviewed then
    let result ← finish S context taskDescription suite failCount implementation result review
    return .inl result
  return .inr {
    previousImplementation := previous
    testErrors := extractReviewIssues S review
    debugAnalysis := none }

/-- The turn where they failed. -/
def failedTurn (S : Setting) (failCount : ℕ) (carry : Carry) (testCode previous : String)
    (result : TestRunResult) : Loop (DevelopmentResult ⊕ Carry) := do
  let testErrors := extractTestErrors result
  if S.maxCodingRetries < failCount + 1 then
    let debugged ← ask (.debugger {
      testOutput := formatTestOutput S result
      implementation := previous
      testCode := testCode })
    let analysis ←
      if debugged.success then answer (extractDebugAnalysis S debugged)
      else pure carry.debugAnalysis
    return .inr ⟨previous, testErrors, analysis⟩
  return .inr ⟨previous, testErrors, carry.debugAnalysis⟩

theorem turn_eq :
    turn S context taskDescription suite failCount carry = (do
      let testCode ← answer (suite.toPythonCode S.str)
      let coding ← ask (.coding {
        taskDescription := taskDescription
        testCode := testCode
        failCount := failCount
        previousImplementation := carry.previousImplementation
        testErrors := carry.testErrors
        debugAnalysis := carry.debugAnalysis })
      if coding.success = false then
        return .inl (.failure (coding.errorOr "Failed to generate implementation") failCount)
      match ← answer (extractImplementation coding) with
      | none =>
        return .inl (.failure "Failed to extract implementation from Coding result" failCount)
      | some implementation =>
        let previous ← answer (implementationToString S implementation)
        let tested ←
          try
            let result ← ask (.runTests (context.workspacePath ++ "/tests") suite.taskId)
            pure (Except.ok result : Except Error TestRunResult)
          catch e => pure (.error e)
        match tested with
        | .error e => return .inl (.failure ("Test execution failed: " ++ e.str) failCount)
        | .ok result =>
          if result.allPassed then
            reviewTurn S context taskDescription suite failCount testCode previous
              implementation result
          else failedTurn S failCount carry testCode previous result) := rfl

/-- What an attempt is given is what was carried. -/
theorem opens_of_given {t : Attempt} (hgiven : t.input.debugAnalysis = carry.debugAnalysis)
    {rest : History} (hrest : ∀ x ∈ rest, isCoding x = false) :
    Opens carry (t.exchanges ++ rest) :=
  Or.inr ⟨t.input, .ok t.coded, t.reached, _, rfl, hgiven,
    List.forall_mem_cons.mpr ⟨rfl, hrest⟩⟩

/-- What the turn may do after tests that passed. -/
theorem reviewTurn_shape {t : Attempt} {testCode previous : String} {h : History}
    {r : Except Error (DevelopmentResult ⊕ Carry)} (hmade : t.Made)
    (hgiven : t.input.debugAnalysis = carry.debugAnalysis) (hpassed : t.result.allPassed = true)
    (hrun : (reviewTurn S context taskDescription suite failCount testCode previous
      t.implementation t.result).Yields h r) :
    TurnShape S failCount carry (t.exchanges ++ h) r := by
  simp only [reviewTurn, ask, command_eq, bind_eq, elim_call, yields_call] at hrun
  obtain ⟨reply, b, h, rfl, hrun⟩ := hrun
  cases reply with
  | error e =>
    obtain ⟨rfl, rfl⟩ := hrun
    exact .ended (opens_of_given hgiven (by simp [isCoding])) (by simp) (by simp)
  | ok reviewed =>
    simp only [answer_ok, elim_ret] at hrun
    split at hrun
    case isTrue hfailed =>
      obtain ⟨rfl, rfl⟩ := hrun
      exact .ended (opens_of_given hgiven (by simp [isCoding]))
        (by simp [DevelopmentResult.failure]) (by simp)
    case isFalse hreviewed =>
      cases hreview : extractReview S reviewed with
      | error e =>
        simp only [hreview, answer_error, elim_raise, yields_raise] at hrun
        obtain ⟨rfl, rfl⟩ := hrun
        exact .ended (opens_of_given hgiven (by simp [isCoding])) (by simp) (by simp)
      | ok review =>
        simp only [hreview, answer_ok, elim_ret] at hrun
        split at hrun
        case isTrue hsays =>
          obtain ⟨gate, h₂, r₁, rfl, hfinish, hrest⟩ := yields_elim.mp hrun
          obtain ⟨hgate, hres⟩ := finish_yields hfinish
          cases r₁ with
          | error e =>
            obtain ⟨rfl, rfl⟩ := hrest
            exact .ended (opens_of_given hgiven (by simpa [isCoding] using hgate)) (by simp)
              (by simp)
          | ok res =>
            obtain ⟨rfl, rfl⟩ := hrest
            obtain ⟨himplementation, htested, hreviewOf⟩ := hres res rfl
            rw [List.append_nil]
            refine .completed (opens_of_given hgiven (by simpa [isCoding] using hgate)) ?_
            exact ⟨[], t, _, reviewed, b, gate, rfl, hgate, hmade, hpassed,
              by simpa using hreviewed, hsays, hreviewOf ▸ hreview, himplementation, htested⟩
        case isFalse hsays =>
          obtain ⟨rfl, rfl⟩ := hrun
          exact .refused (opens_of_given hgiven (by simp [isCoding])) rfl

/-- What the turn may do after tests that failed. -/
theorem failedTurn_shape {t : Attempt} {testCode previous : String} {h : History}
    {r : Except Error (DevelopmentResult ⊕ Carry)} (hmade : t.Made)
    (hgiven : t.input.debugAnalysis = carry.debugAnalysis)
    (hprevious : implementationToString S t.implementation = .ok previous)
    (hfailed : t.result.allPassed = false)
    (hrun : (failedTurn S failCount carry testCode previous t.result).Yields h r) :
    TurnShape S failCount carry (t.exchanges ++ h) r := by
  rw [failedTurn] at hrun
  by_cases hmany : S.maxCodingRetries < failCount + 1
  · simp only [if_pos hmany, ask, command_eq, bind_eq, elim_call, yields_call] at hrun
    obtain ⟨reply, b, h, rfl, hrun⟩ := hrun
    cases reply with
    | error e =>
      obtain ⟨rfl, rfl⟩ := hrun
      exact .ended (opens_of_given hgiven (by simp [isCoding])) (by simp) (by simp)
    | ok debugged =>
      simp only [answer_ok, elim_ret] at hrun
      split at hrun
      case isTrue hdebugged =>
        cases hanalysis : extractDebugAnalysis S debugged with
        | error e =>
          simp only [hanalysis, answer_error, elim_raise, yields_raise] at hrun
          obtain ⟨rfl, rfl⟩ := hrun
          exact .ended (opens_of_given hgiven (by simp [isCoding])) (by simp) (by simp)
        | ok analysis =>
          simp only [hanalysis, answer_ok, elim_ret] at hrun
          obtain ⟨rfl, rfl⟩ := hrun
          refine .analysed (opens_of_given hgiven (by simp [isCoding])) (by omega) ?_
          intro a ha
          refine ⟨[], t, ⟨formatTestOutput S t.result, previous, testCode⟩, debugged, b, rfl,
            hmade, hfailed, ?_, ?_, hdebugged, ?_⟩
          · dsimp only
          · exact hprevious
          · rw [hanalysis, ← ha]
      case isFalse hdebugged =>
        obtain ⟨rfl, rfl⟩ := hrun
        exact .unanalysed (by omega) hgiven (by simpa using hdebugged) rfl
  · simp only [if_neg hmany] at hrun
    obtain ⟨rfl, rfl⟩ := hrun
    exact .failed (opens_of_given hgiven (by simp)) (by omega) rfl

/-- **What a turn may do.** -/
theorem turn_shape {h : History} {r : Except Error (DevelopmentResult ⊕ Carry)}
    (hrun : (turn S context taskDescription suite failCount carry).Yields h r) :
    TurnShape S failCount carry h r := by
  rw [turn_eq] at hrun
  cases hcode : suite.toPythonCode S.str with
  | error e =>
    simp only [hcode, answer_error, bind_eq, elim_raise, yields_raise] at hrun
    obtain ⟨rfl, rfl⟩ := hrun
    exact .ended (Or.inl rfl) (by simp) (by simp)
  | ok code =>
    simp only [ask, hcode, answer_ok, bind_eq, elim_ret, command_eq, elim_call,
      yields_call] at hrun
    obtain ⟨reply, b, h, rfl, hrun⟩ := hrun
    have hopens : ∀ rest : History, (∀ x ∈ rest, isCoding x = false) →
        Opens carry (⟨.coding ⟨taskDescription, code, failCount, carry.previousImplementation,
          carry.testErrors, carry.debugAnalysis⟩, reply, b⟩ :: rest) :=
      fun rest hrest => Or.inr ⟨_, _, _, _, rfl, rfl, hrest⟩
    cases reply with
    | error e =>
      obtain ⟨rfl, rfl⟩ := hrun
      exact .ended (hopens [] (by simp)) (by simp) (by simp)
    | ok coded =>
      simp only [answer_ok, elim_ret] at hrun
      split at hrun
      case isTrue hfailed =>
        obtain ⟨rfl, rfl⟩ := hrun
        exact .ended (hopens [] (by simp)) (by simp [DevelopmentResult.failure]) (by simp)
      case isFalse hcoded =>
        cases himplementation : extractImplementation coded with
        | error e =>
          simp only [himplementation, answer_error, elim_raise, yields_raise] at hrun
          obtain ⟨rfl, rfl⟩ := hrun
          exact .ended (hopens [] (by simp)) (by simp) (by simp)
        | ok implementation =>
          simp only [himplementation, answer_ok, elim_ret] at hrun
          cases implementation with
          | none =>
            obtain ⟨rfl, rfl⟩ := hrun
            exact .ended (hopens [] (by simp)) (by simp [DevelopmentResult.failure])
              (by simp)
          | some implementation =>
            cases hprevious : implementationToString S implementation with
            | error e =>
              simp only [hprevious, answer_error, elim_raise, yields_raise] at hrun
              obtain ⟨rfl, rfl⟩ := hrun
              exact .ended (hopens [] (by simp)) (by simp) (by simp)
            | ok previous =>
              simp only [hprevious, answer_ok, elim_ret, tryCatch_eq, elim_call,
                elim_elim, yields_call] at hrun
              obtain ⟨reply', b', h, rfl, hrun⟩ := hrun
              cases reply' with
              | error e =>
                obtain ⟨rfl, rfl⟩ := hrun
                exact .ended (hopens _ (by simp [isCoding]))
                  (by simp [DevelopmentResult.failure]) (by simp)
              | ok result =>
                have hmade : Attempt.Made ⟨⟨taskDescription, code, failCount,
                  carry.previousImplementation, carry.testErrors,
                  carry.debugAnalysis⟩, coded, implementation,
                  context.workspacePath ++ "/tests", suite.taskId, result, b, b'⟩ :=
                  ⟨by simpa using hcoded, himplementation⟩
                simp only [answer_ok, elim_ret, pure_eq] at hrun
                split at hrun
                case isTrue hpassed => exact reviewTurn_shape hmade rfl hpassed hrun
                case isFalse hfailed =>
                  exact failedTurn_shape hmade rfl hprevious (by simpa using hfailed)
                    hrun

/-! ## The loop -/

theorem FromFailure.append {h : History} {analysis : DebugAnalysis} (hf : FromFailure S h analysis)
    (past : History) : FromFailure S (past ++ h) analysis := by
  obtain ⟨earlier, t, input, debugged, b, rfl, hrest⟩ := hf
  exact ⟨past ++ earlier, t, input, debugged, b, (List.append_assoc _ _ _).symm, hrest⟩

theorem Completed.append {h : History} {res : DevelopmentResult} (hc : Completed S h res)
    (past : History) : Completed S (past ++ h) res := by
  obtain ⟨earlier, t, input, reviewed, b, gate, rfl, hrest⟩ := hc
  exact ⟨past ++ earlier, t, input, reviewed, b, gate, (List.append_assoc _ _ _).symm, hrest⟩

/-- One attempt at most is made in a turn. -/
theorem Opens.countP_le {h : History} (ho : Opens carry h) : h.countP isCoding ≤ 1 := by
  rcases ho with rfl | ⟨input, reply, b, rest, rfl, -, hrest⟩
  · simp
  · have hnone : rest.countP isCoding = 0 := List.countP_eq_zero.mpr (by simpa using hrest)
    simp [List.countP_cons, hnone, isCoding]

/-- The attempt of a turn is given what was carried. -/
theorem Opens.preceded {past h : History} (ho : Opens carry h)
    (hcarry : ∀ analysis, carry.debugAnalysis = some analysis → FromFailure S past analysis) :
    Preceded (Analysed S) past h := by
  have hnot : ∀ (rest past : History), (∀ x ∈ rest, isCoding x = false) →
      Preceded (Analysed S) past rest := by
    intro rest past hrest
    refine preceded_iff.mpr fun before x after hh input hx => ?_
    have hcoding := hrest x (by rw [hh]; simp)
    simp [isCoding, hx] at hcoding
  rcases ho with rfl | ⟨input, reply, b, rest, rfl, hgiven, hrest⟩
  · trivial
  · refine ⟨fun input' hinput analysis hanalysis => ?_, hnot rest _ hrest⟩
    cases hinput
    exact hcarry analysis (hgiven ▸ hanalysis)

theorem TurnShape.opens {h : History} {r : Except Error (DevelopmentResult ⊕ Carry)}
    (hs : TurnShape S failCount carry h r) : Opens carry h := by
  cases hs with
  | ended opens | completed opens | refused opens | failed opens | analysed opens => exact opens
  | unanalysed many given => exact opens_of_given given (by simp [isCoding])

/-- What the loop carries: an analysis of the failure that came last, once there are no retries
left. -/
def Carries (S : Setting) (past : History) (failCount : ℕ) (carry : Carry) : Prop :=
  ∀ analysis, carry.debugAnalysis = some analysis →
    FromFailure S past analysis ∧ S.maxCodingRetries < failCount

/-- **A turn keeps what is carried**, if the debugger fails only where there is no analysis. -/
theorem TurnShape.carries {past h after : History} {next : Carry}
    (hs : TurnShape S failCount carry h (.ok (.inr next))) (hc : Carries S past failCount carry)
    (hd : Dependable S (past ++ (h ++ after))) :
    Carries S (past ++ h) (failCount + 1) next := by
  intro analysis hanalysis
  generalize hr : (Except.ok (Sum.inr next) : Except Error (DevelopmentResult ⊕ Carry)) = r at hs
  cases hs with
  | ended opens fails ends => exact absurd hr.symm (ends next)
  | completed opens done => cases hr
  | refused opens forgets =>
    cases hr
    rw [forgets] at hanalysis
    cases hanalysis
  | failed opens few keeps =>
    cases hr
    have hmany := (hc analysis (keeps ▸ hanalysis)).2
    omega
  | analysed opens many fresh =>
    cases hr
    exact ⟨(fresh analysis hanalysis).append past, by omega⟩
  | @unanalysed t input debugged b _ many given fails keeps =>
    cases hr
    -- the debugger failed, so that there was no analysis to keep
    have hnone := hd.debugger past t input debugged b after (by simp) fails
    rw [keeps, ← given, hnone] at hanalysis
    cases hanalysis

/-- **A turn that ends the loop** with success has a review that passed. -/
theorem TurnShape.success {past h : History} {res : DevelopmentResult}
    (hs : TurnShape S failCount carry h (.ok (.inl res))) (hd : Dependable S (past ++ h))
    (hsuccess : res.success = true) :
    Completed S h res ∧ ∃ review, res.review = some review ∧ review.passed.truthy = true := by
  generalize hr : (Except.ok (Sum.inl res) : Except Error (DevelopmentResult ⊕ Carry)) = r at hs
  cases hs with
  | ended opens fails ends =>
    rw [fails res hr.symm] at hsuccess
    cases hsuccess
  | completed opens done =>
    cases hr
    obtain ⟨earlier, t, input, reviewed, b, gate, rfl, -, -, -, hreviewed, hsays, hreview, -⟩ :=
      id done
    obtain ⟨review, hextract, hpassed⟩ :=
      hd.reviewer input reviewed b (by simp) hreviewed hsays
    refine ⟨done, review, ?_, hpassed⟩
    exact Except.ok.inj (hreview.symm.trans hextract)
  | refused | failed | analysed | unanalysed => cases hr

/-- What the loop may do, from so many failures on and with what was carried. -/
inductive LoopShape (S : Setting) : ℕ → Carry → History → Except Error DevelopmentResult → Prop
  /-- A turn raises. -/
  | raised {failCount carry h e} (turn : TurnShape S failCount carry h (.error e)) :
      LoopShape S failCount carry h (.error e)
  /-- A turn has a result. -/
  | returned {failCount carry h res} (turn : TurnShape S failCount carry h (.ok (.inl res))) :
      LoopShape S failCount carry h (.ok res)
  /-- There were too many turns. -/
  | exhausted {failCount carry h next} (turn : TurnShape S failCount carry h (.ok (.inr next))) :
      LoopShape S failCount carry h
        (.ok (.failure "Exceeded maximum TDD loop iterations" (failCount + 1)))
  /-- There is another turn. -/
  | again {failCount carry h₁ h₂ next r} (turn : TurnShape S failCount carry h₁ (.ok (.inr next)))
      (few : failCount + 1 ≤ S.maxCodingRetries + 5)
      (rest : LoopShape S (failCount + 1) next h₂ r) :
      LoopShape S failCount carry (h₁ ++ h₂) r

/-- **What the loop may do.** -/
theorem turns_shape {h : History} {r : Except Error DevelopmentResult}
    (hrun : (turns S context taskDescription suite failCount carry).Yields h r) :
    LoopShape S failCount carry h r := by
  -- on the turns that are left
  induction hleft : S.maxCodingRetries + 6 - failCount using Nat.strong_induction_on
    generalizing failCount carry h with
  | _ left ih =>
    rw [turns, bind_eq] at hrun
    obtain ⟨h₁, h₂, r₁, rfl, hturn, hrest⟩ := yields_elim.mp hrun
    have hshape := turn_shape hturn
    cases r₁ with
    | error e =>
      obtain ⟨rfl, rfl⟩ := hrest
      rw [List.append_nil]
      exact .raised hshape
    | ok outcome =>
      cases outcome with
      | inl res =>
        obtain ⟨rfl, rfl⟩ := hrest
        rw [List.append_nil]
        exact .returned hshape
      | inr next =>
        simp only at hrest
        split at hrest
        case isTrue hmany =>
          obtain ⟨rfl, rfl⟩ := hrest
          rw [List.append_nil]
          exact .exhausted hshape
        case isFalse hfew =>
          exact .again hshape (by omega) (ih _ (by omega) hrest rfl)

/-- **The attempts are bounded**, whatever the agents and the runner answer. -/
theorem LoopShape.attempts {h : History} {r : Except Error DevelopmentResult}
    (hs : LoopShape S failCount carry h r) (hfew : failCount ≤ S.maxCodingRetries + 5) :
    h.countP isCoding + failCount ≤ S.maxCodingRetries + 6 := by
  induction hs with
  | raised turn | returned turn | exhausted turn =>
    have hone := turn.opens.countP_le
    omega
  | again turn few rest ih =>
    have hone := turn.opens.countP_le
    have hlater := ih few
    rw [List.countP_append]
    omega

/-- **Runs with dependable agents** are controlled. -/
theorem LoopShape.controlled_of_dependable {past h : History} {r : Except Error DevelopmentResult}
    (hs : LoopShape S failCount carry h r) (hc : Carries S past failCount carry)
    (hd : Dependable S (past ++ h)) :
    (∀ res, r = .ok res → res.success = true → Completed S h res ∧
      ∃ review, res.review = some review ∧ review.passed.truthy = true) ∧
      Preceded (Analysed S) past h := by
  induction hs generalizing past with
  | raised turn => exact ⟨by simp, turn.opens.preceded fun a ha => (hc a ha).1⟩
  | returned turn =>
    refine ⟨fun res hres hsuccess => ?_, turn.opens.preceded fun a ha => (hc a ha).1⟩
    cases hres
    exact turn.success hd hsuccess
  | exhausted turn =>
    exact ⟨by simp [DevelopmentResult.failure], turn.opens.preceded fun a ha => (hc a ha).1⟩
  | @again failCount carry h₁ h₂ next r turn few rest ih =>
    have hlater := ih (turn.carries hc hd) (by rwa [List.append_assoc])
    refine ⟨fun res hres hsuccess => ?_, ?_⟩
    · obtain ⟨hcompleted, hreview⟩ := hlater.1 res hres hsuccess
      exact ⟨hcompleted.append h₁, hreview⟩
    · exact preceded_append.mpr ⟨turn.opens.preceded fun a ha => (hc a ha).1, hlater.2⟩

/-! ## Runs -/

/-- A run of `run_tdd_loop` is one of the loop, after the test suite. -/
theorem orchestrate_shape {acceptanceCriteria : List String} {h : History}
    {r : Except Error DevelopmentResult}
    (hrun : (orchestrate S context taskDescription acceptanceCriteria).Yields h r) :
    ∃ x rest, h = x :: rest ∧ isCoding x = false ∧
      ((rest = [] ∧ ∀ res, r = .ok res → res.success = false) ∨ LoopShape S 0 {} rest r) := by
  simp only [orchestrate, ask, command_eq, bind_eq, elim_call, yields_call] at hrun
  obtain ⟨reply, b, rest, rfl, hrun⟩ := hrun
  refine ⟨_, rest, rfl, rfl, ?_⟩
  cases reply with
  | error e =>
    obtain ⟨rfl, rfl⟩ := hrun
    exact Or.inl ⟨rfl, by simp⟩
  | ok tested =>
    simp only [answer_ok, elim_ret] at hrun
    split at hrun
    case isTrue hfailed =>
      obtain ⟨rfl, rfl⟩ := hrun
      exact Or.inl ⟨rfl, by simp [DevelopmentResult.failure]⟩
    case isFalse htested =>
      cases hsuite : extractTestSuite tested with
      | error e =>
        simp only [hsuite, answer_error, elim_raise, yields_raise] at hrun
        obtain ⟨rfl, rfl⟩ := hrun
        exact Or.inl ⟨rfl, by simp⟩
      | ok suite =>
        simp only [hsuite, answer_ok, elim_ret] at hrun
        cases suite with
        | none =>
          obtain ⟨rfl, rfl⟩ := hrun
          exact Or.inl ⟨rfl, by simp [DevelopmentResult.failure]⟩
        | some suite => exact Or.inr (turns_shape hrun)

/-- **The control of the loop.**  However the agents and the runner answer, given what went before,
the loop comes to an end after `max_coding_retries + 6` attempts at most; and if the agents are
dependable on the way, the run is controlled. -/
theorem controlled (S : Setting) (context : Context) (taskDescription : String)
    (acceptanceCriteria : List String)
    (answers : History → (c : Call) → Except Error (Answer c)) :
    let run := (orchestrate S context taskDescription acceptanceCriteria).conversation answers []
    run.1.countP isCoding ≤ S.maxCodingRetries + 6 ∧
      (Dependable S run.1 → Controlled S run.1 run.2) := by
  intro run
  have hrun := yields_conversation answers
    (orchestrate S context taskDescription acceptanceCriteria) []
  obtain ⟨x, rest, hh, hx, hrest⟩ := orchestrate_shape hrun
  change run.1 = x :: rest at hh
  have hcarries : Carries S [x] 0 {} := fun analysis hanalysis => nomatch hanalysis
  have hattempts : run.1.countP isCoding ≤ S.maxCodingRetries + 6 := by
    rw [hh, List.countP_cons]
    rcases hrest with ⟨rfl, -⟩ | hshape
    · simp [hx]
    · have hloop := hshape.attempts (by omega)
      simp [hx]
      omega
  refine ⟨hattempts, fun hd => ⟨hattempts, ?_, ?_⟩⟩
  · intro res hres hsuccess
    rcases hrest with ⟨-, hfails⟩ | hshape
    · rw [hfails res hres] at hsuccess
      cases hsuccess
    · rw [hh] at hd ⊢
      obtain ⟨hcompleted, hreview⟩ := (hshape.controlled_of_dependable hcarries hd).1 res hres hsuccess
      exact ⟨hcompleted.append [x], hreview⟩
  · have hanalysed : Preceded (Analysed S) [] run.1 := by
      rw [hh] at hd ⊢
      refine ⟨fun input hinput => ?_, ?_⟩
      · simp [isCoding, hinput] at hx
      · rcases hrest with ⟨rfl, -⟩ | hshape
        · trivial
        · exact (hshape.controlled_of_dependable hcarries hd).2
    intro before y after hsplit
    exact preceded_iff.mp hanalysed before y after hsplit

/-! ## Two behaviours -/

/-- Without retries, and without a gate. -/
def impatient : Setting := { demo with maxCodingRetries := 0, hitlDispatcher := false }

/-- An implementation without files. -/
def emptyImplementation : Implementation where
  taskId := .str "t"
  files := []
  imports := .arr []
  dependencies := .arr []

/-- A review that passed. -/
def passedReview : CodeReview where
  implementationId := .str "t"
  passed := .bool true
  issues := []
  suggestions := .arr []
  securityConcerns := .arr []

/-- An analysis of a failure. -/
def demoAnalysis : DebugAnalysis where
  failureId := .str "F-1"
  rootCause := .str "off by one"
  fixSuggestion := .str "add one"
  codeChanges := []

/-- A result with an artifact. -/
def handed (key : String) (artifact : Artifact) : Agents.AgentResult Value where
  success := true
  metadata := [(key, .artifact artifact), ("passed", .json (.bool true))]

/-- Agents that hand over what they make, and a runner that reports so many failures. -/
def handingOver (failed : ℕ) (debugger : History → Agents.AgentResult Value) (_past : History) :
    (c : Call) → Except Error (Answer c)
  | .utest _ => .ok (handed "test_suite" (.testSuite demoSuite))
  | .coding _ => .ok (handed "implementation" (.implementation emptyImplementation))
  | .debugger _ => .ok (debugger _past)
  | .reviewer _ => .ok (handed "review" (.review passedReview))
  | .runTests _ _ =>
    .ok { suiteId := "t", results := [], passed := 0, failed := failed, coverage := 0 }
  | .requestGate .. => .error ⟨.exception, "no gate", []⟩

/-- There is no debugger, and every review that is said to have passed has passed. -/
def plainlyDependable (S : Setting) (h : History) : Bool :=
  h.all fun x =>
    match x with
    | ⟨.debugger _, _, _⟩ => false
    | ⟨.reviewer _, .ok reviewed, _⟩ =>
      match extractReview S reviewed with
      | .ok (some review) => review.passed.truthy
      | _ => false
    | _ => true

theorem dependable_of_plainly {h : History} (hplain : plainlyDependable S h = true) :
    Dependable S h := by
  rw [plainlyDependable, List.all_eq_true] at hplain
  refine ⟨fun before t input debugged b after hh _ => ?_, fun input reviewed b hmem _ _ => ?_⟩
  · have hnot := hplain ⟨.debugger input, .ok debugged, b⟩ (by rw [hh]; simp)
    simp at hnot
  · have hpassed := hplain _ hmem
    simp only at hpassed
    split at hpassed
    case h_1 review hextract => exact ⟨review, hextract, hpassed⟩
    case h_2 => cases hpassed

/-- Everything passes at once. -/
theorem controlled_passing :
    let run := (orchestrate impatient demoContext "f" ["returns one"]).conversation
      (handingOver 0 fun _ => failure "Debugger failed" true) []
    (run.2.map DevelopmentResult.success).toOption = some true ∧
      Controlled impatient run.1 run.2 := by
  have hdependable := @dependable_of_plainly impatient
    ((orchestrate impatient demoContext "f" ["returns one"]).conversation
      (handingOver 0 fun _ => failure "Debugger failed" true) []).1 (by decide +kernel)
  exact ⟨by decide +kernel, (controlled _ _ _ _ _).2 hdependable⟩

/-- A debugger that succeeds once. -/
def debuggerOnce (past : History) : Agents.AgentResult Value :=
  if past.length = 3 then handed "debug_analysis" (.debugAnalysis demoAnalysis)
  else failure "Debugger failed" true

/-- After six exchanges the debugger fails, and an attempt is given an analysis. -/
def givenAfterFailure (h : History) : Bool :=
  match h.drop 6 with
  | ⟨.debugger _, .ok debugged, _⟩ :: ⟨.coding input, _, _⟩ :: _ =>
    !debugged.success && input.debugAnalysis.isSome
  | _ => false

/-- Such an analysis is not of the attempt before. -/
theorem not_controlled_of_givenAfterFailure {h : History} {r : Except Error DevelopmentResult}
    (hgiven : givenAfterFailure h = true) : ¬ Controlled S h r := by
  intro hc
  rw [givenAfterFailure] at hgiven
  split at hgiven
  case h_2 => cases hgiven
  case h_1 input debugged b input' reply b' after hdrop =>
    rw [Bool.and_eq_true, Bool.not_eq_true', Option.isSome_iff_exists] at hgiven
    obtain ⟨hfails, analysis, hanalysis⟩ := hgiven
    have hsplit : h = (h.take 6 ++ [⟨.debugger input, .ok debugged, b⟩]) ++
        ⟨.coding input', reply, b'⟩ :: after := by
      rw [List.append_assoc, List.singleton_append, ← hdrop, List.take_append_drop]
    obtain ⟨earlier, t, input'', debugged', b'', hbefore, -, -, -, -, hsucceeds, -⟩ :=
      hc.analysed _ _ _ hsplit input' rfl analysis hanalysis
    have hlast := congrArg List.getLast? hbefore
    simp only [← List.append_assoc, List.getLast?_concat, Option.some.injEq,
      Exchange.mk.injEq] at hlast
    obtain ⟨hcmd, hreply, -⟩ := hlast
    cases hcmd
    cases hreply
    rw [hfails] at hsucceeds
    cases hsucceeds

/-- When the debugger fails after it has succeeded, the next attempt is given the analysis of an
attempt before the last. -/
theorem not_controlled_debuggerOnce :
    ¬ ∀ (S : Setting) (context : Context) (taskDescription : String)
      (acceptanceCriteria : List String)
      (answers : History → (c : Call) → Except Error (Answer c)),
      let run :=
        (orchestrate S context taskDescription acceptanceCriteria).conversation answers []
      Controlled S run.1 run.2 := by
  intro h
  refine not_controlled_of_givenAfterFailure ?_
    (h impatient demoContext "f" ["returns one"] (handingOver 1 debuggerOnce))
  decide +kernel

end DoxAsdlc.Development
