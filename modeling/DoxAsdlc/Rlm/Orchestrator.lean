import DoxAsdlc.Rlm.Agent

/-!
# The orchestrator of explorations

An exploration is a loop of rounds: the budget is checked, the agent runs an iteration, and
what came of it is recorded.  A round is run without interruption.  Between two of them the
exploration sleeps; meanwhile others may use the same budget and the same cache, and the
time may be over.

## Main definitions

* `round` — one pass of the loop, up to its sleep.
* `Op`, `Op.perform` — what others may do meanwhile.
* `explorationLoop`, `explore` — the loop, and the result that is built from it.
-/

namespace DoxAsdlc.Rlm

open Interaction

/-- The lists of an exploration.  `completed` are the findings of each iteration whose round
came to its end; no code reads them. -/
structure Progress where
  steps : List ExplorationStep := []
  accumulatedFindings : List String := []
  allFindings : List Finding := []
  citations : List Citation := []
  completed : List (List String) := []

/-- Code of a round: it works on the lists of its exploration and on the session. -/
abbrev Round (α : Type) := Act (Progress × Session) Raised α

section

variable (env : Environment)

/-- `_build_initial_context`. -/
def buildInitialContext (contextHints : List String) : String :=
  if contextHints.isEmpty then ""
  else "Context hints:\n" ++ String.intercalate "\n" (contextHints.map ("- " ++ ·))

/-- `to_exploration_step`. -/
def toExplorationStep (result : AgentIteration ExecutedCall) (iteration subcallsUsed : ℕ) :
    ExplorationStep where
  iteration := iteration
  thought := result.thought
  toolCalls := result.toolCalls.map fun call => ⟨call.tool, call.args, call.result⟩
  findingsSoFar := result.findings
  nextDirection := result.nextDirection
  subcallsUsed := subcallsUsed

/-- A number ten lines on; it is computed also where it is not needed, and raises for what is
no number. -/
def tenLinesOn : Json → Except Raised Json
  | .int n => .ok (.int (n + 10))
  | .float x => .ok (.float (x + 10))
  | .bool b => .ok (.int (b.toNat + 10))
  | other => .error (.exception
      ("unsupported operand type(s) for +: '" ++ other.typeName ++ "' and 'int'"))

/-- `_extract_citation`. -/
def extractCitation (call : ExecutedCall) : Except Raised (Option Citation) := do
  if call.tool.isText "read_file" && ((Json.field? call.args "file_path").any Json.truthy) then
    let startLine := (Json.field? call.args "start_line").getD (.int 1)
    let defaultEnd ← tenLinesOn startLine
    let content := clip 500 call.result
    return some {
      filePath := (Json.field? call.args "file_path").getD .null
      lineStart := startLine
      lineEnd := (Json.field? call.args "end_line").getD defaultEnd
      contentHash := env.digest content
      snippet := if 200 < content.length then clip 200 content ++ "..." else content }
  else return none

/-- Add the findings that are not there yet. -/
def accumulate (accumulated : List String) (findings : List String) : List String :=
  findings.foldl (fun acc finding => if finding ∈ acc then acc else acc ++ [finding]) accumulated

/-- The citations of the calls, up to one that raises. -/
def collectCitations : List ExecutedCall → Round Unit
  | [] => return ()
  | call :: calls => do
      let citation ← Act.answer (extractCitation env call)
      Act.update fun s => ({ s.1 with citations := s.1.citations ++ citation.toList }, s.2)
      collectCitations calls

variable (settings : Settings)

/-- One pass of `_exploration_loop`, up to its sleep: the direction with which the loop ends,
if it does. -/
def round (query context : String) (iteration : ℕ) : Round (Option String) := do
  let s ← Act.read id
  if s.2.budget.canMakeCall = false then
    throw (.budgetExceeded "Sub-call budget exhausted" s.2.budget.limits.maxTotal
      s.2.budget.totalUsed)
  else
    let result ← Act.onSnd
      (runIteration env settings query context s.1.steps s.1.accumulatedFindings)
    let subcalls := result.toolCalls.countP fun call => call.tool.isText "llm_query"
    Act.update fun s => ({ s.1 with
      steps := s.1.steps ++ [toExplorationStep result iteration subcalls]
      accumulatedFindings := accumulate s.1.accumulatedFindings result.findings }, s.2)
    collectCitations env result.toolCalls
    Act.update fun s => ({ s.1 with completed := s.1.completed ++ [result.findings] },
      { s.2 with budget := s.2.budget.resetIteration })
    return if result.isDone then some result.nextDirection else none

/-! ## What others do meanwhile -/

/-- A round of another exploration, or a query from elsewhere. -/
inductive Op where
  | round (query context : String) (iteration : ℕ) (progress : Progress)
  | query (args : QueryArgs)
  | queryWithRetry (args : QueryArgs) (maxRetries : ℤ)

/-- What the session is after it. -/
def Op.perform (s : Session) : Op → Session
  | .round q context iteration progress =>
    ((Rlm.round env settings q context iteration) (progress, s)).2.2
  | .query args => ((Rlm.query env settings args) s).2
  | .queryWithRetry args maxRetries => ((Rlm.queryWithRetry env settings args maxRetries) s).2

/-- Several of them, one after the other. -/
def perform (s : Session) (ops : List Op) : Session := ops.foldl (Op.perform env settings) s

/-- The surroundings of an exploration: what happens while it waits for its `i`-th round to
begin, and whether its time is over then. -/
structure Surroundings where
  others : ℕ → List Op
  outOfTime : ℕ → Bool

/-- How the loop stops. -/
inductive Stop where
  | returned (message : String)
  | timedOut
  | raised (e : Raised)

variable (around : Surroundings)

/-- `_exploration_loop`, under `wait_for`, from round `iteration` on. -/
def explorationLoop (query context : String) (iteration : ℕ) :
    ℕ → Progress × Session → Stop × Progress × Session
  | 0, s =>
    let s := (s.1, perform env settings s.2 (around.others iteration))
    (if around.outOfTime iteration then .timedOut else .returned "Max iterations reached", s)
  | left + 1, s =>
    let s := (s.1, perform env settings s.2 (around.others iteration))
    if around.outOfTime iteration then (.timedOut, s)
    else
      match round env settings query context iteration s with
      | (.error e, s) => (.raised e, s)
      | (.ok (some direction), s) => (.returned direction, s)
      | (.ok none, s) => explorationLoop query context (iteration + 1) left s

/-- `_build_usage`. -/
def buildUsage (s : Session) : RLMUsage where
  subcallCount := s.budget.totalUsed
  cachedSubcalls := s.cache.stats.hits
  totalTokens := s.agentTokens
  modelCalls := s.agentIterations
  budgetLimit := s.budget.limits.maxTotal
  budgetRemaining := s.budget.remaining

/-- The numbered findings. -/
def numbered : ℕ → List String → List String
  | _, [] => []
  | i, finding :: findings => (toString i ++ ". " ++ finding) :: numbered (i + 1) findings

/-- `_synthesize_findings`. -/
def synthesizeFindings (findings : List String) (finalMessage : String) : String :=
  if findings.isEmpty then finalMessage
  else String.intercalate "\n"
    (["## Summary", finalMessage, "", "## Findings"] ++ numbered 1 findings)

/-- What `explore` makes of the way the loop stopped. -/
def buildResult (query : String) (contextHints : List String) (taskId : String) (stop : Stop)
    (progress : Progress) (s : Session) : RLMResult :=
  let trajectory (cachedHits : ℕ) : ExplorationTrajectory := {
    steps := progress.steps
    totalSubcalls := s.budget.totalUsed
    cachedHits := cachedHits
    query := query
    contextHints := contextHints }
  match stop with
  | .returned message => {
      taskId := taskId
      success := true
      findings := progress.allFindings
      synthesis := synthesizeFindings progress.accumulatedFindings message
      trajectory := trajectory s.cache.stats.hits
      usage := buildUsage s
      citations := progress.citations }
  | .timedOut => .failure taskId
      ("Exploration timed out after " ++ toString settings.timeoutSeconds ++ "s")
      (trajectory 0) (buildUsage s)
  | .raised (.budgetExceeded message _ _) =>
    if progress.allFindings.isEmpty then
      .failure taskId ("Budget exhausted: " ++ message) (trajectory 0) (buildUsage s)
    else {
      taskId := taskId
      success := true
      findings := progress.allFindings
      synthesis := synthesizeFindings progress.accumulatedFindings
        "Exploration ended due to budget limits. Partial results below."
      trajectory := trajectory 0
      usage := buildUsage s
      citations := progress.citations
      error := some "Budget exhausted - partial results" }
  | .raised e => .failure taskId e.str (trajectory 0) (buildUsage s)

/-- The loop of an exploration, from its beginning. -/
def explored (query : String) (contextHints : List String) (s : Session) :
    Stop × Progress × Session :=
  explorationLoop env settings around query (buildInitialContext contextHints) 0
    settings.maxIterations ({}, s)

/-- `explore`. -/
def explore (query : String) (contextHints : List String) (taskId : String) (s : Session) :
    RLMResult :=
  let outcome := explored env settings around query contextHints s
  buildResult settings query contextHints taskId outcome.1 outcome.2.1 outcome.2.2

end

end DoxAsdlc.Rlm
