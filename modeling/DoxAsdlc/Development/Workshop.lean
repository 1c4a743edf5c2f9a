import DoxAsdlc.Development.Models
import DoxAsdlc.Interaction.Program
import DoxAsdlc.Rlm.Agent

/-!
# What the agents of the development work with

The agents ask a language model, write artifacts and explore the codebase; the orchestrator runs
tests and requests a gate.  The answers are not in their hands.

## Main definitions

* `Cmd`, `interface` — the commands.
* `Setting` — how the agents are set up, with what is a parameter.
* `parseJsonFromResponse` — the JSON value in an answer of the model.
-/

namespace DoxAsdlc.Development

open Interaction Interaction.Program
open Rlm (Json)

/-- What an agent makes. -/
inductive Artifact where
  | testSuite (suite : TestSuite)
  | implementation (implementation : Implementation)
  | review (review : CodeReview)
  | debugAnalysis (analysis : DebugAnalysis)

/-- What is written: the JSON text of an artifact, or a value. -/
inductive Content where
  | json (artifact : Artifact)
  | value (value : Json)

inductive ArtifactType where
  | report | text
  deriving DecidableEq

/-- An item of the evidence. -/
structure Evidence where
  itemType : String
  path : Json
  description : String
  contentHash : String
  metadata : List (String × Json)

/-- The answer to a gate request: whether it is rejected at once, and with what reason. -/
structure GateRequest where
  requestId : String
  rejected : Option (Option String)

/-- What is asked of the model, the writer, the explorer, the test runner and the dispatcher. -/
inductive Cmd where
  | generate (prompt : String)
  | writeArtifact (sessionId taskId : String) (content : Content) (artifactType : ArtifactType)
      (filename : String)
  | shouldUseRlm (query : String) (failCount : ℕ) (agentType : String)
  | explore (query : String) (contextHints : List String) (taskId : String)
  | runTests (testPath : String) (suiteId : Json)
  | requestGate (taskId sessionId gitSha : String) (items : List Evidence) (summary : String)

/-- What an exploration comes to. -/
structure Exploration where
  formattedOutput : String
  error : Option String

/-- The answers. -/
abbrev Reply : Cmd → Type
  | .generate _ => String
  | .writeArtifact .. => String
  | .shouldUseRlm .. => Bool
  | .explore .. => Exploration
  | .runTests .. => TestRunResult
  | .requestGate .. => GateRequest

/-- The commands and their answers. -/
abbrev interface : Interface := ⟨Cmd, Reply⟩

/-- A coroutine of an agent. -/
abbrev Async (α : Type) := Program interface Error α

/-- Issue a command. -/
def send (c : Cmd) : Async (Reply c) := command (I := interface) c

/-- The codebase around a task. -/
structure ContextPack where
  files : List (String × String)
  interfaces : List String

/-- The context of an execution, with its pack. -/
structure Context extends Agents.AgentContext where
  contextPack : Option ContextPack := none

/-- The prompts, each with the format of its answer. -/
structure Prompts where
  testGeneration (taskDescription : String) (acceptanceCriteria : List String)
    (context : Option String) : String
  implementation (taskDescription testCode : String) (contextPack : Option String) : String
  retryImplementation (taskDescription testCode previousImplementation : String)
    (testErrors : List String) (failCount : ℕ) (debugHints : List String) : String
  qualityReview (implementation testSuite testResults : String) : String
  failureAnalysis (testOutput implementation : String) : String
  rootCause (failureAnalysis : String) (codeContext : Option String) (testContext : String) : String
  /-- With the expectations that are read from the test code. -/
  fixSuggestion (rootCause code testCode : String) : String
  codingQuery (taskDescription testCode errors : String) : String
  debuggingQuery (testOutput implementation : String) : String

/-- How the agents are set up. -/
structure Setting where
  enableRlm : Bool
  maxCodingRetries : ℕ
  rlmIntegration : Bool
  hitlDispatcher : Bool
  prompts : Prompts
  /-- `str` of a value. -/
  str : Json → String
  /-- `json.loads`. -/
  loads : String → Option Json
  isIsoFormat : Json → Bool
  lower : String → String
  upper : String → String
  /-- The date of what is made. -/
  today : String
  /-- `hashlib.sha256`. -/
  digest : String → String
  /-- The patterns of `run_security_scan`. -/
  runSecurityScan : String → List ReviewIssue

/-! ## The JSON in an answer -/

/-- A text up to the first occurrence of a part, and after it. -/
def splitFirst (part : List Char) : List Char → Option (List Char × List Char)
  | [] => none
  | c :: cs =>
    if part.isPrefixOf (c :: cs) then some ([], (c :: cs).drop part.length)
    else (splitFirst part cs).map fun (before, after) => (c :: before, after)

/-- What is between a fence and the next one. -/
def fenced (opening : String) (content : String) : Option String := do
  let (_, rest) ← splitFirst opening.toList content.toList
  let (inside, _) ← splitFirst "```".toList rest
  some (Rlm.strip (String.ofList inside))

/-- From the first opening brace to the last closing one. -/
def braces (content : String) : Option String :=
  let rest := content.toList.dropWhile (· ≠ '{')
  let body := (rest.reverse.dropWhile (· ≠ '}')).reverse
  if body.isEmpty then none else some (String.ofList body)

/-- `_parse_json_from_response`. -/
def parseJsonFromResponse (loads : String → Option Json) (content : String) : Option Json :=
  loads content <|> (fenced "```json" content).bind loads <|> (fenced "```" content).bind loads <|>
    (braces content).bind loads

/-! ## What the agents have in common -/

/-- A value in the metadata of a result. -/
inductive Value where
  | json (value : Json)
  | artifact (artifact : Artifact)

/-- A result without success. -/
def failure (errorMessage : String) (shouldRetry : Bool) : Agents.AgentResult Value where
  success := false
  errorMessage := some errorMessage
  shouldRetry := shouldRetry

/-- Whatever is raised becomes a failure. -/
def guarded (body : Async (Agents.AgentResult Value)) : Async (Agents.AgentResult Value) :=
  try body
  catch e => pure (failure e.str true)

/-- `_build_context_string`. -/
def Context.contextString (context : Context) : Option String :=
  match context.contextPack with
  | none => none
  | some pack =>
    if pack.files = [] then none else
      let parts := ((pack.files.take 5).filter fun f => f.1 ≠ "" ∧ f.2 ≠ "").map
          (fun f => "# File: " ++ f.1 ++ "\n" ++ f.2) ++
        (if pack.interfaces = [] then [] else
          ["# Relevant interfaces: " ++ ", ".intercalate pack.interfaces])
      if parts = [] then none else some ("\n\n".intercalate parts)

/-- A number with three digits at least. -/
def pad3 (n : ℕ) : String :=
  let digits := toString n
  String.ofList (List.replicate (3 - digits.length) '0') ++ digits

/-- The answer in a fence is found. -/
example : fenced "```json" "Here:\n```json\n{}\n```\nDone" = some "{}" ∧
    braces "so {a: {}} it is" = some "{a: {}}" ∧ pad3 7 = "007" := by decide

end DoxAsdlc.Development
