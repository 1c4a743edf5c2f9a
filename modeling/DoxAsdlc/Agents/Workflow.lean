import DoxAsdlc.Agents.Protocols
import DoxAsdlc.Hitl.Dispatcher

/-!
# What the coordinators of the workflows do

A coordinator runs agents one after the other, reads the documents that they made, and submits
its evidence to the dispatcher of gate requests.  Each of these is a command here, with an
answer that is not in the coordinator's hands: the agents ask a language model, and the
dispatcher may accept, refuse or raise.

A document has the fields here that a coordinator looks at.  It is read from a dictionary that
comes from elsewhere, so that `Readers` is a parameter: reading raises, or comes to a document.

## Main definitions

* `ValidationReport`, …, `ImplementationPlan` — the documents.
* `AgentInput`, `Submission`, `Cmd` — the commands, and `interface`.
-/

namespace DoxAsdlc.Agents

open Interaction
open Rlm (Json Args)

/-! ## The documents -/

/-- The severity of a finding. -/
inductive Severity where
  | critical | high | medium | low | info
  deriving DecidableEq, Repr

/-- Critical and high ones block a deployment. -/
def Severity.isBlocking : Severity → Bool
  | .critical | .high => true
  | _ => false

/-- The report of the validation agent; the coverage is as it is shown, to one decimal. -/
structure ValidationReport where
  featureId : Json
  passed : Bool
  e2ePassed : ℤ
  e2eFailed : ℤ
  coverage : String

/-- The report of the security agent, with the severities of its findings. -/
structure SecurityReport where
  passed : Bool
  findings : List Severity

/-- The manifest of a release. -/
structure ReleaseManifest where
  version : Json
  features : Json

inductive DeploymentStrategy where
  | rolling | blueGreen | canary
  deriving DecidableEq, Repr

/-- The text that stands for a strategy. -/
def DeploymentStrategy.value : DeploymentStrategy → String
  | .rolling => "rolling"
  | .blueGreen => "blue-green"
  | .canary => "canary"

/-- The plan of a deployment; of its steps and health checks the numbers. -/
structure DeploymentPlan where
  targetEnvironment : Json
  strategy : DeploymentStrategy
  steps : ℕ
  healthChecks : ℕ
  rollbackTriggers : Json

/-- The configuration of the monitoring, which no coordinator looks into. -/
abbrev MonitoringConfig := Json

structure TechnologyChoice where
  category : Json
  selected : Json

/-- The survey of technologies, with the number of its risks. -/
structure TechSurvey where
  prdReference : Json
  technologies : List TechnologyChoice
  riskAssessment : ℕ

/-- The architecture; of its components, data flows and diagrams the numbers. -/
structure Architecture where
  style : String
  components : ℕ
  dataFlows : ℕ
  diagrams : ℕ
  securityConsiderations : Json
  techSurveyReference : Json

structure Phase where
  name : Json
  taskIds : Json

/-- The plan of the implementation; of its tasks the number. -/
structure ImplementationPlan where
  tasks : ℕ
  phases : List Phase
  criticalPath : Json
  totalEstimatedEffort : Json

/-- `from_dict` of the documents that agents hand over in their metadata. -/
structure Readers where
  validationReport : Json → Except Error ValidationReport
  securityReport : Json → Except Error SecurityReport
  releaseManifest : Json → Except Error ReleaseManifest
  deploymentPlan : Json → Except Error DeploymentPlan
  monitoringConfig : Json → Except Error MonitoringConfig

/-! ## The commands -/

/-- An agent, and the event metadata that it is run with. -/
inductive AgentInput where
  | validation (implementation : Args) (acceptanceCriteria : List String) (featureId : Json)
  | security (implementation : Args) (featureId : Json)
  | release (validationReport : ValidationReport) (securityReport : SecurityReport)
  | deployment (releaseManifest : ReleaseManifest) (targetEnvironment : String)
  | monitor (deploymentPlan : DeploymentPlan)
  | surveyor (prdContent prdReference : String)
  | architect (techSurvey : TechSurvey) (prdContent nfrRequirements : String)
  | planner (architecture : Architecture) (prdContent : String) (techSurvey : TechSurvey)
      (acceptanceCriteria : String)

/-- The evidence of the design gates. -/
structure DesignEvidence where
  gateType : String
  artifacts : List String
  summary : String
  metadata : List (String × Json)

/-- The arguments of `submit`. -/
structure Submission where
  gateType : String
  sessionId : String
  taskId : String
  tenantId : String
  evidence : DesignEvidence

/-- What a coordinator does: run an agent, load a document, submit evidence. -/
inductive Cmd where
  | execute (context : AgentContext) (input : AgentInput)
  | loadTechSurvey (path : String)
  | loadArchitecture (path : String)
  | loadImplementationPlan (path : String)
  | requestGate (args : Hitl.GateArgs)
  | submit (args : Submission)

/-- The answers; `submit` returns the id of the request. -/
abbrev Reply : Cmd → Type
  | .execute .. => AgentResult Json
  | .loadTechSurvey _ => TechSurvey
  | .loadArchitecture _ => Architecture
  | .loadImplementationPlan _ => ImplementationPlan
  | .requestGate _ => Hitl.GateRequest
  | .submit _ => String

abbrev interface : Interface := ⟨Cmd, Reply⟩

/-- A coroutine of a coordinator. -/
abbrev Async (α : Type) := Program interface Error α

/-- Issue one command. -/
abbrev send (c : Cmd) : Async (Reply c) := Program.command (I := interface) c

/-- What a coordinator is configured with: is there a dispatcher, and the values that it draws
when it makes a bundle of evidence. -/
structure Setting where
  readers : Readers
  /-- `str` of a value that is no text. -/
  render : Json → String
  hitlDispatcher : Bool
  bundleId : String
  now : Time

end DoxAsdlc.Agents
