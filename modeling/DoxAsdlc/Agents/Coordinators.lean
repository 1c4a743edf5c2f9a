import DoxAsdlc.Agents.Workflow

/-!
# The coordinators of validation, deployment and design

`run_validation` runs the validation and the security agent and submits their reports to
HITL-5; `run_deployment` runs the release and the deployment agent, submits to HITL-6, and runs
the monitor agent.  A submission catches every exception and returns the id of the request or
nothing, and nothing is also what it returns without a dispatcher.

`run` runs the surveyor and the architect and submits the architecture to HITL-2; only what
follows the approval is to run the planner, whose plan goes to HITL-3.

## Main definitions

* `ValidationResult`, `DeploymentResult` — the results of the phases.
* `submitHitl5`, `submitHitl6` — the submissions.
* `runValidation`, `runDeployment` — the workflows.
* `DesignResult` — the result of the design.
* `runSurveyor`, `runArchitect`, `runPlanner` — the agents, with the documents that they wrote.
* `submitHitl2`, `submitHitl3` — the submissions.
* `runDesign` — the workflow.
-/

namespace DoxAsdlc.Agents

open Interaction Interaction.Program
open Rlm (Json Args)

/-- The result of the validation phase. -/
structure ValidationResult where
  success : Bool := false
  validationReport : Option ValidationReport := none
  securityReport : Option SecurityReport := none
  pendingHitl5 : Bool := false
  hitl5RequestId : Option String := none
  failedAt : Option String := none
  error : Option String := none

namespace ValidationResult

def failed (at_ error : String) : ValidationResult where
  failedAt := some at_
  error := some error

def pendingApproval (validationReport : ValidationReport) (securityReport : SecurityReport)
    (requestId : String) : ValidationResult where
  success := true
  validationReport := some validationReport
  securityReport := some securityReport
  pendingHitl5 := true
  hitl5RequestId := some requestId

def succeeded (validationReport : ValidationReport) (securityReport : SecurityReport) :
    ValidationResult where
  success := true
  validationReport := some validationReport
  securityReport := some securityReport

end ValidationResult

/-- The result of the deployment phase. -/
structure DeploymentResult where
  success : Bool := false
  releaseManifest : Option ReleaseManifest := none
  deploymentPlan : Option DeploymentPlan := none
  monitoringConfig : Option MonitoringConfig := none
  pendingHitl6 : Bool := false
  hitl6RequestId : Option String := none
  failedAt : Option String := none
  error : Option String := none

namespace DeploymentResult

def failed (at_ error : String) : DeploymentResult where
  failedAt := some at_
  error := some error

def pendingApproval (releaseManifest : ReleaseManifest) (deploymentPlan : DeploymentPlan)
    (requestId : String) : DeploymentResult where
  success := true
  releaseManifest := some releaseManifest
  deploymentPlan := some deploymentPlan
  pendingHitl6 := true
  hitl6RequestId := some requestId

def succeeded (releaseManifest : ReleaseManifest) (deploymentPlan : DeploymentPlan)
    (monitoringConfig : Option MonitoringConfig) : DeploymentResult where
  success := true
  releaseManifest := some releaseManifest
  deploymentPlan := some deploymentPlan
  monitoringConfig := monitoringConfig

end DeploymentResult

variable (setting : Setting)

/-! ## The documents of the agents -/

/-- The document under a key of the metadata: there is none where the key is missing, its value
is false, or reading it raises. -/
def extract {D : Type} (fromDict : Json → Except Error D) (key : String)
    (result : AgentResult Json) : Option D :=
  match result.get key with
  | none => none
  | some dict => if dict.truthy then (fromDict dict).toOption else none

/-- `_extract_validation_report`. -/
def extractValidationReport := extract setting.readers.validationReport "validation_report"

/-- `_extract_security_report`. -/
def extractSecurityReport := extract setting.readers.securityReport "security_report"

/-- `_extract_release_manifest`. -/
def extractReleaseManifest := extract setting.readers.releaseManifest "release_manifest"

/-- `_extract_deployment_plan`. -/
def extractDeploymentPlan := extract setting.readers.deploymentPlan "deployment_plan"

/-- `_extract_monitoring_config`. -/
def extractMonitoringConfig := extract setting.readers.monitoringConfig "monitoring_config"

/-! ## The evidence -/

/-- The text of a value. -/
def Setting.str (j : Json) : String := j.text setting.render

/-- How a check is shown. -/
def shownStatus (passed : Bool) : String := if passed then "PASSED" else "FAILED"

/-- `_create_hitl5_summary`. -/
def createHitl5Summary (v : ValidationReport) (s : SecurityReport) : String :=
  String.intercalate "\n" [
    "## Validation & Security Review",
    "",
    "**Feature:** " ++ setting.str v.featureId,
    "**Validation Status:** " ++ shownStatus v.passed,
    "**Security Status:** " ++ shownStatus s.passed,
    "",
    "### E2E Test Results",
    "- Passed: " ++ toString v.e2ePassed,
    "- Failed: " ++ toString v.e2eFailed,
    "- Coverage: " ++ v.coverage ++ "%",
    "",
    "### Security Findings",
    "- Total: " ++ toString s.findings.length,
    "- Blocking: " ++ toString (s.findings.countP Severity.isBlocking)]

/-- `_create_hitl6_summary`: the features must be texts to be joined, and the triggers must be
of a kind that has a beginning. -/
def createHitl6Summary (m : ReleaseManifest) (p : DeploymentPlan) : Except Error String := do
  let features ← if m.features.truthy then m.features.join ", " else .ok "N/A"
  let triggers ← p.rollbackTriggers.slice 5
  let triggers ← triggers.elements
  return String.intercalate "\n" ([
    "## Release & Deployment Review",
    "",
    "**Version:** " ++ setting.str m.version,
    "**Features:** " ++ features,
    "**Target Environment:** " ++ setting.str p.targetEnvironment,
    "**Strategy:** " ++ p.strategy.value,
    "",
    "### Deployment Steps",
    "- Total Steps: " ++ toString p.steps,
    "",
    "### Health Checks",
    "- Total Checks: " ++ toString p.healthChecks,
    "",
    "### Rollback Triggers"] ++ triggers.map ("- " ++ setting.str ·))

/-- The evidence item of an artifact: its type is one if the path contains a word, and the
other if not. -/
def evidenceItem (word itemType otherType path : String) : EvidenceItem where
  itemType := if contains word path then itemType else otherType
  path := path
  description := "Artifact: " ++ path
  contentHash := ""

/-- The evidence items of HITL-5. -/
def hitl5Item : String → EvidenceItem :=
  evidenceItem "validation" "integration_tests" "security_scan"

/-- The evidence items of HITL-6. -/
def hitl6Item : String → EvidenceItem :=
  evidenceItem "release" "release_notes" "deployment_plan"

/-- `EvidenceBundle.create`. -/
def createBundle (context : AgentContext) (gateType : GateType) (items : List EvidenceItem)
    (summary : String) : EvidenceBundle where
  bundleId := setting.bundleId
  taskId := context.taskId
  gateType := gateType
  gitSha := context.gitSha.getD ""
  items := items
  createdAt := setting.now
  summary := summary

/-- The request for a gate. -/
def gateArgs (context : AgentContext) (gateType : GateType) (bundle : EvidenceBundle) :
    Hitl.GateArgs where
  taskId := context.taskId
  sessionId := context.sessionId
  gateType := gateType
  evidenceBundle := bundle
  requestedBy := "validation_deployment_coordinator"

/-! ## The submissions -/

/-- Submit a bundle whose summary may not be there: the id of the request, or nothing where an
exception was raised. -/
def submitBundle (context : AgentContext) (gateType : GateType) (items : List EvidenceItem)
    (summary : Except Error String) : Async (Option String) := do
  if setting.hitlDispatcher then
    try
      let summary ← answer summary
      let bundle := createBundle setting context gateType items summary
      let request ← send (.requestGate (gateArgs context gateType bundle))
      pure (some request.requestId)
    catch _ => pure none
  else return none

/-- `_submit_hitl5`. -/
def submitHitl5 (context : AgentContext) (v : ValidationReport) (s : SecurityReport)
    (artifactPaths : List String) : Async (Option String) :=
  submitBundle setting context .hitl5Validation (artifactPaths.map hitl5Item)
    (.ok (createHitl5Summary setting v s))

/-- `_submit_hitl6`. -/
def submitHitl6 (context : AgentContext) (m : ReleaseManifest) (p : DeploymentPlan)
    (artifactPaths : List String) : Async (Option String) :=
  submitBundle setting context .hitl6Release (artifactPaths.map hitl6Item)
    (createHitl6Summary setting m p)

/-- `if request_id`: an id that is there and not empty. -/
def given (requestId : Option String) : Option String := requestId.filter (· ≠ "")

/-! ## The workflows -/

/-- `implementation.get("feature_id", context.task_id)`. -/
def featureId (context : AgentContext) (implementation : Args) : Json :=
  (Json.field? implementation "feature_id").getD (.str context.taskId)

/-- The end of `run_validation`, with both reports at hand. -/
def finishValidation (context : AgentContext) (v : ValidationReport) (s : SecurityReport)
    (artifactPaths : List String) (skipHitl : Bool) : Async ValidationResult := do
  if skipHitl = false ∧ setting.hitlDispatcher then
    match given (← submitHitl5 setting context v s artifactPaths) with
    | some requestId => return .pendingApproval v s requestId
    | none => return .succeeded v s
  else return .succeeded v s

/-- The body of `run_validation`. -/
def validationSteps (context : AgentContext) (implementation : Args)
    (acceptanceCriteria : List String) (skipHitl : Bool) : Async ValidationResult := do
  let feature := featureId context implementation
  let validation ← send (.execute context (.validation implementation acceptanceCriteria feature))
  if validation.success = false then
    return .failed "validation" (validation.errorOr "Validation failed")
  match (extractValidationReport setting validation).filter ValidationReport.passed with
  | none => return .failed "validation" "Validation checks failed"
  | some v =>
    let security ← send (.execute context (.security implementation feature))
    if security.success = false then
      return .failed "security" (security.errorOr "Security scan failed")
    match (extractSecurityReport setting security).filter SecurityReport.passed with
    | none => return .failed "security" "Security scan found blocking findings"
    | some s =>
      finishValidation setting context v s
        (validation.artifactPaths ++ security.artifactPaths) skipHitl

/-- `run_validation`. -/
def runValidation (context : AgentContext) (implementation : Args)
    (acceptanceCriteria : List String) (skipHitl : Bool) : Async ValidationResult := do
  try validationSteps setting context implementation acceptanceCriteria skipHitl
  catch e => pure (.failed "validation" e.str)

/-- Run the monitor agent and finish, also where it fails. -/
def finishDeployment (context : AgentContext) (m : ReleaseManifest) (p : DeploymentPlan) :
    Async DeploymentResult := do
  let monitor ← send (.execute context (.monitor p))
  let config := if monitor.success then extractMonitoringConfig setting monitor else none
  return .succeeded m p config

/-- `run_deployment` from HITL-6 on. -/
def gateDeployment (context : AgentContext) (m : ReleaseManifest) (p : DeploymentPlan)
    (artifactPaths : List String) (skipHitl : Bool) : Async DeploymentResult := do
  if skipHitl = false ∧ setting.hitlDispatcher then
    match given (← submitHitl6 setting context m p artifactPaths) with
    | some requestId => return .pendingApproval m p requestId
    | none => finishDeployment setting context m p
  else finishDeployment setting context m p

/-- The body of `run_deployment`. -/
def deploymentSteps (context : AgentContext) (v : ValidationReport) (s : SecurityReport)
    (targetEnvironment : String) (skipHitl : Bool) : Async DeploymentResult := do
  let release ← send (.execute context (.release v s))
  if release.success = false then
    return .failed "release" (release.errorOr "Release generation failed")
  match extractReleaseManifest setting release with
  | none => return .failed "release" "Failed to generate release manifest"
  | some m =>
    let deployment ← send (.execute context (.deployment m targetEnvironment))
    if deployment.success = false then
      return .failed "deployment" (deployment.errorOr "Deployment planning failed")
    match extractDeploymentPlan setting deployment with
    | none => return .failed "deployment" "Failed to generate deployment plan"
    | some p =>
      gateDeployment setting context m p
        (release.artifactPaths ++ deployment.artifactPaths) skipHitl

/-- `run_deployment`. -/
def runDeployment (context : AgentContext) (v : ValidationReport) (s : SecurityReport)
    (targetEnvironment : String) (skipHitl : Bool) : Async DeploymentResult := do
  try deploymentSteps setting context v s targetEnvironment skipHitl
  catch e => pure (.failed "deployment" e.str)

end DoxAsdlc.Agents

/-! ## The coordinator of the design -/

namespace DoxAsdlc.Agents

open Interaction Interaction.Program
open Rlm (Json)

/-- The result of the design; `status` is the one of its metadata. -/
structure DesignResult where
  success : Bool
  techSurvey : Option TechSurvey := none
  architecture : Option Architecture := none
  implementationPlan : Option ImplementationPlan := none
  errorMessage : Option String := none
  hitl2RequestId : Option String := none
  hitl3RequestId : Option String := none
  status : Option String := none

namespace DesignResult

def succeeded (techSurvey : TechSurvey) (architecture : Architecture)
    (implementationPlan : ImplementationPlan) (hitl2RequestId hitl3RequestId : Option String) :
    DesignResult where
  success := true
  techSurvey := some techSurvey
  architecture := some architecture
  implementationPlan := some implementationPlan
  hitl2RequestId := hitl2RequestId
  hitl3RequestId := hitl3RequestId

def failed (errorMessage : String) : DesignResult where
  success := false
  errorMessage := some errorMessage

def pendingHitl2 (requestId : String) : DesignResult where
  success := true
  hitl2RequestId := some requestId
  status := some "pending_hitl2"

def pendingHitl3 (techSurvey : TechSurvey) (architecture : Architecture) (requestId : String) :
    DesignResult where
  success := true
  techSurvey := some techSurvey
  architecture := some architecture
  hitl3RequestId := some requestId
  status := some "pending_hitl3"

end DesignResult

/-! ## The agents -/

/-- Run an agent, and load the document that it wrote first: nothing where the agent fails,
where it wrote nothing, and where loading raises. -/
def runAgent {D : Type} (context : AgentContext) (input : AgentInput) (load : String → Async D) :
    Async (Option D × String) := do
  let result ← send (.execute context input)
  if result.success = false then return (none, "")
  let artifactPath := result.artifactPaths.headD ""
  if artifactPath = "" then return (none, artifactPath)
  try
    let document ← load artifactPath
    pure (some document, artifactPath)
  catch _ => pure (none, artifactPath)

/-- `_run_surveyor`. -/
def runSurveyor (context : AgentContext) (prdContent prdReference : String) :
    Async (Option TechSurvey × String) :=
  runAgent context (.surveyor prdContent prdReference) fun path => send (.loadTechSurvey path)

/-- `_run_architect`. -/
def runArchitect (context : AgentContext) (survey : TechSurvey)
    (prdContent nfrRequirements : String) : Async (Option Architecture × String) :=
  runAgent context (.architect survey prdContent nfrRequirements) fun path =>
    send (.loadArchitecture path)

/-- `_run_planner`. -/
def runPlanner (context : AgentContext) (architecture : Architecture) (prdContent : String)
    (survey : TechSurvey) (acceptanceCriteria : String) :
    Async (Option ImplementationPlan × String) :=
  runAgent context (.planner architecture prdContent survey acceptanceCriteria) fun path =>
    send (.loadImplementationPlan path)

/-! ## The evidence -/

variable (setting : Setting)

/-- The summary of HITL-2: the considerations must be of a kind that has a beginning. -/
def hitl2Summary (survey : TechSurvey) (architecture : Architecture) : Except Error String := do
  let security ←
    if architecture.securityConsiderations.truthy then do
      let considerations ← architecture.securityConsiderations.slice 3
      let considerations ← considerations.elements
      .ok (["", "### Security Considerations"] ++ considerations.map ("- " ++ setting.str ·))
    else .ok []
  return String.intercalate "\n" ([
    "## Architecture Design Review",
    "",
    "**Architecture Style:** " ++ architecture.style,
    "**Components:** " ++ toString architecture.components,
    "**Data Flows:** " ++ toString architecture.dataFlows,
    "**Diagrams:** " ++ toString architecture.diagrams,
    "",
    "### Technology Choices"] ++
    (survey.technologies.take 5).map (fun t =>
      "- **" ++ setting.str t.category ++ ":** " ++ setting.str t.selected) ++
    security)

/-- `_create_hitl2_bundle`. -/
def createHitl2Bundle (survey : TechSurvey) (architecture : Architecture)
    (artifactPaths : List String) : Except Error DesignEvidence := do
  let summary ← hitl2Summary setting survey architecture
  return {
    gateType := "hitl-2"
    artifacts := artifactPaths
    summary := summary
    metadata := [("component_count", .int architecture.components),
      ("technology_count", .int survey.technologies.length),
      ("risk_count", .int survey.riskAssessment)] }

/-- `_create_hitl3_bundle`: the critical path must be texts to be joined, and the tasks of a
phase must be of a kind that has a length. -/
def createHitl3Bundle (plan : ImplementationPlan) (artifactPaths : List String) :
    Except Error DesignEvidence := do
  let beginning ← plan.criticalPath.slice 5
  let path ← beginning.join " -> "
  let length ← plan.criticalPath.len
  let phases ← plan.phases.mapM fun phase => do
    let tasks ← phase.taskIds.len
    .ok ("- **" ++ setting.str phase.name ++ ":** " ++ toString tasks ++ " tasks")
  return {
    gateType := "hitl-3"
    artifacts := artifactPaths
    summary := String.intercalate "\n" ([
      "## Implementation Plan Review",
      "",
      "**Total Tasks:** " ++ toString plan.tasks,
      "**Phases:** " ++ toString plan.phases.length,
      "**Estimated Effort:** " ++ setting.str plan.totalEstimatedEffort,
      "",
      "### Critical Path",
      path] ++
      (if plan.criticalPath.truthy then ["... (" ++ toString length ++ " tasks)"] else []) ++
      ["", "### Phases"] ++ phases)
    metadata := [("task_count", .int plan.tasks), ("phase_count", .int plan.phases.length),
      ("critical_path_length", .int length), ("total_effort", plan.totalEstimatedEffort)] }

/-! ## The submissions -/

/-- Submit evidence that may not have been made: the id of the request, or nothing where an
exception was raised. -/
def submitDesign (context : AgentContext) (gateType : String)
    (evidence : Except Error DesignEvidence) : Async (Option String) := do
  if setting.hitlDispatcher then
    try
      let evidence ← answer evidence
      let requestId ← send (.submit {
        gateType := gateType
        sessionId := context.sessionId
        taskId := context.taskId
        tenantId := context.tenantId
        evidence := evidence })
      pure (some requestId)
    catch _ => pure none
  else return none

/-- `_submit_hitl2`. -/
def submitHitl2 (context : AgentContext) (survey : TechSurvey) (architecture : Architecture)
    (artifactPaths : List String) : Async (Option String) :=
  submitDesign setting context "hitl-2"
    (createHitl2Bundle setting survey architecture artifactPaths)

/-- `_submit_hitl3`. -/
def submitHitl3 (context : AgentContext) (plan : ImplementationPlan)
    (artifactPaths : List String) : Async (Option String) :=
  submitDesign setting context "hitl-3" (createHitl3Bundle setting plan artifactPaths)

/-! ## The workflow -/

/-- The arguments of `run`. -/
structure DesignArgs where
  prdContent : String
  prdReference : String := ""
  nfrRequirements : String := ""
  acceptanceCriteria : String := ""

/-- `run` from the planner on. -/
def planDesign (context : AgentContext) (args : DesignArgs) (survey : TechSurvey)
    (architecture : Architecture) (hitl2RequestId : Option String) (skipHitl : Bool) :
    Async DesignResult := do
  let (plan, planArtifact) ←
    runPlanner context architecture args.prdContent survey args.acceptanceCriteria
  match plan with
  | none => return .failed "Planner Agent failed to produce implementation plan"
  | some plan =>
    if skipHitl = false ∧ setting.hitlDispatcher then
      let hitl3RequestId ← submitHitl3 setting context plan [planArtifact]
      match given hitl3RequestId with
      | some requestId => return .pendingHitl3 survey architecture requestId
      | none => return .succeeded survey architecture plan hitl2RequestId hitl3RequestId
    else return .succeeded survey architecture plan hitl2RequestId none

/-- `run` from HITL-2 on. -/
def gateDesign (context : AgentContext) (args : DesignArgs) (survey : TechSurvey)
    (architecture : Architecture) (artifactPaths : List String) (skipHitl : Bool) :
    Async DesignResult := do
  if skipHitl = false ∧ setting.hitlDispatcher then
    let hitl2RequestId ← submitHitl2 setting context survey architecture artifactPaths
    match given hitl2RequestId with
    | some requestId => return .pendingHitl2 requestId
    | none => planDesign setting context args survey architecture hitl2RequestId skipHitl
  else planDesign setting context args survey architecture none skipHitl

/-- The body of `run`. -/
def designSteps (context : AgentContext) (args : DesignArgs) (skipHitl : Bool) :
    Async DesignResult := do
  let prdReference :=
    if args.prdReference = "" then "PRD-" ++ context.taskId else args.prdReference
  let (survey, surveyArtifact) ← runSurveyor context args.prdContent prdReference
  match survey with
  | none => return .failed "Surveyor Agent failed to produce tech survey"
  | some survey =>
    let (architecture, archArtifact) ←
      runArchitect context survey args.prdContent args.nfrRequirements
    match architecture with
    | none => return .failed "Architect Agent failed to produce architecture"
    | some architecture =>
      gateDesign setting context args survey architecture [surveyArtifact, archArtifact]
        skipHitl

/-- `run`. -/
def runDesign (context : AgentContext) (args : DesignArgs) (skipHitl : Bool) :
    Async DesignResult := do
  try designSteps setting context args skipHitl
  catch e => pure (.failed e.str)

end DoxAsdlc.Agents
