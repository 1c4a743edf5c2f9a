import DoxAsdlc.Agents.JsonExtraction
import DoxAsdlc.Development.SecurityScan
import DoxAsdlc.Structures.OrderedDict
import DoxAsdlc.Text.Joined
import DoxAsdlc.Validation.SecretPatterns

/-!
# The security agent

The agent looks for patterns in the lines of an implementation, and adds what a model finds.  The
answer of the model is any text: what cannot be read leaves the pattern findings alone, and what can
be read is used as it is, so that values of another shape make the scan fail, when findings are
merged, when the report is dumped, or when it is formatted and written.

The matching of the patterns other than those of secrets is a parameter.  The prompt is left out,
and the disk takes what can be encoded.  A report is dumped as its tree, and its document is a list
of lines, whose parts are texts and values.

## Main definitions

* `runSecurityScans` — the pattern findings.
* `mergeFindings` — those of the model behind them.
* `execute` — the scan.
* `Trustworthy` — what is asked of it.
* `Acceptable` — the answers that it can use.

## Main results

* `exists_report_iff` — the scan does not fail with these answers.
* `trustworthy_iff` — when it is trustworthy.
-/

namespace DoxAsdlc.Validation

open Development (pad3)
open Development.SecurityScan (numberedLines)
open JsonText (Value FloatValue field? toFloat)
open Swarm.ResponseParser (truthy)

/-! ## Findings -/

inductive Severity where
  | critical | high | medium | low | info
  deriving DecidableEq, Repr

def Severity.value : Severity → String
  | .critical => "critical"
  | .high => "high"
  | .medium => "medium"
  | .low => "low"
  | .info => "info"

/-- `is_blocking`. -/
def Severity.isBlocking (severity : Severity) : Bool := severity = .critical || severity = .high

inductive SecurityCategory where
  | injection | xss | secrets | auth | crypto | configuration | other
  deriving DecidableEq, Repr

def SecurityCategory.value : SecurityCategory → String
  | .injection => "injection"
  | .xss => "xss"
  | .secrets => "secrets"
  | .auth => "auth"
  | .crypto => "crypto"
  | .configuration => "configuration"
  | .other => "other"

/-- `SecurityFinding`; a finding of the model has any values. -/
structure SecurityFinding where
  id : Value
  severity : Severity
  category : SecurityCategory
  location : Value
  description : Value
  remediation : Value

def SecurityFinding.toDict (f : SecurityFinding) : Value :=
  .obj [(some "id", f.id), (some "severity", .str (some f.severity.value)),
    (some "category", .str (some f.category.value)), (some "location", f.location),
    (some "description", f.description), (some "remediation", f.remediation)]

structure SecurityReport where
  featureId : String
  findings : List SecurityFinding
  passed : Bool
  scanCoverage : Value
  complianceStatus : Value

/-! ## The scans of patterns -/

/-- What a pattern has found. -/
structure Hit where
  lineNumber : ℕ
  description : String
  severity : Severity
  remediation : String

/-- The location of a line. -/
def lineName (n : ℕ) : Value := .str (some ("line " ++ toString n))

/-- The finding of a scan, by its position. -/
def finding (tag : String) (category : SecurityCategory) (i : ℕ) (hit : Hit) : SecurityFinding where
  id := .str (some (tag ++ "-" ++ pad3 (i + 1)))
  severity := hit.severity
  category := category
  location := lineName hit.lineNumber
  description := .str (some hit.description)
  remediation := .str (some hit.remediation)

/-- The findings of a scan, of what it finds in a line. -/
def scanFor (tag : String) (category : SecurityCategory) (hits : String × ℕ → List Hit)
    (code : String) : List SecurityFinding :=
  ((numberedLines code).flatMap hits).mapIdx (finding tag category)

/-- The secrets of a line. -/
def secretHits (line : String × ℕ) : List Hit :=
  if isSafeLine line.1 then []
  else (secretMatches line.1).map fun description =>
    ⟨line.2, description, .critical,
      "Use environment variables or a secrets manager instead of hardcoding credentials"⟩

/-- `_scan_for_secrets`. -/
def scanForSecrets : String → List SecurityFinding := scanFor "SEC" .secrets secretHits

/-- `INJECTION_PATTERNS`: the first twelve of the reviewer's. -/
def injectionPatterns : List (String × String) :=
  Development.SecurityScan.injectionPatterns.take 12

/-- `XSS_PATTERNS`: the others of the reviewer's. -/
def xssPatterns : List (String × String) := Development.SecurityScan.injectionPatterns.drop 12

/-- `OWASP_PATTERNS`: the reviewer's. -/
abbrev owaspPatterns : List (String × String) := Development.SecurityScan.owaspPatterns

/-- The severity and the remediation for a description. -/
def owaspAdvice (description : String) : Severity × String :=
  let lower := description.toLower
  if contains "pickle" lower || contains "eval" lower then
    (.critical, "Use JSON or other safe serialization formats; avoid eval/exec")
  else if contains "path" lower then
    (.high, "Validate and sanitize file paths; use os.path.join with basename")
  else if contains "yaml" lower then
    (.critical, "Use yaml.safe_load() instead of yaml.load()")
  else if contains "md5" lower || contains "sha1" lower then
    (.high, "Use SHA-256 or stronger hashing algorithms for security purposes")
  else (.critical, "Review and replace with a secure alternative")

section

-- `re.search` of a pattern in a line, with `re.IGNORECASE`.
variable (search : String → String → Bool)

/-- What the patterns of a table find in a line. -/
def searchHits (table : List (String × String)) (advice : String → Severity × String)
    (line : String × ℕ) : List Hit :=
  (table.filter fun pattern => search pattern.1 line.1).map fun (_, description) =>
    ⟨line.2, description, (advice description).1, (advice description).2⟩

/-- `_scan_for_injection_vulnerabilities`. -/
def scanForInjectionVulnerabilities : String → List SecurityFinding :=
  scanFor "INJ" .injection <| searchHits search injectionPatterns fun _ => (.critical,
    "Use parameterized queries for SQL, subprocess with list arguments for commands")

/-- `_scan_for_xss_vulnerabilities`. -/
def scanForXssVulnerabilities : String → List SecurityFinding :=
  scanFor "XSS" .xss <| searchHits search xssPatterns fun _ => (.critical,
    "Use proper HTML escaping or a templating engine with auto-escaping")

/-- `_scan_for_owasp_vulnerabilities`. -/
def scanForOwaspVulnerabilities : String → List SecurityFinding :=
  scanFor "OWASP" .other <| searchHits search owaspPatterns owaspAdvice

/-- `_run_security_scans`. -/
def runSecurityScans (code : String) : List SecurityFinding :=
  scanForSecrets code ++ scanForInjectionVulnerabilities search code ++
    scanForXssVulnerabilities search code ++ scanForOwaspVulnerabilities search code

end

/-- A file of an implementation. -/
structure FileInfo where
  path : Option String := none
  content : Option String := none

/-- `_extract_code_content`. -/
def extractCodeContent (files : List FileInfo) : String :=
  "\n\n".intercalate <| files.map fun file =>
    "# File: " ++ file.path.getD "unknown" ++ "\n" ++ file.content.getD ""

/-! ## Values of any shape -/

/-- `value.get(key, default)`. -/
def getOf (value : Value) (key : String) (default : Value) : Except Error Value :=
  match value with
  | .obj fields => .ok ((field? fields key).getD default)
  | _ => .error ⟨.exception, "object has no attribute 'get'", []⟩

/-- `value.lower()`; a text that is not made of characters stays one. -/
def lowered : Value → Except Error (Option String)
  | .str text => .ok (text.map String.toLower)
  | _ => .error ⟨.exception, "object has no attribute 'lower'", []⟩

/-- `for item in value`: a text has its characters, one at least if it is not made of characters,
and an object its keys. -/
def elements : Value → Except Error (List Value)
  | .arr items => .ok items
  | .obj fields => .ok ((fields.map Prod.fst).eraseDups.map .str)
  | .str (some s) => .ok (s.toList.map fun c => .str (some (String.singleton c)))
  | .str none => .ok [.str none]
  | _ => .error (Agents.typeError "object is not iterable")

/-- The number of `f"{value:.1f}"`. -/
def oneDecimal : Value → Except Error FloatValue
  | .bool b => .ok (.finite (if b then 1 else 0))
  | .int n =>
    match toFloat n with
    | .infinite _ => .error ⟨.exception, "int too large to convert to float", []⟩
    | x => .ok x
  | .float x => .ok x
  | .str _ => .error ⟨.valueError, "Unknown format code 'f' for object of type 'str'", []⟩
  | .null | .arr _ | .obj _ => .error (Agents.typeError "unsupported format string")

mutual

/-- How deep lists and objects are nested. -/
def nesting : Value → ℕ
  | .arr items => nestingItems items + 1
  | .obj fields => nestingFields fields + 1
  | _ => 0

def nestingItems : List Value → ℕ
  | [] => 0
  | v :: items => max (nesting v) (nestingItems items)

/-- Of the values of a key the last one stays. -/
def nestingFields : List (Option String × Value) → ℕ
  | [] => 0
  | (key, v) :: fields =>
    if key.isSome ∧ key ∈ fields.map Prod.fst then nestingFields fields
    else max (nesting v) (nestingFields fields)

end

/-- The limits of `json.loads`, and how deep a value is nested that `json.dumps` can write, which is
enough for a report of texts and numbers. -/
structure JsonLimits extends Agents.LoadsLimits where
  dumpsDepth : ℕ
  room : 3 ≤ dumpsDepth

/-! ## The findings of the model -/

/-- The severity that a text stands for. -/
def severityOf (text : Option String) : Severity :=
  (([Severity.critical, .high, .medium, .low, .info].find? fun severity =>
    some severity.value = text)).getD .medium

/-- The category that a text stands for. -/
def categoryOf (text : Option String) : SecurityCategory :=
  (([SecurityCategory.injection, .xss, .secrets, .auth, .crypto, .configuration].find?
    fun category => some category.value = text)).getD .other

/-- The finding of an item, which is so many among all. -/
def llmFinding (number : ℕ) (findingData : Value) : Except Error SecurityFinding := do
  let severity ← lowered (← getOf findingData "severity" (.str (some "medium")))
  let category ← lowered (← getOf findingData "category" (.str (some "other")))
  return {
    id := ← getOf findingData "id" (.str (some ("LLM-" ++ pad3 number)))
    severity := severityOf severity
    category := categoryOf category
    location := ← getOf findingData "location" (.str (some "unknown"))
    description := ← getOf findingData "description" (.str (some ""))
    remediation := ← getOf findingData "remediation" (.str (some "")) }

/-- A turn of the loop: an item that raises a `ValueError` or a `KeyError` is skipped. -/
def addFinding (allFindings : List SecurityFinding) (findingData : Value) :
    Except Error (List SecurityFinding) :=
  match llmFinding (allFindings.length + 1) findingData with
  | .ok f => .ok (allFindings ++ [f])
  | .error e => if e.cls = .valueError ∨ e.cls = .keyError then .ok allFindings else .error e

/-- `_merge_findings`. -/
def mergeFindings (patternFindings : List SecurityFinding) (llmAnalysis : Value) :
    Except Error (List SecurityFinding) := do
  (← elements (← getOf llmAnalysis "findings" (.arr []))).foldlM addFinding patternFindings

/-- The analysis where the answer has none. -/
def defaultAnalysis : Value :=
  .obj [(some "findings", .arr []), (some "compliance_status", .obj []),
    (some "scan_coverage", .float (.finite 80))]

/-- The analysis of what is read in an answer. -/
def analysisOf : Except JsonText.Fault (Option Value) → Except Error Value
  | .error .recursionError => .error ⟨.exception, "maximum recursion depth exceeded", []⟩
  | .error _ => .error ⟨.valueError, "Exceeds the limit for integer string conversion", []⟩
  | .ok none => .ok defaultAnalysis
  | .ok (some analysis) => .ok (if truthy analysis then analysis else defaultAnalysis)

/-- `_run_compliance_analysis`, of the answer of the client or of what it raises. -/
def runComplianceAnalysis (limits : Agents.LoadsLimits) (answer : Except Error String) :
    Except Error Value := do
  let content ← answer
  analysisOf (Agents.SecurityAgent.parseJsonFromResponse limits content.toList)

/-! ## Reports -/

def SecurityReport.toDict (report : SecurityReport) : Value :=
  .obj [(some "feature_id", .str (some report.featureId)),
    (some "findings", .arr (report.findings.map SecurityFinding.toDict)),
    (some "passed", .bool report.passed), (some "scan_coverage", report.scanCoverage),
    (some "compliance_status", report.complianceStatus)]

/-- `to_json`. -/
def SecurityReport.toJson (limits : JsonLimits) (report : SecurityReport) : Except Error Value :=
  if nesting report.toDict ≤ limits.dumpsDepth then .ok report.toDict
  else .error ⟨.exception, "maximum recursion depth exceeded", []⟩

/-- A part of a line: a text, `f"{value}"` or `f"{value:.1f}"`. -/
inductive Part where
  | text (s : String)
  | value (v : Value)
  | decimal (x : FloatValue)

/-- The part can be encoded: in a list or an object a text is escaped. -/
def Part.encodes : Part → Bool
  | .value (.str none) => false
  | _ => true

/-- The lines of a finding. -/
def findingLines (f : SecurityFinding) : List (List Part) := [
  [.text "### ", .value f.id, .text ": ", .value f.description],
  [],
  [.text "**Severity:** ", .text f.severity.value.toUpper],
  [.text "**Category:** ", .text f.category.value.capitalize],
  [.text "**Location:** ", .value f.location],
  [],
  [.text "**Remediation:** ", .value f.remediation],
  []]

/-- The lines of the compliance status. -/
def complianceLines (complianceStatus : Value) : Except Error (List (List Part)) :=
  if truthy complianceStatus then
    match complianceStatus with
    | .obj fields => .ok ([[.text "## Compliance Status"], []] ++
        ((OrderedDict.entriesOf fields).map fun (framework, compliant) =>
          [.text "- **", .value (.str framework), .text ":** ",
            .text (if truthy compliant then "PASS" else "FAIL")]) ++ [[]])
    | _ => .error ⟨.exception, "object has no attribute 'items'", []⟩
  else .ok []

/-- `to_markdown`, by its lines. -/
def SecurityReport.toMarkdown (report : SecurityReport) : Except Error (List (List Part)) := do
  let coverage ← oneDecimal report.scanCoverage
  let compliance ← complianceLines report.complianceStatus
  return [
    [.text "# Security Report"],
    [],
    [.text "**Feature:** ", .text report.featureId],
    [.text "**Status:** ", .text (if report.passed then "PASSED" else "FAILED")],
    [.text "**Scan Coverage:** ", .decimal coverage, .text "%"],
    [],
    [.text "## Findings"],
    []] ++
    (if report.findings = [] then [[.text "No security findings."], []]
      else report.findings.flatMap findingLines) ++ compliance

/-- All parts can be encoded. -/
def Encodes (lines : List (List Part)) : Prop := ∀ line ∈ lines, ∀ part ∈ line, part.encodes = true

instance : DecidablePred Encodes :=
  fun lines => inferInstanceAs (Decidable (∀ line ∈ lines, ∀ part ∈ line, part.encodes = true))

/-- Writing a document, which must be one that can be encoded. -/
def encoded (lines : List (List Part)) : Except Error Unit :=
  if Encodes lines then .ok ()
  else .error ⟨.valueError, "surrogates not allowed", []⟩

/-! ## The agent -/

/-- What the metadata of a result hold: the report stands for its dictionary. -/
inductive Metadata where
  | report (r : SecurityReport)
  | gate (hitlGate : Option String)

/-- The surroundings of a scan. -/
structure Env where
  limits : JsonLimits
  taskId : String
  /-- `feature_id` of the metadata of the event. -/
  featureId : Option String
  /-- `re.search` of a pattern in a line, with `re.IGNORECASE`. -/
  search : String → String → Bool
  /-- The path of an artifact with a name. -/
  artifactPath : String → String

variable (env : Env)

/-- `_write_artifacts`. -/
def writeArtifacts (report : SecurityReport) : Except Error (List String) := do
  let _ ← report.toJson env.limits
  let markdown ← report.toMarkdown
  encoded markdown
  return [env.artifactPath (env.taskId ++ "_security_report.json"),
    env.artifactPath (env.taskId ++ "_security_report.md")]

/-- The report on the files, with the findings of an analysis. -/
def makeReport (files : List FileInfo) (llmAnalysis : Value) : Except Error SecurityReport := do
  let patternFindings := runSecurityScans env.search (extractCodeContent files)
  let allFindings ← mergeFindings patternFindings llmAnalysis
  let complianceStatus ← getOf llmAnalysis "compliance_status" (.obj [])
  let scanCoverage ← getOf llmAnalysis "scan_coverage" (.float (.finite 85))
  return {
    featureId := env.featureId.getD env.taskId
    findings := allFindings
    passed := !allFindings.any fun f => f.severity.isBlocking
    scanCoverage := scanCoverage
    complianceStatus := complianceStatus }

/-- What `execute` does where nothing is caught. -/
def examine (files : List FileInfo) (answer : Except Error String) :
    Except Error (SecurityReport × List String) := do
  let llmAnalysis ← runComplianceAnalysis env.limits.toLoadsLimits answer
  let report ← makeReport env files llmAnalysis
  let artifactPaths ← writeArtifacts env report
  return (report, artifactPaths)

/-- `execute`, of the files of the implementation if there is one, and of the answer of the
client. -/
def execute (implementation : Option (List FileInfo)) (answer : Except Error String) :
    Agents.AgentResult Metadata :=
  match implementation with
  | none => {
      success := false
      errorMessage := some "No implementation provided in event_metadata" }
  | some files =>
    match examine env files answer with
    | .ok (report, artifactPaths) => {
        success := report.passed
        artifactPaths := artifactPaths
        metadata := [("security_report", .report report),
          ("hitl_gate", .gate (if report.passed then some "HITL-5" else none))] }
    | .error e => {
        success := false
        errorMessage := some e.str
        shouldRetry := true }

/-! ## What is asked of a scan -/

/-- The scan of an implementation does not fail, reports every line with a secret in its code, keeps
the pattern findings, and passes where nothing blocks. -/
structure Trustworthy (files : List FileInfo) (result : Agents.AgentResult Metadata) : Prop where
  report : ∃ report, result.get "security_report" = some (.report report)
  secrets : ∀ report, result.get "security_report" = some (.report report) →
    ∀ line ∈ numberedLines (extractCodeContent files), SecretInCode line.1 →
      ∃ f ∈ report.findings, f.severity = .critical ∧ f.location = lineName line.2
  kept : ∀ report, result.get "security_report" = some (.report report) →
    runSecurityScans env.search (extractCodeContent files) <+: report.findings
  passed : ∀ report, result.get "security_report" = some (.report report) →
    (report.passed = true ↔
      ∀ f ∈ report.findings, f.severity ≠ .critical ∧ f.severity ≠ .high)

/-! ## What the patterns name -/

/-- A critical finding has the line as its location. -/
def Names (findings : List SecurityFinding) (n : ℕ) : Prop :=
  ∃ f ∈ findings, f.severity = .critical ∧ f.location = lineName n

@[simp] theorem names_append {l k : List SecurityFinding} {n : ℕ} :
    Names (l ++ k) n ↔ Names l n ∨ Names k n := by
  simp only [Names, List.mem_append, or_and_right, exists_or]

theorem lineName_inj {m n : ℕ} : lineName m = lineName n ↔ m = n := by
  rw [lineName, lineName, Value.str.injEq, Option.some.injEq, String.append_right_inj,
    ← Development.SecurityScan.pad3_inj]
  refine ⟨fun h => by rw [pad3, pad3, h], fun h => ?_⟩
  rw [Development.SecurityScan.pad3_inj.mp h]

/-- Lines have numbers of their own. -/
theorem eq_of_mem_numberedLines {code : String} {line line' : String × ℕ}
    (hline : line ∈ numberedLines code) (hline' : line' ∈ numberedLines code)
    (h : line.2 = line'.2) : line = line' := by
  rw [numberedLines, List.mem_zipIdx_iff_le_and_getElem?_sub] at hline hline'
  refine Prod.ext ?_ h
  have hsame := hline.2
  rw [h, hline'.2] at hsame
  exact (Option.some.inj hsame).symm

section

variable {tag code : String} {category : SecurityCategory} {hits : String × ℕ → List Hit}
  {line : String × ℕ}

/-- A scan names a line if it finds something critical there. -/
theorem names_scanFor (hnumber : ∀ line, ∀ hit ∈ hits line, hit.lineNumber = line.2)
    (hline : line ∈ numberedLines code) :
    Names (scanFor tag category hits code) line.2 ↔ ∃ hit ∈ hits line, hit.severity = .critical := by
  constructor
  · intro ⟨f, hf, hcritical, hlocation⟩
    rw [scanFor, List.mem_mapIdx] at hf
    obtain ⟨i, hi, rfl⟩ := hf
    obtain ⟨line', hline', hhit⟩ := List.mem_flatMap.mp (List.getElem_mem hi)
    have hsame := (hnumber line' _ hhit).symm.trans (lineName_inj.mp hlocation)
    rw [eq_of_mem_numberedLines hline' hline hsame] at hhit
    exact ⟨_, hhit, hcritical⟩
  · intro ⟨hit, hhit, hcritical⟩
    obtain ⟨i, hi, heq⟩ := List.getElem_of_mem (List.mem_flatMap.mpr ⟨line, hline, hhit⟩)
    refine ⟨finding tag category i hit, ?_, hcritical, ?_⟩
    · rw [scanFor, List.mem_mapIdx]
      exact ⟨i, hi, by rw [heq]⟩
    · rw [finding, hnumber line hit hhit]

theorem names_secrets (hline : line ∈ numberedLines code) :
    Names (scanForSecrets code) line.2 ↔
      isSafeLine line.1 = false ∧ secretMatches line.1 ≠ [] := by
  rw [scanForSecrets, names_scanFor ?_ hline]
  · cases hsafe : isSafeLine line.1 <;> simp [secretHits, hsafe, List.eq_nil_iff_forall_not_mem]
  · intro line hit hhit
    rw [secretHits] at hhit
    split at hhit
    · cases hhit
    · obtain ⟨description, -, rfl⟩ := List.mem_map.mp hhit
      rfl

theorem names_searched {search : String → String → Bool} {table : List (String × String)}
    {advice : String → Severity × String} (hline : line ∈ numberedLines code) :
    Names (scanFor tag category (searchHits search table advice) code) line.2 ↔
      ∃ pattern ∈ table, search pattern.1 line.1 = true ∧ (advice pattern.2).1 = .critical := by
  rw [names_scanFor ?_ hline]
  · simp [searchHits, and_assoc]
  · intro line hit hhit
    obtain ⟨pattern, -, rfl⟩ := List.mem_map.mp hhit
    rfl

end

/-- A pattern other than those of secrets warns of a line, by a critical finding. -/
def Warned (search : String → String → Bool) (line : String) : Prop :=
  (∃ pattern ∈ injectionPatterns ++ xssPatterns, search pattern.1 line = true) ∨
    ∃ pattern ∈ owaspPatterns, search pattern.1 line = true ∧
      (owaspAdvice pattern.2).1 = .critical

/-- **The lines that the patterns name.** -/
theorem names_runSecurityScans {search : String → String → Bool} {code : String}
    {line : String × ℕ} (hline : line ∈ numberedLines code) :
    Names (runSecurityScans search code) line.2 ↔
      (isSafeLine line.1 = false ∧ secretMatches line.1 ≠ []) ∨ Warned search line.1 := by
  simp only [runSecurityScans, names_append, names_secrets hline, scanForInjectionVulnerabilities,
    scanForXssVulnerabilities, scanForOwaspVulnerabilities, names_searched hline, and_true, Warned,
    List.mem_append, or_and_right, exists_or, or_assoc]

/-! ## What the model adds -/

/-- `value.get(key, default)` of an object. -/
def valueOf (value : Value) (key : String) (default : Value) : Value :=
  match getOf value key default with
  | .ok v => v
  | .error _ => default

def IsObject (value : Value) : Prop := ∃ fields, value = .obj fields

def IsText (value : Value) : Prop := ∃ text, value = .str text

theorem getOf_eq_ok {value default v : Value} {key : String} :
    getOf value key default = .ok v ↔ IsObject value ∧ valueOf value key default = v := by
  cases value <;> simp [getOf, valueOf, IsObject]

theorem lowered_eq_ok {value : Value} {text : Option String} :
    lowered value = .ok text ↔ ∃ s, value = .str s ∧ s.map String.toLower = text := by
  cases value <;> simp [lowered]

/-- An item is a finding: an object whose severity and category are texts, if it has them. -/
structure IsFinding (item : Value) : Prop where
  object : IsObject item
  severity : IsText (valueOf item "severity" (.str (some "medium")))
  category : IsText (valueOf item "category" (.str (some "other")))

/-- The severity of an item. -/
def itemSeverity (item : Value) : Severity :=
  match valueOf item "severity" (.str (some "medium")) with
  | .str text => severityOf (text.map String.toLower)
  | _ => .medium

/-- A finding is that of an item. -/
structure FindingOf (number : ℕ) (item : Value) (f : SecurityFinding) : Prop where
  id : f.id = valueOf item "id" (.str (some ("LLM-" ++ pad3 number)))
  severity : f.severity = itemSeverity item
  location : f.location = valueOf item "location" (.str (some "unknown"))
  description : f.description = valueOf item "description" (.str (some ""))
  remediation : f.remediation = valueOf item "remediation" (.str (some ""))

theorem findingOf_llmFinding {number : ℕ} {item : Value} {f : SecurityFinding}
    (h : llmFinding number item = .ok f) : IsFinding item ∧ FindingOf number item f := by
  simp only [llmFinding, bind_eq_ok, getOf_eq_ok, lowered_eq_ok] at h
  obtain ⟨_, ⟨hobject, rfl⟩, _, ⟨s, hs, rfl⟩, _, ⟨-, rfl⟩, _, ⟨t, ht, rfl⟩, _, ⟨-, rfl⟩, _, ⟨-, rfl⟩,
    _, ⟨-, rfl⟩, _, ⟨-, rfl⟩, h⟩ := h
  obtain rfl := Except.ok.inj h
  exact ⟨⟨hobject, ⟨s, hs⟩, ⟨t, ht⟩⟩, ⟨rfl, by rw [itemSeverity, hs], rfl, rfl, rfl⟩⟩

theorem exists_llmFinding {item : Value} (h : IsFinding item) (number : ℕ) :
    ∃ f, llmFinding number item = .ok f := by
  obtain ⟨s, hs⟩ := h.severity
  obtain ⟨t, ht⟩ := h.category
  have hget : ∀ key default, getOf item key default = .ok (valueOf item key default) :=
    fun key default => getOf_eq_ok.mpr ⟨h.object, rfl⟩
  simp only [llmFinding, hget, hs, ht, ok_bind, lowered]
  exact ⟨_, rfl⟩

/-- What is raised is neither a `ValueError` nor a `KeyError`. -/
def RaisesOther {A : Type} (x : Except Error A) : Prop := ∀ e, x = .error e → e.cls = .exception

theorem RaisesOther.bind {A B : Type} {x : Except Error A} {f : A → Except Error B}
    (hx : RaisesOther x) (hf : ∀ a, RaisesOther (f a)) : RaisesOther (x >>= f) := by
  intro e h
  cases bind_eq_error.mp h with
  | inl hfirst => exact hx e hfirst
  | inr hsecond =>
    obtain ⟨a, -, hsecond⟩ := hsecond
    exact hf a e hsecond

theorem raisesOther_getOf (value default : Value) (key : String) :
    RaisesOther (getOf value key default) := by
  intro e h
  cases value <;> cases h <;> rfl

theorem raisesOther_lowered (value : Value) : RaisesOther (lowered value) := by
  intro e h
  cases value <;> cases h <;> rfl

theorem raisesOther_llmFinding (number : ℕ) (item : Value) :
    RaisesOther (llmFinding number item) :=
  (raisesOther_getOf _ _ _).bind fun _ => (raisesOther_lowered _).bind fun _ =>
    (raisesOther_getOf _ _ _).bind fun _ => (raisesOther_lowered _).bind fun _ =>
      (raisesOther_getOf _ _ _).bind fun _ => (raisesOther_getOf _ _ _).bind fun _ =>
        (raisesOther_getOf _ _ _).bind fun _ => (raisesOther_getOf _ _ _).bind fun _ => by
          intro e h
          cases h

/-- What an item raises is never skipped. -/
theorem addFinding_eq (allFindings : List SecurityFinding) (item : Value) :
    addFinding allFindings item
      = (llmFinding (allFindings.length + 1) item).map fun f => allFindings ++ [f] := by
  cases h : llmFinding (allFindings.length + 1) item with
  | ok f => simp [addFinding, h, Except.map]
  | error e =>
    have hcls := raisesOther_llmFinding _ _ e h
    simp [addFinding, h, hcls, Except.map]

/-- The findings of items are those that were there, and one for each item. -/
theorem foldlM_addFinding {items : List Value} {allFindings merged : List SecurityFinding}
    (h : items.foldlM addFinding allFindings = .ok merged) :
    ∃ added, merged = allFindings ++ added ∧ (∀ item ∈ items, IsFinding item) ∧
      List.Forall₂ (fun item f => ∃ number, FindingOf number item f) items added := by
  induction items generalizing allFindings with
  | nil =>
    obtain rfl := Except.ok.inj h
    exact ⟨[], by simp, by simp, .nil⟩
  | cons item items ih =>
    rw [List.foldlM_cons, addFinding_eq] at h
    obtain ⟨more, hmore, h⟩ := bind_eq_ok.mp h
    cases hfinding : llmFinding (allFindings.length + 1) item with
    | error e => simp [hfinding, Except.map] at hmore
    | ok f =>
      rw [hfinding] at hmore
      obtain rfl := Except.ok.inj hmore
      obtain ⟨hitem, hof⟩ := findingOf_llmFinding hfinding
      obtain ⟨added, rfl, hitems, hadded⟩ := ih h
      refine ⟨f :: added, by simp, ?_, .cons ⟨_, hof⟩ hadded⟩
      rw [List.forall_mem_cons]
      exact ⟨hitem, hitems⟩

theorem exists_foldlM_addFinding {items : List Value} (h : ∀ item ∈ items, IsFinding item)
    (allFindings : List SecurityFinding) :
    ∃ merged, items.foldlM addFinding allFindings = .ok merged := by
  induction items generalizing allFindings with
  | nil => exact ⟨allFindings, rfl⟩
  | cons item items ih =>
    rw [List.forall_mem_cons] at h
    obtain ⟨f, hf⟩ := exists_llmFinding h.1 (allFindings.length + 1)
    rw [List.foldlM_cons, addFinding_eq, hf]
    exact ih h.2 _

/-- The items of an analysis. -/
def itemsOf (analysis : Value) : List Value :=
  match elements (valueOf analysis "findings" (.arr [])) with
  | .ok items => items
  | .error _ => []

/-- The findings of an analysis can be merged. -/
structure Mergeable (analysis : Value) : Prop where
  object : IsObject analysis
  listed : ∃ items, elements (valueOf analysis "findings" (.arr [])) = .ok items
  items : ∀ item ∈ itemsOf analysis, IsFinding item

/-- **What is merged**: the pattern findings, and one finding for each item. -/
theorem mergeFindings_eq_ok {patternFindings merged : List SecurityFinding} {analysis : Value}
    (h : mergeFindings patternFindings analysis = .ok merged) :
    Mergeable analysis ∧ ∃ added, merged = patternFindings ++ added ∧
      List.Forall₂ (fun item f => ∃ number, FindingOf number item f) (itemsOf analysis) added := by
  simp only [mergeFindings, bind_eq_ok, getOf_eq_ok] at h
  obtain ⟨_, ⟨hobject, rfl⟩, items, hitems, h⟩ := h
  have heq : itemsOf analysis = items := by rw [itemsOf, hitems]
  obtain ⟨added, hmerged, hfindings, hadded⟩ := foldlM_addFinding h
  rw [heq]
  exact ⟨⟨hobject, ⟨items, hitems⟩, heq ▸ hfindings⟩, added, hmerged, hadded⟩

theorem exists_mergeFindings {analysis : Value} (h : Mergeable analysis)
    (patternFindings : List SecurityFinding) :
    ∃ merged, mergeFindings patternFindings analysis = .ok merged := by
  obtain ⟨items, hitems⟩ := h.listed
  have heq : itemsOf analysis = items := by rw [itemsOf, hitems]
  have hfindings := h.items
  rw [heq] at hfindings
  obtain ⟨merged, hmerged⟩ := exists_foldlM_addFinding hfindings patternFindings
  refine ⟨merged, ?_⟩
  simp only [mergeFindings, bind_eq_ok, getOf_eq_ok]
  exact ⟨_, ⟨h.object, rfl⟩, items, hitems, hmerged⟩

/-- What the findings of items name. -/
theorem names_added {items : List Value} {added : List SecurityFinding} {n : ℕ}
    (h : List.Forall₂ (fun item f => ∃ number, FindingOf number item f) items added) :
    Names added n ↔ ∃ item ∈ items, itemSeverity item = .critical ∧
      valueOf item "location" (.str (some "unknown")) = lineName n := by
  induction h with
  | nil => simp [Names]
  | cons hf _ ih =>
    obtain ⟨number, hf⟩ := hf
    simp only [Names, List.mem_cons, exists_eq_or_imp] at ih ⊢
    rw [ih, hf.severity, hf.location]

/-! ## What can be written -/

theorem nestingItems_le {items : List Value} {n : ℕ} :
    nestingItems items ≤ n ↔ ∀ v ∈ items, nesting v ≤ n := by
  induction items with
  | nil => simp [nestingItems]
  | cons v items ih => rw [nestingItems, max_le_iff, ih, List.forall_mem_cons]

/-- A value can be dumped in a finding, and written as it is. -/
def Fits (limits : JsonLimits) (v : Value) : Prop :=
  v ≠ .str none ∧ nesting v + 3 ≤ limits.dumpsDepth

/-- The values of a finding. -/
def SecurityFinding.values (f : SecurityFinding) : List Value :=
  [f.id, f.description, f.location, f.remediation]

theorem fits_text (limits : JsonLimits) (s : String) : Fits limits (.str (some s)) :=
  ⟨by simp, limits.room⟩

theorem nesting_finding {f : SecurityFinding} {n : ℕ} :
    nesting f.toDict ≤ n + 1 ↔
      ∀ v ∈ f.values, nesting v ≤ n := by
  simp [SecurityFinding.toDict, SecurityFinding.values, nesting, nestingFields]
  omega

theorem nesting_report {report : SecurityReport} {n : ℕ} :
    nesting report.toDict ≤ n + 3 ↔
      (∀ f ∈ report.findings, nesting f.toDict ≤ n + 1) ∧ nesting report.scanCoverage ≤ n + 2 ∧
        nesting report.complianceStatus ≤ n + 2 := by
  have hitems := @nestingItems_le (report.findings.map SecurityFinding.toDict) (n + 1)
  rw [List.forall_mem_map] at hitems
  rw [← hitems]
  simp [SecurityReport.toDict, nesting, nestingFields]

/-- A compliance status can be dumped and written: if it counts as true, it is an object whose keys
are made of characters. -/
structure ComplianceFits (limits : JsonLimits) (v : Value) : Prop where
  listed : truthy v = true → ∃ fields, v = .obj fields ∧ none ∉ fields.map Prod.fst
  depth : nesting v + 1 ≤ limits.dumpsDepth

@[simp] theorem encodes_append {l k : List (List Part)} :
    Encodes (l ++ k) ↔ Encodes l ∧ Encodes k := List.forall_mem_append

@[simp] theorem encodes_cons {line : List Part} {l : List (List Part)} :
    Encodes (line :: l) ↔ (∀ part ∈ line, part.encodes = true) ∧ Encodes l := List.forall_mem_cons

@[simp] theorem encodes_nil : Encodes [] := by simp [Encodes]

@[simp] theorem encodes_text (s : String) : (Part.text s).encodes = true := rfl

@[simp] theorem encodes_decimal (x : FloatValue) : (Part.decimal x).encodes = true := rfl

theorem encodes_value {v : Value} : (Part.value v).encodes = true ↔ v ≠ .str none := by
  cases v with
  | str text => cases text <;> simp [Part.encodes]
  | _ => simp [Part.encodes]

theorem encodes_findingLines {f : SecurityFinding} : Encodes (findingLines f) ↔
    ∀ v ∈ f.values, v ≠ .str none := by
  simp [findingLines, SecurityFinding.values, encodes_value, and_assoc]

theorem encodes_flatMap {findings : List SecurityFinding} :
    Encodes (findings.flatMap findingLines) ↔
      ∀ f ∈ findings, ∀ v ∈ f.values, v ≠ .str none := by
  induction findings with
  | nil => simp
  | cons f findings ih =>
    rw [List.flatMap_cons, encodes_append, encodes_findingLines, ih]
    simp only [List.mem_cons, forall_eq_or_imp]

theorem encodes_frameworks {entries : List (Option String × Value)} :
    Encodes (entries.map fun (framework, compliant) => [.text "- **", .value (.str framework),
      .text ":** ", .text (if truthy compliant then "PASS" else "FAIL")]) ↔
        none ∉ entries.map Prod.fst := by
  induction entries with
  | nil => simp
  | cons entry entries ih =>
    rw [List.map_cons, encodes_cons, ih, List.map_cons, List.mem_cons, not_or]
    simp [encodes_value, @eq_comm _ none]

/-- The lines of a compliance status are made and can be encoded. -/
theorem encodes_complianceLines {v : Value} :
    (∃ lines, complianceLines v = .ok lines ∧ Encodes lines) ↔
      (truthy v = true → ∃ fields, v = .obj fields ∧ none ∉ fields.map Prod.fst) := by
  by_cases htruthy : truthy v = true
  · simp only [complianceLines, htruthy, if_true, forall_const]
    cases v with
    | obj fields =>
      have hkeys := (@OrderedDict.mem_keys_entriesOf _ _ _ fields none).not
      have hlines := @encodes_frameworks (OrderedDict.entriesOf fields)
      rw [hkeys] at hlines
      simp [hlines]
    | _ => simp
  · simp [complianceLines, htruthy]

theorem exists_toMarkdown {report : SecurityReport} :
    (∃ lines, report.toMarkdown = .ok lines ∧ Encodes lines) ↔
      (∃ x, oneDecimal report.scanCoverage = .ok x) ∧
        (truthy report.complianceStatus = true →
          ∃ fields, report.complianceStatus = .obj fields ∧ none ∉ fields.map Prod.fst) ∧
        ∀ f ∈ report.findings, ∀ v ∈ f.values, v ≠ .str none := by
  have hfindings : Encodes (if report.findings = [] then [[.text "No security findings."], []]
      else report.findings.flatMap findingLines) ↔
        ∀ f ∈ report.findings, ∀ v ∈ f.values, v ≠ .str none := by
    split
    · next hnil => simp [hnil]
    · exact encodes_flatMap
  constructor
  · intro ⟨lines, h, hencodes⟩
    obtain ⟨x, hx, h⟩ := bind_eq_ok.mp h
    obtain ⟨compliance, hcompliance, h⟩ := bind_eq_ok.mp h
    obtain rfl := Except.ok.inj h
    rw [encodes_append, encodes_append] at hencodes
    exact ⟨⟨x, hx⟩, encodes_complianceLines.mp ⟨compliance, hcompliance, hencodes.2⟩,
      hfindings.mp hencodes.1.2⟩
  · intro ⟨⟨x, hx⟩, hcompliance, hvalues⟩
    obtain ⟨compliance, hlines, hencodes⟩ := encodes_complianceLines.mpr hcompliance
    refine ⟨_, by rw [SecurityReport.toMarkdown, hx, ok_bind, hlines, ok_bind]; rfl, ?_⟩
    rw [encodes_append, encodes_append]
    exact ⟨⟨by simp, hfindings.mpr hvalues⟩, hencodes⟩

/-- What can be formatted with one decimal is a number. -/
theorem nesting_of_oneDecimal {v : Value} {x : FloatValue} (h : oneDecimal v = .ok x) :
    nesting v = 0 := by
  cases v with
  | arr items => cases h
  | obj fields => cases h
  | _ => rfl

/-- **The reports that can be written.** -/
theorem exists_writeArtifacts {env : Env} {report : SecurityReport} :
    (∃ paths, writeArtifacts env report = .ok paths) ↔
      (∀ f ∈ report.findings, ∀ v ∈ f.values, Fits env.limits v) ∧
        (∃ x, oneDecimal report.scanCoverage = .ok x) ∧
        ComplianceFits env.limits report.complianceStatus := by
  obtain ⟨d, hd⟩ := Nat.exists_eq_add_of_le' env.limits.room
  have hdumps := @nesting_report report d
  simp only [nesting_finding] at hdumps
  constructor
  · intro ⟨paths, h⟩
    obtain ⟨json, hjson, h⟩ := bind_eq_ok.mp h
    obtain ⟨lines, hlines, h⟩ := bind_eq_ok.mp h
    obtain ⟨_, hencoded, -⟩ := bind_eq_ok.mp h
    have hencodes : Encodes lines := by
      by_contra hnot
      rw [encoded, if_neg hnot] at hencoded
      cases hencoded
    have hnesting : nesting report.toDict ≤ env.limits.dumpsDepth := by
      by_contra hnot
      rw [SecurityReport.toJson, if_neg hnot] at hjson
      cases hjson
    rw [hd, hdumps] at hnesting
    obtain ⟨hcoverage, hlisted, hvalues⟩ := exists_toMarkdown.mp ⟨lines, hlines, hencodes⟩
    refine ⟨fun f hf v hv => ⟨hvalues f hf v hv, ?_⟩, hcoverage, ⟨hlisted, ?_⟩⟩
    · have hdepth := hnesting.1 f hf v hv
      omega
    · omega
  · intro ⟨hfits, ⟨x, hx⟩, hcompliance⟩
    obtain ⟨lines, hlines, hencodes⟩ := exists_toMarkdown.mpr
      ⟨⟨x, hx⟩, hcompliance.listed, fun f hf v hv => (hfits f hf v hv).1⟩
    have hnesting : nesting report.toDict ≤ env.limits.dumpsDepth := by
      rw [hd, hdumps]
      have hdepth := hcompliance.depth
      have hcoverage := nesting_of_oneDecimal hx
      refine ⟨fun f hf v hv => ?_, by omega, by omega⟩
      have hvalue := (hfits f hf v hv).2
      omega
    exact ⟨_, by rw [writeArtifacts, SecurityReport.toJson, if_pos hnesting, ok_bind, hlines, ok_bind,
      encoded, if_pos hencodes, ok_bind]; rfl⟩

/-! ## The answers that can be used -/

/-- The texts of an item. -/
def keys : List String := ["id", "description", "location", "remediation"]

/-- An analysis can be used: its findings can be merged, their values written, its coverage is a
number, and its compliance status can be written. -/
structure Acceptable (limits : JsonLimits) (analysis : Value) : Prop extends Mergeable analysis where
  fits : ∀ item ∈ itemsOf analysis, ∀ key ∈ keys, Fits limits (valueOf item key (.str (some "")))
  coverage : ∃ x, oneDecimal (valueOf analysis "scan_coverage" (.float (.finite 85))) = .ok x
  compliance : ComplianceFits limits (valueOf analysis "compliance_status" (.obj []))

/-- A default that is made of characters can always be written. -/
theorem fits_valueOf {limits : JsonLimits} {item : Value} {key : String} (s s' : String) :
    Fits limits (valueOf item key (.str (some s))) ↔
      Fits limits (valueOf item key (.str (some s'))) := by
  have hdefault : Fits limits (.str (some s)) ↔ Fits limits (.str (some s')) :=
    iff_of_true (fits_text limits s) (fits_text limits s')
  cases item with
  | obj fields =>
    cases hfield : field? fields key <;> simp [valueOf, getOf, hfield, hdefault]
  | _ => exact hdefault

theorem fits_added {limits : JsonLimits} {items : List Value} {added : List SecurityFinding}
    (h : List.Forall₂ (fun item f => ∃ number, FindingOf number item f) items added) :
    (∀ f ∈ added, ∀ v ∈ f.values, Fits limits v) ↔
      ∀ item ∈ items, ∀ key ∈ keys, Fits limits (valueOf item key (.str (some ""))) := by
  induction h with
  | nil => simp
  | @cons item f _ _ hf _ ih =>
    obtain ⟨number, hf⟩ := hf
    have hitem : (∀ v ∈ f.values, Fits limits v) ↔
        ∀ key ∈ keys, Fits limits (valueOf item key (.str (some ""))) := by
      simp only [SecurityFinding.values, keys, List.forall_mem_cons, hf.id, hf.description,
        hf.location, hf.remediation, fits_valueOf _ "", List.not_mem_nil, false_implies,
        implies_true]
    simp only [List.mem_cons, forall_eq_or_imp, ih, hitem]

theorem fits_runSecurityScans {limits : JsonLimits} {search : String → String → Bool}
    {code : String} : ∀ f ∈ runSecurityScans search code, ∀ v ∈ f.values, Fits limits v := by
  have hscan : ∀ tag category hits, ∀ f ∈ scanFor tag category hits code, ∀ v ∈ f.values,
      Fits limits v := by
    intro tag category hits f hf
    rw [scanFor, List.mem_mapIdx] at hf
    obtain ⟨i, hi, rfl⟩ := hf
    simp [SecurityFinding.values, finding, lineName, fits_text]
  simp only [runSecurityScans, List.forall_mem_append]
  exact ⟨⟨⟨hscan _ _ _, hscan _ _ _⟩, hscan _ _ _⟩, hscan _ _ _⟩

/-! ## What a report says -/

section

variable {env : Env} {files : List FileInfo} {analysis : Value} {report : SecurityReport}

/-- A report is the one on the files, with the findings of an analysis. -/
structure ReportOf (env : Env) (files : List FileInfo) (analysis : Value)
    (report : SecurityReport) : Prop where
  mergeable : Mergeable analysis
  findings : ∃ added,
    report.findings = runSecurityScans env.search (extractCodeContent files) ++ added ∧
      List.Forall₂ (fun item f => ∃ number, FindingOf number item f) (itemsOf analysis) added
  passed : report.passed = !report.findings.any fun f => f.severity.isBlocking
  coverage : report.scanCoverage = valueOf analysis "scan_coverage" (.float (.finite 85))
  compliance : report.complianceStatus = valueOf analysis "compliance_status" (.obj [])

theorem reportOf_makeReport (h : makeReport env files analysis = .ok report) :
    ReportOf env files analysis report := by
  simp only [makeReport, bind_eq_ok, getOf_eq_ok] at h
  obtain ⟨merged, hmerged, _, ⟨-, rfl⟩, _, ⟨-, rfl⟩, h⟩ := h
  obtain rfl := Except.ok.inj h
  obtain ⟨hmergeable, hfindings⟩ := mergeFindings_eq_ok hmerged
  exact ⟨hmergeable, hfindings, rfl, rfl, rfl⟩

theorem exists_makeReport (h : Mergeable analysis) :
    ∃ report, makeReport env files analysis = .ok report := by
  obtain ⟨merged, hmerged⟩ := exists_mergeFindings h
    (runSecurityScans env.search (extractCodeContent files))
  simp only [makeReport, bind_eq_ok, getOf_eq_ok]
  exact ⟨_, merged, hmerged, _, ⟨h.object, rfl⟩, _, ⟨h.object, rfl⟩, rfl⟩

/-- A report can be written if its analysis can be used. -/
theorem ReportOf.written_iff (h : ReportOf env files analysis report) :
    (∃ paths, writeArtifacts env report = .ok paths) ↔ Acceptable env.limits analysis := by
  obtain ⟨added, hfindings, hadded⟩ := h.findings
  rw [exists_writeArtifacts, hfindings, List.forall_mem_append, fits_added hadded, h.coverage,
    h.compliance]
  constructor
  · intro ⟨hfits, hcoverage, hcompliance⟩
    exact { h.mergeable with
      fits := hfits.2
      coverage := hcoverage
      compliance := hcompliance }
  · intro hacceptable
    exact ⟨⟨fits_runSecurityScans, hacceptable.fits⟩, hacceptable.coverage, hacceptable.compliance⟩

theorem examine_eq_ok {answer : Except Error String} {paths : List String}
    (h : examine env files answer = .ok (report, paths)) :
    ∃ analysis, runComplianceAnalysis env.limits.toLoadsLimits answer = .ok analysis ∧
      Acceptable env.limits analysis ∧ ReportOf env files analysis report := by
  obtain ⟨analysis, hanalysis, h⟩ := bind_eq_ok.mp h
  obtain ⟨report', hreport, h⟩ := bind_eq_ok.mp h
  obtain ⟨paths', hpaths, h⟩ := bind_eq_ok.mp h
  obtain ⟨rfl, rfl⟩ := Prod.mk.inj (Except.ok.inj h)
  have hof := reportOf_makeReport hreport
  exact ⟨analysis, hanalysis, hof.written_iff.mp ⟨_, hpaths⟩, hof⟩

/-- **The scan does not fail** with the answers that can be used, and only with these. -/
theorem exists_report_iff {answer : Except Error String} :
    (∃ report paths, examine env files answer = .ok (report, paths)) ↔
      ∃ analysis, runComplianceAnalysis env.limits.toLoadsLimits answer = .ok analysis ∧
        Acceptable env.limits analysis := by
  constructor
  · intro ⟨report, paths, h⟩
    obtain ⟨analysis, hanalysis, hacceptable, -⟩ := examine_eq_ok h
    exact ⟨analysis, hanalysis, hacceptable⟩
  · intro ⟨analysis, hanalysis, hacceptable⟩
    obtain ⟨report, hreport⟩ := @exists_makeReport env files analysis hacceptable.toMergeable
    obtain ⟨paths, hpaths⟩ := (reportOf_makeReport hreport).written_iff.mpr hacceptable
    exact ⟨report, paths, by rw [examine, hanalysis, ok_bind, hreport, ok_bind, hpaths]; rfl⟩

/-- A critical finding other than of a secret has a line as its location. -/
def NamedElsewhere (search : String → String → Bool) (analysis : Value) (line : String × ℕ) : Prop :=
  Warned search line.1 ∨ ∃ item ∈ itemsOf analysis, itemSeverity item = .critical ∧
    valueOf item "location" (.str (some "unknown")) = lineName line.2

theorem ReportOf.names_iff (h : ReportOf env files analysis report) {line : String × ℕ}
    (hline : line ∈ numberedLines (extractCodeContent files)) :
    Names report.findings line.2 ↔
      (isSafeLine line.1 = false ∧ secretMatches line.1 ≠ []) ∨
        NamedElsewhere env.search analysis line := by
  obtain ⟨added, hfindings, hadded⟩ := h.findings
  rw [hfindings, names_append, names_runSecurityScans hline, names_added hadded, or_assoc,
    NamedElsewhere]

/-- **The lines with a secret that a report names**: those that are not safe, and those that are
named elsewhere. -/
theorem ReportOf.secrets_iff (h : ReportOf env files analysis report) {line : String × ℕ}
    (hline : line ∈ numberedLines (extractCodeContent files)) (hsecret : SecretInCode line.1) :
    Names report.findings line.2 ↔
      (isSafeLine line.1 = true → NamedElsewhere env.search analysis line) := by
  rw [h.names_iff hline]
  cases isSafeLine line.1 <;> simp [secretMatches_ne_nil hsecret]

/-- A report is passed where nothing blocks. -/
theorem ReportOf.passed_iff (h : ReportOf env files analysis report) :
    report.passed = true ↔ ∀ f ∈ report.findings, f.severity ≠ .critical ∧ f.severity ≠ .high := by
  simp [h.passed, Severity.isBlocking]

theorem get_execute {answer : Except Error String} :
    (execute env (some files) answer).get "security_report" = some (.report report) ↔
      ∃ paths, examine env files answer = .ok (report, paths) := by
  cases h : examine env files answer with
  | ok result =>
    obtain ⟨report', paths⟩ := result
    simp [execute, h, Agents.AgentResult.get, Prod.ext_iff]
  | error e => simp [execute, h, Agents.AgentResult.get]

end

/-- **When a scan is trustworthy**: the answer can be used, and every safe line with a secret in its
code is named elsewhere. -/
theorem trustworthy_iff (env : Env) (files : List FileInfo) (answer : String) :
    Trustworthy env files (execute env (some files) (.ok answer)) ↔
      ∃ analysis, runComplianceAnalysis env.limits.toLoadsLimits (.ok answer) = .ok analysis ∧
        Acceptable env.limits analysis ∧
        ∀ line ∈ numberedLines (extractCodeContent files), SecretInCode line.1 →
          isSafeLine line.1 = true → NamedElsewhere env.search analysis line := by
  constructor
  · intro h
    obtain ⟨report, hreport⟩ := h.report
    obtain ⟨paths, hexamine⟩ := get_execute.mp hreport
    obtain ⟨analysis, hanalysis, hacceptable, hof⟩ := examine_eq_ok hexamine
    refine ⟨analysis, hanalysis, hacceptable, fun line hline hsecret => ?_⟩
    exact (hof.secrets_iff hline hsecret).mp (h.secrets report hreport line hline hsecret)
  · intro ⟨analysis, hanalysis, hacceptable, hnamed⟩
    have hof : ∀ report, (execute env (some files) (.ok answer)).get "security_report"
        = some (.report report) → ReportOf env files analysis report := by
      intro report hreport
      obtain ⟨paths, hexamine⟩ := get_execute.mp hreport
      obtain ⟨analysis', hanalysis', -, hof⟩ := examine_eq_ok hexamine
      rw [hanalysis] at hanalysis'
      rwa [Except.ok.inj hanalysis']
    obtain ⟨report, paths, hexamine⟩ := exists_report_iff.mpr ⟨analysis, hanalysis, hacceptable⟩
    refine ⟨⟨report, get_execute.mpr ⟨paths, hexamine⟩⟩, ?_, ?_, ?_⟩
    · intro report hreport line hline hsecret
      exact ((hof report hreport).secrets_iff hline hsecret).mpr (hnamed line hline hsecret)
    · intro report hreport
      obtain ⟨added, hfindings, -⟩ := (hof report hreport).findings
      exact ⟨added, hfindings.symm⟩
    · intro report hreport
      exact (hof report hreport).passed_iff

/-- A password with a comment behind it, and an answer without JSON. -/
def exampleEnv : Env where
  limits := { Agents.JsonExtraction.exampleLimits with
    dumpsDepth := 900
    room := by decide }
  taskId := "T1"
  featureId := none
  search _ _ := false
  artifactPath name := "/workspace/artifacts/S1/" ++ name

def rotatedPassword : FileInfo := ⟨some "app.py", some "password = \"hunter22\"  # rotate me"⟩

theorem runComplianceAnalysis_empty :
    runComplianceAnalysis exampleEnv.limits.toLoadsLimits (.ok "") = .ok defaultAnalysis := by
  have hloads : JsonText.loads Agents.JsonExtraction.exampleLimits.maxDigits
      Agents.JsonExtraction.exampleLimits.depth [] = .error .decodeError := by
    simp [JsonText.loads, JsonText.skipWs, JsonText.value]
  have hparse : Agents.parseJsonFromResponse Agents.JsonExtraction.exampleLimits [] = .ok none := by
    simp only [Agents.parseJsonFromResponse, Agents.JsonExtraction.loadsOr, hloads]
    rfl
  have hlimits : exampleEnv.limits.toLoadsLimits = Agents.JsonExtraction.exampleLimits := rfl
  have htext : "".toList = [] := rfl
  rw [runComplianceAnalysis, ok_bind, hlimits, htext, Agents.SecurityAgent.parseJsonFromResponse,
    hparse, analysisOf]

theorem mem_numberedLines_rotated : ("password = \"hunter22\"  # rotate me", 2) ∈
    numberedLines (extractCodeContent [rotatedPassword]) := by
  have hcode : extractCodeContent [rotatedPassword] = (String.ofList ['\n']).intercalate
      ["# File: app.py", "password = \"hunter22\"  # rotate me"] := by decide
  have hsplit := @Joined.splitOn_intercalate
    ["# File: app.py", "password = \"hunter22\"  # rotate me"] '\n' (by simp) (by decide)
  rw [numberedLines, hcode, show "\n" = String.ofList ['\n'] from rfl, hsplit]
  exact List.mem_cons_of_mem _ List.mem_cons_self

theorem secretInCode_rotated : SecretInCode "password = \"hunter22\"  # rotate me" := by
  refine ⟨"password = \"hunter22\"".toList, ⟨[], "  ".toList, by decide⟩, ?_, by decide⟩
  refine ⟨_, List.mem_of_getElem? (show secretPatterns[3]? = some _ from rfl), ?_⟩
  rw [← Option.isSome_iff_ne_none]
  decide +kernel

/-- The password is not reported. -/
theorem not_trustworthy_rotated :
    ¬ Trustworthy exampleEnv [rotatedPassword]
      (execute exampleEnv (some [rotatedPassword]) (.ok "")) := by
  intro h
  obtain ⟨report, hreport⟩ := h.report
  obtain ⟨paths, hexamine⟩ := get_execute.mp hreport
  obtain ⟨analysis, hanalysis, -, hof⟩ := examine_eq_ok hexamine
  rw [runComplianceAnalysis_empty] at hanalysis
  obtain rfl := Except.ok.inj hanalysis
  have hnames := h.secrets report hreport _ mem_numberedLines_rotated secretInCode_rotated
  have hsafe : isSafeLine "password = \"hunter22\"  # rotate me" = true := by decide
  have hnamed := (hof.secrets_iff mem_numberedLines_rotated secretInCode_rotated).mp hnames hsafe
  cases hnamed with
  | inl hwarned => simp [Warned, exampleEnv] at hwarned
  | inr hitem =>
    obtain ⟨item, hitem, -⟩ := hitem
    cases hitem

end DoxAsdlc.Validation
