import DoxAsdlc.Development.Models
import DoxAsdlc.Rlm.Agent
import DoxAsdlc.Text.Backtracking

/-!
# The test runner

`TestRunner` runs pytest and reads the results out of what it prints, by regular expressions.
They are matched as a backtracking engine matches them; what counts as a letter or a digit is
in the tables of Unicode, which are a parameter.

## Main definitions

* `CharClasses` — letters and digits.
* `testPattern` — the pattern of a result.
* `TestRunner.parseOutput` — what is read out of the output.
* `TestRunner.runTests` — the run.
-/

namespace DoxAsdlc.Development

open Backtracking Matcher
open Rlm (isSpace stripChars)

/-- The tables of Unicode: what `str.isalnum` holds of, and the value of a decimal digit. -/
structure CharClasses where
  alnum : Char → Bool
  decimal : Char → Option ℕ
  alnum_ascii : ∀ c : Char, c.toNat < 128 → alnum c = c.isAlphanum
  alnum_space : ∀ c : Char, isSpace c = true → alnum c = false

namespace CharClasses

variable (cls : CharClasses)

/-- `\w`. -/
def word (c : Char) : Bool := cls.alnum c || c == '_'

/-- `\d`. -/
def digit (c : Char) : Bool := (cls.decimal c).isSome

end CharClasses

/-! ## The patterns -/

section

variable (cls : CharClasses)

/-- What is found behind the path: the name of the test and its status. -/
def outcomePattern : Matcher Char (List Char × List Char) := do
  let _ ← literal "::".toList
  let testName ← plus cls.word
  let _ ← plus isSpace
  let status ← oneOf (["PASSED", "FAILED", "ERROR", "SKIPPED"].map fun s => literal s.toList)
  pure (testName, status)

/-- `test_pattern`.  The path is not used. -/
def testPattern : Matcher Char (List Char × List Char) := do
  let _ ← lineStart '\n'
  let _ ← lazyPlus (· ≠ '\n')
  outcomePattern cls

/-- The section of the failures. -/
def failuresSection : Matcher Char (List Char) := do
  let _ ← plus (· == '=')
  let _ ← literal " FAILURES ".toList
  let _ ← plus (· == '=')
  let content ← lazyPlus fun _ => true
  let _ ← oneOf [
    do
      let _ ← plus (· == '=')
      literal " short test summary".toList,
    do
      let _ ← plus (· == '=')
      let _ ← literal " ".toList
      let _ ← plus cls.digit
      let _ ← literal " ".toList
      oneOf [literal "failed".toList, literal "passed".toList]]
  pure content

/-- The heading of a failure. -/
def blockHeading : Matcher Char (List Char) := do
  let _ ← plus (· == '_')
  let _ ← literal " ".toList
  let testName ← plus cls.word
  let _ ← literal " ".toList
  let _ ← plus (· == '_')
  pure testName

/-- `test_block_pattern`. -/
def testBlockPattern : Matcher Char (List Char × List Char) := do
  let testName ← blockHeading cls
  let block ← lazyPlus fun _ => true
  let _ ← oneOf [ahead (do let _ ← literal "\n".toList; blockHeading cls), textEnd]
  pure (testName, block)

/-- A line of an error. -/
def errorLine : Matcher Char (List Char) := do
  let _ ← lineStart '\n'
  let _ ← literal "E".toList
  let _ ← plus isSpace
  let text ← plus (· ≠ '\n')
  let _ ← lineEnd '\n'
  pure text

/-- `summary_pattern`. -/
def summaryPattern : Matcher Char (List Char × List Char) := do
  let _ ← literal "FAILED".toList
  let _ ← plus isSpace
  let _ ← plus (!isSpace ·)
  let _ ← literal "::".toList
  let testName ← plus cls.word
  let _ ← plus isSpace
  let _ ← literal "-".toList
  let _ ← plus isSpace
  let errorMsg ← plus (· ≠ '\n')
  pure (testName, errorMsg)

/-- `total_pattern`. -/
def totalPattern : Matcher Char (List Char) := do
  let _ ← lineStart '\n'
  let _ ← literal "TOTAL".toList
  let _ ← plus isSpace
  let _ ← plus cls.digit
  let _ ← plus isSpace
  let _ ← plus cls.digit
  let _ ← plus isSpace
  let percentage ← plus cls.digit
  let _ ← literal "%".toList
  pure percentage

end

/-! ## Reading the output -/

/-- The begin of a text. -/
def start (text : List Char) : Cursor Char := ⟨none, text⟩

/-- `TestRunner`. -/
structure TestRunner where
  timeoutSeconds : ℤ := 300
  workingDirectory : String

/-- The arguments of `run_tests`. -/
structure TestRunner.Request where
  testPath : String
  withCoverage : Bool := false
  coverageSource : Option String := none
  extraArgs : List String := []
  suiteId : Option String := none

/-- What `subprocess.run` comes to. -/
inductive ProcessResult where
  | timeoutExpired
  | completed (returncode : ℤ) (stdout stderr : String)

namespace TestRunner

variable (cls : CharClasses)

/-- `_build_command`. -/
def buildCommand (request : Request) : List String :=
  ["pytest", "-v", request.testPath] ++
    (if request.withCoverage then
      "--cov" :: (request.coverageSource.map ("--cov=" ++ ·)).toList else []) ++
    request.extraArgs

/-- The message of a block: the lines of its errors, or else the begin of the block. -/
def blockMessage (block : List Char) : List Char :=
  match finditer errorLine (start block) with
  | [] => (stripChars block).take 500
  | errorLines => ['\n'].intercalate errorLines

/-- `_extract_failure_details`, the last entry of a name first. -/
def extractFailureDetails (stdout : List Char) : List (List Char × List Char) :=
  let failures := match search (failuresSection cls) (start stdout) with
    | none => []
    | some (content, _) => (finditer (testBlockPattern cls) (start content)).foldl
        (fun failures block => (block.1, blockMessage block.2) :: failures) []
  (finditer (summaryPattern cls) (start stdout)).foldl
    (fun failures summary =>
      if (failures.lookup summary.1).isNone then summary :: failures else failures) failures

/-- `_parse_test_results`. -/
def parseTestResults (stdout : List Char) : List TestResult :=
  let failureDetails := extractFailureDetails cls stdout
  (finditer (testPattern cls) (start stdout)).map fun (testName, status) =>
    let passed := status == "PASSED".toList
    { testId := String.ofList testName
      passed := passed
      error := if passed then none else (failureDetails.lookup testName).map String.ofList }

/-- The number that a text of digits spells. -/
def numberOf (digits : List Char) : ℕ :=
  digits.foldl (fun n c => 10 * n + (cls.decimal c).getD 0) 0

/-- `_parse_coverage`. -/
def parseCoverage (stdout : List Char) : ℚ :=
  match search (totalPattern cls) (start stdout) with
  | some (percentage, _) => numberOf cls percentage
  | none => 0

/-- `_parse_output`. -/
def parseOutput (stdout : String) (suiteId : String) : TestRunResult :=
  let testResults := parseTestResults cls stdout.toList
  { suiteId := suiteId
    results := testResults
    passed := testResults.countP (·.passed)
    failed := testResults.countP (!·.passed)
    coverage := parseCoverage cls stdout.toList }

/-- `run_tests`, with `subprocess.run` a parameter. -/
def runTests (runner : TestRunner)
    (run : (cmd : List String) → (timeout : ℤ) → (cwd : String) → ProcessResult)
    (request : Request) : Except Error TestRunResult :=
  match run (buildCommand request) runner.timeoutSeconds runner.workingDirectory with
  | .timeoutExpired => .error ⟨.exception,
      "Test execution timed out after " ++ toString runner.timeoutSeconds ++ " seconds", []⟩
  | .completed returncode stdout stderr =>
    if returncode ≥ 2 then .error ⟨.exception, "Pytest execution error: " ++
      ((given (some stderr)).or (given (some stdout))).getD "Unknown error", []⟩
    else .ok (parseOutput cls stdout ((given request.suiteId).getD request.testPath))

end TestRunner

end DoxAsdlc.Development
