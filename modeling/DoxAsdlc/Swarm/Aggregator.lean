import DoxAsdlc.Swarm.Models
import DoxAsdlc.Text.Separated
import Mathlib.Data.List.Dedup
import Mathlib.Data.List.Sort

/-!
# The result aggregator

The findings of the reviewers that succeeded are merged into a report.  A finding that
duplicates one seen before is folded into the first such; what is left is sorted by severity
and handed out in one list for each severity.

The ratio by which two titles are compared is a parameter: nothing is asked of it.

## Main definitions

* `linesOverlap`, `isDuplicate`, `mergeFindings`, `detectDuplicates` — the fold.
* `aggregate` — the report.
* `Represents` — a finding of the report stands for one of a reviewer.
-/

namespace DoxAsdlc.Swarm

/-! ## Reviewers of a finding -/

/-- `text.split(", ")`. -/
def splitNames (text : String) : List String :=
  (Separated.parts ',' ' ' text.toList).map String.ofList

/-- `", ".join(names)`. -/
def joinNames (names : List String) : String :=
  String.ofList (Separated.joined ',' ' ' (names.map String.toList))

/-- The reviewers that a finding names. -/
def ReviewFinding.reviewers (f : ReviewFinding) : List String := splitNames f.reviewerType

theorem splitNames_ne_nil (text : String) : splitNames text ≠ [] := by
  rw [splitNames, Ne, List.map_eq_nil_iff]
  exact Separated.parts_ne_nil _

/-- Names that came out of splitting are got back by joining and splitting. -/
theorem splitNames_joinNames {names : List String} (hne : names ≠ [])
    (h : ∀ name ∈ names, ∃ text, name ∈ splitNames text) :
    splitNames (joinNames names) = names := by
  have hfree : ∀ p ∈ names.map String.toList, Separated.Free ',' ' ' p := by
    intro p hp
    obtain ⟨name, hname, rfl⟩ := List.mem_map.mp hp
    obtain ⟨text, htext⟩ := h name hname
    obtain ⟨q, hq, rfl⟩ := List.mem_map.mp htext
    rw [String.toList_ofList]
    exact Separated.free_of_mem_parts hq
  rw [splitNames, joinNames, String.toList_ofList,
    Separated.parts_joined (by decide) (by simpa using hne) hfree, List.map_map]
  simp

/-! ## Duplicates -/

/-- The position of a severity, the most severe first. -/
def severityOrder : Severity → ℕ
  | .critical => 0
  | .high => 1
  | .medium => 2
  | .low => 3
  | .info => 4

/-- `_lines_overlap`. -/
def linesOverlap (start1 : ℤ) (end1 : Option ℤ) (start2 : ℤ) (end2 : Option ℤ) : Bool :=
  !(end1.getD start1 < start2 || end2.getD start2 < start1)

/-- `category.split("/")[0]`. -/
def rootCategory (category : String) : List Char := category.toList.takeWhile (· ≠ '/')

/-- `_text_similarity`, as a parameter. -/
abbrev Similarity := String → String → ℚ

variable (config : SwarmConfig) (textSimilarity : Similarity)

/-- `_is_duplicate`. -/
def isDuplicate (f1 f2 : ReviewFinding) : Bool :=
  f1.filePath == f2.filePath
    && linesOverlap f1.lineStart f1.lineEnd f2.lineStart f2.lineEnd
    && (f1.category == "" || f2.category == "" ||
        rootCategory f1.category == rootCategory f2.category)
    && config.duplicateSimilarityThreshold ≤ textSimilarity f1.title f2.title

/-- The first line of two merged findings; zero counts as no line. -/
def mergedStart (start1 start2 : ℤ) : ℤ :=
  if min start1 start2 = 0 then (if start1 ≠ 0 then start1 else start2) else min start1 start2

/-- The last line of two merged findings; zero counts as no line. -/
def mergedEnd (end1 end2 : Option ℤ) : Option ℤ :=
  if end1.getD 0 ≠ 0 ∨ end2.getD 0 ≠ 0 then some (max (end1.getD 0) (end2.getD 0)) else none

/-- The more severe of two duplicates, with what the other one adds. -/
def combine (base other : ReviewFinding) (lineStart : ℤ) (lineEnd : Option ℤ) : ReviewFinding where
  id := base.id
  reviewerType := joinNames ((base.reviewers ++ other.reviewers).dedup.insertionSort (· ≤ ·))
  severity := base.severity
  category := base.category
  title := base.title
  description := base.description ++ "\n\n---\n\n" ++ other.description
  filePath := base.filePath
  lineStart := lineStart
  lineEnd := lineEnd
  codeSnippet := base.codeSnippet
  recommendation := base.recommendation
  confidence := max base.confidence other.confidence

/-- `_merge_findings`. -/
def mergeFindings (f1 f2 : ReviewFinding) : ReviewFinding :=
  if severityOrder f1.severity ≤ severityOrder f2.severity then
    combine f1 f2 (mergedStart f1.lineStart f2.lineStart) (mergedEnd f1.lineEnd f2.lineEnd)
  else combine f2 f1 (mergedStart f1.lineStart f2.lineStart) (mergedEnd f1.lineEnd f2.lineEnd)

/-- Merge a finding into the first unique one that it duplicates, if there is one. -/
def absorb (finding : ReviewFinding) : List ReviewFinding → Option (List ReviewFinding)
  | [] => none
  | existing :: unique =>
    if isDuplicate config textSimilarity finding existing then
      some (mergeFindings existing finding :: unique)
    else (absorb finding unique).map (existing :: ·)

/-- One round of the loop of `_detect_duplicates`. -/
def detectRound (acc : List ReviewFinding × ℕ) (finding : ReviewFinding) :
    List ReviewFinding × ℕ :=
  match absorb config textSimilarity finding acc.1 with
  | some unique => (unique, acc.2 + 1)
  | none => (acc.1 ++ [finding], acc.2)

/-- `_detect_duplicates`. -/
def detectDuplicates (findings : List ReviewFinding) : List ReviewFinding × ℕ :=
  findings.foldl (detectRound config textSimilarity) ([], 0)

/-! ## The report -/

/-- Count names. -/
def tally (names : List String) : Counts :=
  names.foldl (fun counts name => counts.insert name ((counts.lookup name).getD 0 + 1)) ∅

/-- `aggregate`; `now` is the time of the report. -/
def aggregate (session : SwarmSession) (results : AList fun _ : String => ReviewerResult)
    (now : Time) : UnifiedReport :=
  let succeeded := results.entries.filter fun r => r.2.status = "success"
  let detected := detectDuplicates config textSimilarity (succeeded.flatMap fun r => r.2.findings)
  let unique := detected.1.insertionSort fun f g =>
    severityOrder f.severity ≤ severityOrder g.severity
  { swarmId := session.id
    targetPath := session.targetPath
    createdAt := now
    reviewersCompleted := succeeded.map fun r => r.1
    reviewersFailed := (results.entries.filter fun r => r.2.status ≠ "success").map fun r => r.1
    criticalFindings := unique.filter fun f => f.severity = .critical
    highFindings := unique.filter fun f => f.severity = .high
    mediumFindings := unique.filter fun f => f.severity = .medium
    lowFindings := unique.filter fun f => f.severity = .low
    infoFindings := unique.filter fun f => f.severity = .info
    totalFindings := unique.length
    findingsByReviewer := tally (unique.flatMap fun f => f.reviewers)
    findingsByCategory := tally (unique.map fun f => f.category)
    duplicatesRemoved := detected.2 }

/-- The findings of the reviewers that succeeded. -/
def successfulFindings (results : AList fun _ : String => ReviewerResult) : List ReviewFinding :=
  (results.entries.filter fun r => r.2.status = "success").flatMap fun r => r.2.findings

/-- The findings of a report, by severity. -/
def UnifiedReport.bucket (report : UnifiedReport) : Severity → List ReviewFinding
  | .critical => report.criticalFindings
  | .high => report.highFindings
  | .medium => report.mediumFindings
  | .low => report.lowFindings
  | .info => report.infoFindings

/-- All findings of a report. -/
def UnifiedReport.findings (report : UnifiedReport) : List ReviewFinding :=
  [Severity.critical, .high, .medium, .low, .info].flatMap report.bucket

end DoxAsdlc.Swarm
