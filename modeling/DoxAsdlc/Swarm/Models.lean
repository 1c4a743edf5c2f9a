import DoxAsdlc.Core.Exceptions
import Mathlib.Algebra.Order.Field.Rat
import Mathlib.Data.List.AList

/-!
# Models of the review swarm

Findings, the results of the reviewers that found them, and the report that they are merged
into.  A confidence is a number between zero and one; nothing but its order is used.

## Main definitions

* `SwarmConfig` — the settings.
* `ReviewFinding`, `ReviewerResult` — what reviewers return.
* `UnifiedReport` — the merged report.
* `SwarmSession` — a swarm, with its status.
-/

namespace DoxAsdlc.Swarm

/-- The settings of the swarm. -/
structure SwarmConfig where
  aggregateTimeoutSeconds : ℕ := 60
  aggregateTimeoutSeconds_pos : 0 < aggregateTimeoutSeconds := by decide
  maxConcurrentSwarms : ℕ := 5
  maxConcurrentSwarms_pos : 0 < maxConcurrentSwarms := by decide
  defaultReviewers : List String := ["security", "performance", "style"]
  keyPrefix : String := "swarm"
  duplicateSimilarityThreshold : ℚ := 4 / 5

theorem SwarmConfig.sixty_pos : 0 < 60 := by decide

theorem SwarmConfig.five_pos : 0 < 5 := by decide

/-- How severe a finding is. -/
inductive Severity where
  | critical | high | medium | low | info
  deriving DecidableEq, Repr

/-- The states of a swarm. -/
inductive SwarmStatus where
  | pending | inProgress | aggregating | complete | failed
  deriving DecidableEq, Repr

/-- A confidence score. -/
@[ext] structure Confidence where
  score : ℚ
  nonneg : 0 ≤ score
  le_one : score ≤ 1
  deriving DecidableEq

instance : LinearOrder Confidence :=
  LinearOrder.lift' Confidence.score fun _ _ h => Confidence.ext h

/-- A finding of a reviewer, or of several, whose names are then joined by commas. -/
structure ReviewFinding where
  id : String
  reviewerType : String
  severity : Severity
  category : String
  title : String
  description : String
  filePath : String
  lineStart : ℤ
  lineEnd : Option ℤ := none
  codeSnippet : Option String := none
  recommendation : String
  confidence : Confidence
  deriving DecidableEq

/-- What one reviewer returns. -/
structure ReviewerResult where
  reviewerType : String
  status : String
  findings : List ReviewFinding := []
  durationSeconds : ℚ
  filesReviewed : List String := []
  errorMessage : Option String := none
  deriving DecidableEq

/-- Counts by name. -/
abbrev Counts := AList fun _ : String => ℕ

/-- The merged report. -/
structure UnifiedReport where
  swarmId : String
  targetPath : String
  createdAt : Time
  reviewersCompleted : List String
  reviewersFailed : List String
  criticalFindings : List ReviewFinding
  highFindings : List ReviewFinding
  mediumFindings : List ReviewFinding
  lowFindings : List ReviewFinding
  infoFindings : List ReviewFinding
  totalFindings : ℕ
  findingsByReviewer : Counts
  findingsByCategory : Counts
  duplicatesRemoved : ℕ
  deriving DecidableEq

/-- A swarm. -/
structure SwarmSession where
  id : String
  targetPath : String
  reviewers : List String
  status : SwarmStatus
  createdAt : Time
  completedAt : Option Time := none
  unifiedReport : Option UnifiedReport := none

end DoxAsdlc.Swarm
