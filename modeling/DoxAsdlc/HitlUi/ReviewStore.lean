import Mathlib.Data.Finset.Union
import Mathlib.Data.Rat.Defs
import DoxAsdlc.Interaction.Run

/-!
# The store of the code review page

A review is started, its results are put into the store, and findings of the results are selected
for issues or ignored.  Ignoring a finding takes it out of the selection, and selecting all leaves
the ignored ones out; selecting one does not ask whether it is ignored, and new results leave the
selection as it is.

The entries of the terminal and the progress of the reviewers are kept only where a review begins
with them.

## Main definitions

* `ReviewState`, `initialState` — the store.
* `Action`, `ReviewState.next` — what is done to it.
* `Consistent` — no finding is selected and ignored, and the selected ones are in the results.
* `Harmless` — the condition on an action.

## Main results

* `consistent_iff_harmless` — a run is consistent throughout exactly when every action is harmless.
-/

namespace DoxAsdlc.HitlUi.Review

open Interaction

inductive ReviewDataSource
  | mock | real
  deriving DecidableEq

inductive ReviewPhase
  | idle | configuring | running | complete | error
  deriving DecidableEq

inductive ReviewScope
  | fullRepo | changedFiles | customPath
  deriving DecidableEq

inductive ReviewerType
  | security | performance | style
  deriving DecidableEq

inductive ReviewerStatus
  | pending | inProgress | complete | failed
  deriving DecidableEq

structure ReviewConfig where
  target : String
  scope : ReviewScope
  customPath : Option String
  /-- Which reviewers are enabled. -/
  reviewers : ReviewerType → Bool

structure ReviewerProgress where
  type : ReviewerType
  status : ReviewerStatus
  progress : ℚ
  filesReviewed : ℕ
  findingsCount : ℕ
  deriving DecidableEq

/-- A finding; of its fields only the id is read. -/
structure ReviewFinding where
  id : String
  deriving DecidableEq

/-- The findings of a report. -/
structure UnifiedReport where
  criticalFindings : List ReviewFinding
  highFindings : List ReviewFinding
  mediumFindings : List ReviewFinding
  lowFindings : List ReviewFinding
  infoFindings : List ReviewFinding

/-- The findings of all severities. -/
def UnifiedReport.allFindings (results : UnifiedReport) : List ReviewFinding :=
  results.criticalFindings ++ results.highFindings ++ results.mediumFindings ++
    results.lowFindings ++ results.infoFindings

structure ReviewState where
  currentSwarmId : Option String
  phase : ReviewPhase
  config : Option ReviewConfig
  reviewerProgress : List ReviewerProgress
  cliEntries : List String
  tokensUsed : ℚ
  estimatedCost : ℚ
  results : Option UnifiedReport
  selectedFindings : Finset String
  ignoredFindings : Finset String
  dataSource : ReviewDataSource

/-- `initialState`, with the data source that the browser keeps. -/
def initialState (dataSource : ReviewDataSource) : ReviewState where
  currentSwarmId := none
  phase := .idle
  config := none
  reviewerProgress := []
  cliEntries := []
  tokensUsed := 0
  estimatedCost := 0
  results := none
  selectedFindings := ∅
  ignoredFindings := ∅
  dataSource := dataSource

inductive Action
  | startReview (config : ReviewConfig)
  | setResults (results : Option UnifiedReport)
  | toggleFindingSelection (findingId : String)
  | selectAllFindings
  | clearSelection
  | ignoreFinding (findingId : String)
  | unignoreFinding (findingId : String)
  | reset

namespace ReviewState

variable (s : ReviewState)

def startReview (config : ReviewConfig) : ReviewState :=
  { s with
    config := some config
    phase := .running
    reviewerProgress :=
      ([.security, .performance, .style].filter config.reviewers).map fun type =>
        { type := type, status := .pending, progress := 0, filesReviewed := 0, findingsCount := 0 }
    cliEntries := []
    tokensUsed := 0
    estimatedCost := 0
    results := none
    selectedFindings := ∅
    ignoredFindings := ∅ }

def toggleFindingSelection (findingId : String) : ReviewState :=
  { s with
    selectedFindings :=
      if findingId ∈ s.selectedFindings then s.selectedFindings.erase findingId
      else insert findingId s.selectedFindings }

def selectAllFindings : ReviewState :=
  match s.results with
  | none => s
  | some results =>
    { s with
      selectedFindings :=
        ((results.allFindings.filter fun finding => finding.id ∉ s.ignoredFindings).map
          ReviewFinding.id).toFinset }

def ignoreFinding (findingId : String) : ReviewState :=
  { s with
    ignoredFindings := insert findingId s.ignoredFindings
    selectedFindings := s.selectedFindings.erase findingId }

/-- The store after an action. -/
def next : Action → ReviewState
  | .startReview config => s.startReview config
  | .setResults results => { s with results := results }
  | .toggleFindingSelection findingId => s.toggleFindingSelection findingId
  | .selectAllFindings => s.selectAllFindings
  | .clearSelection => { s with selectedFindings := ∅ }
  | .ignoreFinding findingId => s.ignoreFinding findingId
  | .unignoreFinding findingId =>
    { s with ignoredFindings := s.ignoredFindings.erase findingId }
  | .reset => initialState s.dataSource

end ReviewState

/-! ## What is selected -/

/-- The ids of the findings of results. -/
def findingIds (results : Option UnifiedReport) : Finset String :=
  (results.elim [] fun results => results.allFindings.map ReviewFinding.id).toFinset

/-- No finding is both selected and ignored, and those selected are in the results. -/
structure Consistent (s : ReviewState) : Prop where
  disjoint : Disjoint s.selectedFindings s.ignoredFindings
  subset : s.selectedFindings ⊆ findingIds s.results

/-- What is selected by itself is in the results and not ignored, and new results have what is
selected. -/
def Harmless (s : ReviewState) : Action → Prop
  | .setResults results => s.selectedFindings ⊆ findingIds results
  | .toggleFindingSelection findingId =>
    findingId ∈ s.selectedFindings ∨
      findingId ∈ findingIds s.results ∧ findingId ∉ s.ignoredFindings
  | _ => True

theorem consistent_of_empty {s : ReviewState} (h : s.selectedFindings = ∅) : Consistent s :=
  ⟨by simp [h], by simp [h]⟩

theorem consistent_toggleFindingSelection {s : ReviewState} (h : Consistent s)
    (findingId : String) :
    Consistent (s.toggleFindingSelection findingId) ↔
      Harmless s (.toggleFindingSelection findingId) := by
  by_cases hmem : findingId ∈ s.selectedFindings
  · refine iff_of_true ⟨?_, ?_⟩ (.inl hmem)
    · simpa [ReviewState.toggleFindingSelection, hmem] using
        h.disjoint.mono_left (Finset.erase_subset _ _)
    · simpa [ReviewState.toggleFindingSelection, hmem] using
        (Finset.erase_subset _ _).trans h.subset
  · constructor
    · intro hnext
      have hdisjoint := hnext.disjoint
      have hsubset := hnext.subset
      simp only [ReviewState.toggleFindingSelection, if_neg hmem, Finset.disjoint_insert_left,
        Finset.insert_subset_iff] at hdisjoint hsubset
      exact .inr ⟨hsubset.1, hdisjoint.1⟩
    · rintro (hin | ⟨hin, hignored⟩)
      · exact absurd hin hmem
      · constructor
        · simpa [ReviewState.toggleFindingSelection, hmem] using ⟨hignored, h.disjoint⟩
        · simpa [ReviewState.toggleFindingSelection, hmem, Finset.insert_subset_iff] using
            ⟨hin, h.subset⟩

theorem consistent_selectAllFindings {s : ReviewState} (h : Consistent s) :
    Consistent s.selectAllFindings := by
  cases hresults : s.results with
  | none => simpa [ReviewState.selectAllFindings, hresults] using h
  | some results =>
    constructor
    · rw [Finset.disjoint_left]
      intro id hid
      simp only [ReviewState.selectAllFindings, hresults, List.mem_toFinset, List.mem_map,
        List.mem_filter, decide_eq_true_eq] at hid
      obtain ⟨finding, ⟨-, hignored⟩, rfl⟩ := hid
      simpa [ReviewState.selectAllFindings, hresults] using hignored
    · intro id hid
      simp only [ReviewState.selectAllFindings, hresults, List.mem_toFinset, List.mem_map,
        List.mem_filter] at hid
      obtain ⟨finding, ⟨hfinding, -⟩, rfl⟩ := hid
      simp only [ReviewState.selectAllFindings, hresults, findingIds, Option.elim_some,
        List.mem_toFinset, List.mem_map]
      exact ⟨finding, hfinding, rfl⟩

theorem consistent_ignoreFinding {s : ReviewState} (h : Consistent s) (findingId : String) :
    Consistent (s.ignoreFinding findingId) := by
  constructor
  · simpa [ReviewState.ignoreFinding] using h.disjoint.mono_left (Finset.erase_subset _ _)
  · exact (Finset.erase_subset _ _).trans h.subset

/-- What one action does. -/
theorem consistent_next {s : ReviewState} (h : Consistent s) (a : Action) :
    Consistent (s.next a) ↔ Harmless s a := by
  cases a with
  | startReview config => exact iff_of_true (consistent_of_empty rfl) trivial
  | setResults results => exact ⟨fun hnext => hnext.subset, fun hsubset => ⟨h.disjoint, hsubset⟩⟩
  | toggleFindingSelection findingId => exact consistent_toggleFindingSelection h findingId
  | selectAllFindings => exact iff_of_true (consistent_selectAllFindings h) trivial
  | clearSelection => exact iff_of_true (consistent_of_empty rfl) trivial
  | ignoreFinding findingId => exact iff_of_true (consistent_ignoreFinding h findingId) trivial
  | unignoreFinding findingId =>
    exact iff_of_true ⟨h.disjoint.mono_right (Finset.erase_subset _ _), h.subset⟩ trivial
  | reset => exact iff_of_true (consistent_of_empty rfl) trivial

/-- **When a run is consistent throughout**: exactly when every action is harmless. -/
theorem consistent_iff_harmless (dataSource : ReviewDataSource) (actions : List Action) :
    Along ReviewState.next Consistent (fun _ _ _ => True) (initialState dataSource) actions ↔
      Each ReviewState.next Harmless (initialState dataSource) actions := by
  refine along_iff_each (I := fun _ => True) (fun _ _ _ _ _ => trivial) (fun s a _ h => ?_)
    trivial (consistent_of_empty rfl) actions
  rw [true_and]
  exact consistent_next h a

/-- A report with one finding. -/
def exampleReport : UnifiedReport := ⟨[], [⟨"finding-1"⟩], [], [], []⟩

/-- A finding is ignored and then selected. -/
theorem selects_ignored :
    let s := run ReviewState.next (initialState .mock)
      [.setResults (some exampleReport), .ignoreFinding "finding-1",
        .toggleFindingSelection "finding-1"]
    "finding-1" ∈ findingIds (some exampleReport) ∧ "finding-1" ∈ s.selectedFindings ∧
      "finding-1" ∈ s.ignoredFindings := by
  decide

end DoxAsdlc.HitlUi.Review
