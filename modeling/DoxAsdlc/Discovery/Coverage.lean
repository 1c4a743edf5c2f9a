import DoxAsdlc.Core.Events
import DoxAsdlc.Structures.OrderedDict
import Mathlib.Algebra.Order.Field.Basic
import Mathlib.Data.Finset.Card
import Mathlib.Tactic.Linarith
import Mathlib.Tactic.Ring

/-!
# How requirements are covered

User stories and acceptance criteria name the requirements that they are for.  The report of the
user stories has all that they name as covered.  The matrix of the acceptance criteria has a line
for each requirement, with the criteria that name it, as often as they do.

A report has sets, whose order is left out.  Percentages are rational numbers.

## Main definitions

* `buildCoverageReport` — the report of user stories.
* `AcceptanceCriteria.create` — the matrix of acceptance criteria.
* `ReportSound`, `MatrixSound` — a report and a matrix do not overstate.
* `Known`, `Unrepeated` — when they do not.

## Main results

* `reportSound_iff`, `matrixSound_iff` — each on its own.
* `sound_iff` — both of them.
-/

namespace DoxAsdlc.Discovery

/-! ## User stories -/

/-- A requirement as it is given to the extractor: it may have an identifier. -/
structure RequirementData where
  id : Option String

/-- `ExtractedUserStory`, as far as the report is about it. -/
structure ExtractedUserStory where
  id : String
  linkedRequirements : List String

/-- The coverage report. -/
structure CoverageReport where
  totalRequirements : ℕ
  coveredRequirements : Finset String
  uncoveredRequirements : Finset String
  coveragePercentage : ℚ
  totalStories : ℕ

/-- The identifiers of requirements. -/
def requirementIds (requirements : List RequirementData) : Finset String :=
  (requirements.filterMap fun req => given req.id).toFinset

/-- `_build_coverage_report`. -/
def buildCoverageReport (userStories : List ExtractedUserStory)
    (requirements : List RequirementData) : CoverageReport :=
  let allReqIds := requirementIds requirements
  let coveredReqIds := userStories.foldl
    (fun covered story => covered ∪ story.linkedRequirements.toFinset) ∅
  { totalRequirements := allReqIds.card
    coveredRequirements := coveredReqIds
    uncoveredRequirements := allReqIds \ coveredReqIds
    coveragePercentage :=
      if allReqIds = ∅ then 0 else (coveredReqIds.card : ℚ) / allReqIds.card * 100
    totalStories := userStories.length }

/-! ## Acceptance criteria -/

/-- `AcceptanceCriterion`, as far as the matrix is about it. -/
structure AcceptanceCriterion where
  id : String
  requirementIds : List String

/-- How far a requirement is covered. -/
inductive CoverageLevel where
  | full | partially | none
  deriving DecidableEq

/-- `CoverageEntry`. -/
structure CoverageEntry where
  requirementId : String
  criterionIds : List String
  coverageLevel : CoverageLevel

/-- `AcceptanceCriteria`. -/
structure AcceptanceCriteria where
  prdVersion : String
  criteria : List AcceptanceCriterion
  coverageMatrix : List CoverageEntry

/-- The level of a number of criteria. -/
def coverageLevel (criterionIds : List String) : CoverageLevel :=
  if criterionIds = [] then .none
  else if 2 ≤ criterionIds.length then .full
  else .partially

/-- Add a criterion to a requirement that there is. -/
def addCriterion (id : String) (coverage : OrderedDict String (List String)) (reqId : String) :
    OrderedDict String (List String) :=
  match coverage.get? reqId with
  | some ids => coverage.set reqId (ids ++ [id])
  | none => coverage

/-- The criteria of each requirement. -/
def coverage (criteria : List AcceptanceCriterion) (requirementIds : List String) :
    OrderedDict String (List String) :=
  criteria.foldl
    (fun coverage criterion => criterion.requirementIds.foldl (addCriterion criterion.id) coverage)
    (requirementIds.foldl (fun coverage reqId => coverage.set reqId []) .empty)

namespace AcceptanceCriteria

/-- `create`. -/
def create (prdVersion : String) (criteria : List AcceptanceCriterion)
    (requirementIds : List String) : AcceptanceCriteria where
  prdVersion := prdVersion
  criteria := criteria
  coverageMatrix := (coverage criteria requirementIds).entries.map fun (reqId, criterionIds) =>
    ⟨reqId, criterionIds, coverageLevel criterionIds⟩

/-- `get_uncovered_requirements`. -/
def getUncoveredRequirements (doc : AcceptanceCriteria) : List String :=
  (doc.coverageMatrix.filter fun entry => entry.coverageLevel = .none).map
    CoverageEntry.requirementId

/-- The other requirements. -/
def coveredRequirements (doc : AcceptanceCriteria) : List String :=
  (doc.coverageMatrix.filter fun entry => entry.coverageLevel ∈
    [CoverageLevel.full, .partially]).map CoverageEntry.requirementId

/-- `get_coverage_percentage`. -/
def getCoveragePercentage (doc : AcceptanceCriteria) : ℚ :=
  if doc.coverageMatrix = [] then 0
  else
    let covered := (doc.coverageMatrix.filter fun entry => entry.coverageLevel ∈
      [CoverageLevel.full, .partially]).length
    (covered : ℚ) / doc.coverageMatrix.length * 100

end AcceptanceCriteria

/-! ## What is promised -/

/-- The report divides the requirements into those that are covered and those that are not. -/
structure ReportSound (userStories : List ExtractedUserStory)
    (requirements : List RequirementData) : Prop where
  total : (buildCoverageReport userStories requirements).totalRequirements
    = (requirementIds requirements).card
  union : (buildCoverageReport userStories requirements).coveredRequirements ∪
    (buildCoverageReport userStories requirements).uncoveredRequirements
      = requirementIds requirements
  disjoint : Disjoint (buildCoverageReport userStories requirements).coveredRequirements
    (buildCoverageReport userStories requirements).uncoveredRequirements
  percentage : (buildCoverageReport userStories requirements).coveragePercentage =
    100 * (buildCoverageReport userStories requirements).coveredRequirements.card /
      (requirementIds requirements).card
  bound : (buildCoverageReport userStories requirements).coveragePercentage ≤ 100

/-- The matrix has each requirement once, with the different criteria that name it, and divides the
requirements into those that are covered and those that are not. -/
structure MatrixSound (doc : AcceptanceCriteria) (requirementIds : List String) : Prop where
  nodup : (doc.coverageMatrix.map CoverageEntry.requirementId).Nodup
  requirements : ∀ r, r ∈ doc.coverageMatrix.map CoverageEntry.requirementId ↔ r ∈ requirementIds
  listed : ∀ entry ∈ doc.coverageMatrix, entry.criterionIds.Nodup ∧
    ∀ id, id ∈ entry.criterionIds ↔
      ∃ criterion ∈ doc.criteria, criterion.id = id ∧
        entry.requirementId ∈ criterion.requirementIds
  full : ∀ entry ∈ doc.coverageMatrix, entry.coverageLevel = .full →
    ∃ criterion ∈ doc.criteria, ∃ other ∈ doc.criteria, criterion.id ≠ other.id ∧
      entry.requirementId ∈ criterion.requirementIds ∧ entry.requirementId ∈ other.requirementIds
  uncovered : ∀ r, r ∈ doc.getUncoveredRequirements ↔
    r ∈ requirementIds ∧ ∀ criterion ∈ doc.criteria, r ∉ criterion.requirementIds
  covered : ∀ r, r ∈ doc.coveredRequirements ↔
    r ∈ requirementIds ∧ ∃ criterion ∈ doc.criteria, r ∈ criterion.requirementIds
  percentage : doc.getCoveragePercentage =
    100 * doc.coveredRequirements.toFinset.card / requirementIds.toFinset.card
  bound : doc.getCoveragePercentage ≤ 100

/-- User stories name requirements that there are. -/
def Known (userStories : List ExtractedUserStory) (requirements : List RequirementData) : Prop :=
  ∀ story ∈ userStories, ∀ id ∈ story.linkedRequirements, id ∈ requirementIds requirements

/-- No criterion names a requirement twice, and no two with one identifier name the same one. -/
structure Unrepeated (criteria : List AcceptanceCriterion) (requirementIds : List String) :
    Prop where
  within : ∀ criterion ∈ criteria, ∀ r ∈ requirementIds, criterion.requirementIds.count r ≤ 1
  between : criteria.Pairwise fun criterion other => criterion.id = other.id →
    ∀ r ∈ requirementIds, r ∈ criterion.requirementIds → r ∉ other.requirementIds

/-! ## The report -/

variable {userStories : List ExtractedUserStory} {requirements : List RequirementData}

theorem mem_covered {id : String} :
    id ∈ (buildCoverageReport userStories requirements).coveredRequirements ↔
      ∃ story ∈ userStories, id ∈ story.linkedRequirements := by
  have hfold : ∀ covered : Finset String,
      id ∈ userStories.foldl (fun covered story => covered ∪ story.linkedRequirements.toFinset)
        covered ↔ id ∈ covered ∨ ∃ story ∈ userStories, id ∈ story.linkedRequirements := by
    induction userStories with
    | nil => simp
    | cons story userStories ih =>
      intro covered
      rw [List.foldl_cons, ih]
      simp [or_assoc]
  simpa [buildCoverageReport] using hfold ∅

theorem percentage_le {covered total : ℕ} (h : covered ≤ total) :
    (covered : ℚ) / total * 100 ≤ 100 := by
  have hratio : (covered : ℚ) / total ≤ 1 :=
    div_le_one_of_le₀ (Nat.cast_le.mpr h) (Nat.cast_nonneg total)
  linarith

/-- **The report** is sound exactly where user stories name what there is. -/
theorem reportSound_iff :
    ReportSound userStories requirements ↔ Known userStories requirements := by
  have hunion : (buildCoverageReport userStories requirements).coveredRequirements ∪
      (buildCoverageReport userStories requirements).uncoveredRequirements
        = requirementIds requirements ↔
      (buildCoverageReport userStories requirements).coveredRequirements
        ⊆ requirementIds requirements := by
    rw [buildCoverageReport, Finset.union_sdiff_self_eq_union, Finset.union_eq_right]
  have hknown : (buildCoverageReport userStories requirements).coveredRequirements
      ⊆ requirementIds requirements ↔ Known userStories requirements := by
    simp only [Finset.subset_iff, mem_covered, Known]
    grind
  constructor
  · exact fun h => hknown.mp (hunion.mp h.union)
  · intro h
    have hsubset := hknown.mpr h
    refine ⟨rfl, hunion.mpr hsubset, Finset.disjoint_sdiff, ?_, ?_⟩
    · by_cases hempty : requirementIds requirements = ∅
      · simp [buildCoverageReport, hempty]
      · simp only [buildCoverageReport, if_neg hempty]
        ring
    · by_cases hempty : requirementIds requirements = ∅
      · simp [buildCoverageReport, hempty]
      · simp only [buildCoverageReport, if_neg hempty]
        exact percentage_le (Finset.card_le_card hsubset)

/-! ## The matrix -/

variable {criteria : List AcceptanceCriterion} {reqIds : List String} {version r : String}

/-- The criteria that are listed for a requirement. -/
def listed (criteria : List AcceptanceCriterion) (r : String) : List String :=
  criteria.flatMap fun criterion =>
    List.replicate (criterion.requirementIds.count r) criterion.id

theorem mem_listed {id : String} : id ∈ listed criteria r ↔
    ∃ criterion ∈ criteria, criterion.id = id ∧ r ∈ criterion.requirementIds := by
  simp only [listed, List.mem_flatMap, List.mem_replicate, ne_eq, List.count_eq_zero, not_not]
  grind

theorem get?_addCriterion {id reqId : String} {coverage : OrderedDict String (List String)} :
    (addCriterion id coverage reqId).get? r =
      if r = reqId then (coverage.get? r).map (· ++ [id]) else coverage.get? r := by
  rw [addCriterion]
  cases hget : coverage.get? reqId with
  | none => split <;> simp_all
  | some ids =>
    rw [OrderedDict.get?_set]
    split <;> simp_all

/-- A criterion is added to a requirement as often as it names it. -/
theorem get?_addCriteria {id : String} {ids : List String}
    {coverage : OrderedDict String (List String)} :
    (ids.foldl (addCriterion id) coverage).get? r =
      (coverage.get? r).map (· ++ List.replicate (ids.count r) id) := by
  induction ids generalizing coverage with
  | nil => simp
  | cons reqId ids ih =>
    rw [List.foldl_cons, ih, get?_addCriterion]
    by_cases heq : r = reqId
    · subst heq
      simp [Option.map_map, Function.comp_def, List.replicate_succ]
    · rw [if_neg heq, List.count_cons_of_ne (Ne.symm heq)]

theorem get?_noCriteria :
    (reqIds.foldl (fun coverage reqId => coverage.set reqId [])
      (.empty : OrderedDict String (List String))).get? r
        = if r ∈ reqIds then some [] else none := by
  induction reqIds using List.reverseRecOn with
  | nil => simp
  | append_singleton reqIds reqId ih =>
    rw [List.foldl_append, List.foldl_cons, List.foldl_nil, OrderedDict.get?_set, ih]
    by_cases heq : r = reqId <;> simp [heq]

/-- **What is listed for a requirement.** -/
theorem get?_coverage :
    (coverage criteria reqIds).get? r = if r ∈ reqIds then some (listed criteria r) else none := by
  have hfold : ∀ initial : OrderedDict String (List String),
      (criteria.foldl (fun coverage criterion =>
        criterion.requirementIds.foldl (addCriterion criterion.id) coverage) initial).get? r =
          (initial.get? r).map (· ++ listed criteria r) := by
    induction criteria with
    | nil => simp [listed]
    | cons criterion criteria ih =>
      intro initial
      rw [List.foldl_cons, ih, get?_addCriteria, Option.map_map]
      simp [listed, Function.comp_def]
  rw [coverage, hfold, get?_noCriteria]
  split <;> simp

/-- The lines of the matrix. -/
theorem mem_coverageMatrix {entry : CoverageEntry} :
    entry ∈ (AcceptanceCriteria.create version criteria reqIds).coverageMatrix ↔
      entry.requirementId ∈ reqIds ∧ entry.criterionIds = listed criteria entry.requirementId ∧
        entry.coverageLevel = coverageLevel entry.criterionIds := by
  obtain ⟨reqId, ids, level⟩ := entry
  have hentry : (reqId, ids) ∈ (coverage criteria reqIds).entries ↔
      reqId ∈ reqIds ∧ ids = listed criteria reqId := by
    rw [← OrderedDict.get?_eq_some, get?_coverage]
    split <;> simp_all [eq_comm]
  simp only [AcceptanceCriteria.create, List.mem_map, Prod.exists, CoverageEntry.mk.injEq]
  constructor
  · intro h
    obtain ⟨_, _, hmem, rfl, rfl, rfl⟩ := h
    exact ⟨(hentry.mp hmem).1, (hentry.mp hmem).2, rfl⟩
  · intro h
    exact ⟨reqId, ids, hentry.mpr ⟨h.1, h.2.1⟩, rfl, rfl, h.2.2.symm⟩

/-- Each requirement has a line. -/
theorem exists_entry (h : r ∈ reqIds) :
    ⟨r, listed criteria r, coverageLevel (listed criteria r)⟩
      ∈ (AcceptanceCriteria.create version criteria reqIds).coverageMatrix :=
  mem_coverageMatrix.mpr ⟨h, rfl, rfl⟩

theorem nodup_requirementId :
    ((AcceptanceCriteria.create version criteria reqIds).coverageMatrix.map
      CoverageEntry.requirementId).Nodup := by
  have hnodup := (coverage criteria reqIds).nodup
  simpa [AcceptanceCriteria.create, List.map_map, Function.comp_def] using hnodup

theorem disjoint_named {criterion other : AcceptanceCriterion} :
    List.Disjoint (List.replicate (criterion.requirementIds.count r) criterion.id)
        (List.replicate (other.requirementIds.count r) other.id) ↔
      (criterion.id = other.id → r ∈ criterion.requirementIds → r ∉ other.requirementIds) := by
  simp only [List.disjoint_left, List.mem_replicate, ne_eq, List.count_eq_zero, not_not]
  grind

/-- The criteria that are listed are different exactly where they are named once. -/
theorem nodup_listed_iff : (∀ r ∈ reqIds, (listed criteria r).Nodup) ↔
    Unrepeated criteria reqIds := by
  simp only [listed, List.nodup_flatMap, List.nodup_replicate]
  constructor
  · intro h
    refine ⟨fun criterion hcriterion r hr => (h r hr).1 criterion hcriterion, ?_⟩
    rw [List.pairwise_iff_getElem]
    intro i j hi hj hij heq r hr
    exact disjoint_named.mp (List.pairwise_iff_getElem.mp (h r hr).2 i j hi hj hij) heq
  · intro h r hr
    refine ⟨fun criterion hcriterion => h.within criterion hcriterion r hr, ?_⟩
    exact h.between.imp fun hne => disjoint_named.mpr fun heq => hne heq r hr

theorem coverageLevel_eq_none {ids : List String} : coverageLevel ids = .none ↔ ids = [] := by
  rw [coverageLevel]
  split
  · simpa
  · split <;> simpa

theorem listed_eq_nil :
    listed criteria r = [] ↔ ∀ criterion ∈ criteria, r ∉ criterion.requirementIds := by
  rw [List.eq_nil_iff_forall_not_mem]
  simp only [mem_listed]
  grind

theorem mem_uncovered :
    r ∈ (AcceptanceCriteria.create version criteria reqIds).getUncoveredRequirements ↔
      r ∈ reqIds ∧ ∀ criterion ∈ criteria, r ∉ criterion.requirementIds := by
  simp only [AcceptanceCriteria.getUncoveredRequirements, List.mem_map, List.mem_filter,
    mem_coverageMatrix, decide_eq_true_eq, ← listed_eq_nil]
  constructor
  · intro ⟨entry, ⟨⟨hmem, hids, hlevel⟩, hnone⟩, hr⟩
    rw [hlevel, coverageLevel_eq_none, hids] at hnone
    exact hr ▸ ⟨hmem, hnone⟩
  · intro ⟨hmem, hnone⟩
    exact ⟨⟨r, [], .none⟩, ⟨⟨hmem, hnone.symm, rfl⟩, rfl⟩, rfl⟩

theorem mem_covered_level {level : CoverageLevel} :
    level ∈ [CoverageLevel.full, .partially] ↔ level ≠ .none := by
  cases level <;> decide

theorem mem_coveredRequirements :
    r ∈ (AcceptanceCriteria.create version criteria reqIds).coveredRequirements ↔
      r ∈ reqIds ∧ ∃ criterion ∈ criteria, r ∈ criterion.requirementIds := by
  have hnamed : (∃ criterion ∈ criteria, r ∈ criterion.requirementIds) ↔
      listed criteria r ≠ [] := by
    rw [ne_eq, listed_eq_nil]
    push Not
    rfl
  simp only [AcceptanceCriteria.coveredRequirements, List.mem_map, List.mem_filter,
    mem_coverageMatrix, decide_eq_true_eq, mem_covered_level, hnamed]
  constructor
  · intro ⟨entry, ⟨⟨hmem, hids, hlevel⟩, hsome⟩, hr⟩
    rw [hlevel, ne_eq, coverageLevel_eq_none, hids] at hsome
    exact hr ▸ ⟨hmem, hsome⟩
  · intro ⟨hmem, hsome⟩
    exact ⟨⟨r, listed criteria r, coverageLevel (listed criteria r)⟩,
      ⟨⟨hmem, rfl, rfl⟩, fun hnone => hsome (coverageLevel_eq_none.mp hnone)⟩, rfl⟩

theorem mem_requirementId :
    r ∈ (AcceptanceCriteria.create version criteria reqIds).coverageMatrix.map
      CoverageEntry.requirementId ↔ r ∈ reqIds := by
  rw [List.mem_map]
  constructor
  · intro ⟨entry, hentry, hr⟩
    exact hr ▸ (mem_coverageMatrix.mp hentry).1
  · intro hr
    exact ⟨_, exists_entry hr, rfl⟩

/-- The matrix has as many lines as there are requirements. -/
theorem length_coverageMatrix :
    (AcceptanceCriteria.create version criteria reqIds).coverageMatrix.length
      = reqIds.toFinset.card := by
  have hset : ((AcceptanceCriteria.create version criteria reqIds).coverageMatrix.map
      CoverageEntry.requirementId).toFinset = reqIds.toFinset := by
    ext r
    rw [List.mem_toFinset, List.mem_toFinset, mem_requirementId]
  rw [← hset, List.toFinset_card_of_nodup nodup_requirementId, List.length_map]

theorem card_covered :
    (AcceptanceCriteria.create version criteria reqIds).coveredRequirements.toFinset.card
      = ((AcceptanceCriteria.create version criteria reqIds).coverageMatrix.filter fun entry =>
        entry.coverageLevel ∈ [CoverageLevel.full, .partially]).length := by
  rw [AcceptanceCriteria.coveredRequirements, List.toFinset_card_of_nodup, List.length_map]
  exact nodup_requirementId.sublist (List.filter_sublist.map _)

/-- A requirement that is covered in full is named by two criteria. -/
theorem exists_two (hnodup : (listed criteria r).Nodup)
    (hfull : coverageLevel (listed criteria r) = .full) :
    ∃ criterion ∈ criteria, ∃ other ∈ criteria, criterion.id ≠ other.id ∧
      r ∈ criterion.requirementIds ∧ r ∈ other.requirementIds := by
  match hlisted : listed criteria r, hfull with
  | [], hfull => cases hfull
  | [_], hfull => cases hfull
  | id :: id' :: rest, _ =>
    have hid := mem_listed.mp (hlisted ▸ List.mem_cons_self : id ∈ listed criteria r)
    have hid' := mem_listed.mp (hlisted ▸ by simp : id' ∈ listed criteria r)
    obtain ⟨criterion, hcriterion, rfl, hnames⟩ := hid
    obtain ⟨other, hother, rfl, hnames'⟩ := hid'
    rw [hlisted, List.nodup_cons] at hnodup
    have hne : criterion.id ≠ other.id := fun heq => hnodup.1 (heq ▸ List.mem_cons_self)
    exact ⟨criterion, hcriterion, other, hother, hne, hnames, hnames'⟩

/-- The percentage is that of the requirements that some criterion names. -/
theorem percentage_eq :
    (AcceptanceCriteria.create version criteria reqIds).getCoveragePercentage =
      ((AcceptanceCriteria.create version criteria reqIds).coveredRequirements.toFinset.card : ℚ) /
        reqIds.toFinset.card * 100 := by
  rw [AcceptanceCriteria.getCoveragePercentage, card_covered, ← length_coverageMatrix]
  split
  · next hempty => simp [hempty]
  · rfl

/-- **The matrix** is sound exactly where criteria name requirements once. -/
theorem matrixSound_iff :
    MatrixSound (AcceptanceCriteria.create version criteria reqIds) reqIds ↔
      Unrepeated criteria reqIds := by
  rw [← nodup_listed_iff]
  constructor
  · intro h r hr
    exact (h.listed _ (exists_entry hr)).1
  · intro h
    have hsubset :
        (AcceptanceCriteria.create version criteria reqIds).coveredRequirements.toFinset
          ⊆ reqIds.toFinset := by
      intro r hr
      rw [List.mem_toFinset, mem_coveredRequirements] at hr
      exact List.mem_toFinset.mpr hr.1
    refine
      { nodup := nodup_requirementId
        requirements := fun _ => mem_requirementId
        listed := ?_
        full := ?_
        uncovered := fun _ => mem_uncovered
        covered := fun _ => mem_coveredRequirements
        percentage := by
          rw [percentage_eq]
          ring
        bound := by
          rw [percentage_eq]
          exact percentage_le (Finset.card_le_card hsubset) }
    · intro entry hentry
      obtain ⟨hmem, hids, -⟩ := mem_coverageMatrix.mp hentry
      rw [hids]
      exact ⟨h _ hmem, fun _ => mem_listed⟩
    · intro entry hentry hfull
      obtain ⟨hmem, hids, hlevel⟩ := mem_coverageMatrix.mp hentry
      rw [hlevel, hids] at hfull
      exact exists_two (h _ hmem) hfull

/-- **Neither overstates** exactly where user stories name requirements that there are, and criteria
name each of them once. -/
theorem sound_iff (userStories : List ExtractedUserStory) (requirements : List RequirementData)
    (prdVersion : String) (criteria : List AcceptanceCriterion) (reqIds : List String) :
    ReportSound userStories requirements ∧
        MatrixSound (AcceptanceCriteria.create prdVersion criteria reqIds) reqIds ↔
      Known userStories requirements ∧ Unrepeated criteria reqIds := by
  rw [reportSound_iff, matrixSound_iff]

/-- A story that names what there is not is counted. -/
theorem not_reportSound_unknown :
    ¬ (ReportSound [⟨"US-001", ["REQ-001", "REQ-999"]⟩] [⟨some "REQ-001"⟩] ∧
      MatrixSound (AcceptanceCriteria.create "1.0.0" [] []) []) := by
  intro h
  have hcovered : "REQ-999" ∈ (buildCoverageReport [⟨"US-001", ["REQ-001", "REQ-999"]⟩]
      [⟨some "REQ-001"⟩]).coveredRequirements :=
    mem_covered.mpr ⟨_, List.mem_cons_self, by decide⟩
  have hmem := Finset.mem_union_left
    (buildCoverageReport [⟨"US-001", ["REQ-001", "REQ-999"]⟩]
      [⟨some "REQ-001"⟩]).uncoveredRequirements hcovered
  rw [h.1.union] at hmem
  exact absurd hmem (by decide)

end DoxAsdlc.Discovery
