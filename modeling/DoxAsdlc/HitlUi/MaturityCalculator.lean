import DoxAsdlc.Ideation.Models

/-!
# Maturity in the browser and in the agent

The page computes the maturity of a session from the scores of its categories, as the agent does.
The weights and the thresholds are the same; the page rounds the overall score to a whole number
before it compares it.  So half a point below a threshold the page is ahead of the agent.

Scores are rational numbers and the arithmetic is exact.  `toText` is how a number is written.

## Main definitions

* `CategoryMaturity`, `MaturityState` — the maturity of the page.
* `updateMaturityState` — what new scores make of it.
* `RoundedUp` — an overall score that rounding brings to a threshold.

## Main results

* `agree_iff` — when page and agent agree, and that both are monotone.
-/

namespace DoxAsdlc.HitlUi.Maturity

open Ideation (maturityCategories)

/-! ## Levels -/

inductive MaturityLevelId
  | concept | exploration | defined | refined | complete
  deriving DecidableEq

/-- The text that stands for a level. -/
def MaturityLevelId.value : MaturityLevelId → String
  | concept => "concept"
  | exploration => "exploration"
  | defined => "defined"
  | refined => "refined"
  | complete => "complete"

structure MaturityLevel where
  level : MaturityLevelId
  minScore : ℚ
  maxScore : ℚ
  label : String
  description : String
  deriving DecidableEq

/-- The first of the levels. -/
def conceptLevel : MaturityLevel := ⟨.concept, 0, 20, "General Concept", "Basic idea captured"⟩

/-- `MATURITY_LEVELS`. -/
def maturityLevels : List MaturityLevel :=
  [conceptLevel,
    ⟨.exploration, 20, 40, "Exploration", "Key areas identified"⟩,
    ⟨.defined, 40, 60, "Firm Understanding", "Core requirements clear"⟩,
    ⟨.refined, 60, 80, "Refined", "Details mostly complete"⟩,
    ⟨.complete, 80, 100, "Tightly Defined", "Ready for PRD generation"⟩]

/-- A number between 0 and 100. -/
def clamp (x : ℚ) : ℚ := max 0 (min 100 x)

/-- `getMaturityLevel`: the levels are tried from the last one on. -/
def getMaturityLevel (score : ℚ) : MaturityLevel :=
  (maturityLevels.reverse.find? fun level => level.minScore ≤ clamp score).getD conceptLevel

/-! ## Categories -/

structure CategoryMaturity where
  id : String
  name : String
  score : ℚ
  weight : ℚ
  requiredForSubmit : Bool
  deriving DecidableEq

/-- `createInitialCategories`, from `REQUIRED_CATEGORIES`. -/
def createInitialCategories : List CategoryMaturity :=
  [⟨"problem", "Problem Statement", 0, 15, true⟩, ⟨"users", "Target Users", 0, 10, true⟩,
    ⟨"functional", "Functional Requirements", 0, 25, true⟩,
    ⟨"nfr", "Non-Functional Requirements", 0, 15, false⟩,
    ⟨"scope", "Scope & Constraints", 0, 15, true⟩, ⟨"success", "Success Criteria", 0, 10, false⟩,
    ⟨"risks", "Risks & Assumptions", 0, 10, false⟩]

/-- `Math.round`: a half is rounded up. -/
def round (x : ℚ) : ℤ := ⌊x + 1 / 2⌋

/-- `calculateMaturity`. -/
def calculateMaturity (categories : List CategoryMaturity) : ℚ :=
  if categories = [] then 0
  else round ((categories.map fun category => category.score * category.weight).sum / 100)

/-! ## Gaps -/

inductive Severity
  | critical | moderate | minor
  deriving DecidableEq

/-- The severity of the gap in a category, if it has one. -/
def severity? (category : CategoryMaturity) : Option Severity :=
  if category.requiredForSubmit then
    if category.score < 20 then some .critical
    else if category.score < 50 then some .moderate
    else if category.score < 80 then some .minor
    else none
  else if category.score < 30 then some .moderate
  else if category.score < 80 then some .minor
  else none

/-- `getGapDescription`. -/
def getGapDescription (toText : ℚ → String) (category : CategoryMaturity) : Severity → String :=
  let requiredText := if category.requiredForSubmit then " (required)" else ""
  fun
  | .critical => category.name ++ requiredText ++
      " has not been addressed. This is essential for a complete PRD."
  | .moderate => category.name ++ requiredText ++ " needs more detail (currently at " ++
      toText category.score ++ "%)."
  | .minor => category.name ++ requiredText ++ " could be improved (currently at " ++
      toText category.score ++ "%)."

/-- The descriptions of the gaps, those of one severity behind those of the one before. -/
def identifyGaps (toText : ℚ → String) (categories : List CategoryMaturity) : List String :=
  [Severity.critical, .moderate, .minor].flatMap fun severity =>
    (categories.filter fun category => severity? category = some severity).map fun category =>
      getGapDescription toText category severity

structure MaturityState where
  score : ℚ
  level : MaturityLevel
  categories : List CategoryMaturity
  canSubmit : Bool
  gaps : List String

/-- `createInitialMaturityState`. -/
def createInitialMaturityState (toText : ℚ → String) : MaturityState where
  score := 0
  level := getMaturityLevel 0
  categories := createInitialCategories
  canSubmit := false
  gaps := identifyGaps toText createInitialCategories

/-- `updateMaturityState`. -/
def updateMaturityState (toText : ℚ → String) (currentState : MaturityState)
    (updates : String → Option ℚ) : MaturityState :=
  let updatedCategories := currentState.categories.map fun category =>
    match updates category.id with
    | some score => { category with score := clamp score }
    | none => category
  let score := calculateMaturity updatedCategories
  { score := score
    level := getMaturityLevel score
    categories := updatedCategories
    canSubmit := 80 ≤ score
    gaps := identifyGaps toText updatedCategories }

/-! ## Scores for all categories -/

/-- A score between 0 and 100 for every category. -/
structure Assignment where
  score : String → ℚ
  nonneg : ∀ id, 0 ≤ score id
  le : ∀ id, score id ≤ 100

namespace Assignment

variable (a : Assignment)

/-- The scores as the agent has them. -/
def numbers : List (Ideation.Category × ℚ) := maturityCategories.map fun c => (c, a.score c.id)

/-- The overall score, which is not rounded. -/
def overall : ℚ := Ideation.calculateOverallMaturity a.numbers

/-- The level that the agent computes. -/
def agentLevel : String := Ideation.getMaturityLevel a.overall

/-- The maturity that the page computes. -/
def page (toText : ℚ → String) (s : MaturityState) : MaturityState :=
  updateMaturityState toText s fun id => some (a.score id)

end Assignment

/-- The page has its categories, with whatever scores. -/
def Standard (s : MaturityState) : Prop :=
  s.categories.map (fun category => { category with score := 0 }) = createInitialCategories

theorem standard_update {s : MaturityState} (hs : Standard s) (toText : ℚ → String)
    (updates : String → Option ℚ) : Standard (updateMaturityState toText s updates) := by
  rw [Standard, ← hs, updateMaturityState, List.map_map]
  refine List.map_congr_left fun category _ => ?_
  simp only [Function.comp_apply]
  cases updates category.id <;> rfl

/-- Page and agent compute the same level and the same decision. -/
def Agree (toText : ℚ → String) (s : MaturityState) (a : Assignment) : Prop :=
  (a.page toText s).level.level.value = a.agentLevel ∧
    (a.page toText s).canSubmit = Ideation.canSubmit a.numbers

/-- A score that is below a threshold and is rounded to it. -/
def RoundedUp (overall : ℚ) : Prop := ∃ t ∈ [20, 40, 60, 80], t - 1 / 2 ≤ overall ∧ overall < t

/-- Levels in their order. -/
def rank : MaturityLevelId → ℕ
  | .concept => 0
  | .exploration => 1
  | .defined => 2
  | .refined => 3
  | .complete => 4

/-- The place of a level among the texts. -/
def rankOf (level : String) : ℕ := ["concept", "exploration", "defined", "refined"].idxOf level

/-! ## The overall score -/

theorem overall_eq (a : Assignment) : a.overall =
    a.score "problem" * 15 / 100 + a.score "users" * 10 / 100 + a.score "functional" * 25 / 100 +
      a.score "nfr" * 15 / 100 + a.score "scope" * 15 / 100 + a.score "success" * 10 / 100 +
      a.score "risks" * 10 / 100 := by
  simp [Assignment.overall, Ideation.calculateOverallMaturity, Assignment.numbers,
    maturityCategories]
  ring

theorem overall_mem (a : Assignment) : 0 ≤ a.overall ∧ a.overall ≤ 100 := by
  have hnonneg := a.nonneg
  have hle := a.le
  rw [overall_eq]
  constructor
  · linarith [hnonneg "problem", hnonneg "users", hnonneg "functional", hnonneg "nfr",
      hnonneg "scope", hnonneg "success", hnonneg "risks"]
  · linarith [hle "problem", hle "users", hle "functional", hle "nfr", hle "scope",
      hle "success", hle "risks"]

theorem overall_mono {a b : Assignment} (h : ∀ id, a.score id ≤ b.score id) :
    a.overall ≤ b.overall := by
  rw [overall_eq, overall_eq]
  linarith [h "problem", h "users", h "functional", h "nfr", h "scope", h "success", h "risks"]

theorem clamp_eq {x : ℚ} (h : 0 ≤ x) (h' : x ≤ 100) : clamp x = x := by
  rw [clamp, min_eq_right h', max_eq_right h]

/-- The page rounds the overall score of the agent. -/
theorem page_score {s : MaturityState} (hs : Standard s) (toText : ℚ → String) (a : Assignment) :
    (a.page toText s).score = round a.overall := by
  have hne : s.categories ≠ [] := by
    rintro hnil
    rw [Standard, hnil] at hs
    exact absurd hs (by simp [createInitialCategories])
  have hsum : ((s.categories.map fun category =>
      { category with score := clamp (a.score category.id) }).map fun category =>
        category.score * category.weight).sum =
      (createInitialCategories.map fun category =>
        clamp (a.score category.id) * category.weight).sum := by
    rw [← hs, List.map_map, List.map_map]
    rfl
  have hweighted : (createInitialCategories.map fun category =>
      clamp (a.score category.id) * category.weight).sum / 100 = a.overall := by
    rw [overall_eq]
    simp only [clamp_eq (a.nonneg _) (a.le _), createInitialCategories, List.map_cons,
      List.map_nil, List.sum_cons, List.sum_nil]
    ring
  simp only [Assignment.page, updateMaturityState, calculateMaturity]
  rw [if_neg (by simpa using hne), hsum, hweighted]

/-! ## Levels of scores -/

/-- The level that the thresholds give to a score. -/
def levelOf (x : ℚ) : MaturityLevelId :=
  if 80 ≤ x then .complete else if 60 ≤ x then .refined else if 40 ≤ x then .defined
  else if 20 ≤ x then .exploration else .concept

theorem getMaturityLevel_eq {x : ℚ} (h : 0 ≤ x) (h' : x ≤ 100) :
    (getMaturityLevel x).level = levelOf x := by
  rw [getMaturityLevel, clamp_eq h h', levelOf]
  simp only [maturityLevels, List.reverse_cons, List.reverse_nil, List.nil_append,
    List.cons_append, List.find?_cons, conceptLevel, h, decide_true]
  split_ifs <;> simp only [*, decide_true, decide_false, Option.getD_some]

theorem agentLevel_eq (x : ℚ) : Ideation.getMaturityLevel x = (levelOf x).value := by
  simp only [Ideation.getMaturityLevel, levelOf, ← not_le, ite_not]
  split_ifs with h20 h40 h60 h80 <;> first | rfl | (exfalso; linarith)

theorem value_inj {l l' : MaturityLevelId} : l.value = l'.value ↔ l = l' := by
  cases l <;> cases l' <;> decide

theorem rankOf_value (l : MaturityLevelId) : rankOf l.value = rank l := by
  cases l <;> decide

/-- Which thresholds a score reaches. -/
theorem le_rank_iff (x : ℚ) : (1 ≤ rank (levelOf x) ↔ 20 ≤ x) ∧ (2 ≤ rank (levelOf x) ↔ 40 ≤ x) ∧
    (3 ≤ rank (levelOf x) ↔ 60 ≤ x) ∧ (4 ≤ rank (levelOf x) ↔ 80 ≤ x) := by
  rw [levelOf]
  split_ifs <;> refine ⟨?_, ?_, ?_, ?_⟩ <;> simp only [rank] <;>
    first
    | exact iff_of_true (by decide) (by linarith)
    | exact iff_of_false (by decide) (by linarith)

theorem rank_le (l : MaturityLevelId) : rank l ≤ 4 := by
  cases l <;> decide

theorem rank_inj {l l' : MaturityLevelId} : rank l = rank l' ↔ l = l' := by
  cases l <;> cases l' <;> decide

theorem rank_mono {x y : ℚ} (h : x ≤ y) : rank (levelOf x) ≤ rank (levelOf y) := by
  obtain ⟨hx20, hx40, hx60, hx80⟩ := le_rank_iff x
  obtain ⟨hy20, hy40, hy60, hy80⟩ := le_rank_iff y
  have h20 : 1 ≤ rank (levelOf x) → 1 ≤ rank (levelOf y) :=
    fun hx => hy20.mpr ((hx20.mp hx).trans h)
  have h40 : 2 ≤ rank (levelOf x) → 2 ≤ rank (levelOf y) :=
    fun hx => hy40.mpr ((hx40.mp hx).trans h)
  have h60 : 3 ≤ rank (levelOf x) → 3 ≤ rank (levelOf y) :=
    fun hx => hy60.mpr ((hx60.mp hx).trans h)
  have h80 : 4 ≤ rank (levelOf x) → 4 ≤ rank (levelOf y) :=
    fun hx => hy80.mpr ((hx80.mp hx).trans h)
  have hle := rank_le (levelOf x)
  omega

theorem levelOf_eq_iff (x y : ℚ) :
    levelOf x = levelOf y ↔ ∀ t ∈ [20, 40, 60, 80], t ≤ x ↔ t ≤ y := by
  obtain ⟨hx20, hx40, hx60, hx80⟩ := le_rank_iff x
  obtain ⟨hy20, hy40, hy60, hy80⟩ := le_rank_iff y
  have hx := rank_le (levelOf x)
  have hy := rank_le (levelOf y)
  rw [← rank_inj]
  simp only [List.mem_cons, List.not_mem_nil, or_false, forall_eq_or_imp, forall_eq,
    ← hx20, ← hx40, ← hx60, ← hx80, ← hy20, ← hy40, ← hy60, ← hy80]
  omega

theorem le_round_iff (t : ℤ) (x : ℚ) : (t : ℚ) ≤ round x ↔ t - 1 / 2 ≤ x := by
  rw [round, Int.cast_le, Int.le_floor]
  constructor <;> intro h <;> linarith

theorem round_mono {x y : ℚ} (h : x ≤ y) : round x ≤ round y :=
  Int.floor_le_floor (by linarith)

theorem round_mem {x : ℚ} (h : 0 ≤ x ∧ x ≤ 100) : (0 : ℚ) ≤ round x ∧ (round x : ℚ) ≤ 100 := by
  constructor
  · have hle := (le_round_iff 0 x).mpr (by norm_num; linarith [h.1])
    simpa using hle
  · by_contra hlarge
    have hle : ((101 : ℤ) : ℚ) ≤ round x := by
      have hint : 100 < round x := by
        have hcast := not_le.mp hlarge
        exact_mod_cast hcast
      exact_mod_cast hint
    have hbound := (le_round_iff 101 x).mp hle
    norm_num at hbound
    linarith [h.2]

/-! ## Agreement -/

/-- A rounded score has the level of the score itself unless it is rounded up to a threshold. -/
theorem levelOf_round_iff (x : ℚ) : levelOf (round x) = levelOf x ↔ ¬ RoundedUp x := by
  rw [levelOf_eq_iff, RoundedUp]
  have hthreshold (t : ℤ) : ((t : ℚ) ≤ round x ↔ (t : ℚ) ≤ x) ↔
      ¬ ((t : ℚ) - 1 / 2 ≤ x ∧ x < t) := by
    rw [le_round_iff, not_and, not_lt]
    constructor
    · exact fun h => h.mp
    · exact fun h => ⟨h, fun hle => by linarith⟩
  have h20 := hthreshold 20
  have h40 := hthreshold 40
  have h60 := hthreshold 60
  have h80 := hthreshold 80
  push_cast at h20 h40 h60 h80
  simp only [List.mem_cons, List.not_mem_nil, or_false, forall_eq_or_imp, forall_eq,
    exists_eq_or_imp, exists_eq_left, not_or, h20, h40, h60, h80]

section

variable {s : MaturityState} (hs : Standard s) (toText : ℚ → String) (a : Assignment)

include hs

theorem page_level : (a.page toText s).level.level = levelOf (round a.overall) := by
  have hscore := page_score hs toText a
  have hlevel : (a.page toText s).level = getMaturityLevel (a.page toText s).score := rfl
  have hmem := round_mem (overall_mem a)
  rw [hlevel, hscore, getMaturityLevel_eq hmem.1 hmem.2]

theorem page_canSubmit : (a.page toText s).canSubmit = decide (80 ≤ (round a.overall : ℚ)) := by
  have hscore := page_score hs toText a
  have hsubmit : (a.page toText s).canSubmit = decide (80 ≤ (a.page toText s).score) := rfl
  rw [hsubmit, hscore]

theorem agree_iff_not_roundedUp : Agree toText s a ↔ ¬ RoundedUp a.overall := by
  have hlevel : (a.page toText s).level.level.value = a.agentLevel ↔ ¬ RoundedUp a.overall := by
    rw [page_level hs, Assignment.agentLevel, agentLevel_eq, value_inj, levelOf_round_iff]
  rw [Agree, hlevel, and_iff_left_iff_imp]
  intro hnot
  have hsame := (levelOf_eq_iff _ _).mp ((levelOf_round_iff _).mpr hnot) 80 (by simp)
  rw [page_canSubmit hs, Ideation.canSubmit]
  exact decide_eq_decide.mpr hsame

end

/-- Everything that the page and the agent compute grows with the scores. -/
structure Grows (toText : ℚ → String) (s : MaturityState) (a b : Assignment) : Prop where
  pageScore : (a.page toText s).score ≤ (b.page toText s).score
  pageRank : rank (a.page toText s).level.level ≤ rank (b.page toText s).level.level
  pageSubmit : (a.page toText s).canSubmit = true → (b.page toText s).canSubmit = true
  agentScore : a.overall ≤ b.overall
  agentRank : rankOf a.agentLevel ≤ rankOf b.agentLevel
  agentSubmit : Ideation.canSubmit a.numbers = true → Ideation.canSubmit b.numbers = true

theorem grows {s : MaturityState} (hs : Standard s) (toText : ℚ → String) {a b : Assignment}
    (h : ∀ id, a.score id ≤ b.score id) : Grows toText s a b := by
  have hoverall := overall_mono h
  have hround : (round a.overall : ℚ) ≤ round b.overall := by
    exact_mod_cast round_mono hoverall
  constructor
  · rw [page_score hs, page_score hs]
    exact hround
  · rw [page_level hs, page_level hs]
    exact rank_mono hround
  · rw [page_canSubmit hs, page_canSubmit hs, decide_eq_true_eq, decide_eq_true_eq]
    exact fun hle => hle.trans hround
  · exact hoverall
  · rw [Assignment.agentLevel, Assignment.agentLevel, agentLevel_eq, agentLevel_eq, rankOf_value,
      rankOf_value]
    exact rank_mono hoverall
  · rw [Ideation.canSubmit, Ideation.canSubmit, decide_eq_true_eq, decide_eq_true_eq]
    exact fun hle => hle.trans hoverall

/-- **When page and agent agree**: unless the overall score is rounded up to a threshold.  In both
the score, the level and the decision are monotone. -/
theorem agree_iff {s : MaturityState} (hs : Standard s) (toText : ℚ → String) :
    (∀ a, Agree toText s a ↔ ¬ RoundedUp a.overall) ∧
      ∀ a b : Assignment, (∀ id, a.score id ≤ b.score id) → Grows toText s a b :=
  ⟨fun a => agree_iff_not_roundedUp hs toText a, fun _ _ h => grows hs toText h⟩

/-- Five points are missing for the target users. -/
def exampleAssignment : Assignment where
  score id := if id = "users" then 75 else 80
  nonneg id := by split_ifs <;> norm_num
  le id := by split_ifs <;> norm_num

theorem agree_initial :
    (∀ a, Agree (fun _ => "") (createInitialMaturityState fun _ => "") a ↔
        ¬ RoundedUp a.overall) ∧
      ∀ a b : Assignment, (∀ id, a.score id ≤ b.score id) →
        Grows (fun _ => "") (createInitialMaturityState fun _ => "") a b :=
  have hs : Standard (createInitialMaturityState fun _ => "") := rfl
  agree_iff hs fun _ => ""

/-- The overall score is 79.5: the page lets the session be submitted and the agent does not. -/
theorem page_ahead :
    let m := exampleAssignment.page (fun _ => "") (createInitialMaturityState fun _ => "")
    m.canSubmit = true ∧ m.level.level = .complete ∧
      Ideation.canSubmit exampleAssignment.numbers = false ∧
      exampleAssignment.agentLevel = "refined" := by
  decide +kernel

end DoxAsdlc.HitlUi.Maturity
