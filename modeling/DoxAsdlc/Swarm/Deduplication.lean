import DoxAsdlc.Swarm.Conservation
import Mathlib.Data.List.TakeWhile

/-!
# Whether the unique findings are unique

The fold of `_detect_duplicates` compares a finding with the unique findings as it takes it, and
never a merged finding with the others.  A merge widens the lines of an entry and may give it
another title and another category, so that the entry can come to duplicate one that it was
distinct from.

## Main definitions

* `Apart` — neither of two findings duplicates the other.
* `Deduplicates` — the unique findings are apart, and are found unique again.
* `Settles` — what a finding becomes is apart from the other entries.

## Main results

* `deduplicates_iff` — when the unique findings are apart all along.
-/

namespace DoxAsdlc.Swarm

variable (config : SwarmConfig) (textSimilarity : Similarity)

/-- Neither of two findings duplicates the other: the ratio of two titles may depend on their
order. -/
def Apart (f1 f2 : ReviewFinding) : Prop :=
  isDuplicate config textSimilarity f1 f2 = false ∧
    isDuplicate config textSimilarity f2 f1 = false

instance : DecidableRel (Apart config textSimilarity) := fun _ _ =>
  inferInstanceAs (Decidable (_ ∧ _))

/-- The unique findings of a list are apart from each other, and nothing is merged when they are
taken again. -/
def Deduplicates (findings : List ReviewFinding) : Prop :=
  (detectDuplicates config textSimilarity findings).1.Pairwise (Apart config textSimilarity) ∧
    detectDuplicates config textSimilarity (detectDuplicates config textSimilarity findings).1
      = ((detectDuplicates config textSimilarity findings).1, 0)

/-- The entries before the one that a finding is merged into. -/
def before (finding : ReviewFinding) (unique : List ReviewFinding) : List ReviewFinding :=
  unique.takeWhile fun existing => !isDuplicate config textSimilarity finding existing

/-- The entries from there on. -/
def fromDuplicate (finding : ReviewFinding) (unique : List ReviewFinding) : List ReviewFinding :=
  unique.dropWhile fun existing => !isDuplicate config textSimilarity finding existing

/-- What a finding becomes is apart from the other entries: from all of them if it is an entry of
its own, and from those that stay as they are if it is merged into one. -/
def Settles (unique : List ReviewFinding) (finding : ReviewFinding) : Prop :=
  match fromDuplicate config textSimilarity finding unique with
  | [] => ∀ other ∈ unique, isDuplicate config textSimilarity other finding = false
  | existing :: after =>
    ∀ other ∈ before config textSimilarity finding unique ++ after,
      Apart config textSimilarity (mergeFindings existing finding) other

instance (unique : List ReviewFinding) (finding : ReviewFinding) :
    Decidable (Settles config textSimilarity unique finding) := by
  unfold Settles
  split <;> infer_instance

variable {config textSimilarity} {finding : ReviewFinding} {unique : List ReviewFinding}

theorem Apart.symm {f1 f2 : ReviewFinding} (h : Apart config textSimilarity f1 f2) :
    Apart config textSimilarity f2 f1 :=
  And.symm h

/-! ## One round -/

theorem before_append_fromDuplicate :
    before config textSimilarity finding unique
      ++ fromDuplicate config textSimilarity finding unique = unique :=
  List.takeWhile_append_dropWhile

/-- An entry that a finding does not duplicate is passed over. -/
theorem absorb_eq (finding : ReviewFinding) (unique : List ReviewFinding) :
    absorb config textSimilarity finding unique =
      match fromDuplicate config textSimilarity finding unique with
      | [] => none
      | existing :: after => some (before config textSimilarity finding unique
          ++ mergeFindings existing finding :: after) := by
  induction unique with
  | nil => rfl
  | cons existing unique ih =>
    rw [absorb]
    by_cases hdup : isDuplicate config textSimilarity finding existing = true
    · simp [before, fromDuplicate, hdup]
    · rw [Bool.not_eq_true] at hdup
      rw [ih]
      simp only [before, fromDuplicate, hdup, Bool.not_false, Bool.false_eq_true, if_false,
        List.takeWhile_cons, List.dropWhile_cons, if_true]
      cases unique.dropWhile fun existing => !isDuplicate config textSimilarity finding existing
        <;> rfl

/-- A finding becomes an entry of its own when it duplicates no entry. -/
theorem fromDuplicate_eq_nil_iff :
    fromDuplicate config textSimilarity finding unique = [] ↔
      ∀ other ∈ unique, isDuplicate config textSimilarity finding other = false := by
  rw [fromDuplicate, List.dropWhile_eq_nil_iff]
  simp only [Bool.not_eq_true']

/-- A finding that is not absorbed duplicates no entry. -/
theorem not_isDuplicate_of_absorb (h : absorb config textSimilarity finding unique = none) :
    ∀ other ∈ unique, isDuplicate config textSimilarity finding other = false := by
  rw [absorb_eq] at h
  cases hdup : fromDuplicate config textSimilarity finding unique with
  | nil => exact fromDuplicate_eq_nil_iff.mp hdup
  | cons existing after => simp [hdup] at h

/-- **One round keeps the entries apart exactly when the finding settles.** -/
theorem pairwise_detectRound_iff {removed : ℕ}
    (h : unique.Pairwise (Apart config textSimilarity)) :
    (detectRound config textSimilarity (unique, removed) finding).1.Pairwise
        (Apart config textSimilarity) ↔
      Settles config textSimilarity unique finding := by
  have hsymm : ∀ {f1 f2 : ReviewFinding}, Apart config textSimilarity f1 f2 →
      Apart config textSimilarity f2 f1 := Apart.symm
  have hsplit := @before_append_fromDuplicate config textSimilarity finding unique
  rw [detectRound, absorb_eq, Settles]
  cases hdup : fromDuplicate config textSimilarity finding unique with
  | nil =>
    have hnot := fromDuplicate_eq_nil_iff.mp hdup
    simp only [List.pairwise_append, List.pairwise_singleton, h, List.mem_singleton, true_and]
    constructor
    · exact fun hall other hother => (hall other hother finding rfl).1
    · rintro hall other hother _ rfl
      exact ⟨hall other hother, hnot other hother⟩
  | cons existing after =>
    rw [hdup] at hsplit
    rw [← hsplit, List.pairwise_middle hsymm, List.pairwise_cons] at h
    simp only [List.pairwise_middle hsymm, List.pairwise_cons, h.2, and_true]

/-! ## The fold -/

theorem detectDuplicates_append_singleton (taken : List ReviewFinding) (finding : ReviewFinding) :
    detectDuplicates config textSimilarity (taken ++ [finding])
      = detectRound config textSimilarity (detectDuplicates config textSimilarity taken)
          finding := by
  rw [detectDuplicates, List.foldl_append]
  rfl

/-- Findings of which none duplicates an earlier one are all unique. -/
theorem detectDuplicates_eq_self {findings : List ReviewFinding}
    (h : findings.Pairwise fun f g => isDuplicate config textSimilarity g f = false) :
    detectDuplicates config textSimilarity findings = (findings, 0) := by
  induction findings using List.reverseRecOn with
  | nil => rfl
  | append_singleton taken finding ih =>
    rw [List.pairwise_append] at h
    have hnone : fromDuplicate config textSimilarity finding taken = [] :=
      fromDuplicate_eq_nil_iff.mpr fun other hother =>
        h.2.2 other hother finding (List.mem_singleton_self _)
    rw [detectDuplicates_append_singleton, ih h.1, detectRound, absorb_eq, hnone]

/-- Entries that are apart are found unique again. -/
theorem deduplicates_iff_pairwise {findings : List ReviewFinding} :
    Deduplicates config textSimilarity findings ↔
      (detectDuplicates config textSimilarity findings).1.Pairwise
        (Apart config textSimilarity) :=
  and_iff_left_of_imp fun h => detectDuplicates_eq_self (h.imp And.right)

variable (config textSimilarity) in
/-- **When the unique findings are unique.**  As a list is taken, finding by finding, the entries
are apart from each other all along exactly when each finding settles among the entries that are
there when it is taken. -/
theorem deduplicates_iff (findings : List ReviewFinding) :
    (∀ taken, taken <+: findings → Deduplicates config textSimilarity taken) ↔
      ∀ taken finding, taken ++ [finding] <+: findings →
        Settles config textSimilarity (detectDuplicates config textSimilarity taken).1
          finding := by
  simp only [deduplicates_iff_pairwise]
  constructor
  · intro h taken finding hprefix
    have htaken := h taken ((List.prefix_append taken [finding]).trans hprefix)
    have hround := h _ hprefix
    rw [detectDuplicates_append_singleton] at hround
    exact (pairwise_detectRound_iff htaken).mp hround
  · intro h taken hprefix
    -- a step lemma for each finding that is taken
    induction taken using List.reverseRecOn with
    | nil => exact List.Pairwise.nil
    | append_singleton taken finding ih =>
      have htaken := ih ((List.prefix_append taken [finding]).trans hprefix)
      rw [detectDuplicates_append_singleton]
      exact (pairwise_detectRound_iff htaken).mpr (h taken finding hprefix)

/-- Findings of one file under one title, on some lines of it. -/
def longFunction (id : String) (lineStart lineEnd : ℤ) : ReviewFinding where
  id := id
  reviewerType := "style"
  severity := .medium
  category := "style/length"
  title := "Function too long"
  description := "The function is too long."
  filePath := "src/app.py"
  lineStart := lineStart
  lineEnd := some lineEnd
  recommendation := "Split it."
  confidence := ⟨1, by decide, by decide⟩

/-- Titles are alike when they are the same. -/
def sameTitle (title1 title2 : String) : ℚ := if title1 = title2 then 1 else 0

/-- A finding that overlaps two others is merged into the first, which then overlaps the
second. -/
theorem not_deduplicates_bridgedFindings :
    ¬ ∀ (config : SwarmConfig) (textSimilarity : Similarity) (findings : List ReviewFinding),
      Deduplicates config textSimilarity findings := by
  intro h
  have hapart := (h {} sameTitle
    [longFunction "a" 10 20, longFunction "b" 30 40, longFunction "c" 15 35]).1
  revert hapart
  decide +kernel

end DoxAsdlc.Swarm
