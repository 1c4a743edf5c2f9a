import DoxAsdlc.Ideas.Services

/-!
# Classification under any answer

A classification takes what a language model answers as it comes: no answer, and no failure to
answer, keeps it from classifying the idea.

## Main definitions

* `classify` — `classify_idea`, with or without `force`.
* `Sound` — a result that a taxonomy and the bounds of a confidence allow.
* `Assigned` — what a classification leaves in the stores.

## Main results

* `sound_classified` — every answer becomes a sound result.
* `classify_withstands_answers` — a classification fails for a missing idea only.
-/

namespace DoxAsdlc.Ideas

open Interaction Interaction.Program
open Labels (LabelTaxonomy)
open JsonText

/-! ## Results -/

/-- A result with labels of the taxonomy only, and with a confidence between 0 and 1. -/
structure Sound (taxonomy : LabelTaxonomy) (result : ClassificationResult) : Prop where
  labels : ∀ label ∈ result.labels, label ∈ Labels.ids taxonomy.labels
  confidence : 0 ≤ result.confidence ∧ result.confidence ≤ 1

variable {env : Env} {taxonomy : LabelTaxonomy}

theorem mem_ids_of_validLabel {item : Value} {label : String}
    (h : validLabel taxonomy item = .ok (some label)) : label ∈ Labels.ids taxonomy.labels := by
  cases item with
  | str text =>
    cases text with
    | none => simp [validLabel] at h
    | some s =>
      by_cases hs : s ∈ Labels.ids taxonomy.labels
      · obtain rfl : s = label := by simpa [validLabel, hs] using h
        exact hs
      · simp [validLabel, hs] at h
  | _ => simp [validLabel] at h

/-- Whatever is given for labels, what is kept of it is in the taxonomy. -/
theorem mem_ids_of_validateLabels {labels : Value} {kept : List String}
    (h : validateLabels env labels taxonomy = .ok kept) :
    ∀ label ∈ kept, label ∈ Labels.ids taxonomy.labels := by
  intro label hlabel
  obtain ⟨items, -, h⟩ := bind_eq_ok.mp h
  obtain ⟨checked, hchecked, h⟩ := bind_eq_ok.mp h
  cases h
  obtain ⟨found, hfound, rfl : found = some label⟩ := List.mem_filterMap.mp hlabel
  obtain ⟨item, -, hitem⟩ := exists_of_forall₂ (forall₂_of_mapM hchecked).flip hfound
  exact mem_ids_of_validLabel hitem

theorem bounds_of_checkConfidence {x : FloatValue} {confidence : ℚ}
    (h : checkConfidence x = .ok confidence) : 0 ≤ confidence ∧ confidence ≤ 1 := by
  cases x with
  | finite x =>
    by_cases hx : 0 ≤ x ∧ x ≤ 1
    · obtain rfl : x = confidence := by simpa [checkConfidence, hx] using h
      exact hx
    · simp [checkConfidence, hx] at h
  | _ => simp [checkConfidence] at h

theorem sound_classifyWithLlm {prompt : String} {result : ClassificationResult}
    (h : classifyWithLlm env prompt taxonomy = .ok result) : Sound taxonomy result := by
  obtain ⟨⟨content, model⟩, -, h⟩ := bind_eq_ok.mp h
  obtain ⟨parsed, -, h⟩ := bind_eq_ok.mp h
  obtain ⟨labels, hlabels, h⟩ := bind_eq_ok.mp h
  obtain ⟨confidence, hconfidence, h⟩ := bind_eq_ok.mp h
  obtain ⟨reasoning, -, h⟩ := bind_eq_ok.mp h
  cases h
  exact ⟨mem_ids_of_validateLabels hlabels, bounds_of_checkConfidence hconfidence⟩

/-- The confidence of some matched words. -/
theorem bounds_of_matches (n : ℕ) :
    0 ≤ min (1 / 2 + (n : ℚ) * (1 / 20)) (7 / 10) ∧
      min (1 / 2 + (n : ℚ) * (1 / 20)) (7 / 10) ≤ 1 :=
  ⟨by positivity, (min_le_right _ _).trans (by norm_num)⟩

theorem sound_classifyWithRules (content : String) :
    Sound taxonomy (classifyWithRules env content taxonomy) where
  labels := by
    intro label hlabel
    obtain ⟨definition, hdefinition, rfl⟩ := List.mem_map.mp hlabel
    exact List.mem_map.mpr ⟨definition, List.mem_of_mem_filter hdefinition, rfl⟩
  confidence := by
    simp only [classifyWithRules]
    split_ifs
    · exact bounds_of_matches _
    · exact bounds_of_matches _
    · norm_num

/-- Every answer becomes a sound result, and so does every failure to answer. -/
theorem sound_classified (env : Env) (content : String) (taxonomy prompted : LabelTaxonomy) :
    Sound taxonomy (classified env content taxonomy prompted) := by
  cases h : classifyWithLlm env (env.classificationPrompt content (toPromptFormat prompted))
      taxonomy with
  | ok result => simpa [classified, h] using sound_classifyWithLlm h
  | error e => simpa [classified, h] using sound_classifyWithRules content

/-! ## Operations -/

variable (env)

/-- `classify_idea`. -/
def classify (force : Bool) : Async ClassificationResult := do
  match ← getIdea with
  | none => throw ⟨.valueError, "Idea not found: " ++ env.ideaId, []⟩
  | some idea =>
    if force = true ∨ idea.classification = .undetermined then classifyAnew env idea
    else
      match ← send .getResult with
      | some existing => return existing
      | none => classifyAnew env idea

@[simp] theorem eval_getIdea (w : Store) : getIdea.eval serve w = (.ok w.1.idea, w) := rfl

@[simp] theorem eval_getTaxonomy (w : Store) :
    (getTaxonomy env).eval serve w = (.ok (Stage.readTaxonomy env w.2), w) := by
  obtain ⟨s, _ | taxonomy⟩ := w <;> rfl

/-- An update of an idea that is there. -/
theorem eval_updateIdea {now : Time} {request : UpdateIdeaRequest} {doc : UpdateData}
    (hdoc : request.updateData now = .ok doc) {w : Store} {idea : Idea}
    (hidea : w.1.idea = some idea) :
    (updateIdea now request).eval serve w =
      (.ok (some (doc.apply idea)), ({ w.1 with idea := some (doc.apply idea) }, w.2)) := by
  simp only [updateIdea, eval_bind, eval_getIdea, hidea, hdoc, answer_ok, eval_ret]
  obtain ⟨⟨found, result⟩, labels⟩ := w
  cases hidea
  rfl

/-- The result is stored, and then the idea is updated. -/
theorem eval_storing {w : Store} {idea : Idea} (hidea : w.1.idea = some idea)
    (result : ClassificationResult) : ((Stage.storing idea result).rest env).eval serve w =
      (.ok result, ⟨some ((assignment env idea result).apply idea), some result⟩, w.2) := by
  let stored : Store := ({ w.1 with result := some result }, w.2)
  have hstored : (send (.setResult result)).eval serve w = (.ok (), stored) := rfl
  have hupdated := eval_updateIdea (w := stored) (updateData_updateRequest env idea result) hidea
  simp only [Stage.rest, Stage.finish, eval_bind, hstored, hupdated]
  rfl

/-- A classification that reads the taxonomy twice without a change between. -/
theorem eval_classifyAnew (w : Store) (idea : Idea) :
    (classifyAnew env idea).eval serve w =
      ((Stage.storing idea (classified env idea.content (Stage.readTaxonomy env w.2)
        (Stage.readTaxonomy env w.2))).rest env).eval serve w := by
  simp only [classifyAnew, Stage.rest, Stage.finish, eval_bind, eval_getTaxonomy]

/-! ## What a classification leaves -/

variable {env}

/-- What a classification leaves in the stores: its result is stored, the idea has the
classification of the result, and its labels are the earlier ones and those of the result. -/
structure Assigned (taxonomy : LabelTaxonomy) (idea : Idea) (result : ClassificationResult)
    (s : IdeaStore) : Prop where
  sound : Sound taxonomy result
  stored : s.result = some result
  idea : ∃ after, s.idea = some after ∧
    after.classification = .of result.classification ∧ after.labels.Nodup ∧
    (∀ label, label ∈ after.labels ↔ label ∈ idea.labels ∨ label ∈ result.labels) ∧
    after = { idea with
      classification := after.classification
      labels := after.labels
      updatedAt := after.updatedAt }

/-- Whether an idea is classified, and not answered with a result that is stored for it. -/
def Classifies (force : Bool) (idea : Idea) (stored : Option ClassificationResult) : Prop :=
  force = true ∨ idea.classification = .undetermined ∨ stored = none

theorem assigned_assignment {result : ClassificationResult} (hsound : Sound taxonomy result)
    (idea : Idea) :
    Assigned taxonomy idea result
      ⟨some ((assignment env idea result).apply idea), some result⟩ where
  sound := hsound
  stored := rfl
  idea := ⟨_, rfl, rfl, nodup_mergedLabels .., fun _ => mem_mergedLabels env, rfl⟩

/-- The two ways in which `classify_idea` goes on with an idea. -/
theorem eval_classify {force : Bool} {w : Store} {idea : Idea} (hidea : w.1.idea = some idea) :
    (Classifies force idea w.1.result ∧
      (classify env force).eval serve w = (classifyAnew env idea).eval serve w) ∨
    ∃ existing, ¬ Classifies force idea w.1.result ∧ w.1.result = some existing ∧
      (classify env force).eval serve w = (.ok existing, w) := by
  by_cases hforced : force = true ∨ idea.classification = .undetermined
  · left
    refine ⟨hforced.imp_right .inl, ?_⟩
    simp only [classify, eval_bind, eval_getIdea, hidea, if_pos hforced]
  · cases hresult : w.1.result with
    | none =>
      left
      refine ⟨.inr (.inr rfl), ?_⟩
      have hanswer : (send .getResult).eval serve w = (.ok none, w) := by
        rw [← hresult]
        rfl
      simp only [classify, eval_bind, eval_getIdea, hidea, if_neg hforced, hanswer]
    | some existing =>
      right
      have hanswer : (send .getResult).eval serve w = (.ok (some existing), w) := by
        rw [← hresult]
        rfl
      refine ⟨existing, ?_, rfl, ?_⟩
      · simpa [Classifies, or_assoc] using hforced
      · simp only [classify, eval_bind, eval_getIdea, hidea, if_neg hforced, hanswer]
        rfl

/-- **Classification is robust.**  Whatever a language model answers, also where it fails to, and
whatever the idea and the taxonomy are: a classification of an idea that is there returns a result.
Where it classifies the idea, this result is sound and stored, the idea has its classification, and
its labels are the earlier ones together with those of the result; otherwise it is the one that is
stored. -/
theorem classify_withstands_answers (env : Env) (force : Bool) (w : Store) :
    match w.1.idea with
    | none => (classify env force).eval serve w =
        (.error ⟨.valueError, "Idea not found: " ++ env.ideaId, []⟩, w)
    | some idea => ∃ result after, (classify env force).eval serve w = (.ok result, after) ∧
        after.2 = w.2 ∧
        (Classifies force idea w.1.result →
          Assigned (Stage.readTaxonomy env w.2) idea result after.1) ∧
        (¬ Classifies force idea w.1.result → w.1.result = some result ∧ after = w) := by
  cases hidea : w.1.idea with
  | none =>
    simp only [classify, eval_bind, eval_getIdea, hidea]
    rfl
  | some idea =>
    obtain ⟨hclassifies, heval⟩ | ⟨existing, hnot, hresult, heval⟩ := eval_classify hidea
    · rw [eval_classifyAnew env w idea, eval_storing env hidea] at heval
      exact ⟨_, _, heval, rfl, fun _ => assigned_assignment (sound_classified ..) idea,
        fun hnot => absurd hclassifies hnot⟩
    · exact ⟨existing, w, heval, rfl, fun h => absurd h hnot, fun _ => ⟨hresult, rfl⟩⟩

end DoxAsdlc.Ideas
