import DoxAsdlc.Rlm.Orchestrator
import Mathlib.Data.List.Nodup

/-!
# The findings of an exploration

Every round adds the findings of its iteration to one list, each text once.  The result is
built from another list, that nothing is ever added to, and from the text of the synthesis,
that only a loop that returns gets.  So the result has no findings, and the findings are in
its synthesis exactly when the loop returned or there are none: `result_findings`.

## Main definitions

* `found` — the findings of iterations, each once, in the order in which they came.
* `RLMResult.Has`, `RLMResult.Tells` — a result has findings, or tells them in its synthesis.
-/

namespace DoxAsdlc.Rlm

open Interaction

/-- The findings of some iterations, each once. -/
def found (completed : List (List String)) : List String := accumulate [] completed.flatten

theorem accumulate_append (accumulated l l' : List String) :
    accumulate accumulated (l ++ l') = accumulate (accumulate accumulated l) l' :=
  List.foldl_append

theorem found_snoc (completed : List (List String)) (l : List String) :
    found (completed ++ [l]) = accumulate (found completed) l := by
  rw [found, List.flatten_concat, accumulate_append]
  rfl

/-- The result has these findings. -/
def RLMResult.Has (r : RLMResult) (findings : List String) : Prop :=
  r.findings.map Finding.description = findings

/-- The synthesis of the result numbers these findings after some message. -/
def RLMResult.Tells (r : RLMResult) (findings : List String) : Prop :=
  ∃ message, r.synthesis = synthesizeFindings findings message

theorem synthesizeFindings_ne_empty {findings : List String} (h : findings ≠ [])
    (message : String) : synthesizeFindings findings message ≠ "" := by
  intro hempty
  have hnil := congrArg String.toList hempty
  cases findings with
  | nil => exact h rfl
  | cons finding findings =>
    simp [synthesizeFindings, List.intercalate] at hnil

/-! ## What the rounds record -/

/-- Between rounds, the accumulated findings are those of the completed iterations, and the
list of the result is empty. -/
structure Progress.Faithful (p : Progress) : Prop where
  accumulated : p.accumulatedFindings = found p.completed
  none : p.allFindings = []

variable (env : Environment) (settings : Settings)

/-- The citations touch nothing else. -/
theorem keeps_lists (calls : List ExecutedCall) {P : Progress → Prop}
    (hP : ∀ p citations, P p → P { p with citations := citations }) :
    (collectCitations env calls).Keeps fun s => P s.1 := by
  induction calls with
  | nil => exact Act.keeps_ret _
  | cons call calls ih =>
    exact Act.keeps_bind (Act.keeps_answer _) fun _ =>
      Act.keeps_bind (Act.leads_update fun s hs => hP s.1 _ hs) fun _ => ih

/-- What a round does to the lists: where it comes to its end, the findings of its iteration
are recorded, and in any case the list of the result stays empty. -/
theorem meets_round (query context : String) (iteration : ℕ) :
    (round env settings query context iteration).Meets (fun s => s.1.Faithful)
      (fun _ s => s.1.Faithful) (fun _ s => s.1.allFindings = []) := by
  intro s hs
  -- The round is judged by the state that it reads at its beginning.
  suffices h : Act.Meets (fun s' => s' = s)
      (round env settings query context iteration) (fun _ s => s.1.Faithful)
      (fun _ s => s.1.allFindings = []) from h s rfl
  refine Act.meets_bind (Q := fun r s' => r = s ∧ s' = s) ?_ fun r => ?_
  · rintro _ rfl
    exact ⟨rfl, rfl⟩
  split
  · refine Act.meets_raise ?_
    rintro _ ⟨-, rfl⟩
    exact hs.none
  refine Act.meets_bind (Q := fun _ s' => s'.1 = s.1) ?_ fun result => ?_
  · have hlists : Act.Leads (fun s' => s'.1 = s.1) (fun s' => s'.1 = s.1)
        (Act.onSnd (τ := Progress)
          (runIteration env settings query context r.1.steps r.1.accumulatedFindings)) :=
      fun s' hs' => hs'
    intro s' hs'
    refine hlists.meets.weaken (fun e s' hs' => ?_) s' (congrArg Prod.fst hs'.2)
    rw [hs']
    exact hs.none
  refine Act.meets_bind (Q := fun _ s' =>
    s'.1.accumulatedFindings = found (s.1.completed ++ [result.findings]) ∧
      s'.1.completed = s.1.completed ∧ s'.1.allFindings = []) ?_ fun _ => ?_
  · intro s' hs'
    refine ⟨?_, ?_, ?_⟩
    · change accumulate s'.1.accumulatedFindings result.findings = _
      rw [hs', hs.accumulated, found_snoc]
    · change s'.1.completed = _
      rw [hs']
    · change s'.1.allFindings = _
      rw [hs', hs.none]
  refine Act.meets_bind ((keeps_lists env result.toolCalls (P := fun p =>
    p.accumulatedFindings = found (s.1.completed ++ [result.findings]) ∧
      p.completed = s.1.completed ∧ p.allFindings = []) fun _ _ hp => hp).meets.weaken
        fun _ _ hp => hp.2.2) fun _ => ?_
  refine Act.meets_bind (Q := fun _ s' => s'.1.Faithful) ?_ fun _ => Act.meets_ret fun _ hp => hp
  rintro s' ⟨haccumulated, hcompleted, hnone⟩
  refine ⟨haccumulated.trans ?_, hnone⟩
  change _ = found (s'.1.completed ++ [result.findings])
  rw [hcompleted]

/-- What the loop leaves behind: it returns, or is out of time, between rounds. -/
theorem explorationLoop_spec (around : Surroundings) (query context : String)
    (iteration left : ℕ) {s : Progress × Session} (hs : s.1.Faithful) :
    (explorationLoop env settings around query context iteration left s).2.1.allFindings = [] ∧
      ∀ message,
        (explorationLoop env settings around query context iteration left s).1
          = .returned message →
        (explorationLoop env settings around query context iteration left s).2.1.Faithful := by
  induction left generalizing iteration s with
  | zero => exact ⟨hs.none, fun _ _ => hs⟩
  | succ left ih =>
    have hround := meets_round env settings query context iteration
      (s.1, perform env settings s.2 (around.others iteration)) hs
    rw [explorationLoop]
    split
    · exact ⟨hs.none, nofun⟩
    · rcases hr : round env settings query context iteration
          (s.1, perform env settings s.2 (around.others iteration)) with ⟨_ | _ | direction, s'⟩
      · rw [hr] at hround
        exact ⟨hround, nofun⟩
      · rw [hr] at hround
        exact ih (iteration + 1) hround
      · rw [hr] at hround
        exact ⟨hround.none, fun _ _ => hround⟩

section

variable {settings} {query : String} {contextHints : List String} {taskId : String} {stop : Stop}
  {p : Progress} {s : Session}

theorem findings_buildResult (h : p.allFindings = []) :
    (buildResult settings query contextHints taskId stop p s).findings = [] := by
  cases stop with
  | returned message => exact h
  | timedOut => rfl
  | raised e => cases e <;> simp [buildResult, RLMResult.failure, h]

/-- Only a loop that returns gets a synthesis. -/
theorem synthesis_buildResult (h : p.allFindings = []) (hstop : ∀ message, stop ≠ .returned message) :
    (buildResult settings query contextHints taskId stop p s).synthesis = "" := by
  cases stop with
  | returned message => exact absurd rfl (hstop message)
  | timedOut => rfl
  | raised e => cases e <;> simp [buildResult, RLMResult.failure, h]

end

/-- **The findings of an exploration.**  Whatever happens, the result has the findings of the
completed iterations exactly when there are none; and its synthesis tells them exactly when
there are none or the loop has returned, at the word of the agent or at its last iteration. -/
theorem result_findings (around : Surroundings) (query : String) (contextHints : List String)
    (taskId : String) (s : Session) :
    let outcome := explored env settings around query contextHints s
    let findings := found outcome.2.1.completed
    let result := explore env settings around query contextHints taskId s
    (result.Has findings ↔ findings = []) ∧
      (result.Tells findings ↔ findings = [] ∨ ∃ message, outcome.1 = .returned message) := by
  intro outcome findings result
  obtain ⟨hnone, hfaithful⟩ := explorationLoop_spec env settings around query
    (buildInitialContext contextHints) 0 settings.maxIterations (s := ({}, s)) ⟨rfl, rfl⟩
  have hresult : result.findings = [] := findings_buildResult hnone
  refine ⟨?_, ?_, ?_⟩
  · rw [RLMResult.Has, hresult]
    exact eq_comm
  · rintro ⟨message, htells⟩
    by_contra hneither
    obtain ⟨hne, hstop⟩ := not_or.mp hneither
    refine synthesizeFindings_ne_empty hne message (htells.symm.trans ?_)
    exact synthesis_buildResult hnone fun m hm => hstop ⟨m, hm⟩
  · rintro (hempty | ⟨message, hreturned⟩)
    · refine ⟨result.synthesis, ?_⟩
      rw [hempty]
      rfl
    · refine ⟨message, ?_⟩
      have haccumulated := (hfaithful message hreturned).accumulated
      change (buildResult _ _ _ _ outcome.1 _ _).synthesis = _
      rw [hreturned]
      exact congrArg (synthesizeFindings · message) haccumulated

/-! ## An exploration that runs out of budget -/

/-- A model that finds something and asks for a query. -/
def findingModel : Environment where
  client := fun _ _ => .ok {
    texts := ["<findings>\n- a cache\n</findings><tool_calls>.</tool_calls>"] }
  clock := fun n => n
  digest := id
  render := fun _ => ""
  jsonLoads := fun _ => .ok (some (.arr [.obj
    [("tool", .str "llm_query"), ("args", .obj [("prompt", .str "why?")])]]))
  reprResult := fun result => result.response
  tool := fun _ _ _ => .ok ""

/-- What it finds is in neither place once the budget is used up. -/
theorem finding_lost :
    let s : Session := {
      budget := { limits := { maxTotal := 1, maxPerIteration := 1 } }
      cache := {} }
    let around : Surroundings := ⟨fun _ => [], fun _ => false⟩
    let settings : Settings := { agentSystemPrompt := "" }
    found (explored findingModel settings around "where?" [] s).2.1.completed = ["a cache"] ∧
      (explore findingModel settings around "where?" [] "task-1" s).findings = [] ∧
      (explore findingModel settings around "where?" [] "task-1" s).synthesis = "" :=
  by decide +kernel

end DoxAsdlc.Rlm
