import DoxAsdlc.Rlm.Orchestrator
import Mathlib.Data.List.Infix

/-!
# The accounts of the budget

The query tool records each of its attempts before it makes it, and makes it only if the
budget allows.  The agent makes one attempt of its own in each round, which the budget does
not count, but a round is begun only while there is budget left.  So in any order of rounds
and queries the attempts of the tool stay within the limits, and no attempt at all is made
once the total is used up: `kept_of_perform`.

## Main definitions

* `toolAttempts`, `iterationAttempts` — how many attempts there were.
* `Session.Kept` — the limits are kept.
* `Session.Accounted` — the invariant: the counters count the attempts.
-/

namespace DoxAsdlc.Rlm

open Interaction

/-- The attempts of the query tool. -/
def toolAttempts (trace : List Attempt) : ℕ := trace.countP fun a => a.caller = .tool

/-- Those of one iteration of the budget. -/
def iterationAttempts (i : ℕ) (trace : List Attempt) : ℕ :=
  trace.countP fun a => a.caller = .tool && a.iteration = i

/-- A session in which nothing has happened. -/
def Session.fresh (limits : BudgetLimits) (cache : SubCallCache) : Session where
  budget := { limits := limits }
  cache := cache

/-- The limits are kept. -/
structure Session.Kept (limits : BudgetLimits) (s : Session) : Prop where
  total : toolAttempts s.trace ≤ limits.maxTotal
  iteration : ∀ i, iterationAttempts i s.trace ≤ limits.maxPerIteration
  recorded : s.budget.totalUsed = toolAttempts s.trace
  remaining : 0 ≤ s.budget.remaining
  exhausted : ∀ before a, before ++ [a] <+: s.trace → toolAttempts before < limits.maxTotal

/-- The counters count the attempts of the tool, and there was budget for every attempt. -/
structure Session.Accounted (limits : BudgetLimits) (s : Session) : Prop where
  limits_eq : s.budget.limits = limits
  total : s.budget.totalUsed = toolAttempts s.trace
  total_le : s.budget.totalUsed ≤ limits.maxTotal
  iteration : s.budget.iterationUsed = iterationAttempts s.budget.iterationCount s.trace
  iteration_le : ∀ i, iterationAttempts i s.trace ≤ limits.maxPerIteration
  past : ∀ a ∈ s.trace, a.iteration ≤ s.budget.iterationCount
  exhausted : ∀ before a, before ++ [a] <+: s.trace → toolAttempts before < limits.maxTotal

@[simp] theorem toolAttempts_snoc (l : List Attempt) (a : Attempt) :
    toolAttempts (l ++ [a]) = toolAttempts l + if a.caller = .tool then 1 else 0 := by
  simp [toolAttempts]

@[simp] theorem iterationAttempts_snoc (i : ℕ) (l : List Attempt) (a : Attempt) :
    iterationAttempts i (l ++ [a])
      = iterationAttempts i l + if a.caller = .tool ∧ a.iteration = i then 1 else 0 := by
  simp [iterationAttempts]

/-- A prefix of a longer list is one of the list, or all of it. -/
theorem snoc_prefix_snoc {X : Type} {l before : List X} {x y : X} :
    before ++ [y] <+: l ++ [x] ↔ before ++ [y] <+: l ∨ before = l ∧ y = x := by
  rw [List.prefix_concat_iff]
  constructor
  · rintro (h | h)
    · exact .inr (by simpa using h)
    · exact .inl h
  · rintro (h | ⟨rfl, rfl⟩)
    · exact .inr h
    · exact .inl rfl

namespace Session

variable {limits : BudgetLimits} {s s' : Session}

theorem Accounted.kept (h : s.Accounted limits) : s.Kept limits where
  total := h.total ▸ h.total_le
  iteration := h.iteration_le
  recorded := h.total
  remaining := by
    have hle := h.total_le
    rw [SubCallBudgetManager.remaining, h.limits_eq]
    omega
  exhausted := h.exhausted

theorem accounted_fresh (limits : BudgetLimits) (cache : SubCallCache) :
    (fresh limits cache).Accounted limits where
  limits_eq := rfl
  total := rfl
  total_le := Nat.zero_le _
  iteration := rfl
  iteration_le := fun _ => Nat.zero_le _
  past := nofun
  exhausted := by
    intro before a h
    simp [fresh] at h

/-- Nothing but the budget and the attempts matters. -/
theorem Accounted.congr (h : s.Accounted limits) (hbudget : s'.budget = s.budget)
    (htrace : s'.trace = s.trace) : s'.Accounted limits := by
  obtain ⟨h₁, h₂, h₃, h₄, h₅, h₆, h₇⟩ := h
  constructor
  all_goals simpa only [hbudget, htrace]

/-- There was budget for an attempt that is made while there is budget. -/
theorem Accounted.exhausted_snoc (h : s.Accounted limits)
    (hroom : s.budget.totalUsed < limits.maxTotal) (a : Attempt) :
    ∀ before b, before ++ [b] <+: s.trace ++ [a] → toolAttempts before < limits.maxTotal := by
  intro before b hb
  rcases snoc_prefix_snoc.mp hb with hold | ⟨rfl, -⟩
  · exact h.exhausted before b hold
  · rwa [← h.total]

theorem Accounted.past_snoc (h : s.Accounted limits) {a : Attempt}
    (hi : a.iteration = s.budget.iterationCount) :
    ∀ b ∈ s.trace ++ [a], b.iteration ≤ s.budget.iterationCount := by
  intro b hb
  rcases List.mem_append.mp hb with hold | hnew
  · exact h.past b hold
  · rw [List.mem_singleton.mp hnew, hi]

/-- An attempt of the agent, while there is budget. -/
theorem Accounted.agent (h : s.Accounted limits) (hroom : s.budget.totalUsed < limits.maxTotal)
    {a : Attempt} (ha : a.caller = .agent) (hi : a.iteration = s.budget.iterationCount)
    (hbudget : s'.budget = s.budget) (htrace : s'.trace = s.trace ++ [a]) :
    s'.Accounted limits where
  limits_eq := hbudget ▸ h.limits_eq
  total := by simp [hbudget, htrace, ha, h.total]
  total_le := hbudget ▸ h.total_le
  iteration := by simp [hbudget, htrace, ha, h.iteration]
  iteration_le := by simpa [htrace, ha] using h.iteration_le
  past := by
    rw [hbudget, htrace]
    exact h.past_snoc hi
  exhausted := by
    rw [htrace]
    exact h.exhausted_snoc hroom a

/-- A recorded attempt of the tool, while there is budget. -/
theorem Accounted.tool (h : s.Accounted limits) (hroom : s.budget.canMakeCall = true)
    {a : Attempt} (ha : a.caller = .tool) (hi : a.iteration = s.budget.iterationCount)
    (hbudget : s'.budget = s.budget.charged 1) (htrace : s'.trace = s.trace ++ [a]) :
    s'.Accounted limits := by
  obtain ⟨htotal, hiteration⟩ := SubCallBudgetManager.canMakeCall_iff.mp hroom
  rw [h.limits_eq] at htotal hiteration
  have hcount : iterationAttempts s.budget.iterationCount s'.trace
      = iterationAttempts s.budget.iterationCount s.trace + 1 := by
    simp [htrace, ha, hi]
  constructor
  · exact hbudget ▸ h.limits_eq
  · simp [hbudget, htrace, ha, SubCallBudgetManager.charged, h.total]
  · rw [hbudget]
    exact htotal
  · rw [hbudget]
    exact (congrArg (· + 1) h.iteration).trans hcount.symm
  · intro i
    by_cases hsame : i = s.budget.iterationCount
    · rw [hsame, hcount, ← h.iteration]
      exact hiteration
    · have hother : ¬ s.budget.iterationCount = i := fun heq => hsame heq.symm
      simpa [htrace, ha, hi, hother] using h.iteration_le i
  · rw [hbudget, htrace]
    exact h.past_snoc hi
  · rw [htrace]
    exact h.exhausted_snoc htotal a

/-- A new iteration has no attempts yet. -/
theorem Accounted.reset (h : s.Accounted limits)
    (hbudget : s'.budget = s.budget.resetIteration) (htrace : s'.trace = s.trace) :
    s'.Accounted limits where
  limits_eq := hbudget ▸ h.limits_eq
  total := by
    rw [hbudget, htrace]
    exact h.total
  total_le := hbudget ▸ h.total_le
  iteration := by
    rw [hbudget, htrace]
    refine (List.countP_eq_zero.mpr fun a ha => ?_).symm
    have hpast := h.past a ha
    have hne : a.iteration ≠ s.budget.iterationCount + 1 := by omega
    simp [SubCallBudgetManager.resetIteration, hne]
  iteration_le := by
    rw [htrace]
    exact h.iteration_le
  past := by
    rw [hbudget, htrace]
    exact fun a ha => Nat.le_succ_of_le (h.past a ha)
  exhausted := by
    rw [htrace]
    exact h.exhausted

end Session

/-! ## The code keeps the accounts -/

variable {limits : BudgetLimits} (env : Environment) (settings : Settings)

/-- What a query does to the budget and the attempts: nothing, or one recorded attempt. -/
theorem query_cases (args : QueryArgs) (s : Session) :
    ((query env settings args s).2.budget = s.budget ∧
      (query env settings args s).2.trace = s.trace) ∨
    (s.budget.canMakeCall = true ∧
      (query env settings args s).2.budget = s.budget.charged 1 ∧
      (query env settings args s).2.trace
        = s.trace ++ [⟨.tool, args.request env settings, s.budget.iterationCount⟩]) := by
  cases hroom : s.budget.canMakeCall with
  | false =>
    rw [query_refused hroom]
    exact .inl ⟨rfl, rfl⟩
  | true =>
    cases hfound : (s.cache.get env.digest env.render args.prompt
        (buildContext env args.prompt args.context)).1 with
    | some response =>
      rw [query_hit hroom hfound]
      exact .inl ⟨rfl, rfl⟩
    | none =>
      cases hclient : env.client s.trace (args.request env settings) with
      | error e =>
        rw [query_failed hroom hfound hclient]
        exact .inr ⟨rfl, rfl, rfl⟩
      | ok response =>
        rw [query_answered hroom hfound hclient]
        exact .inr ⟨rfl, rfl, rfl⟩

theorem keeps_query (args : QueryArgs) :
    (query env settings args).Keeps (Session.Accounted limits) := by
  intro s hs
  obtain ⟨hbudget, htrace⟩ | ⟨hroom, hbudget, htrace⟩ := query_cases env settings args s
  · exact hs.congr hbudget htrace
  · exact hs.tool hroom rfl rfl hbudget htrace

theorem keeps_retrying (args : QueryArgs) (maxRetries : ℤ) (left : ℕ) :
    (retrying env settings args maxRetries left).Keeps (Session.Accounted limits) := by
  induction left with
  | zero => exact Act.keeps_raise _
  | succ left ih =>
    refine Act.keeps_tryCatch (keeps_query env settings args) fun e => ?_
    cases e with
    | rlmError message => exact ih
    | budgetExceeded message limit used => exact Act.keeps_raise _
    | exception message => exact Act.keeps_raise _

theorem keeps_invoke (toolName : Json) (args : Args) :
    (invoke env settings toolName args).Keeps (Session.Accounted limits) := by
  cases toolName with
  | str name =>
    change Act.Keeps _ (if _ then _ else if _ then _ else if _ then _ else _)
    split
    · exact Act.keeps_raise _
    split
    · exact Act.keeps_raise _
    split
    · exact Act.keeps_bind (Act.keeps_answer _) fun queryArgs =>
        Act.keeps_bind (keeps_query env settings queryArgs) fun _ => Act.keeps_ret _
    · exact Act.keeps_bind (Act.keeps_read _) fun _ => Act.keeps_answer _
  | _ => exact Act.keeps_raise _

theorem keeps_invokeSafe (toolName : Json) (args : Args) :
    (invokeSafe env settings toolName args).Keeps (Session.Accounted limits) := by
  unfold invokeSafe
  refine Act.keeps_tryCatch (Act.keeps_bind (keeps_invoke env settings toolName args) ?_) ?_
  · exact fun _ => Act.keeps_ret _
  · exact fun _ => Act.keeps_ret _

theorem keeps_executeToolCall (call : Json) :
    (executeToolCall env settings call).Keeps (Session.Accounted limits) := by
  unfold executeToolCall
  split
  · split
    · split
      · exact Act.keeps_raise _
      · exact Act.keeps_bind (keeps_invokeSafe env settings _ _) fun _ => Act.keeps_ret _
    · exact Act.keeps_raise _
  · exact Act.keeps_raise _

theorem keeps_executeToolCalls (calls : List Json) :
    (executeToolCalls env settings calls).Keeps (Session.Accounted limits) := by
  induction calls with
  | nil => exact Act.keeps_ret _
  | cons call calls ih =>
    exact Act.keeps_bind (keeps_executeToolCall env settings call) fun _ =>
      Act.keeps_bind ih fun _ => Act.keeps_ret _

/-- The call of the agent, while there is budget. -/
theorem leads_callLlm (userMessage : String) :
    (callLlm env settings userMessage).Leads
      (fun s => s.Accounted limits ∧ s.budget.totalUsed < limits.maxTotal)
      (Session.Accounted limits) := by
  refine Act.leads_bind (Q := Session.Accounted limits) ?_ (fun response => ?_) fun _ hs => hs
  · intro s hs
    exact hs.1.agent hs.2 rfl rfl rfl rfl
  · exact Act.leads_bind (Act.leads_update fun s hs => hs.congr rfl rfl)
      (fun _ => Act.keeps_ret _) fun _ hs => hs

/-- An iteration, while there is budget. -/
theorem leads_runIteration (query context : String) (history : List ExplorationStep)
    (accumulated : List String) :
    (runIteration env settings query context history accumulated).Leads
      (fun s => s.Accounted limits ∧ s.budget.totalUsed < limits.maxTotal)
      (Session.Accounted limits) := by
  have hroom : ∀ s : Session, s.Accounted limits ∧ s.budget.totalUsed < limits.maxTotal →
      s.Accounted limits := fun _ hs => hs.1
  refine Act.leads_bind (Act.leads_update fun s hs => ?_) (fun _ => ?_) hroom
  · exact ⟨hs.1.congr rfl rfl, hs.2⟩
  refine Act.leads_bind (Act.keeps_answer _) (fun userMessage => ?_) hroom
  refine Act.leads_bind (leads_callLlm env settings userMessage) (fun response => ?_) fun _ hs => hs
  refine Act.keeps_bind (Act.keeps_answer _) fun iteration => ?_
  exact Act.keeps_bind (keeps_executeToolCalls env settings _) fun _ => Act.keeps_ret _

theorem keeps_collectCitations (calls : List ExecutedCall) :
    (collectCitations env calls).Keeps fun s => s.2.Accounted limits := by
  induction calls with
  | nil => exact Act.keeps_ret _
  | cons call calls ih =>
    exact Act.keeps_bind (Act.keeps_answer _) fun _ =>
      Act.keeps_bind (Act.leads_update fun _ hs => hs) fun _ => ih

/-- A round keeps the accounts: it is begun only while there is budget. -/
theorem keeps_round (query context : String) (iteration : ℕ) :
    (round env settings query context iteration).Keeps fun s => s.2.Accounted limits := by
  intro s hs
  change ((if s.2.budget.canMakeCall = false then _ else _ : Round (Option String)) s).2.2.Accounted
    limits
  split
  · exact hs
  · next hroom =>
    have htotal : s.2.budget.totalUsed < limits.maxTotal := by
      rw [← hs.limits_eq]
      exact (SubCallBudgetManager.canMakeCall_iff.mp (by simpa using hroom)).1
    refine Act.leads_bind (P := fun s => s.2.Accounted limits ∧ s.2.budget.totalUsed < limits.maxTotal)
      (Act.leads_onSnd (leads_runIteration env settings query context _ _)) (fun result => ?_)
      (fun _ hs => hs) s ⟨hs, htotal⟩
    refine Act.keeps_bind (Act.leads_update fun _ hs => hs) fun _ => ?_
    refine Act.keeps_bind (keeps_collectCitations env _) fun _ => ?_
    exact Act.keeps_bind (Act.leads_update fun _ hs => hs.reset rfl rfl) fun _ => Act.keeps_ret _

theorem accounted_perform (ops : List Op) {s : Session} (hs : s.Accounted limits) :
    (perform env settings s ops).Accounted limits := by
  induction ops generalizing s with
  | nil => exact hs
  | cons op ops ih =>
    refine ih ?_
    cases op with
    | round q context iteration progress =>
      exact keeps_round env settings q context iteration (progress, s) hs
    | query args => exact keeps_query env settings args s hs
    | queryWithRetry args maxRetries =>
      exact keeps_retrying env settings args maxRetries _ s hs

theorem accounted_explorationLoop (around : Surroundings) (query context : String)
    (iteration left : ℕ) {s : Progress × Session} (hs : s.2.Accounted limits) :
    (explorationLoop env settings around query context iteration left s).2.2.Accounted limits := by
  induction left generalizing iteration s with
  | zero => exact accounted_perform env settings _ hs
  | succ left ih =>
    have hothers := accounted_perform env settings (around.others iteration) hs
    rw [explorationLoop]
    split
    · exact hothers
    · have hround : (round env settings query context iteration
          (s.1, perform env settings s.2 (around.others iteration))).2.2.Accounted limits :=
        keeps_round env settings query context iteration (s.1, _) hothers
      rcases hr : round env settings query context iteration
          (s.1, perform env settings s.2 (around.others iteration)) with ⟨_ | _ | direction, s'⟩
      · rw [hr] at hround
        exact hround
      · rw [hr] at hround
        exact ih (iteration + 1) hround
      · rw [hr] at hround
        exact hround

/-- **The limits are kept.**  After any rounds and queries, in any order, and after any
exploration that follows with whatever others do meanwhile. -/
theorem kept_of_perform (limits : BudgetLimits) (cache : SubCallCache) (ops : List Op) :
    (perform env settings (Session.fresh limits cache) ops).Kept limits ∧
      ∀ (around : Surroundings) (query : String) (contextHints : List String),
        (explored env settings around query contextHints
          (perform env settings (Session.fresh limits cache) ops)).2.2.Kept limits := by
  have hops := accounted_perform env settings ops (Session.accounted_fresh limits cache)
  exact ⟨hops.kept, fun around query contextHints =>
    (accounted_explorationLoop env settings around query _ 0 settings.maxIterations hops).kept⟩

/-! ## An exploration whose tool queries the model -/

/-- A model that always asks for a query. -/
def askingModel : Environment where
  client := fun _ _ => .ok { texts := ["<tool_calls>.</tool_calls>"] }
  clock := fun n => n
  digest := id
  render := fun _ => ""
  jsonLoads := fun _ => .ok (some (.arr [.obj
    [("tool", .str "llm_query"), ("args", .obj [("prompt", .str "why?")])]]))
  reprResult := fun result => result.response
  tool := fun _ _ _ => .ok ""

/-- A budget for one call. -/
def oneCall : BudgetLimits where
  maxTotal := 1
  maxPerIteration := 1
  total_pos := Nat.one_pos
  iteration_pos := Nat.one_pos
  iteration_le := Nat.one_pos

/-- Nobody else, and time enough. -/
def undisturbed : Surroundings := ⟨fun _ => [], fun _ => false⟩

/-- The call of the agent and the one of its tool are two, where the total is one. -/
theorem two_attempts_of_one :
    oneCall.maxTotal = 1 ∧
      (explored askingModel { agentSystemPrompt := "" } undisturbed "why?" []
        (Session.fresh oneCall {})).2.2.trace.length = 2 :=
  ⟨rfl, by decide +kernel⟩

end DoxAsdlc.Rlm
