import DoxAsdlc.Interaction.Stateful
import DoxAsdlc.Rlm.Cache

/-!
# The query tool

The query tool may call the API so many times in all, and so many times in one iteration.
A call is checked and recorded by `record_call`, and `reset_iteration` begins a new
iteration.

A query looks into the cache and, if nothing is there, records a call with the budget and
makes it.  The client of the API, the clock and the digest are an environment; the client
may answer each attempt according to all attempts before.

## Main definitions

* `BudgetLimits` — the limits, as the constructor checks them.
* `SubCallBudgetManager` — the limits and the counters.
* `canMakeCall`, `recordCall`, `resetIteration` — what is done with them.
* `Environment`, `Settings` — what is given.
* `Session` — the objects that the explorations of one orchestrator share.
* `query`, `queryWithRetry` — the tool.
-/

namespace DoxAsdlc.Rlm

/-- The limits. -/
structure BudgetLimits where
  maxTotal : ℕ := 50
  maxPerIteration : ℕ := 8
  total_pos : 0 < maxTotal := by decide
  iteration_pos : 0 < maxPerIteration := by decide
  iteration_le : maxPerIteration ≤ maxTotal := by decide

structure BudgetSnapshot where
  totalUsed : ℕ
  iterationUsed : ℕ
  remaining : ℤ

structure SubCallBudgetManager where
  limits : BudgetLimits
  totalUsed : ℕ := 0
  iterationUsed : ℕ := 0
  iterationCount : ℕ := 0
  history : List BudgetSnapshot := []

namespace SubCallBudgetManager

variable (m : SubCallBudgetManager)

def remaining : ℤ := (m.limits.maxTotal : ℤ) - m.totalUsed

def snapshot : BudgetSnapshot := ⟨m.totalUsed, m.iterationUsed, m.remaining⟩

/-- `can_make_call`. -/
def canMakeCall (count : ℕ := 1) : Bool :=
  1 ≤ count && m.totalUsed + count ≤ m.limits.maxTotal &&
    m.iterationUsed + count ≤ m.limits.maxPerIteration

/-- The counters after calls. -/
def charged (count : ℕ) : SubCallBudgetManager :=
  { m with totalUsed := m.totalUsed + count, iterationUsed := m.iterationUsed + count }

/-- `record_call`. -/
def recordCall (count : ℕ := 1) : Except Raised SubCallBudgetManager :=
  if count < 1 then .ok m
  else if m.canMakeCall count = false then
    .error (.budgetExceeded ("Cannot make " ++ toString count ++ " sub-call(s): budget exceeded")
      m.limits.maxTotal m.totalUsed)
  else .ok (m.charged count)

/-- `reset_iteration`. -/
def resetIteration : SubCallBudgetManager :=
  { m with
    history := m.history ++ [m.snapshot]
    iterationCount := m.iterationCount + 1
    iterationUsed := 0 }

variable {m}

/-- A call can be made while neither limit is reached. -/
theorem canMakeCall_iff : m.canMakeCall = true ↔
    m.totalUsed < m.limits.maxTotal ∧ m.iterationUsed < m.limits.maxPerIteration := by
  simp only [canMakeCall, Bool.and_eq_true, decide_eq_true_eq]
  omega

/-- A call that can be made is recorded. -/
theorem recordCall_of_canMakeCall (h : m.canMakeCall = true) : m.recordCall = .ok (m.charged 1) := by
  simp [recordCall, h]

end SubCallBudgetManager
end DoxAsdlc.Rlm

/-! ## The query tool -/

namespace DoxAsdlc.Rlm

open Interaction

/-- The result of a query. -/
structure LLMQueryResult where
  response : String
  cached : Bool
  tokensUsed : ℕ
  model : String
  deriving DecidableEq, Repr

/-- What the code meets: the API, the clock, the digest, `str` and `json.loads`, and the
other tools, whose results are rendered as text.  `json.loads` has no value where it raises a
`JSONDecodeError`; it raises other exceptions where a text is nested too deep or an integer has
too many digits. -/
structure Environment where
  client : List Attempt → Request → Except Raised Response
  clock : ℕ → Time
  digest : String → String
  render : Json → String
  jsonLoads : String → Except Raised (Option Json)
  reprResult : LLMQueryResult → String
  tool : String → Args → List Attempt → Except Raised String

/-- The settings of the query tool, the tool surface, the agent and the orchestrator. -/
structure Settings where
  queryModel : String := "claude-3-5-haiku-20241022"
  queryMaxTokens : ℕ := 500
  defaultSystemPrompt : String :=
    "You are a code analysis assistant. Provide concise, accurate " ++
    "analysis of the code or question provided. Focus on the specific " ++
    "question asked and be direct in your response."
  hasQueryTool : Bool := true
  allowedTools : Option (List String) := none
  agentModel : String := "claude-sonnet-4-20250514"
  agentMaxTokens : ℕ := 4096
  agentSystemPrompt : String
  maxIterations : ℕ := 10
  timeoutSeconds : ℤ := 300

/-- The budget, the cache, the counters of the query tool and of the agent, and the attempts
so far. -/
structure Session where
  budget : SubCallBudgetManager
  cache : SubCallCache
  totalTokensUsed : ℕ := 0
  totalQueries : ℕ := 0
  cachedQueries : ℕ := 0
  agentIterations : ℕ := 0
  agentTokens : ℕ := 0
  trace : List Attempt := []

/-- Code of an exploration. -/
abbrev Run (α : Type) := Act Session Raised α

variable (env : Environment) (settings : Settings)

/-- An attempt to call the API. -/
def attempt (caller : Caller) (request : Request) : Run Response := fun s =>
  (env.client s.trace request,
    { s with trace := s.trace ++ [⟨caller, request, s.budget.iterationCount⟩] })

/-- `_build_context`. -/
def buildContext (prompt context : Json) : Json :=
  if context.truthy then
    .str ("Context:\n" ++ context.text env.render ++ "\n\nPrompt:\n" ++ prompt.text env.render)
  else prompt

/-- The arguments of a query. -/
structure QueryArgs where
  prompt : Json
  context : Json := .str ""
  systemPrompt : Json := .null
  maxTokens : Json := .null

/-- The request that a query makes, in `_make_api_call`. -/
def QueryArgs.request (args : QueryArgs) : Request where
  model := settings.queryModel
  maxTokens := if args.maxTokens.truthy then args.maxTokens else .int settings.queryMaxTokens
  system :=
    if args.systemPrompt.truthy then args.systemPrompt else .str settings.defaultSystemPrompt
  content :=
    if args.context.truthy then
      .str ("Context:\n```\n" ++ args.context.text env.render ++ "\n```\n\n" ++
        args.prompt.text env.render)
    else args.prompt

/-- `record_call` of the session. -/
def recordCall : Run Unit := fun s =>
  match s.budget.recordCall with
  | .ok budget => (.ok (), { s with budget := budget })
  | .error e => (.error e, s)

/-- `query`. -/
def query (args : QueryArgs) : Run LLMQueryResult := do
  Act.update fun s => { s with totalQueries := s.totalQueries + 1 }
  let budget ← Act.read Session.budget
  if budget.canMakeCall = false then
    throw (.budgetExceeded "Cannot make LLM query: sub-call budget exceeded"
      budget.limits.maxTotal budget.totalUsed)
  else
    let fullContext := buildContext env args.prompt args.context
    let found ← Act.read fun s => (s.cache.get env.digest env.render args.prompt fullContext).1
    Act.update fun s =>
      { s with cache := (s.cache.get env.digest env.render args.prompt fullContext).2 }
    match found with
    | some response => do
        Act.update fun s => { s with cachedQueries := s.cachedQueries + 1 }
        return { response := response, cached := true, tokensUsed := 0, model := settings.queryModel }
    | none => do
        recordCall
        let response ←
          try attempt env .tool (args.request env settings)
          catch e => throw (.rlmError ("LLM query failed: " ++ e.str))
        Act.update fun s => { s with
          cache := s.cache.set env.digest env.render (env.clock s.trace.length) args.prompt
            fullContext response.text
          totalTokensUsed := s.totalTokensUsed + response.tokens }
        return {
          response := response.text
          cached := false
          tokensUsed := response.tokens
          model := settings.queryModel }

/-- The attempts that are left of `query_with_retry`. -/
def retrying (args : QueryArgs) (maxRetries : ℤ) : ℕ → Run LLMQueryResult
  | 0 => throw (.rlmError ("LLM query failed after " ++ toString (maxRetries + 1) ++ " attempts"))
  | left + 1 =>
    try query env settings args
    catch e => match e with
      | .rlmError _ => retrying args maxRetries left
      | e => throw e

/-- `query_with_retry`. -/
def queryWithRetry (args : QueryArgs) (maxRetries : ℤ := 2) : Run LLMQueryResult :=
  retrying env settings args maxRetries (maxRetries + 1).toNat

/-! ## What a query comes to -/

section

variable {env settings} {args : QueryArgs} {s : Session}

/-- A query without budget. -/
theorem query_refused (h : s.budget.canMakeCall = false) :
    query env settings args s
      = (.error (.budgetExceeded "Cannot make LLM query: sub-call budget exceeded"
          s.budget.limits.maxTotal s.budget.totalUsed),
        { s with totalQueries := s.totalQueries + 1 }) := by
  simp [query, h]

/-- The session after a look into the cache. -/
def Session.looked (env : Environment) (args : QueryArgs) (s : Session) : Session :=
  { s with
    totalQueries := s.totalQueries + 1
    cache := (s.cache.get env.digest env.render args.prompt
      (buildContext env args.prompt args.context)).2 }

/-- The session after a recorded attempt. -/
def Session.attempted (env : Environment) (settings : Settings) (args : QueryArgs)
    (s : Session) : Session :=
  { s.looked env args with
    budget := s.budget.charged 1
    trace := s.trace ++ [⟨.tool, args.request env settings, s.budget.iterationCount⟩] }

/-- A query that is answered from the cache. -/
theorem query_hit (h : s.budget.canMakeCall = true) {response : String}
    (hfound : (s.cache.get env.digest env.render args.prompt
      (buildContext env args.prompt args.context)).1 = some response) :
    query env settings args s
      = (.ok ⟨response, true, 0, settings.queryModel⟩,
        { s.looked env args with cachedQueries := s.cachedQueries + 1 }) := by
  simp [query, h, hfound, Session.looked]

/-- A query whose call fails. -/
theorem query_failed (h : s.budget.canMakeCall = true)
    (hfound : (s.cache.get env.digest env.render args.prompt
      (buildContext env args.prompt args.context)).1 = none) {e : Raised}
    (hclient : env.client s.trace (args.request env settings) = .error e) :
    query env settings args s
      = (.error (.rlmError ("LLM query failed: " ++ e.str)), s.attempted env settings args) := by
  simp [query, h, hfound, Session.attempted, Session.looked, recordCall,
    SubCallBudgetManager.recordCall_of_canMakeCall, attempt, hclient,
    SubCallBudgetManager.charged]

/-- A query whose call is answered. -/
theorem query_answered (h : s.budget.canMakeCall = true)
    (hfound : (s.cache.get env.digest env.render args.prompt
      (buildContext env args.prompt args.context)).1 = none) {response : Response}
    (hclient : env.client s.trace (args.request env settings) = .ok response) :
    query env settings args s
      = (.ok ⟨response.text, false, response.tokens, settings.queryModel⟩,
        { s.attempted env settings args with
          cache := (s.looked env args).cache.set env.digest env.render
            (env.clock (s.trace.length + 1)) args.prompt
            (buildContext env args.prompt args.context) response.text
          totalTokensUsed := s.totalTokensUsed + response.tokens }) := by
  simp [query, h, hfound, Session.attempted, Session.looked, recordCall,
    SubCallBudgetManager.recordCall_of_canMakeCall, attempt, hclient,
    SubCallBudgetManager.charged]

end

end DoxAsdlc.Rlm
