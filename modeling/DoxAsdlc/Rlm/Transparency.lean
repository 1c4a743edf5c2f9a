import DoxAsdlc.Interaction.Run
import DoxAsdlc.Rlm.LlmQuery

/-!
# Queries with and without the cache

The key of an answer is made of the prompt and the context, and not of the system prompt and
the limit of tokens, that are part of the request as well.  And an answer from the cache is
not charged to the budget.  Where the entry that a query finds was stored for the same
request, and the budget is not used up sooner for want of a cache, a query returns the same
text with the cache as without it: `agree_of_faithful`.

## Main definitions

* `Twins` — the same calls, to a session with a cache and to one without.
* `Twins.Agree` — the two sessions answer a query with the same text.
* `Twins.Faithful` — the condition.
-/

namespace DoxAsdlc.Rlm

open Interaction

/-- The key of a query. -/
def QueryArgs.key (env : Environment) (args : QueryArgs) : String :=
  generateKey env.digest env.render args.prompt (buildContext env args.prompt args.context)

/-- The text of an answer. -/
def answerText (answer : Except Raised LLMQueryResult) : Option String :=
  answer.toOption.map LLMQueryResult.response

/-- A call of the tool, or the end of an iteration. -/
inductive Call where
  | query (args : QueryArgs)
  | resetIteration

/-- A session with a cache and one without, and for every key the request whose answer was
stored under it last. -/
structure Twins where
  cached : Session
  plain : Session
  origin : String → Option Request := fun _ => none

namespace Twins

/-- Nothing has been called. -/
def start (limits : BudgetLimits) (maxEntries : ℕ) : Twins where
  cached := { budget := { limits := limits }, cache := { maxEntries := maxEntries } }
  plain := {
    budget := { limits := limits }
    cache := { maxEntries := maxEntries, enabled := false } }

variable (env : Environment) (settings : Settings)

/-- The request whose answer is stored, if one is. -/
def stored (args : QueryArgs) (answer : Except Raised LLMQueryResult)
    (origin : String → Option Request) : String → Option Request :=
  match answer with
  | .ok ⟨_, false, _, _⟩ => Function.update origin (args.key env) (some (args.request env settings))
  | _ => origin

/-- One call, to both. -/
def step (t : Twins) : Call → Twins
  | .query args => {
      cached := (query env settings args t.cached).2
      plain := (query env settings args t.plain).2
      origin := stored env settings args (query env settings args t.cached).1 t.origin }
  | .resetIteration => {
      cached := { t.cached with budget := t.cached.budget.resetIteration }
      plain := { t.plain with budget := t.plain.budget.resetIteration }
      origin := t.origin }

/-- Both answer a query with the same text, or both raise. -/
def Agree (t : Twins) (call : Call) (_ : Twins) : Prop :=
  ∀ args, call = .query args →
    answerText (query env settings args t.cached).1 = answerText (query env settings args t.plain).1

/-- The entry that a query finds was stored for the same request, and the query is refused
for lack of budget in neither session or in both. -/
def Faithful (t : Twins) (call : Call) : Prop :=
  ∀ args, call = .query args →
    (t.cached.budget.canMakeCall = true → t.plain.budget.canMakeCall = true) ∧
      ∀ entry, t.cached.cache.find? (args.key env) = some entry →
        t.origin (args.key env) = some (args.request env settings)

/-- What is known of the two sessions, for a client that is a function of the request. -/
structure Alike (client : Request → Except Raised Response) (t : Twins) : Prop where
  enabled : t.cached.cache.enabled = true
  disabled : t.plain.cache.enabled = false
  limits : t.cached.budget.limits = t.plain.budget.limits
  total : t.cached.budget.totalUsed ≤ t.plain.budget.totalUsed
  iteration : t.cached.budget.iterationUsed ≤ t.plain.budget.iterationUsed
  entries : ∀ entry ∈ t.cached.cache.entries, ∃ request response,
    t.origin entry.key = some request ∧ client request = .ok response ∧
      entry.result = response.text

end Twins

/-! ## The two sessions -/

namespace Twins

variable {env : Environment} {settings : Settings} {client : Request → Except Raised Response}
  {t : Twins}

/-- Without a cache there is budget only where there is with it. -/
theorem Alike.canMakeCall (h : t.Alike client) (hplain : t.plain.budget.canMakeCall = true) :
    t.cached.budget.canMakeCall = true := by
  rw [SubCallBudgetManager.canMakeCall_iff] at hplain ⊢
  have htotal := h.total
  have hiteration := h.iteration
  rw [h.limits]
  omega

theorem alike_start (limits : BudgetLimits) (maxEntries : ℕ) :
    (start limits maxEntries).Alike client where
  enabled := rfl
  disabled := rfl
  limits := rfl
  total := Nat.le_refl _
  iteration := Nat.le_refl _
  entries := nofun

/-- **What a query comes to in the two sessions**, where it meets the condition: both refuse
it; or the one finds an answer that the other gets; or both attempt it. -/
theorem Alike.query_cases (h : t.Alike client) {args : QueryArgs}
    (hf : t.Faithful env settings (.query args)) :
    (t.cached.budget.canMakeCall = false ∧ t.plain.budget.canMakeCall = false) ∨
    (t.cached.budget.canMakeCall = true ∧ t.plain.budget.canMakeCall = true ∧
      ∃ response, client (args.request env settings) = .ok response ∧
        (t.cached.cache.get env.digest env.render args.prompt
          (buildContext env args.prompt args.context)).1 = some response.text) ∨
    (t.cached.budget.canMakeCall = true ∧ t.plain.budget.canMakeCall = true ∧
      (t.cached.cache.get env.digest env.render args.prompt
        (buildContext env args.prompt args.context)).1 = none) := by
  obtain ⟨hroom, horigin⟩ := hf args rfl
  cases hcached : t.cached.budget.canMakeCall with
  | false =>
    refine .inl ⟨rfl, Bool.eq_false_iff.mpr fun hplain => ?_⟩
    rw [h.canMakeCall hplain] at hcached
    cases hcached
  | true =>
    have hplain := hroom hcached
    rw [SubCallCache.get_result h.enabled]
    cases hfound : t.cached.cache.find? (args.key env) with
    | none =>
      rw [QueryArgs.key] at hfound
      exact .inr (.inr ⟨rfl, hplain, by rw [hfound, Option.map_none]⟩)
    | some entry =>
      have hkey : entry.key = args.key env := by simpa using List.find?_some hfound
      obtain ⟨request, response, hstored, hanswer, hresult⟩ :=
        h.entries entry (List.mem_of_find?_eq_some hfound)
      rw [hkey, horigin entry hfound] at hstored
      cases hstored
      rw [QueryArgs.key] at hfound
      exact .inr (.inl ⟨rfl, hplain, response, hanswer, by rw [hfound, Option.map_some, hresult]⟩)

/-- The session without a cache finds nothing, and leaves its cache as it is. -/
theorem Alike.get_plain (h : t.Alike client) (env : Environment) (args : QueryArgs) :
    t.plain.cache.get env.digest env.render args.prompt
      (buildContext env args.prompt args.context) = (none, t.plain.cache) :=
  SubCallCache.get_disabled h.disabled

/-- Both sessions answer with the same text. -/
theorem Alike.agree (h : t.Alike client)
    (hclient : ∀ trace request, env.client trace request = client request) {call : Call}
    (hf : t.Faithful env settings call) (t' : Twins) : t.Agree env settings call t' := by
  intro args hcall
  subst hcall
  have hnone := congrArg Prod.fst (h.get_plain env args)
  obtain ⟨hcached, hplain⟩ | ⟨hcached, hplain, response, hanswer, hfound⟩ |
    ⟨hcached, hplain, hfound⟩ := h.query_cases hf
  · rw [query_refused hcached, query_refused hplain]
    rfl
  · rw [query_hit hcached hfound, query_answered hplain hnone ((hclient _ _).trans hanswer)]
    rfl
  · cases hanswer : client (args.request env settings) with
    | error e =>
      rw [query_failed hcached hfound ((hclient _ _).trans hanswer),
        query_failed hplain hnone ((hclient _ _).trans hanswer)]
    | ok response =>
      rw [query_answered hcached hfound ((hclient _ _).trans hanswer),
        query_answered hplain hnone ((hclient _ _).trans hanswer)]

/-- The entries after a look are backed as those before. -/
theorem Alike.entries_get (h : t.Alike client) {args : QueryArgs} {entry : CacheEntry}
    (hentry : entry ∈ (t.cached.looked env args).cache.entries) :
    ∃ request response, t.origin entry.key = some request ∧ client request = .ok response ∧
      entry.result = response.text := by
  obtain ⟨before, hbefore, hkey, hresult⟩ := SubCallCache.mem_get hentry
  obtain ⟨request, response, horigin, hanswer, htext⟩ := h.entries before hbefore
  exact ⟨request, response, hkey ▸ horigin, hanswer, hresult ▸ htext⟩

theorem Alike.step (h : t.Alike client)
    (hclient : ∀ trace request, env.client trace request = client request) {call : Call}
    (hf : t.Faithful env settings call) : (t.step env settings call).Alike client := by
  cases call with
  | resetIteration => exact ⟨h.enabled, h.disabled, h.limits, h.total, Nat.le_refl _, h.entries⟩
  | query args =>
  have hnone := congrArg Prod.fst (h.get_plain env args)
  have hlooked : (t.cached.looked env args).cache.enabled = true :=
    SubCallCache.enabled_get.trans h.enabled
  have hplainLooked : (t.plain.looked env args).cache.enabled = false :=
    SubCallCache.enabled_get.trans h.disabled
  have htotal := h.total
  have hiteration := h.iteration
  rw [Twins.step]
  obtain ⟨hcached, hplain⟩ | ⟨hcached, hplain, response, hanswer, hfound⟩ |
    ⟨hcached, hplain, hfound⟩ := h.query_cases hf
  · rw [query_refused hcached, query_refused hplain]
    exact ⟨h.enabled, h.disabled, h.limits, h.total, h.iteration, h.entries⟩
  · rw [query_hit hcached hfound, query_answered hplain hnone ((hclient _ _).trans hanswer)]
    exact ⟨hlooked, SubCallCache.enabled_set.trans hplainLooked, h.limits,
      Nat.le_succ_of_le htotal, Nat.le_succ_of_le hiteration, fun _ hentry => h.entries_get hentry⟩
  · cases hanswer : client (args.request env settings) with
    | error e =>
      rw [query_failed hcached hfound ((hclient _ _).trans hanswer),
        query_failed hplain hnone ((hclient _ _).trans hanswer)]
      exact ⟨hlooked, hplainLooked, h.limits, Nat.succ_le_succ htotal,
        Nat.succ_le_succ hiteration, fun _ hentry => h.entries_get hentry⟩
    | ok response =>
      rw [query_answered hcached hfound ((hclient _ _).trans hanswer),
        query_answered hplain hnone ((hclient _ _).trans hanswer)]
      refine ⟨SubCallCache.enabled_set.trans hlooked, SubCallCache.enabled_set.trans hplainLooked,
        h.limits, Nat.succ_le_succ htotal, Nat.succ_le_succ hiteration, fun entry hentry => ?_⟩
      rcases SubCallCache.mem_set hentry hlooked with ⟨hkey, hresult⟩ | ⟨hold, hkey⟩
      · refine ⟨args.request env settings, response, ?_, hanswer, hresult⟩
        rw [hkey]
        exact Function.update_self _ _ _
      · obtain ⟨request, response', horigin, hanswer', htext⟩ := h.entries_get hold
        exact ⟨request, response', (Function.update_of_ne hkey _ _).trans horigin, hanswer', htext⟩

end Twins

/-- **Transparency.**  For a client that is a function of the request, in every sequence of
calls in which each query meets the condition, the session with the cache and the one
without it answer every query with the same text. -/
theorem agree_of_faithful (env : Environment) (settings : Settings)
    (client : Request → Except Raised Response)
    (hclient : ∀ trace request, env.client trace request = client request)
    (limits : BudgetLimits) (maxEntries : ℕ) (calls : List Call)
    (h : Each (Twins.step env settings) (Twins.Faithful env settings)
      (Twins.start limits maxEntries) calls) :
    Along (Twins.step env settings) (fun _ => True) (Twins.Agree env settings)
      (Twins.start limits maxEntries) calls :=
  along_of_each (fun _ _ ht hf => ht.step hclient hf) (fun _ _ => trivial)
    (fun _ _ ht hf => ht.agree hclient hf _) (Twins.alike_start limits maxEntries) h

/-! ## A model that answers with its system prompt -/

/-- The system prompt, if it is a text. -/
def echo (request : Request) : Except Raised Response :=
  match request.system with
  | .str s => .ok { texts := [s] }
  | _ => .ok { texts := [] }

def echoing : Environment where
  client := fun _ request => echo request
  clock := fun n => n
  digest := id
  render := fun _ => ""
  jsonLoads := fun _ => .ok none
  reprResult := fun result => result.response
  tool := fun _ _ _ => .ok ""

def plainSettings : Settings := { agentSystemPrompt := "" }

/-- The same question under a system prompt. -/
def ask (systemPrompt : String) : QueryArgs where
  prompt := .str "why?"
  systemPrompt := .str systemPrompt

/-- Two calls in all. -/
def twoCalls : BudgetLimits where
  maxTotal := 2
  maxPerIteration := 2

theorem agree_of_faithful_repeated :
    Along (Twins.step echoing plainSettings) (fun _ => True) (Twins.Agree echoing plainSettings)
      (Twins.start {} 0) [.query (ask "terse"), .query (ask "terse")] := by
  refine agree_of_faithful echoing plainSettings echo (fun _ _ => rfl) {} 0 _ ⟨?_, ?_, trivial⟩
  · intro args hargs
    cases hargs
    exact ⟨fun _ => rfl, nofun⟩
  · intro args hargs
    cases hargs
    exact ⟨fun _ => rfl, fun _ _ => rfl⟩

/-- The two sessions after the question has been asked `n` times. -/
def asked (limits : BudgetLimits) (n : ℕ) : Twins :=
  run (Twins.step echoing plainSettings) (Twins.start limits 0)
    (List.replicate n (.query (ask "terse")))

/-- Under another system prompt the cache has the answer to the first; and with a budget for
two calls, the question asked a third time is answered with a cache only. -/
theorem cache_shows :
    (answerText (query echoing plainSettings (ask "long") (asked {} 1).cached).1 = some "terse" ∧
      answerText (query echoing plainSettings (ask "long") (asked {} 1).plain).1 = some "long") ∧
    (answerText (query echoing plainSettings (ask "terse") (asked twoCalls 2).cached).1
        = some "terse" ∧
      answerText (query echoing plainSettings (ask "terse") (asked twoCalls 2).plain).1 = none) :=
  ⟨⟨rfl, rfl⟩, rfl, rfl⟩

end DoxAsdlc.Rlm
