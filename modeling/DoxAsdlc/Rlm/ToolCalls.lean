import DoxAsdlc.Rlm.Agent

/-!
# What an iteration does with the calls of an answer

Each call of an answer that names a tool is run once, in order, and what the tool raises becomes
the result of the call; a call of no tool has failed.  Three things are not turned into results: an
entry of the list whose shape the tool surface cannot be called with, an answer that `json.loads`
raises something other than a `JSONDecodeError` for, and an earlier call whose tool has no text for
its name, which the next message to the model cannot list.

## Main definitions

* `Passable` — the entries that the tool surface can be called with.
* `Executes` — the results of the calls of a list, each run once, in order.
* `Completes` — an iteration does so, and raises nothing.

## Main results

* `executeToolCalls_executes` — the calls of a list are executed if all entries are passable.
* `completes_iff` — when an iteration completes.
-/

namespace DoxAsdlc.Rlm

open Interaction

section

variable (env : Environment) (settings : Settings)

/-! ## Calls -/

/-- The names of the parameters of `invoke_safe`. -/
def ownParameters : List String := ["tool_name", "self"]

/-- The arguments of an entry. -/
def argsOf (fields : List (String × Json)) : Json := (Json.field? fields "args").getD (.obj [])

/-- The tool of an entry. -/
def toolOf (fields : List (String × Json)) : Json := (Json.field? fields "tool").getD (.str "")

/-- An entry that the tool surface can be called with: an object whose arguments are an object
without the parameters of `invoke_safe`. -/
def Passable (call : Json) : Prop :=
  ∃ fields args, call = .obj fields ∧ argsOf fields = .obj args ∧ ∀ a ∈ args, a.1 ∉ ownParameters

/-- A tool that is there and allowed. -/
def Usable (name : String) : Prop :=
  name ∈ registry settings ∧ ∀ allowed, settings.allowedTools = some allowed → name ∈ allowed

/-- An entry is a well-formed call of a tool: it can be passed on, and the tool can be used. -/
def CallsTool (call : Json) (name : String) (args : Args) : Prop :=
  Usable settings name ∧ ∃ fields, call = .obj fields ∧
    toolOf fields = .str name ∧ argsOf fields = .obj args ∧
      ∀ a ∈ args, a.1 ∉ ownParameters

/-- A run of a tool. -/
def runTool (name : String) (args : Args) : Run String :=
  if name = "llm_query" then do
    let queryArgs ← Act.answer (bindQuery args)
    let result ← query env settings queryArgs
    return env.reprResult result
  else do
    let trace ← Act.read Session.trace
    Act.answer (env.tool name args trace)

/-- The record of a call. -/
def record (tool : Json) (args : Args) (outcome : Except Raised String) : ExecutedCall where
  tool := tool
  args := args
  result := match outcome with
    | .ok result => formatToolResult result
    | .error e => if e.str = "" then "None" else "Error: " ++ e.str
  success := outcome.toOption.isSome

/-- The calls of a list lead from one session to another: a well-formed one by the run of its tool,
which is recorded with its outcome; a malformed one is recorded as failed, and nothing is run. -/
inductive Executes : Session → List Json → List ExecutedCall → Session → Prop
  | nil (s : Session) : Executes s [] [] s
  | wellFormed {s s' s'' : Session} {call : Json} {name : String} {args : Args}
      {outcome : Except Raised String} {calls : List Json} {rest : List ExecutedCall}
      (hcall : CallsTool settings call name args)
      (hrun : runTool env settings name args s = (outcome, s'))
      (hrest : Executes s' calls rest s'') :
      Executes s (call :: calls) (record (.str name) args outcome :: rest) s''
  | malformed {s s'' : Session} {call : Json} {executed : ExecutedCall} {calls : List Json}
      {rest : List ExecutedCall} (hcall : ∀ name args, ¬ CallsTool settings call name args)
      (hfailed : executed.success = false) (hrest : Executes s calls rest s'') :
      Executes s (call :: calls) (executed :: rest) s''

end

section

variable {env : Environment} {settings : Settings} {s s' : Session}

theorem invoke_of_usable {name : String} (h : Usable settings name) (args : Args) :
    invoke env settings (.str name) args = runTool env settings name args := by
  have hallowed : ¬ (settings.allowedTools.any fun allowed => name ∉ allowed) = true := by
    cases hsome : settings.allowedTools with
    | none => simp
    | some allowed => simpa using h.2 allowed hsome
  rw [invoke, if_neg (by simpa using h.1), if_neg hallowed, runTool]

theorem invoke_of_not_usable {tool : Json} (h : ∀ name, tool = .str name → ¬ Usable settings name)
    (args : Args) (s : Session) : ∃ e, invoke env settings tool args s = (.error e, s) := by
  cases tool with
  | str name =>
    by_cases hname : name ∈ registry settings
    · have hallowed : settings.allowedTools.any (fun allowed => name ∉ allowed) = true := by
        by_contra hall
        refine h name rfl ⟨hname, fun allowed hsome => ?_⟩
        simpa [hsome] using hall
      exact ⟨_, by simp only [invoke, hname, hallowed]; rfl⟩
    · exact ⟨_, by simp only [invoke, hname]; rfl⟩
  | _ => exact ⟨_, rfl⟩

/-- An entry that can be passed on is recorded, with what its tool came to. -/
theorem executeToolCall_obj {fields : List (String × Json)} {args : Args}
    (hargs : argsOf fields = .obj args) (hown : ∀ a ∈ args, a.1 ∉ ownParameters)
    {outcome : Except Raised String}
    (h : invoke env settings (toolOf fields) args s = (outcome, s')) :
    executeToolCall env settings (.obj fields) s =
      (.ok (record (toolOf fields) args outcome), s') := by
  have hnone : args.find? (fun a => a.1 == "tool_name" || a.1 == "self") = none := by
    simpa [ownParameters] using hown
  have hinvoked : invokeSafe env settings (toolOf fields) args s =
      (.ok (outcome.mapError Raised.str), s') := by
    cases outcome <;> simp [invokeSafe, h, Except.mapError]
  rw [toolOf] at hinvoked ⊢
  rw [argsOf] at hargs
  cases outcome <;>
    simp [executeToolCall, hargs, hnone, hinvoked, record, Except.mapError, Except.toOption]

/-- What is no entry for the tool surface raises, and runs nothing. -/
theorem executeToolCall_of_not_passable {call : Json} (h : ¬ Passable call) (s : Session) :
    ∃ e, executeToolCall env settings call s = (.error e, s) := by
  cases call with
  | obj fields =>
    cases hargs : argsOf fields with
    | obj args =>
      cases hfind : args.find? (fun a => a.1 == "tool_name" || a.1 == "self") with
      | some a =>
        rw [argsOf] at hargs
        exact ⟨_, by simp only [executeToolCall, hargs, hfind]; rfl⟩
      | none =>
        refine absurd ⟨fields, args, rfl, hargs, ?_⟩ h
        simpa [ownParameters] using hfind
    | _ =>
      rw [argsOf] at hargs
      exact ⟨_, by simp only [executeToolCall, hargs]; rfl⟩
  | _ => exact ⟨_, rfl⟩

/-- The calls of a list before the first entry that cannot be passed on are executed. -/
theorem executeToolCalls_ok {calls : List Json} {executed : List ExecutedCall}
    (h : executeToolCalls env settings calls s = (.ok executed, s')) :
    ∀ call ∈ calls, Passable call := by
  induction calls generalizing s s' executed with
  | nil => simp
  | cons call calls ih =>
    by_cases hcall : Passable call
    · rw [executeToolCalls] at h
      simp only [Act.bind_apply] at h
      split at h
      · split at h
        · next hrest => simpa [hcall] using ih hrest
        · simp at h
      · simp at h
    · obtain ⟨e, he⟩ := @executeToolCall_of_not_passable env settings call hcall s
      simp [executeToolCalls, he] at h

theorem executeToolCalls_cons {call : Json} {calls : List Json} {executed : ExecutedCall}
    {rest : List ExecutedCall} {s'' : Session}
    (hcall : executeToolCall env settings call s = (.ok executed, s'))
    (hrest : executeToolCalls env settings calls s' = (.ok rest, s'')) :
    executeToolCalls env settings (call :: calls) s = (.ok (executed :: rest), s'') := by
  simp [executeToolCalls, hcall, hrest]

/-- **The calls of a list are executed**, each once and in order, if all can be passed on. -/
theorem executeToolCalls_executes {calls : List Json} (h : ∀ call ∈ calls, Passable call)
    (s : Session) : ∃ executed s', executeToolCalls env settings calls s = (.ok executed, s') ∧
      Executes env settings s calls executed s' := by
  induction calls generalizing s with
  | nil => exact ⟨[], s, rfl, .nil s⟩
  | cons call calls ih =>
    obtain ⟨fields, args, rfl, hargs, hown⟩ := h call List.mem_cons_self
    have hlater : ∀ call ∈ calls, Passable call := fun c hc => h c (List.mem_cons_of_mem _ hc)
    by_cases husable : ∃ name, toolOf fields = .str name ∧ Usable settings name
    · obtain ⟨name, hname, husable⟩ := husable
      cases hrun : runTool env settings name args s with
      | mk outcome s₁ =>
        have hinvoked : invoke env settings (toolOf fields) args s = (outcome, s₁) := by
          rw [hname, invoke_of_usable husable, hrun]
        have hfirst := executeToolCall_obj hargs hown hinvoked
        obtain ⟨rest, s'', hrest, hexecuted⟩ := ih hlater s₁
        refine ⟨_, s'', executeToolCalls_cons hfirst hrest, ?_⟩
        rw [hname]
        exact .wellFormed ⟨husable, fields, rfl, hname, hargs, hown⟩ hrun hexecuted
    · obtain ⟨e, hraised⟩ := @invoke_of_not_usable env settings (toolOf fields)
        (fun name hname hname' => husable ⟨name, hname, hname'⟩) args s
      have hrun := executeToolCall_obj hargs hown hraised
      obtain ⟨rest, s'', hrest, hexecuted⟩ := ih hlater s
      refine ⟨_, s'', executeToolCalls_cons hrun hrest, ?_⟩
      refine .malformed ?_ rfl hexecuted
      intro name args' ⟨husable', fields', hfields, hname, _⟩
      obtain rfl : fields = fields' := by simpa using hfields
      exact husable ⟨name, hname, husable'⟩

end

/-! ## Iterations -/

section

variable (env : Environment) (settings : Settings)

/-- The calls of an answer: `json.loads` raises nothing but a `JSONDecodeError`, and all entries of
the list can be passed on. -/
def Acceptable (response : String) : Prop :=
  ∃ calls, parseToolCalls env (extractTag response "tool_calls") = .ok calls ∧
    ∀ call ∈ calls, Passable call

/-- The tools of the last five steps have texts for their names. -/
def Nameable (history : List ExplorationStep) : Prop :=
  ∀ step ∈ history.drop (history.length - 5), ∀ call ∈ step.toolCalls,
    ∃ name, call.toolName = .str name

/-- The model answers the agent, whatever it is asked. -/
def Answers (response : Response) (s : Session) : Prop :=
  ∀ userMessage, env.client s.trace {
    model := settings.agentModel
    maxTokens := .int settings.agentMaxTokens
    system := .str settings.agentSystemPrompt
    content := .str userMessage } = .ok response

/-- An iteration that is answered comes to a result: what the answer says, with its calls
executed. -/
def Completes (query context : String) (history : List ExplorationStep)
    (accumulatedFindings : List String) (response : Response) (s : Session) : Prop :=
  ∃ userMessage iteration executed s₁ s',
    buildUserMessage query context history accumulatedFindings = .ok userMessage ∧
    callLlm env settings userMessage { s with agentIterations := s.agentIterations + 1 } =
      (.ok response.text, s₁) ∧
    parseResponse env response.text = .ok iteration ∧
    Executes env settings s₁ iteration.toolCalls executed s' ∧
    runIteration env settings query context history accumulatedFindings s =
      (.ok { iteration with toolCalls := executed }, s')

end

section

variable {env : Environment} {settings : Settings} {s : Session}

theorem joinNames_ok {names : List Json} (i : ℕ) :
    (∃ texts, joinNames i names = .ok texts) ↔ ∀ name ∈ names, ∃ text, name = .str text := by
  induction names generalizing i with
  | nil => simp [joinNames]
  | cons name names ih =>
    cases name with
    | str text =>
      have hrest := ih (i + 1)
      cases h : joinNames (i + 1) names with
      | ok texts => simpa [joinNames, h, ok_bind] using hrest
      | error e => simpa [joinNames, h] using hrest
    | _ => simp [joinNames]

/-- The history of an exploration can be summarised if and only if its tools have names. -/
theorem summarizeHistory_ok {history : List ExplorationStep} :
    (∃ summary, summarizeHistory history = .ok summary) ↔ Nameable history := by
  refine (exists_bind_ok fun _ => ⟨_, rfl⟩).trans (mapM_ok.trans (forall₂_congr fun step _ => ?_))
  refine (exists_bind_ok fun _ => ⟨_, rfl⟩).trans ((joinNames_ok 0).trans ?_)
  simp

theorem buildUserMessage_ok {query context : String} {history : List ExplorationStep}
    {accumulatedFindings : List String} :
    (∃ message, buildUserMessage query context history accumulatedFindings = .ok message) ↔
      Nameable history := by
  by_cases hempty : history.isEmpty = true
  · have hnil : history = [] := List.isEmpty_iff.mp hempty
    rw [hnil]
    exact ⟨fun _ step hmem => by simp at hmem, fun _ => ⟨_, rfl⟩⟩
  · rw [buildUserMessage, if_neg hempty]
    exact (exists_bind_ok fun _ => ⟨_, rfl⟩).trans summarizeHistory_ok

theorem parseResponse_toolCalls {response : String} {iteration : AgentIteration Json}
    (h : parseResponse env response = .ok iteration) :
    parseToolCalls env (extractTag response "tool_calls") = .ok iteration.toolCalls := by
  obtain ⟨calls, hcalls, hiteration⟩ := bind_eq_ok.mp h
  rw [hcalls, ← Except.ok.inj hiteration]

/-- After the answer, the calls are what is left. -/
theorem runIteration_eq {query context userMessage text : String} {history : List ExplorationStep}
    {accumulatedFindings : List String} {iteration : AgentIteration Json} {s₁ : Session}
    (hmessage : buildUserMessage query context history accumulatedFindings = .ok userMessage)
    (hanswer : callLlm env settings userMessage
      { s with agentIterations := s.agentIterations + 1 } = (.ok text, s₁))
    (hparse : parseResponse env text = .ok iteration) :
    runIteration env settings query context history accumulatedFindings s =
      match executeToolCalls env settings iteration.toolCalls s₁ with
      | (.ok executed, s') => (.ok { iteration with toolCalls := executed }, s')
      | (.error e, s') => (.error e, s') := by
  cases h : executeToolCalls env settings iteration.toolCalls s₁ with
  | mk result s' => cases result <;> simp [runIteration, hmessage, hanswer, hparse, h]

/-- **When an iteration completes**: when the message to the model can be built, and the calls of
the answer are acceptable. -/
theorem completes_iff {query context : String} {history : List ExplorationStep}
    {accumulatedFindings : List String} {response : Response}
    (hanswer : Answers env settings response s) :
    Completes env settings query context history accumulatedFindings response s ↔
      Nameable history ∧ Acceptable env response.text := by
  constructor
  · intro ⟨userMessage, iteration, executed, s₁, s', hmessage, hcall, hparse, _, hrun⟩
    refine ⟨buildUserMessage_ok.mp ⟨userMessage, hmessage⟩, _, parseResponse_toolCalls hparse, ?_⟩
    rw [runIteration_eq hmessage hcall hparse] at hrun
    split at hrun
    · next hexecuted => exact executeToolCalls_ok hexecuted
    · simp at hrun
  · intro ⟨hnames, calls, hcalls, hpassable⟩
    obtain ⟨userMessage, hmessage⟩ := buildUserMessage_ok.mpr hnames
    obtain ⟨s₁, hcall⟩ : ∃ s₁, callLlm env settings userMessage
        { s with agentIterations := s.agentIterations + 1 } = (.ok response.text, s₁) :=
      ⟨_, by simp only [callLlm, attempt, Act.bind_apply, hanswer userMessage]; rfl⟩
    obtain ⟨iteration, hparse⟩ : ∃ iteration, parseResponse env response.text = .ok iteration :=
      (exists_bind_ok fun _ => ⟨_, rfl⟩).mpr ⟨calls, hcalls⟩
    have hsame : iteration.toolCalls = calls := by
      simpa [hcalls] using (parseResponse_toolCalls hparse).symm
    obtain ⟨executed, s', hrun, hexecutes⟩ := @executeToolCalls_executes env settings
      iteration.toolCalls (hsame ▸ hpassable) s₁
    refine ⟨userMessage, iteration, executed, s₁, s', hmessage, hcall, hparse, hexecutes, ?_⟩
    rw [runIteration_eq hmessage hcall hparse, hrun]

end

/-! ## Two answers -/

/-- A model that always gives the same answer, whose calls are `calls`. -/
private def answering (text : String) (calls : List Json) : Environment where
  client := fun _ _ => .ok { texts := [text] }
  clock := fun n => n
  digest := id
  render := fun _ => ""
  jsonLoads := fun _ => .ok (some (.arr calls))
  reprResult := fun result => result.response
  tool := fun _ _ _ => .ok "x = 1"

private def oneSession : Session where
  budget := { limits := {
    maxTotal := 1
    maxPerIteration := 1
    total_pos := Nat.one_pos
    iteration_pos := Nat.one_pos
    iteration_le := Nat.one_pos } }
  cache := {}

private def oneCallText : String :=
  "<tool_calls>[\x7b\"tool\": \"read_file\", " ++
    "\"args\": \x7b\"file_path\": \"a.py\"\x7d\x7d]</tool_calls>"

private def oneCallRead : Json :=
  .obj [("tool", .str "read_file"), ("args", .obj [("file_path", .str "a.py")])]

/-- An answer with one call of a tool. -/
theorem completes_oneCall : Completes (answering oneCallText [oneCallRead])
    { agentSystemPrompt := "" } "where?" "" [] [] { texts := [oneCallText] } oneSession := by
  refine (completes_iff fun _ => rfl).mpr ⟨fun step hmem => by simp at hmem, [oneCallRead], ?_, ?_⟩
  · have htag : extractTag (Response.text { texts := [oneCallText] }) "tool_calls" ≠ "" := by
      decide
    rw [parseToolCalls, if_neg htag]
    rfl
  · intro call hcall
    obtain rfl : call = oneCallRead := by simpa using hcall
    refine ⟨_, [("file_path", .str "a.py")], rfl, rfl, ?_⟩
    simp [ownParameters]

/-- A list of calls with a number in it raises. -/
theorem not_completes : ¬ ∀ (env : Environment) (settings : Settings) (query context : String)
    (history : List ExplorationStep) (accumulatedFindings : List String) (response : Response)
    (s : Session), Answers env settings response s →
      Completes env settings query context history accumulatedFindings response s := by
  intro h
  obtain ⟨_, _, _, _, _, _, _, _, _, hrun⟩ :=
    h (answering "<tool_calls>[1]</tool_calls>" [.int 1]) { agentSystemPrompt := "" } "where?" ""
      [] [] { texts := ["<tool_calls>[1]</tool_calls>"] } oneSession fun _ => rfl
  have hraised : ((runIteration (answering "<tool_calls>[1]</tool_calls>" [.int 1])
      { agentSystemPrompt := "" } "where?" "" [] [] oneSession).1.toOption.isSome) = false := by
    decide
  rw [hrun] at hraised
  cases hraised

end DoxAsdlc.Rlm
