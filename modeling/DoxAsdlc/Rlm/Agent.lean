import DoxAsdlc.Rlm.LlmQuery

/-!
# The agent of an exploration

An iteration asks the model once, takes the answer apart, and runs the tools that it calls.
The tool surface turns the exceptions of tools into results; what is wrong with the shape of
a call itself is not its business, and raises.

## Main definitions

* `invoke`, `invokeSafe` — the tool surface.
* `extractTag`, `parseResponse` — the answer of the model.
* `buildUserMessage` — the message to it.
* `runIteration` — an iteration.
-/

namespace DoxAsdlc.Rlm

open Interaction

/-! ## The tool surface -/

/-- The tools that are always there. -/
def fileAndSymbolTools : List String :=
  ["list_files", "read_file", "grep", "file_exists", "get_file_info", "extract_symbols",
    "parse_ast", "find_symbol", "find_symbols_by_kind", "get_function_signature", "get_imports"]

section

variable (env : Environment) (settings : Settings)

/-- The names of the registry. -/
def registry : List String :=
  fileAndSymbolTools ++ if settings.hasQueryTool then ["llm_query"] else []

/-- The parameters of `query`, from keyword arguments. -/
def bindQuery (args : Args) : Except Raised QueryArgs :=
  match args.find? fun a => a.1 ∉ ["prompt", "context", "system_prompt", "max_tokens"] with
  | some a => .error (.exception
      ("LLMQueryTool.query() got an unexpected keyword argument '" ++ a.1 ++ "'"))
  | none =>
    match Json.field? args "prompt" with
    | none => .error (.exception
        "LLMQueryTool.query() missing 1 required positional argument: 'prompt'")
    | some prompt => .ok {
        prompt := prompt
        context := (Json.field? args "context").getD (.str "")
        systemPrompt := (Json.field? args "system_prompt").getD .null
        maxTokens := (Json.field? args "max_tokens").getD .null }

/-- `invoke`. -/
def invoke (toolName : Json) (args : Args) : Run String :=
  match toolName with
  | .arr _ => throw (.exception "unhashable type: 'list'")
  | .obj _ => throw (.exception "unhashable type: 'dict'")
  | .str name =>
    if name ∉ registry settings then throw (.rlmError ("Unknown tool: " ++ name))
    else if settings.allowedTools.any fun allowed => name ∉ allowed then
      throw (.rlmError ("Tool not allowed: " ++ name))
    else if name = "llm_query" then do
      let queryArgs ← Act.answer (bindQuery args)
      let result ← query env settings queryArgs
      return env.reprResult result
    else do
      let trace ← Act.read Session.trace
      Act.answer (env.tool name args trace)
  | other => throw (.rlmError ("Unknown tool: " ++ env.render other))

/-- `invoke_safe`: the result, or the text of the exception. -/
def invokeSafe (toolName : Json) (args : Args) : Run (Except String String) :=
  try do
    let result ← invoke env settings toolName args
    pure (.ok result)
  catch e => pure (.error e.str)

end

/-! ## The answer of the model -/

/-- The white space of `str.strip`. -/
def isSpace (c : Char) : Bool :=
  let n := c.toNat
  (9 ≤ n && n ≤ 13) || (28 ≤ n && n ≤ 32) || n == 0x85 || n == 0xA0 || n == 0x1680 ||
    (0x2000 ≤ n && n ≤ 0x200A) || n == 0x2028 || n == 0x2029 || n == 0x202F || n == 0x205F ||
    n == 0x3000

/-- `str.strip`, on characters. -/
def stripChars (l : List Char) : List Char :=
  ((l.dropWhile isSpace).reverse.dropWhile isSpace).reverse

/-- `str.strip`. -/
def strip (s : String) : String := String.ofList (stripChars s.toList)

/-- What follows the first occurrence of a pattern. -/
def after? (pattern : List Char) : List Char → Option (List Char)
  | [] => if pattern.isEmpty then some [] else none
  | c :: l => if pattern.isPrefixOf (c :: l) then some ((c :: l).drop pattern.length)
      else after? pattern l

/-- What comes before the first occurrence of a pattern. -/
def before? (pattern : List Char) : List Char → Option (List Char)
  | [] => if pattern.isEmpty then some [] else none
  | c :: l => if pattern.isPrefixOf (c :: l) then some []
      else (before? pattern l).map (c :: ·)

/-- `_extract_tag`: the text between the first opening tag and the next closing one. -/
def extractTag (text tag : String) : String :=
  match (after? ("<" ++ tag ++ ">").toList text.toList).bind
      (before? ("</" ++ tag ++ ">").toList) with
  | some found => String.ofList (stripChars found)
  | none => ""

/-- An iteration; its calls are first those that the model asks for, then those that were
executed. -/
structure AgentIteration (Call : Type) where
  thought : String
  toolCalls : List Call
  findings : List String
  nextDirection : String
  rawResponse : String
  isDone : Bool

/-- The findings, one a line. -/
def parseFindings (raw : String) : List String :=
  (((stripChars raw.toList).splitOn '\n').map stripChars).filterMap fun line =>
    match line with
    | [] => none
    | '-' :: rest => some (String.ofList (stripChars rest))
    | _ => some (String.ofList line)

section

variable (env : Environment)

/-- The calls that the model asks for. -/
def parseToolCalls (raw : String) : Except Raised (List Json) :=
  if raw = "" then .ok [] else
    match env.jsonLoads raw with
    | .ok (some (.arr calls)) => .ok calls
    | .ok _ => .ok []
    | .error e => .error e

/-- `_parse_response`. -/
def parseResponse (response : String) : Except Raised (AgentIteration Json) := do
  let nextDirection := extractTag response "next_direction"
  let findings := extractTag response "findings"
  return {
    thought := extractTag response "thought"
    toolCalls := ← parseToolCalls env (extractTag response "tool_calls")
    findings := if findings = "" then [] else parseFindings findings
    nextDirection := nextDirection
    rawResponse := response
    isDone := (strip nextDirection).toUpper == "DONE" }

end

/-! ## The message to the model -/

/-- The first characters of a text. -/
def clip (n : ℕ) (s : String) : String := String.ofList (s.toList.take n)

/-- `", ".join` of the names of tools, from position `i` on; a name that is no text raises. -/
def joinNames (i : ℕ) : List Json → Except Raised (List String)
  | [] => .ok []
  | .str name :: names => do
      let rest ← joinNames (i + 1) names
      return name :: rest
  | other :: _ => .error (.exception ("sequence item " ++ toString i ++
      ": expected str instance, " ++ other.typeName ++ " found"))

/-- `_summarize_history`, of the last five steps. -/
def summarizeHistory (history : List ExplorationStep) : Except Raised String := do
  let summaries ← (history.drop (history.length - 5)).mapM fun step => do
    let names ← joinNames 0 (step.toolCalls.map ToolCall.toolName)
    return "Step " ++ toString step.iteration ++ ": " ++ clip 100 step.thought ++ "... (tools: "
      ++ String.intercalate ", " names ++ ")"
  return String.intercalate "\n" summaries

/-- `_build_user_message`. -/
def buildUserMessage (query context : String) (history : List ExplorationStep)
    (accumulatedFindings : List String) : Except Raised String := do
  let historyPart ← if history.isEmpty then pure [] else do
    let summary ← summarizeHistory history
    pure ["\n## Exploration History\n" ++ summary]
  return String.intercalate "\n" (
    ["## Query\n" ++ query] ++
    (if context = "" then [] else ["\n## Context\n" ++ context]) ++
    (if accumulatedFindings.isEmpty then [] else
      ["\n## Findings So Far\n" ++
        String.intercalate "\n" (accumulatedFindings.map ("- " ++ ·))]) ++
    historyPart ++
    ["\n## Instructions\n" ++ "Continue exploring to answer the query. " ++
      "Use tools to gather information. " ++
      "When you have enough information, set next_direction to 'DONE'."])

/-! ## An iteration -/

/-- A call that was executed. -/
structure ExecutedCall where
  tool : Json
  args : Args
  result : String
  success : Bool

/-- `_format_tool_result`, of a result as text. -/
def formatToolResult (result : String) (maxLength : ℕ := 2000) : String :=
  if maxLength < result.length then
    clip maxLength result ++ "\n... (truncated, " ++ toString result.length ++ " chars total)"
  else result

section

variable (env : Environment) (settings : Settings)

/-- One call of the list.  The shape of the call is not checked: what is no object has no
`get`, and arguments that are no object, or that collide with the parameters of
`invoke_safe`, cannot be passed. -/
def executeToolCall : Json → Run ExecutedCall
  | .obj call => do
      let toolName := (Json.field? call "tool").getD (.str "")
      match (Json.field? call "args").getD (.obj []) with
      | .obj args =>
        match args.find? fun a => a.1 == "tool_name" || a.1 == "self" with
        | some a => throw (.exception
            ("REPLToolSurface.invoke_safe() got multiple values for argument '" ++ a.1 ++ "'"))
        | none => do
          let outcome ← invokeSafe env settings toolName args
          let result := match outcome with
            | .ok result => formatToolResult result
            | .error error => if error = "" then "None" else "Error: " ++ error
          return {
            tool := toolName
            args := args
            result := result
            success := outcome.toOption.isSome }
      | other => throw (.exception
          ("REPLToolSurface.invoke_safe() argument after ** must be a mapping, not " ++
            other.typeName))
  | other => throw (.exception ("'" ++ other.typeName ++ "' object has no attribute 'get'"))

/-- `_execute_tool_calls`, of the calls in turn. -/
def executeToolCalls : List Json → Run (List ExecutedCall)
  | [] => return []
  | call :: calls => do
      let executed ← executeToolCall env settings call
      let rest ← executeToolCalls calls
      return executed :: rest

/-- `_call_llm`. -/
def callLlm (userMessage : String) : Run String := do
  let response ← attempt env .agent {
    model := settings.agentModel
    maxTokens := .int settings.agentMaxTokens
    system := .str settings.agentSystemPrompt
    content := .str userMessage }
  Act.update fun s => { s with agentTokens := s.agentTokens + response.tokens }
  return response.text

/-- `run_iteration`. -/
def runIteration (query context : String) (history : List ExplorationStep)
    (accumulatedFindings : List String) : Run (AgentIteration ExecutedCall) := do
  Act.update fun s => { s with agentIterations := s.agentIterations + 1 }
  let userMessage ← Act.answer (buildUserMessage query context history accumulatedFindings)
  let response ← callLlm env settings userMessage
  let iteration ← Act.answer (parseResponse env response)
  let executed ← executeToolCalls env settings iteration.toolCalls
  return { iteration with toolCalls := executed }

end

end DoxAsdlc.Rlm
