import DoxAsdlc.Core.Exceptions
import Mathlib.Algebra.Order.Field.Rat

/-!
# Models of the code exploration

An exploration asks a language model what to look at, runs the tools that it names, and
records what it found.  What the model answers is text with JSON in it, so that the
arguments of a tool are values of any shape.

## Main definitions

* `Json` — such a value, and what Python makes of it.
* `Raised` — the exceptions that are told apart.
* `Request`, `Response`, `Attempt` — calls of the API.
* `ExplorationStep`, `RLMResult` — what is recorded and returned.
-/

namespace DoxAsdlc.Rlm

/-- A JSON value as Python has it; the keys of an object are different. -/
inductive Json where
  | null
  | bool (b : Bool)
  | int (n : ℤ)
  | float (x : ℚ)
  | str (s : String)
  | arr (elements : List Json)
  | obj (fields : List (String × Json))

/-- Keyword arguments. -/
abbrev Args := List (String × Json)

namespace Json

/-- `dict.get`, without a default. -/
def field? (fields : List (String × Json)) (key : String) : Option Json :=
  (fields.find? fun f => f.1 == key).map (·.2)

/-- The truth value. -/
def truthy : Json → Bool
  | null => false
  | bool b => b
  | int n => n != 0
  | float x => x != 0
  | str s => s != ""
  | arr elements => !elements.isEmpty
  | obj fields => !fields.isEmpty

/-- The name of the type. -/
def typeName : Json → String
  | null => "NoneType"
  | bool _ => "bool"
  | int _ => "int"
  | float _ => "float"
  | str _ => "str"
  | arr _ => "list"
  | obj _ => "dict"

/-- Is this the text `s`? -/
def isText (s : String) : Json → Bool
  | str t => t == s
  | _ => false

end Json

/-- The exceptions: a budget that is used up, another `RLMError`, and any other one. -/
inductive Raised where
  | budgetExceeded (message : String) (budgetLimit subcallsUsed : ℕ)
  | rlmError (message : String)
  | exception (message : String)
  deriving DecidableEq, Repr

/-- `str(e)`. -/
def Raised.str : Raised → String
  | budgetExceeded message _ _ | rlmError message | exception message => message

/-! ## Calls of the API -/

/-- The arguments of `messages.create`, with its one message. -/
structure Request where
  model : String
  maxTokens : Json
  system : Json
  content : Json

/-- The texts of the blocks that have one, and the tokens if they are told. -/
structure Response where
  texts : List String
  usage : Option (ℕ × ℕ) := none

/-- The text of all blocks. -/
def Response.text (r : Response) : String := String.join r.texts

/-- The tokens that were used. -/
def Response.tokens (r : Response) : ℕ := (r.usage.map fun u => u.1 + u.2).getD 0

/-- Who calls: the agent for its next iteration, or the query tool. -/
inductive Caller where
  | agent | tool
  deriving DecidableEq, Repr

/-- An attempt to call the API, in an iteration of the budget. -/
structure Attempt where
  caller : Caller
  request : Request
  iteration : ℕ

/-! ## What is recorded -/

structure ToolCall where
  toolName : Json
  arguments : Args
  result : String

structure Citation where
  filePath : Json
  lineStart : Json
  lineEnd : Json
  contentHash : String
  snippet : String

structure Finding where
  description : String
  evidence : String
  sourceFile : String
  deriving DecidableEq

structure ExplorationStep where
  iteration : ℕ
  thought : String
  toolCalls : List ToolCall
  findingsSoFar : List String
  nextDirection : String
  subcallsUsed : ℕ

structure ExplorationTrajectory where
  steps : List ExplorationStep
  totalSubcalls : ℕ
  cachedHits : ℕ
  query : String
  contextHints : List String

structure RLMUsage where
  subcallCount : ℕ
  cachedSubcalls : ℕ
  totalTokens : ℕ
  modelCalls : ℕ
  budgetLimit : ℕ
  budgetRemaining : ℤ

structure RLMResult where
  taskId : String
  success : Bool
  findings : List Finding
  synthesis : String
  trajectory : ExplorationTrajectory
  usage : RLMUsage
  citations : List Citation
  error : Option String := none

/-- `RLMResult.failure`. -/
def RLMResult.failure (taskId error : String) (trajectory : ExplorationTrajectory)
    (usage : RLMUsage) : RLMResult where
  taskId := taskId
  success := false
  findings := []
  synthesis := ""
  trajectory := trajectory
  usage := usage
  citations := []
  error := some error

end DoxAsdlc.Rlm
