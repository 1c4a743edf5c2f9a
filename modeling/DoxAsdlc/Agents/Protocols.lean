import DoxAsdlc.Rlm.Cache

/-!
# What an agent is given and returns

The agents of the workflows meet in dictionaries: a context and metadata go in, a result with
more metadata comes out.  What is in the metadata was made by a language model as often as not,
so that its values are of any shape, and what Python does with a value of the wrong shape is to
raise.

## Main definitions

* `AgentContext`, `AgentResult` — the two sides of `execute`.
* `Json.join`, `Json.slice`, `Json.elements`, `Json.len` — operations on values of any shape.
-/

namespace DoxAsdlc.Agents

open Rlm (Json Args)

/-- The context of an execution. -/
structure AgentContext where
  sessionId : String
  taskId : String
  tenantId : String
  workspacePath : String
  /-- `git_sha` of the metadata. -/
  gitSha : Option String := none
  deriving DecidableEq, Repr

/-- The result of an execution; `V` is what the metadata holds. -/
structure AgentResult (V : Type) where
  success : Bool
  errorMessage : Option String := none
  shouldRetry : Bool := false
  artifactPaths : List String := []
  metadata : List (String × V) := []

/-- `metadata.get(key)`. -/
def AgentResult.get {V : Type} (r : AgentResult V) (key : String) : Option V :=
  r.metadata.lookup key

/-- `error_message or default`. -/
def AgentResult.errorOr {V : Type} (r : AgentResult V) (default : String) : String :=
  match r.errorMessage with
  | none => default
  | some message => if message = "" then default else message

/-- A `TypeError`. -/
def typeError (message : String) : Error := ⟨.exception, message, []⟩

end DoxAsdlc.Agents

namespace DoxAsdlc.Rlm.Json

open Agents (typeError)

/-- The items of a list to join, which must be texts, from position `i` on. -/
def joinItems (i : ℕ) : List Json → Except Error (List String)
  | [] => .ok []
  | .str s :: items => (joinItems (i + 1) items).map (s :: ·)
  | other :: _ => .error (typeError ("sequence item " ++ toString i ++
      ": expected str instance, " ++ other.typeName ++ " found"))

/-- `separator.join(value)`: a text is joined by its characters, an object by its keys. -/
def join (separator : String) : Json → Except Error String
  | .str s => .ok (String.intercalate separator (s.toList.map fun c => String.ofList [c]))
  | .arr items => (joinItems 0 items).map (String.intercalate separator)
  | .obj fields => .ok (String.intercalate separator (fields.map Prod.fst))
  | _ => .error (typeError "can only join an iterable")

/-- `value[:n]`. -/
def slice (n : ℕ) : Json → Except Error Json
  | .str s => .ok (.str (String.ofList (s.toList.take n)))
  | .arr items => .ok (.arr (items.take n))
  | .obj _ => .error (typeError "unhashable type: 'slice'")
  | other => .error (typeError ("'" ++ other.typeName ++ "' object is not subscriptable"))

/-- `for item in value`. -/
def elements : Json → Except Error (List Json)
  | .str s => .ok (s.toList.map fun c => .str (String.ofList [c]))
  | .arr items => .ok items
  | .obj fields => .ok (fields.map fun f => .str f.1)
  | other => .error (typeError ("'" ++ other.typeName ++ "' object is not iterable"))

/-- `len(value)`. -/
def len : Json → Except Error ℕ
  | .str s => .ok s.length
  | .arr items => .ok items.length
  | .obj fields => .ok fields.length
  | other => .error (typeError ("object of type '" ++ other.typeName ++ "' has no len()"))

end DoxAsdlc.Rlm.Json
