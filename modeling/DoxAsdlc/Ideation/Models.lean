import DoxAsdlc.Development.Models
import DoxAsdlc.Structures.Upserts
import Mathlib.Data.Rat.Floor

/-!
# Maturity of an ideation session

An ideation session has a score in each of seven categories, from which its overall maturity is
computed.  The agent that leads the conversation answers with new scores for some of them, in
fields of a dictionary that may hold values of any kind.

## Main definitions

* `maturityCategories`, `calculateOverallMaturity`, `getMaturityLevel`, `identifyGaps` — maturity.
* `ChatMessage`, `MaturityState`, `IdeationSession` — what is stored.
* `Requirement`, `IdeationMessage`, `IdeationChatResponse` — what a chat answers.
* `numbers` — scores as numbers.
-/

namespace DoxAsdlc.Ideation

open Rlm (Json)

/-! ## Categories -/

/-- A category, and its weight in the overall maturity. -/
structure Category where
  id : String
  name : String
  weight : ℕ
  deriving DecidableEq, Repr

/-- `MATURITY_CATEGORIES`. -/
def maturityCategories : List Category :=
  [⟨"problem", "Problem Statement", 15⟩, ⟨"users", "Target Users", 10⟩,
    ⟨"functional", "Functional Requirements", 25⟩, ⟨"nfr", "Non-Functional Requirements", 15⟩,
    ⟨"scope", "Scope & Constraints", 15⟩, ⟨"success", "Success Criteria", 10⟩,
    ⟨"risks", "Risks & Assumptions", 10⟩]

/-- Scores by category, as they are read and answered. -/
abbrev Scores := String → Option Json

/-- A score as a number, where it is multiplied by a weight and divided. -/
def numeric : Json → Except Error ℚ
  | .bool b => .ok (if b then 1 else 0)
  | .int n => .ok n
  | .float x => .ok x
  | .null => .error (Agents.typeError "unsupported operand type(s) for *: 'NoneType' and 'int'")
  | .obj _ => .error (Agents.typeError "unsupported operand type(s) for *: 'dict' and 'int'")
  | .str _ => .error (Agents.typeError "unsupported operand type(s) for /: 'str' and 'int'")
  | .arr _ => .error (Agents.typeError "unsupported operand type(s) for /: 'list' and 'int'")

/-- The score of a category, `0` by default. -/
def scoreOf (scores : Scores) (category : Category) : Except Error ℚ :=
  numeric ((scores category.id).getD (.int 0))

/-- The scores of the categories as numbers, which they have to be. -/
def numbers (scores : Scores) : Except Error (List (Category × ℚ)) :=
  maturityCategories.mapM fun category => (scoreOf scores category).map fun x => (category, x)

/-- `calculate_overall_maturity`. -/
def calculateOverallMaturity (scores : List (Category × ℚ)) : ℚ :=
  (scores.map fun s => s.2 * (s.1.weight : ℚ) / 100).sum

/-- `get_maturity_level`. -/
def getMaturityLevel (score : ℚ) : String :=
  if score < 20 then "concept"
  else if score < 40 then "exploration"
  else if score < 60 then "defined"
  else if score < 80 then "refined"
  else "complete"

/-- `can_submit`, with the default threshold. -/
def canSubmit (scores : List (Category × ℚ)) : Bool := 80 ≤ calculateOverallMaturity scores

/-- `identify_gaps`, with the default threshold. -/
def identifyGaps (scores : List (Category × ℚ)) : List String :=
  (scores.filter fun s => s.2 < 40).map fun s => s.1.id

/-! ## What is stored -/

/-- `MessageRole`. -/
inductive MessageRole where
  | user | assistant | system
  deriving DecidableEq, Repr

/-- The text that stands for a role. -/
def MessageRole.value : MessageRole → String
  | .user => "user"
  | .assistant => "assistant"
  | .system => "system"

/-- `ChatMessage`. -/
structure ChatMessage where
  id : String
  sessionId : String
  role : MessageRole
  content : String
  timestamp : Time
  maturityDelta : ℤ := 0
  deriving DecidableEq, Repr

/-- A category of a stored maturity. -/
structure MaturityCategory where
  id : String
  name : String
  score : ℤ
  requiredForSubmit : Bool
  deriving DecidableEq, Repr

/-- `MaturityState`. -/
structure MaturityState where
  sessionId : String
  score : ℚ
  level : String
  categories : List MaturityCategory
  canSubmit : Bool
  gaps : List String
  updatedAt : Time
  deriving DecidableEq

/-- `IdeationSession`. -/
structure IdeationSession where
  id : String
  projectName : String
  userId : String
  dataSource : String
  version : ℕ := 1
  createdAt : Time
  updatedAt : Time
  deriving DecidableEq, Repr

/-- `int(x)`. -/
def truncate (x : ℚ) : ℤ := if 0 ≤ x then ⌊x⌋ else ⌈x⌉

theorem truncate_intCast (n : ℤ) : truncate n = n := by
  simp [truncate]

/-- The maturity that is stored for scores. -/
def maturityOf (sessionId : String) (now : Time) (scores : List (Category × ℚ)) :
    MaturityState where
  sessionId := sessionId
  score := calculateOverallMaturity scores
  level := getMaturityLevel (calculateOverallMaturity scores)
  categories := scores.map fun s => ⟨s.1.id, s.1.name, truncate s.2, true⟩
  canSubmit := canSubmit scores
  gaps := identifyGaps scores
  updatedAt := now

/-- The scores of a stored maturity. -/
def MaturityState.scores (m : MaturityState) : Scores := fun id =>
  (m.categories.reverse.find? (·.id = id)).map fun c => .int c.score

/-! ## What a chat answers -/

/-- `Requirement`. -/
structure Requirement where
  id : String
  description : String
  type : String
  priority : String
  categoryId : String
  sourceMessageId : String
  createdAt : Time
  deriving DecidableEq, Repr

/-- `IdeationMessage`. -/
structure IdeationMessage where
  id : String
  content : String
  timestamp : Time
  maturityDelta : ℚ
  extractedRequirements : List Requirement
  suggestedFollowups : List String
  deriving DecidableEq

/-- The maturity in an answer. -/
structure MaturityUpdate where
  score : ℚ
  level : String
  categories : List (Category × ℚ)
  canSubmit : Bool
  gaps : List String
  deriving DecidableEq

/-- `IdeationChatResponse`. -/
structure IdeationChatResponse where
  message : IdeationMessage
  maturityUpdate : MaturityUpdate
  extractedRequirements : List Requirement
  suggestedFollowups : List String
  deriving DecidableEq

/-- A text field of a pydantic model. -/
def textField : Json → Except Error String
  | .str s => .ok s
  | _ => .error { cls := .valueError, message := "Input should be a valid string" }

/-- A field of a pydantic model that is a list of texts. -/
def textsField : Json → Except Error (List String)
  | .arr items => items.mapM textField
  | _ => .error { cls := .valueError, message := "Input should be a valid list" }

end DoxAsdlc.Ideation
