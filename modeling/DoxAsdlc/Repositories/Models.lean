import DoxAsdlc.Ideation.Models
import DoxAsdlc.Redis.MemberSet

/-!
# What the repositories of ideation sessions hold

Sessions of users, and the messages, requirements, maturity, drafts and stories of a session.
They are kept in Redis or in PostgreSQL, behind one interface.

## Main definitions

* `IdeationSession`, `ChatMessage`, `ExtractedRequirement`, `MaturityState`, `PRDDraft`,
  `UserStory` — the entities.
* `validateId` — the check of an id.
* `Call`, `Answer` — the interface.
* `Circumstances` — what a server decides by itself.
-/

namespace DoxAsdlc.Repositories

open Rlm (Json)
open Redis (IterationOrder)

/-! ## Entities -/

inductive ProjectStatus where
  | draft | approved | inBuild | closed
  deriving DecidableEq, Repr

def ProjectStatus.value : ProjectStatus → String
  | .draft => "draft"
  | .approved => "approved"
  | .inBuild => "in_build"
  | .closed => "closed"

inductive DataSource where
  | mock | configured
  deriving DecidableEq, Repr

def DataSource.value : DataSource → String
  | .mock => "mock"
  | .configured => "configured"

inductive RequirementType where
  | functional | nonFunctional
  deriving DecidableEq, Repr

def RequirementType.value : RequirementType → String
  | .functional => "functional"
  | .nonFunctional => "non_functional"

inductive RequirementPriority where
  | mustHave | shouldHave | couldHave
  deriving DecidableEq, Repr

def RequirementPriority.value : RequirementPriority → String
  | .mustHave => "must_have"
  | .shouldHave => "should_have"
  | .couldHave => "could_have"

structure IdeationSession where
  id : String
  projectName : String
  userId : String
  status : ProjectStatus := .draft
  dataSource : DataSource := .mock
  version : ℤ := 1
  createdAt : Time
  updatedAt : Time
  deriving DecidableEq, Repr

structure ChatMessage where
  id : String
  sessionId : String
  role : Ideation.MessageRole
  content : String
  timestamp : Time
  maturityDelta : ℤ := 0
  metadata : Option (List (String × Json)) := none

structure ExtractedRequirement where
  id : String
  sessionId : String
  description : String
  type : RequirementType
  priority : RequirementPriority
  categoryId : Option String := none
  createdAt : Time
  deriving DecidableEq, Repr

structure MaturityState where
  sessionId : String
  score : ℤ
  level : String
  categories : List Ideation.MaturityCategory
  canSubmit : Bool := false
  gaps : List String := []
  updatedAt : Time
  deriving DecidableEq, Repr

structure PRDSection where
  id : String
  heading : String
  content : String
  order : ℤ
  deriving DecidableEq, Repr

structure PRDDraft where
  id : String
  sessionId : String
  title : String
  version : String
  sections : List PRDSection
  status : String := "draft"
  createdAt : Time
  deriving DecidableEq, Repr

structure UserStory where
  id : String
  sessionId : String
  title : String
  asA : String
  iWant : String
  soThat : String
  acceptanceCriteria : List String
  linkedRequirements : List String := []
  priority : RequirementPriority := .shouldHave
  createdAt : Time
  deriving DecidableEq, Repr

/-! ## Ids -/

/-- `validate_id`, with the default length. -/
def validateId (idValue fieldName : String) : Except Error Unit :=
  if idValue = "" then .error ⟨.valueError, fieldName ++ " cannot be empty", []⟩
  else if 64 < idValue.length then
    .error ⟨.valueError, fieldName ++ " exceeds maximum length of 64 characters", []⟩
  else .ok ()

/-- An id that is accepted. -/
def ValidId (id : String) : Prop := id ≠ "" ∧ id.length ≤ 64

instance (id : String) : Decidable (ValidId id) := inferInstanceAs (Decidable (_ ∧ _))

theorem validateId_of_valid {id : String} (h : ValidId id) (fieldName : String) :
    validateId id fieldName = .ok () := by
  have hlength : ¬ 64 < id.length := by
    have := h.2
    omega
  simp [validateId, h.1, hlength]

/-- The bound of the integers of 64 bits. -/
def int64Bound : ℕ := 2 ^ 63

/-! ## The interface -/

/-- A call of one of the repositories. -/
inductive Call where
  | createSession (session : IdeationSession)
  | getSession (sessionId : String)
  | updateSession (session : IdeationSession)
  | deleteSession (sessionId : String)
  | listSessions (userId : String) (limit offset : ℕ)
  | createMessage (message : ChatMessage)
  | getMessages (sessionId : String) (limit offset : ℕ)
  | deleteMessages (sessionId : String)
  | createRequirement (requirement : ExtractedRequirement)
  | getRequirements (sessionId : String)
  | updateRequirement (requirement : ExtractedRequirement)
  | deleteRequirement (requirementId : String)
  | saveMaturity (maturity : MaturityState)
  | getMaturity (sessionId : String)
  | saveDraft (draft : PRDDraft)
  | getDraft (sessionId : String)
  | saveUserStories (sessionId : String) (stories : List UserStory)
  | getUserStories (sessionId : String)

/-- What a call returns. -/
inductive Answer where
  | nothing
  | session (session : Option IdeationSession)
  | sessions (sessions : List IdeationSession)
  | message (message : ChatMessage)
  | messages (messages : List ChatMessage)
  | requirement (requirement : ExtractedRequirement)
  | requirements (requirements : List ExtractedRequirement)
  | maturity (maturity : Option MaturityState)
  | draft (draft : Option PRDDraft)
  | stories (stories : List UserStory)

/-- What a server decides by itself: the orders in which Redis walks through a set, through its keys
and through a hash, and PostgreSQL through the rows of a table, and the time of its clock. -/
structure Circumstances where
  members : IterationOrder String
  keys : IterationOrder String
  fields : IterationOrder ExtractedRequirement
  sessions : IterationOrder IdeationSession
  messages : IterationOrder ChatMessage
  requirements : IterationOrder ExtractedRequirement
  drafts : IterationOrder PRDDraft
  stories : IterationOrder UserStory
  now : Time

end DoxAsdlc.Repositories
