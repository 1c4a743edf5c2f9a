import Mathlib.Data.Rat.Defs
import DoxAsdlc.Interaction.Awaiting

/-!
# The store of the ideation studio

The page of the ideation studio keeps one session: its messages, its maturity, the requirements
extracted so far and the draft of the document.  `sendMessage` and `submitForPRD` await the
server and write its answer into the store as it is by then.

Ids and times are given to the actions that make them up.  Of the data only what the store
reads or copies is kept: the categories and gaps of a maturity, and the fields of requirements,
stories and documents other than these, are not.

## Main definitions

* `IdeationState` — the store, with `defaultState`.
* `Action`, `act` — what the user does, up to the request sent.
* `Request`, `Answer`, `resume` — what is awaited, and what is done with the answer.
-/

namespace DoxAsdlc.HitlUi

open Interaction

inductive ProjectStatus
  | draft | approved | inBuild | closed
  deriving DecidableEq

/-- Where the answers of the model come from. -/
inductive DataSource
  | mock | configured
  deriving DecidableEq

inductive Role
  | user | assistant | system
  deriving DecidableEq

def Role.text : Role → String
  | user => "user"
  | assistant => "assistant"
  | system => "system"

structure IdeationMessage where
  id : String
  role : Role
  content : String
  timestamp : String
  suggestedFollowups : List String
  deriving DecidableEq

structure MaturityState where
  score : ℚ
  canSubmit : Bool
  deriving DecidableEq

structure Requirement where
  id : String
  description : String
  deriving DecidableEq

structure UserStory where
  id : String
  title : String
  deriving DecidableEq

structure PRDDocument where
  id : String
  title : String
  deriving DecidableEq

def createInitialMaturityState : MaturityState := ⟨0, false⟩

/-- The store of the page. -/
structure IdeationState where
  sessionId : Option String
  projectName : String
  projectStatus : ProjectStatus
  dataSource : DataSource
  messages : List IdeationMessage
  isLoading : Bool
  maturity : MaturityState
  extractedRequirements : List Requirement
  userStories : List UserStory
  prdDraft : Option PRDDocument
  submittedGateId : Option String
  isSubmitting : Bool
  error : Option String
  deriving DecidableEq

def defaultState : IdeationState where
  sessionId := none
  projectName := ""
  projectStatus := .draft
  dataSource := .mock
  messages := []
  isLoading := false
  maturity := createInitialMaturityState
  extractedRequirements := []
  userStories := []
  prdDraft := none
  submittedGateId := none
  isSubmitting := false
  error := none

def createWelcomeMessage (projectName messageId timestamp : String) : IdeationMessage where
  id := messageId
  role := .assistant
  content := "Welcome to the PRD Ideation Studio for **" ++ projectName ++ "**!\n\n" ++
    "I'll help you develop a comprehensive Product Requirements Document through a structured " ++
    "interview process.\n\nWe'll explore several key areas:\n" ++
    "- **Problem Statement** - What problem are we solving?\n" ++
    "- **Target Users** - Who will use this?\n" ++
    "- **Functional Requirements** - What should the system do?\n" ++
    "- **Non-Functional Requirements** - Performance, security, etc.\n" ++
    "- **Scope & Constraints** - What's in and out of scope?\n" ++
    "- **Success Criteria** - How will we measure success?\n" ++
    "- **Risks & Assumptions** - What could go wrong?\n\n" ++
    "As we discuss, I'll track our progress toward a complete PRD. Once we reach 80% maturity, " ++
    "you can submit for formal PRD generation.\n\n" ++
    "Let's start! **What problem are you trying to solve with this project?**"
  timestamp := timestamp
  suggestedFollowups := ["What specific problem are you trying to solve?",
    "Who experiences this problem the most?", "What is the current workaround?"]

/-- What `loadSession` is given. -/
structure SavedSession where
  sessionId : String
  projectName : String
  messages : List IdeationMessage
  maturity : MaturityState
  requirements : List Requirement
  status : ProjectStatus
  dataSource : Option DataSource
  deriving DecidableEq

/-! ## Requests and answers -/

structure IdeationChatRequest where
  sessionId : String
  message : String
  currentMaturity : ℚ
  useMock : Bool
  deriving DecidableEq

structure IdeationChatResponse where
  message : IdeationMessage
  maturityUpdate : MaturityState
  extractedRequirements : List Requirement

structure PRDSubmission where
  sessionId : String
  maturityScore : ℚ
  extractedRequirements : List Requirement
  conversationSummary : String
  requestedBy : String
  deriving DecidableEq

structure PRDSubmissionResult where
  success : Bool
  gateId : Option String
  prdDraft : Option PRDDocument
  userStories : Option (List UserStory)
  error : Option String

/-- What the store awaits. -/
inductive Request
  | send (request : IdeationChatRequest)
  | submit (request : PRDSubmission)
  deriving DecidableEq

def Request.sessionId : Request → String
  | send request => request.sessionId
  | submit request => request.sessionId

/-- What comes back, or the message of the exception if it is an `Error`. -/
def Answer : Request → Type
  | .send _ => Except (Option String) IdeationChatResponse
  | .submit _ => Except (Option String) PRDSubmissionResult

/-! ## Actions -/

/-- What the user does, with the ids and times made up on the way. -/
inductive Action
  | startSession (projectName sessionId messageId timestamp : String)
  | loadSession (data : SavedSession)
  | sendMessage (content messageId timestamp : String)
  | submitForPRD
  | resetSession
  deriving DecidableEq

namespace IdeationState

def startSession (projectName sessionId messageId timestamp : String) (s : IdeationState) :
    IdeationState :=
  { s with
    sessionId := some sessionId
    projectName := projectName
    projectStatus := .draft
    messages := [createWelcomeMessage projectName messageId timestamp]
    maturity := createInitialMaturityState
    extractedRequirements := []
    userStories := []
    prdDraft := none
    submittedGateId := none
    isSubmitting := false
    error := none }

def loadSession (data : SavedSession) (s : IdeationState) : IdeationState :=
  { s with
    sessionId := some data.sessionId
    projectName := data.projectName
    projectStatus := data.status
    dataSource := data.dataSource.getD .mock
    messages := data.messages
    maturity := data.maturity
    extractedRequirements := data.requirements
    userStories := []
    prdDraft := none
    submittedGateId := none
    isSubmitting := false
    error := none }

/-- The session there is: an empty id is none. -/
def activeSession (s : IdeationState) : Option String := s.sessionId.filter (· ≠ "")

def addMessage (message : IdeationMessage) (s : IdeationState) : IdeationState :=
  { s with messages := s.messages ++ [message] }

def sendMessage (content messageId timestamp : String) (s : IdeationState) :
    IdeationState × Option Request :=
  match s.activeSession with
  | none => ({ s with error := some "No active session" }, none)
  | some sessionId =>
    let s' := s.addMessage ⟨messageId, .user, content, timestamp, []⟩
    ({ s' with isLoading := true, error := none },
      some (.send ⟨sessionId, content, s.maturity.score, s.dataSource = .mock⟩))

/-- The UTF-16 units of a character. -/
def utf16Units (c : Char) : ℕ := if c.toNat < 65536 then 1 else 2

/-- What is left of a text cut after so many UTF-16 units. -/
def substring (units : ℕ) : List Char → List Char
  | [] => []
  | c :: text => if utf16Units c ≤ units then c :: substring (units - utf16Units c) text else []

def conversationSummary (messages : List IdeationMessage) : String :=
  "\n\n".intercalate ((messages.filter (·.role ≠ .system)).map fun m =>
    m.role.text ++ ": " ++ String.ofList (substring 200 m.content.toList))

def submitForPRD (s : IdeationState) : IdeationState × Option Request :=
  match s.activeSession with
  | none => (s, none)
  | some sessionId =>
    ({ s with isSubmitting := true, error := none },
      some (.submit ⟨sessionId, s.maturity.score, s.extractedRequirements,
        conversationSummary s.messages, "anonymous-user"⟩))

/-! ## Answers -/

/-- The extracted requirements that are not known by their ids yet. -/
def newRequirements (s : IdeationState) (extracted : List Requirement) : List Requirement :=
  extracted.filter fun req => !s.extractedRequirements.any fun existing => existing.id = req.id

def sendAnswered (answer : Except (Option String) IdeationChatResponse) (s : IdeationState) :
    IdeationState :=
  match answer with
  | .ok response =>
    { s with
      messages := s.messages ++ [response.message]
      maturity := response.maturityUpdate
      isLoading := false
      extractedRequirements :=
        s.extractedRequirements ++ s.newRequirements response.extractedRequirements }
  | .error message =>
    { s with isLoading := false, error := some (message.getD "Failed to send message") }

def submitAnswered (answer : Except (Option String) PRDSubmissionResult) (s : IdeationState) :
    IdeationState :=
  match answer with
  | .ok result =>
    if result.success then
      { s with
        prdDraft := result.prdDraft
        submittedGateId := result.gateId.filter (· ≠ "")
        userStories := result.userStories.getD []
        isSubmitting := false }
    else
      { s with
        isSubmitting := false
        error := some ((result.error.filter (· ≠ "")).getD "Submission failed") }
  | .error message =>
    { s with isSubmitting := false, error := some (message.getD "Submission failed") }

end IdeationState

open IdeationState

/-- What an action does before anything else runs. -/
def act : Action → IdeationState → IdeationState × Option Request
  | .startSession projectName sessionId messageId timestamp, s =>
    (s.startSession projectName sessionId messageId timestamp, none)
  | .loadSession data, s => (s.loadSession data, none)
  | .sendMessage content messageId timestamp, s => s.sendMessage content messageId timestamp
  | .submitForPRD, s => s.submitForPRD
  | .resetSession, _ => (defaultState, none)

/-- What the store does when it is answered. -/
def resume : (r : Request) → Answer r → IdeationState → IdeationState
  | .send _, answer, s => s.sendAnswered answer
  | .submit _, answer, s => s.submitAnswered answer

/-- The store with the requests it awaits. -/
def ideationStore : Client IdeationState Action Request Answer := ⟨act, resume⟩

/-! ## What is shown of a session -/

/-- The messages, the maturity, the requirements and the draft are the same. -/
structure SameContent (s s' : IdeationState) : Prop where
  messages : s'.messages = s.messages
  maturity : s'.maturity = s.maturity
  extractedRequirements : s'.extractedRequirements = s.extractedRequirements
  prdDraft : s'.prdDraft = s.prdDraft

/-- An answered message always adds to the messages. -/
theorem sameContent_sendAnswered {answer : Except (Option String) IdeationChatResponse}
    {s : IdeationState} : SameContent s (s.sendAnswered answer) ↔ answer.isOk = false := by
  cases answer with
  | ok response =>
    constructor
    · intro h
      have hmessages := h.messages
      simp [sendAnswered] at hmessages
    · intro h
      cases h
  | error message => exact iff_of_true ⟨rfl, rfl, rfl, rfl⟩ rfl

/-- An answered submission only replaces the draft. -/
theorem sameContent_submitAnswered {answer : Except (Option String) PRDSubmissionResult}
    {s : IdeationState} : SameContent s (s.submitAnswered answer) ↔
      ∀ result, answer = .ok result → result.success = true → result.prdDraft = s.prdDraft := by
  cases answer with
  | ok result =>
    by_cases hsuccess : result.success = true
    · constructor
      · rintro h _ ⟨⟩ _
        have hdraft := h.prdDraft
        simpa [submitAnswered, hsuccess] using hdraft
      · intro h
        have hdraft := h result rfl hsuccess
        exact ⟨by simp [submitAnswered, hsuccess], by simp [submitAnswered, hsuccess],
          by simp [submitAnswered, hsuccess], by simp [submitAnswered, hsuccess, hdraft]⟩
    · constructor
      · rintro - _ ⟨⟩ htrue
        exact absurd htrue hsuccess
      · intro _
        exact ⟨by simp [submitAnswered, hsuccess], by simp [submitAnswered, hsuccess],
          by simp [submitAnswered, hsuccess], by simp [submitAnswered, hsuccess]⟩
  | error message =>
    constructor
    · rintro - _ ⟨⟩
    · intro _
      exact ⟨rfl, rfl, rfl, rfl⟩

end DoxAsdlc.HitlUi
