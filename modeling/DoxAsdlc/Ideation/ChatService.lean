import DoxAsdlc.Ideation.Models
import DoxAsdlc.Interaction.Pool

/-!
# Ideation chats

A chat reads the history and the maturity of its session, has the agent answer, and then stores
the user's message, the answer and the maturity, in a transaction for each.  Everything that may
fail on the agent's answer is computed before the first of them.

The store is that of one session.  The agent and the client are parameters; a chat that has no
client, or whose agent fails, raises.

A machine that follows a chat by what it has been answered, and what one transaction of a chat at
each stage does to the store.

## Main definitions

* `Cmd`, `serve` — the transactions on a session.
* `Env` — what a chat meets outside the store.
* `chatTurn` — what is made of the agent's answer.
* `processChat` — a chat.
* `Stage`, `chat` — the stages, and the machine.
* `Effect` — what a transaction does.

## Main results

* `effect_of_command` — what each transaction does, stage by stage.
-/

namespace DoxAsdlc.Ideation

open Interaction Interaction.Program
open Rlm (Json)

/-! ## The store of a session -/

inductive Cmd where
  | getSession
  | createSession (session : IdeationSession)
  | getMessages (limit : ℕ)
  | createMessage (message : ChatMessage)
  | getMaturity
  | saveMaturity (maturity : MaturityState)

/-- The answers. -/
abbrev Reply : Cmd → Type
  | .getSession => Option IdeationSession
  | .getMessages _ => List ChatMessage
  | .getMaturity => Option MaturityState
  | _ => Unit

abbrev interface : Interface := ⟨Cmd, Reply⟩

/-- What is stored of a session. -/
structure Store where
  session : Option IdeationSession := none
  messages : List ChatMessage := []
  maturity : Option MaturityState := none
  deriving DecidableEq

/-- What each transaction does. -/
def serve : Server interface Store
  | .getSession, w => (w, w.session)
  | .createSession session, w => ({ w with session := some session }, ())
  | .getMessages limit, w => (w, w.messages.take limit)
  | .createMessage message, w => ({ w with messages := w.messages ++ [message] }, ())
  | .getMaturity, w => (w, w.maturity)
  | .saveMaturity maturity, w => ({ w with maturity := some maturity }, ())

abbrev Async (α : Type) := Program interface Error α

abbrev send (c : Cmd) : Async (Reply c) := command (I := interface) c

/-! ## A chat -/

/-- `IdeationChatRequest`, and the attributes that it may have besides. -/
structure IdeationChatRequest where
  sessionId : String
  message : String
  currentMaturity : ℚ
  projectName : Option String := none
  userId : String := "anonymous"
  dataSource : String := "mock"

/-- The clock, new ids, the client and the agent as one chat meets them. -/
structure Env where
  now : Time
  taskId : String
  messageId : String
  /-- The ids of the stored messages. -/
  storedId : MessageRole → String
  requirementId : ℕ → String
  client : Except Error Unit
  /-- The agent, given the message, the history and the maturity. -/
  execute : String → List (String × String) → Scores → Agents.AgentResult Json

variable (env : Env) (request : IdeationChatRequest)

/-- `LLMClientError(message)`. -/
def llmClientError (message : String) : Error := { cls := .llmClientError, message := message }

/-- The session that is created for a chat. -/
def createSession : Async Unit :=
  send (.createSession {
    id := request.sessionId
    projectName := if request.projectName.getD "" = "" then "Untitled Project"
      else request.projectName.getD ""
    userId := request.userId
    dataSource := if request.dataSource = "configured" then "configured" else "mock"
    createdAt := env.now
    updatedAt := env.now })

/-- `_ensure_session_exists`. -/
def ensureSessionExists : Async Unit := do
  match ← send .getSession with
  | some _ => return ()
  | none => createSession env request

/-- `_get_conversation_history`, of the stored messages. -/
def conversationHistory (messages : List ChatMessage) : List (String × String) :=
  messages.map fun m => (m.role.value, m.content)

/-- `_get_session_maturity_dict`, of the stored maturity. -/
def maturityDict (maturity : Option MaturityState) : Scores :=
  (maturity.map MaturityState.scores).getD fun _ => none

/-- The message that is stored. -/
def storedMessage (role : MessageRole) (content : String) : ChatMessage where
  id := env.storedId role
  sessionId := request.sessionId
  role := role
  content := content
  timestamp := env.now

/-- One extracted requirement. -/
def extractedRequirement (i : ℕ) (req : Json) : Except Error Requirement := do
  let id ← textField (← req.get "id" (.str ("REQ-" ++ env.requirementId i)))
  let description ← textField (← req.get "description" (.str ""))
  let type ← textField (← req.get "type" (.str "functional"))
  let priority ← textField (← req.get "priority" (.str "should_have"))
  let categoryId ← textField (← req.get "category_id" (.str "functional"))
  return {
    id := id
    description := description
    type := type
    priority := priority
    categoryId := categoryId
    sourceMessageId := env.taskId
    createdAt := env.now }

/-- `value.items()`. -/
def itemsOf : Json → Except Error (List (String × Json))
  | .obj fields => .ok fields
  | other => .error (Json.attributeError other "items")

/-- The answer to a request. -/
def buildResponse (metadata : String → Json → Json) (scores : List (Category × ℚ)) :
    Except Error IdeationChatResponse := do
  let overall := calculateOverallMaturity scores
  let requirements ← (metadata "extracted_requirements" (.arr [])).elements
  let extracted ← requirements.mapIdxM fun i req => extractedRequirement env i req
  let content ← textField (metadata "response" (.str ""))
  let followups ← textsField (metadata "follow_up_questions" (.arr []))
  return {
    message := {
      id := "msg-" ++ env.messageId
      content := content
      timestamp := env.now
      maturityDelta := overall - request.currentMaturity
      extractedRequirements := extracted
      suggestedFollowups := followups }
    maturityUpdate := {
      score := overall
      level := getMaturityLevel overall
      categories := scores
      canSubmit := canSubmit scores
      gaps := identifyGaps scores }
    extractedRequirements := extracted
    suggestedFollowups := followups }

/-- What a chat is about to store and to answer: the maturity that it read, and the scores that
the agent gave. -/
structure Turn where
  maturity : Option MaturityState
  updates : List (String × Json)
  scores : List (Category × ℚ)
  computed : numbers (Upserts.write updates (maturityDict maturity)) = .ok scores
  response : IdeationChatResponse

/-- The part of `process_chat` between the last read and the first write. -/
def chatTurn (messages : List ChatMessage) (maturity : Option MaturityState) :
    Except Error Turn :=
  let current := maturityDict maturity
  let result := env.execute request.message (conversationHistory messages) current
  if result.success = false then
    .error (llmClientError ("Ideation agent failed: " ++ result.errorMessage.getD "None"))
  else
    let metadata := fun key default => (result.get key).getD default
    match itemsOf (metadata "maturity_updates" (.obj [])) with
    | .error e => .error e
    | .ok updates =>
      match hscores : numbers (Upserts.write updates current) with
      | .error e => .error e
      | .ok scores =>
        (buildResponse env request metadata scores).map fun response =>
          ⟨maturity, updates, scores, hscores, response⟩

/-- The part of `process_chat` that stores. -/
def saveTurn (t : Turn) : Async IdeationChatResponse := do
  send (.createMessage (storedMessage env request .user request.message))
  send (.createMessage (storedMessage env request .assistant t.response.message.content))
  send (.saveMaturity (maturityOf request.sessionId env.now t.scores))
  return t.response

/-- `process_chat`. -/
def processChat : Async IdeationChatResponse := do
  answer env.client
  ensureSessionExists env request
  let messages ← send (.getMessages 100)
  let maturity ← send .getMaturity
  let t ← answer (chatTurn env request messages maturity)
  saveTurn env request t

end DoxAsdlc.Ideation

/-! ## The stages of a chat -/

namespace DoxAsdlc.Ideation

open Interaction Interaction.Program

/-- Where a chat stands, by what it does next.  A chat that has `saved` may have been answered
or not. -/
inductive Stage where
  | opening
  | creating
  | remembering
  | maturing (messages : List ChatMessage)
  | asking (t : Turn)
  | answering (t : Turn)
  | saving (t : Turn)
  | saved (t : Turn) (result : Except Error Unit)
  | failed (e : Error)

namespace Stage

/-- Nothing has been stored for the chat. -/
def Early : Stage → Prop
  | opening | creating | remembering | maturing _ | asking _ => True
  | _ => False

/-- The user's message has been stored for the chat, and its answer not yet. -/
def isAnswering : Stage → Bool
  | answering _ => true
  | _ => false

/-- The maturity has been saved for the chat. -/
def HasSaved : Stage → Prop
  | saved _ _ => True
  | _ => False

theorem hasSaved_iff {p : Stage} : p.HasSaved ↔ ∃ t result, p = saved t result := by
  cases p with
  | saved t result => exact iff_of_true trivial ⟨t, result, rfl⟩
  | _ => exact iff_of_false id (by simp)

theorem Early.not_hasSaved {p : Stage} (hp : p.Early) : ¬ p.HasSaved := by
  intro hsaved
  obtain ⟨t, result, rfl⟩ := hasSaved_iff.mp hsaved
  exact hp

variable (env : Env) (request : IdeationChatRequest)

/-- Where a chat begins. -/
def start : Stage :=
  match env.client with
  | .ok _ => opening
  | .error e => failed e

/-- A chat whose session exists. -/
def continueChat : Async IdeationChatResponse := do
  let messages ← send (.getMessages 100)
  let maturity ← send .getMaturity
  let t ← answer (chatTurn env request messages maturity)
  saveTurn env request t

/-- What is left to do at a stage. -/
def program : Stage → Async IdeationChatResponse
  | opening => do
      ensureSessionExists env request
      continueChat env request
  | creating => do
      createSession env request
      continueChat env request
  | remembering => continueChat env request
  | maturing messages => do
      let maturity ← send .getMaturity
      let t ← answer (chatTurn env request messages maturity)
      saveTurn env request t
  | asking t => saveTurn env request t
  | answering t => do
      send (.createMessage (storedMessage env request .assistant t.response.message.content))
      send (.saveMaturity (maturityOf request.sessionId env.now t.scores))
      return t.response
  | saving t => do
      send (.saveMaturity (maturityOf request.sessionId env.now t.scores))
      return t.response
  | saved t (.ok _) => .ret t.response
  | saved _ (.error e) | failed e => .raise e

/-- The stage after what a transaction came to. -/
def proceed (p : Stage) : Except Error Unit → Stage
  | .ok _ => p
  | .error e => failed e

/-- The stage after an exchange. -/
def next : Stage → Exchange interface Error → Stage
  | opening, ⟨.getSession, .ok (some _), _⟩ => remembering
  | opening, ⟨.getSession, .ok none, _⟩ => creating
  | opening, ⟨.getSession, .error e, _⟩ => failed e
  | creating, ⟨.createSession _, reply, _⟩ => remembering.proceed reply
  | remembering, ⟨.getMessages _, .ok messages, _⟩ => maturing messages
  | remembering, ⟨.getMessages _, .error e, _⟩ => failed e
  | maturing messages, ⟨.getMaturity, .ok maturity, _⟩ =>
    match chatTurn env request messages maturity with
    | .ok t => asking t
    | .error e => failed e
  | maturing _, ⟨.getMaturity, .error e, _⟩ => failed e
  | asking t, ⟨.createMessage _, reply, _⟩ => (answering t).proceed reply
  | answering t, ⟨.createMessage _, reply, _⟩ => (saving t).proceed reply
  | saving t, ⟨.saveMaturity _, reply, true⟩ => saved t reply
  | saving t, ⟨.saveMaturity _, .ok _, false⟩ => saved t (.ok ())
  | saving _, ⟨.saveMaturity _, .error e, false⟩ => failed e
  | p, _ => p

/-- The transaction that comes next. -/
def command? : Stage → Option Cmd
  | opening => some .getSession
  | creating => (createSession env request).head?
  | remembering => some (.getMessages 100)
  | maturing _ => some .getMaturity
  | asking _ => some (.createMessage (storedMessage env request .user request.message))
  | answering t =>
    some (.createMessage (storedMessage env request .assistant t.response.message.content))
  | saving t => some (.saveMaturity (maturityOf request.sessionId env.now t.scores))
  | saved _ _ | failed _ => none

variable {env request}

theorem head?_program (p : Stage) : (p.program env request).head? = p.command? env request := by
  cases p with
  | saved t result => cases result <;> rfl
  | _ => rfl

end Stage

/-- The machine that follows a chat. -/
def chat (env : Env) (request : IdeationChatRequest) :
    Tracker interface Error IdeationChatResponse Stage where
  program := Stage.program env request
  next := Stage.next env request
  follows := by
    intro p c k h reply b
    cases p with
    | opening =>
      cases h
      rcases reply with e | _ | session <;> rfl
    | maturing messages =>
      cases h
      rcases reply with e | maturity
      · rfl
      · simp only [Stage.next]
        cases hturn : chatTurn env request messages maturity <;>
          simp [hturn, Stage.program]
    | saving t =>
      cases h
      rcases reply with e | _ <;> cases b <;> rfl
    | saved t result => cases result <;> cases h
    | failed e => cases h
    | _ =>
      cases h
      rcases reply with e | _ <;> rfl

variable {env : Env} {request : IdeationChatRequest}

theorem start_program : processChat env request = (chat env request).program (.start env) := by
  cases hclient : env.client <;> simp [processChat, chat, Stage.start, hclient, Stage.program,
    Stage.continueChat]

/-- What a transaction under an outcome does to the stage and to the store: it only reads, or it
fails, or it stores the user's message, the answer, or the maturity. -/
inductive Effect (env : Env) (request : IdeationChatRequest) (o : Outcome Error) (p p' : Stage)
    (w w' : Store) : Prop
  | reads (hp : p.Early) (hp' : p'.Early) (hmessages : w'.messages = w.messages)
      (hmaturity : w'.maturity = w.maturity)
  | fails (e : Error) (hp : ¬ p.HasSaved) (hp' : p' = .failed e)
      (hmessages : w'.messages = w.messages) (hmaturity : w'.maturity = w.maturity)
  | asks (t : Turn) (hp : p = .asking t) (ho : o.effective = true)
      (hp' : p' = .answering t ∨ ∃ e, p' = .failed e)
      (hmessages : w'.messages
        = w.messages ++ [storedMessage env request .user request.message])
      (hmaturity : w'.maturity = w.maturity)
  | answers (t : Turn) (hp : p = .answering t) (ho : o.effective = true)
      (hp' : p' = .saving t ∨ ∃ e, p' = .failed e)
      (hmessages : w'.messages
        = w.messages ++ [storedMessage env request .assistant t.response.message.content])
      (hmaturity : w'.maturity = w.maturity)
  | saves (t : Turn) (result : Except Error Unit) (hp : p = .saving t)
      (ho : o.effective = true) (hp' : p' = .saved t result)
      (hmessages : w'.messages = w.messages)
      (hmaturity : w'.maturity = some (maturityOf request.sessionId env.now t.scores))

/-- **What a transaction does**, stage by stage. -/
theorem effect_of_command {p : Stage} {c : Cmd} (hc : p.command? env request = some c)
    (o : Outcome Error) (w : Store) :
    Effect env request o p (p.next env request (serve.exchange o c w)) w
      (serve.perform o c w).1 := by
  cases p with
  | opening =>
    cases hc
    cases o with
    | ok =>
      cases hsession : w.session with
      | none => exact .reads trivial (by simp [serve, Stage.next, hsession, Stage.Early]) rfl rfl
      | some session =>
        exact .reads trivial (by simp [serve, Stage.next, hsession, Stage.Early]) rfl rfl
    | refused e => exact .fails e id rfl rfl rfl
    | lost e => exact .fails e id rfl rfl rfl
  | creating =>
    cases hc
    cases o with
    | ok => exact .reads trivial trivial rfl rfl
    | refused e => exact .fails e id rfl rfl rfl
    | lost e => exact .fails e id rfl rfl rfl
  | remembering =>
    cases hc
    cases o with
    | ok => exact .reads trivial trivial rfl rfl
    | refused e => exact .fails e id rfl rfl rfl
    | lost e => exact .fails e id rfl rfl rfl
  | maturing messages =>
    cases hc
    cases o with
    | ok =>
      cases hturn : chatTurn env request messages w.maturity with
      | ok t => exact .reads trivial (by simp [serve, Stage.next, hturn, Stage.Early]) rfl rfl
      | error e => exact .fails e id (by simp [serve, Stage.next, hturn]) rfl rfl
    | refused e => exact .fails e id rfl rfl rfl
    | lost e => exact .fails e id rfl rfl rfl
  | asking t =>
    cases hc
    cases o with
    | ok => exact .asks t rfl rfl (.inl rfl) rfl rfl
    | refused e => exact .fails e id rfl rfl rfl
    | lost e => exact .asks t rfl rfl (.inr ⟨e, rfl⟩) rfl rfl
  | answering t =>
    cases hc
    cases o with
    | ok => exact .answers t rfl rfl (.inl rfl) rfl rfl
    | refused e => exact .fails e id rfl rfl rfl
    | lost e => exact .answers t rfl rfl (.inr ⟨e, rfl⟩) rfl rfl
  | saving t =>
    cases hc
    cases o with
    | ok => exact .saves t (.ok ()) rfl rfl rfl rfl rfl
    | refused e => exact .fails e id rfl rfl rfl
    | lost e => exact .saves t (.error e) rfl rfl rfl rfl rfl
  | saved t result => cases hc
  | failed e => cases hc

end DoxAsdlc.Ideation
