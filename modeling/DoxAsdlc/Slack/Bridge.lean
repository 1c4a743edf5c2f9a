import DoxAsdlc.Interaction.Sum
import DoxAsdlc.Slack.DecisionHandler
import Mathlib.Data.List.DropRight

/-!
# The buttons and the modal of the bridge

A click on a button approves a gate or opens the modal for its rejection, and the submission
of the modal rejects it.  The channel in which the button was clicked says which configuration
a user is judged by; the modal carries it in its metadata.

## Main definitions

* `Request`, `Workspace`, `slack` — the calls to Slack.
* `getChannelConfigForChannel`, `getDefaultChannelConfig` — the configuration of a click.
* `Click`, `Click.handle` — the clicks and their handlers.
-/

namespace DoxAsdlc.Slack.Bridge

open Interaction Interaction.Program

/-! ## Slack -/

/-- A block of a message, by its type and its text. -/
structure Block where
  type : String
  text : String
  deriving DecidableEq, Repr

/-- The metadata of a modal, by what `json.loads` makes of them: an object with a gate and a
channel, any other value, or no JSON, as in modals that only carry the gate. -/
inductive PrivateMetadata where
  | object (requestId channelId : Option String)
  | value
  | plain (text : String)
  deriving DecidableEq, Repr

/-- A modal. -/
structure Modal where
  callbackId : String
  privateMetadata : PrivateMetadata
  deriving DecidableEq, Repr

/-- The calls to Slack. -/
inductive Request where
  | ack
  | chatPostEphemeral (channel user text : String)
  | usersInfo (user : String)
  | chatUpdate (channel ts : String) (blocks : List Block) (text : String)
  | viewsOpen (triggerId : String) (view : Modal)

/-- The answers; that of `users_info` is the real name of the user, if there is one. -/
abbrev Request.Reply : Request → Type
  | .usersInfo _ => Option String
  | _ => Unit

/-- What users get to see. -/
structure Workspace where
  realName : String → Option String
  ephemerals : List (String × String × String)
  messages : String → String → List Block
  views : List (String × Modal)

/-- Before any call. -/
def Workspace.empty : Workspace where
  realName _ := none
  ephemerals := []
  messages _ _ := []
  views := []

/-- What each call does. -/
def slack : Server ⟨Request, Request.Reply⟩ Workspace
  | .ack, s => (s, ())
  | .chatPostEphemeral channel user text, s =>
    ({ s with ephemerals := s.ephemerals ++ [(channel, user, text)] }, ())
  | .usersInfo user, s => (s, s.realName user)
  | .chatUpdate channel ts blocks _, s =>
    ({ s with
      messages := Function.update s.messages channel
        (Function.update (s.messages channel) ts blocks) }, ())
  | .viewsOpen triggerId view, s => ({ s with views := s.views ++ [(triggerId, view)] }, ())

/-- Redis and Slack. -/
abbrev interface : Interface := Slack.interface.sum ⟨Request, Request.Reply⟩

/-- What both do. -/
abbrev serve : Server interface (Store × Workspace) := Slack.serve.sum slack

/-- A coroutine of the bridge. -/
abbrev Async (α : Type) := Program interface Error α

/-- Call Slack. -/
def request (r : Request) : Async r.Reply := command (I := interface) (.inr r)

/-! ## The blocks -/

/-- `build_approved_blocks`. -/
def buildApprovedBlocks (originalBlocks : List Block) (approverName timestamp : String) :
    List Block :=
  originalBlocks.filter (fun block => block.type ≠ "actions") ++
    [⟨"section", ":white_check_mark: *Approved* by " ++ approverName ++ " at " ++ timestamp⟩]

/-- `build_rejection_modal`. -/
def buildRejectionModal (requestId channelId : String) : Modal where
  callbackId := "rejection_modal_" ++ requestId
  privateMetadata := .object (some requestId) (some channelId)

/-! ## The configuration of a click -/

section

variable (config : SlackBridgeConfig)

/-- `_get_channel_config_for_channel`. -/
def getChannelConfigForChannel (channelId : String) : Option ChannelConfig :=
  (config.routingPolicy.entries.map Sigma.snd).find? fun channelConfig =>
    channelConfig.channelId = channelId

/-- `_get_default_channel_config`. -/
def getDefaultChannelConfig : Option ChannelConfig :=
  (config.routingPolicy.entries.map Sigma.snd).head?

end

/-! ## The handlers -/

/-- What a handler draws: the time, an identifier, and the time that it shows. -/
structure Draw where
  now : Time
  decisionId : String
  timestamp : String

/-- A click on a button; a key that is missing is an empty text. -/
structure ActionBody where
  userId : String
  channelId : String
  messageTs : String := ""
  originalBlocks : List Block := []
  requestId : String
  triggerId : String := ""

/-- A modal that is submitted.  The reason is `null` where nothing was entered. -/
structure ViewSubmission where
  userId : String
  privateMetadata : PrivateMetadata
  reason : Option String

/-- What `handle_rejection_modal_submit` returns. -/
structure SubmitResult where
  success : Bool
  error : Option String := none

section

variable (env : Env) (config : SlackBridgeConfig) (draw : Draw)

/-- What a user is told whose approval failed. -/
def apology (channelConfig : ChannelConfig) (e : Error) : String :=
  match e.cls with
  | .rbacDenied => "You are not authorized to approve this gate. Required role: " ++
      channelConfig.requiredRole
  | .gateAlreadyDecided => "This gate has already been decided."
  | .gateNotFound => "This gate request could not be found."
  | _ => "An error occurred while processing your approval."

/-- `update_message_after_approval`. -/
def updateMessageAfterApproval (body : ActionBody) (approverName : String) : Async Unit :=
  try request (.chatUpdate body.channelId body.messageTs
    (buildApprovedBlocks body.originalBlocks approverName draw.timestamp) "Gate Approved")
  catch _ => pure ()

/-- An approval, and the message that shows it. -/
def approve (body : ActionBody) (channelConfig : ChannelConfig) : Async Unit := do
  let _ ← (handleApproval env config draw.now draw.decisionId body.requestId body.userId
    channelConfig).inl
  let realName ← request (.usersInfo body.userId)
  updateMessageAfterApproval draw body (realName.getD body.userId)

/-- `_handle_approve_gate`. -/
def handleApproveGate (body : ActionBody) : Async Unit := do
  request .ack
  match getChannelConfigForChannel config body.channelId with
  | none => request (.chatPostEphemeral body.channelId body.userId
      "Error: No configuration found for this channel.")
  | some channelConfig =>
    try approve env config draw body channelConfig
    catch e => request (.chatPostEphemeral body.channelId body.userId (apology channelConfig e))

/-- `open_rejection_modal`. -/
def openRejectionModal (triggerId requestId channelId : String) : Async Unit :=
  try request (.viewsOpen triggerId (buildRejectionModal requestId channelId))
  catch _ => pure ()

/-- `_handle_reject_gate`. -/
def handleRejectGate (body : ActionBody) : Async Unit := do
  request .ack
  openRejectionModal body.triggerId body.requestId body.channelId

/-- The white space at both ends is removed. -/
def stripped (reason : String) : String :=
  String.ofList ((reason.toList.dropWhile isSpace).rdropWhile isSpace)

/-- What a submission that raises comes to. -/
def submitFailed (e : Error) : SubmitResult where
  success := false
  error := match e.cls with
    | .rbacDenied | .gateAlreadyDecided | .gateNotFound => some e.str
    | _ => some "Internal error"

/-- `handle_rejection_modal_submit`. -/
def handleRejectionModalSubmit (requestId slackUserId : String) (reason : Option String)
    (channelConfig : ChannelConfig) : Async SubmitResult :=
  match reason with
  | none => throw ⟨.exception, "'NoneType' object has no attribute 'strip'", []⟩
  | some reason =>
    if stripped reason = "" then
      pure { success := false, error := some "Rejection reason is required" }
    else
      try do
        let _ ← (handleRejection env config draw.now draw.decisionId requestId slackUserId
          (stripped reason) channelConfig).inl
        pure { success := true }
      catch e => pure (submitFailed e)

/-- The gate and the channel of a submission. -/
def PrivateMetadata.parse : PrivateMetadata → Except Error (String × String)
  | object requestId channelId => .ok (requestId.getD "", channelId.getD "")
  | plain text => .ok (text, "")
  | value => .error ⟨.exception, "object has no attribute 'get'", []⟩

/-- The configuration that a rejection is judged by. -/
def rejectionConfig (channelId : String) : Option ChannelConfig :=
  ((given (some channelId)).bind (getChannelConfigForChannel config)).or
    (getDefaultChannelConfig config)

/-- `_handle_rejection_modal`; its result is only logged. -/
def handleRejectionModal (submission : ViewSubmission) : Async Unit := do
  request .ack
  let metadata ← answer submission.privateMetadata.parse
  match rejectionConfig config metadata.2 with
  | none => pure ()
  | some channelConfig =>
    let _ ← handleRejectionModalSubmit env config draw metadata.1 submission.userId
      submission.reason channelConfig

end

/-- What a user does. -/
inductive Click where
  | approveGate (body : ActionBody)
  | rejectGate (body : ActionBody)
  | rejectionModal (submission : ViewSubmission)

/-- Who does it. -/
def Click.userId : Click → String
  | approveGate body | rejectGate body => body.userId
  | rejectionModal submission => submission.userId

/-- The handler of a click. -/
def Click.handle (env : Env) (config : SlackBridgeConfig) (draw : Draw) : Click → Async Unit
  | approveGate body => handleApproveGate env config draw body
  | rejectGate body => handleRejectGate body
  | rejectionModal submission => handleRejectionModal env config draw submission

end DoxAsdlc.Slack.Bridge
