import DoxAsdlc.Hitl.Decision
import DoxAsdlc.Interaction.Backing
import DoxAsdlc.Slack.Exclusion
import DoxAsdlc.Slack.GateConsumer

/-!
# Gates that are decided in two places

The dispatcher and the bridge on one Redis: requests are created, decided and expired by the
one, posted and decided by the other.  The dispatcher keeps a request under
`asdlc:gate_request:`, the bridge looks for it under `slack_bridge:gate:`, where nobody writes
it.

## Main definitions

* `Call`, `Call.program` — the calls of both, on their stores side by side.
* `OneDecision` — what holds of every gate.
* `Apart` — the condition on the steps.

## Main results

* `oneDecision_of_apart` — one decision for each gate, over runs.
-/

namespace DoxAsdlc.Hitl

open Interaction Interaction.Program

/-! ## What the dispatcher announces -/

variable (tenancy : Tenancy)

/-- A request and a status that it does not leave. -/
abbrev Settlement := String × GateStatus

/-- An event announces a settlement. -/
def Announces (event : ASDLCEvent) (g : Settlement) : Prop :=
  g.2 ≠ .pending ∧ event.eventType = announcement g.2 ∧
    event.metadata.lookup "request_id" = some g.1

/-- A command that relies on a settlement announces it. -/
def Owes : Cmd → Settlement → Prop
  | .publish event, g => Announces event g
  | _, _ => False

/-- A command that brings about a settlement writes it. -/
def Earns (c : Cmd) (g : Settlement) : Prop := g.2 ≠ .pending ∧ written tenancy g.1 c = some g.2

theorem announcement_inj {s s' : GateStatus} : announcement s = announcement s' ↔ s = s' := by
  cases s <;> cases s' <;> simp [announcement]

section

variable {tenancy} {K : Set Settlement}

theorem send_backed {c : Cmd} {Q : Reply c → Set Settlement → Prop} (hc : ∀ g, Owes c g → g ∈ K)
    (hQ : ∀ a, Q a (K ∪ {g | Earns tenancy c g})) : (send c).Backed (Earns tenancy) Owes Q K :=
  backed_command (I := interface) hc hQ

/-- A command that relies on nothing. -/
theorem quiet_backed {c : Cmd} {Q : Reply c → Set Settlement → Prop} (hc : ∀ g, ¬ Owes c g)
    (hQ : ∀ a K', Q a K') : (send c).Backed (Earns tenancy) Owes Q K :=
  send_backed (fun g hg => absurd hg (hc g)) fun a => hQ a _

theorem log_uses (taskId : String) (entry : LogEntry) :
    (log tenancy taskId entry).Uses fun c => ∀ g, ¬ Owes c g :=
  uses_bind (uses_command fun _ h => h) fun _ => uses_command fun _ h => h

/-- A status is announced once it is written. -/
theorem announce_backed {s : GateStatus} {now : Time} {request : GateRequest}
    {metadata : List (String × String)} {requestId : String} {Q : Unit → Set Settlement → Prop}
    (hid : metadata.lookup "request_id" = some requestId)
    (hK : s ≠ .pending → (requestId, s) ∈ K) (hQ : ∀ K', Q () K') :
    (announce (announcement s) now request metadata).Backed (Earns tenancy) Owes Q K := by
  unfold announce
  apply backed_bind
  apply backed_answer
  intro event hevent
  obtain ⟨htype, hmetadata⟩ := gateEvent_eq_ok hevent
  apply backed_bind
  apply send_backed
  · rintro ⟨r, s'⟩ ⟨hs, hannounced, hr⟩
    rw [htype, announcement_inj] at hannounced
    rw [hmetadata, hid] at hr
    cases hr
    cases hannounced
    exact hK hs
  · exact fun _ => hQ _

theorem markRequest_backed {status : GateStatus} {requestId : String}
    {Q : Unit → Set Settlement → Prop} (hs : status ≠ .pending)
    (hQ : ∀ K', (requestId, status) ∈ K' → Q () K') :
    (markRequest tenancy requestId status).Backed (Earns tenancy) Owes Q K := by
  unfold markRequest
  apply backed_bind
  refine send_backed (fun _ h => h.elim) ?_
  intro _
  refine send_backed (fun _ h => h.elim) ?_
  intro _
  exact hQ _ (.inl (.inr ⟨hs, by simp [written]⟩))

theorem requestGate_backed (now : Time) (requestId : String) (args : GateArgs) :
    (requestGate tenancy now requestId args).Backed (Earns tenancy) Owes (fun _ _ => True) K := by
  unfold requestGate
  apply backed_bind
  apply backed_answer
  intro _ _
  apply backed_bind
  refine quiet_backed (fun _ h => h) ?_
  intro _ _
  apply backed_bind
  refine quiet_backed (fun _ h => h) ?_
  intro _ _
  apply backed_bind
  refine quiet_backed (fun _ h => h) ?_
  intro _ _
  apply backed_bind
  unfold announceRequest
  apply backed_bind
  apply backed_of_uses (log_uses _ _)
  intro _ _ _
  exact announce_backed (s := .pending) rfl (fun h => absurd rfl h) fun _ => trivial

theorem recordDecision_backed (now : Time) (decisionId requestId : String) (args : DecisionArgs) :
    (recordDecision tenancy now decisionId requestId args).Backed (Earns tenancy) Owes
      (fun _ _ => True) K := by
  unfold recordDecision
  apply backed_bind
  refine quiet_backed (fun _ h => h) ?_
  intro data _
  cases data with
  | none => trivial
  | some data =>
    simp only
    split
    · unfold decideRequest
      apply backed_bind
      apply markRequest_backed (by cases args.approved <;> simp [decidedStatus])
      intro K' hK'
      apply backed_bind
      apply backed_of_uses (log_uses _ _)
      intro _ K'' hK''
      apply backed_bind
      exact announce_backed rfl (fun _ => hK'' hK') fun _ => trivial
    · trivial

theorem expireRequest_backed (now : Time) (requestId : String)
    {Q : Option GateRequest → Set Settlement → Prop} (hQ : ∀ a K', Q a K') :
    (expireRequest tenancy now requestId).Backed (Earns tenancy) Owes Q K := by
  unfold expireRequest
  apply backed_bind
  refine quiet_backed (fun _ h => h) ?_
  intro data _
  cases data with
  | none => exact hQ _ _
  | some data =>
    simp only
    split
    · apply backed_bind
      apply markRequest_backed (by decide)
      intro K' hK'
      apply backed_bind
      exact announce_backed rfl (fun _ => hK') fun _ => hQ _ _
    · exact hQ _ _

theorem expireRequests_backed (now : Time) (ids : List String)
    {Q : List GateRequest → Set Settlement → Prop} (hQ : ∀ a K', Q a K') :
    (expireRequests tenancy now ids).Backed (Earns tenancy) Owes Q K := by
  induction ids generalizing K Q with
  | nil => exact hQ _ _
  | cons requestId ids ih =>
    unfold expireRequests
    apply backed_bind
    apply expireRequest_backed
    intro _ _
    apply backed_bind
    exact ih fun _ _ => hQ _ _

theorem checkExpired_backed (now : Time) :
    (checkExpired tenancy now).Backed (Earns tenancy) Owes (fun _ _ => True) K := by
  unfold checkExpired
  apply backed_bind
  refine quiet_backed (fun _ h => h) ?_
  intro ids _
  exact expireRequests_backed now ids fun _ _ => trivial

end

end DoxAsdlc.Hitl

namespace DoxAsdlc.Slack.SharedGates

open Interaction Interaction.Program

/-! ## The calls -/

/-- The commands of the dispatcher, of the decision handler, and of the consumer of gate
requests. -/
abbrev interface : Interface := Hitl.interface.sum (Slack.interface.sum GateConsumer.interface)

/-- What they share, key by key. -/
abbrev State := Hitl.Store × Store × GateConsumer.Store

/-- What the commands do. -/
abbrev serve : Server interface State := Hitl.Store.serve.sum (Slack.serve.sum GateConsumer.serve)

/-- A call of the dispatcher, the post of an event, or a decision in Slack. -/
inductive Call where
  | requestGate (now : Time) (requestId : String) (args : Hitl.GateArgs)
  | recordDecision (now : Time) (decisionId requestId : String) (args : Hitl.DecisionArgs)
  | checkExpired (now : Time)
  | post (event : ASDLCEvent)
  | decide (requestId : String) (d : Decision)

/-- What expires. -/
inductive Expiry where
  | lock (key : String)
  | posted

/-- The state after an expiry. -/
def expire : Expiry → State → State
  | .lock key, s => (s.1, s.2.1.expired key, s.2.2)
  | .posted, s => (s.1, s.2.1, { s.2.2 with posted := .empty })

/-- Before any call. -/
def empty : State where
  fst := .empty
  snd := (⟨fun _ => none, fun _ => none, []⟩, .empty)

section

variable (tenancy : Tenancy) (env : Env) (config : SlackBridgeConfig)

/-- The coroutine of a call; it returns whether the call succeeded. -/
def Call.program : Call → Program interface Error Bool
  | requestGate now requestId args =>
    inl (do let _ ← Hitl.requestGate tenancy now requestId args; pure true)
  | recordDecision now decisionId requestId args =>
    inl (do let _ ← Hitl.recordDecision tenancy now decisionId requestId args; pure true)
  | checkExpired now => inl (do let _ ← Hitl.checkExpired tenancy now; pure true)
  | post event => inr (inr (do GateConsumer.handleGateRequested config event; pure true))
  | decide requestId d => inr (inl (d.handle requestId env config))

/-- Any number of calls at the same time. -/
abbrev Calls (ι : Type) := Config interface State Error Bool ι

section

variable {ι : Type} (calls : ι → Call)

/-- Every call at its beginning. -/
def begin : Calls ι := Config.start empty fun j => (calls j).program tenancy env config

/-- One step. -/
abbrev step [DecidableEq ι] (cfg : Calls ι) (a : Action ι Error Expiry) : Calls ι :=
  cfg.step serve expire a

end

/-! ## The property -/

/-- A request is posted to a channel. -/
def PostedTo (requestId : String) (channel : ChannelConfig) (s : State) : Prop :=
  ∃ event, event.meta "request_id" "" = requestId ∧
    GateConsumer.channelOf config event = some channel ∧
    GateConsumer.messageOf config event channel ∈ s.2.2.messages

/-- A request is pending for the dispatcher. -/
def Pending (requestId : String) (s : State) : Prop :=
  Hitl.storedStatus tenancy requestId s.1 = some .pending

/-- The terminal events of a request. -/
def terminalEvents (requestId : String) (s : State) : List EventType :=
  Hitl.decisionEvents requestId s.1 ++ published requestId s.2.1

/-- A decision by a user who may take it succeeds where no other is under way. -/
def CanBeDecided (requestId : String) (channel : ChannelConfig) (s : State) : Prop :=
  ∀ d : Decision, d.channelConfig = channel →
    config.canApproveGate d.slackUserId channel = true →
      ((d.handle requestId env config).eval Slack.serve
        { s.2.1 with locks := fun _ => none }).1 = .ok true

/-- **One gate, one decision.**  What is posted and pending can be decided in Slack, a decision
in one place ends the request in the other, and no two terminal events are at odds. -/
structure OneDecision {ι : Type} (calls : ι → Call) (cfg : Calls ι) : Prop where
  decidable : ∀ r channel, PostedTo config r channel cfg.store → Pending tenancy r cfg.store →
    CanBeDecided env config r channel cfg.store
  ended : ∀ j r d, calls j = .decide r d → cfg.threads j = .ret true →
    ¬ Pending tenancy r cfg.store
  closed : ∀ j now decisionId r args, calls j = .recordDecision now decisionId r args →
    cfg.threads j = .ret true → storedStatus r cfg.store.2.1 ≠ some "PENDING"
  agree : ∀ r, ∀ t ∈ terminalEvents r cfg.store, ∀ t' ∈ terminalEvents r cfg.store, t = t'

/-! ## The condition -/

/-- Nobody may decide in a channel. -/
def Unmanned (channel : ChannelConfig) : Prop :=
  ∀ user, config.canApproveGate user channel = false

/-- The write of a status: a new request has an id that is not in use, and another status is
written to a request that is pending, or has it already. -/
def Fresh (s : State) (requestId : String) (status : GateStatus) : Prop :=
  (status = .pending → Hitl.storedStatus tenancy requestId s.1 = none ∧
    ∀ channel, PostedTo config requestId channel s → Unmanned config channel) ∧
  (status ≠ .pending → Pending tenancy requestId s ∨
    Hitl.storedStatus tenancy requestId s.1 = some status)

/-- A command that keeps the two places apart: statuses are written as they should, and nothing
is posted that is pending and could be decided in its channel. -/
def Apart (s : State) : interface.Cmd → Prop
  | .inl c => ∀ r status, Hitl.written tenancy r c = some status →
      Fresh tenancy config s r status
  | .inr (.inr (.chatPostMessage message)) => ∀ event channel,
      GateConsumer.channelOf config event = some channel →
      message = GateConsumer.messageOf config event channel →
      Pending tenancy (event.meta "request_id" "") s → Unmanned config channel
  | _ => True

/-- The command of a step that takes effect keeps the two places apart. -/
def KeptApart {ι : Type} (cfg : Calls ι) : Action ι Error Expiry → Prop
  | .run j o => o.effective = true → ∀ c, cfg.next? j = some c → Apart tenancy config cfg.store c
  | _ => True

end

/-! ## What a command does -/

section

variable {tenancy : Tenancy} {config : SlackBridgeConfig} {s : State} {c : interface.Cmd}

/-- A request's hash is written to under its own key. -/
theorem written_eq_some {r r' : String} {status status' : GateStatus} {d : Hitl.GateHash}
    (h : d .status = some status) :
    Hitl.written tenancy r' (.hset (Hitl.requestKey tenancy r) d) = some status' ↔
      r' = r ∧ status' = status := by
  by_cases hr : r = r'
  · simp [Hitl.written, hr, h, eq_comm]
  · simp [Hitl.written, hr, Ne.symm hr]

/-- A settlement holds. -/
def Settled (tenancy : Tenancy) (g : Hitl.Settlement) (s : State) : Prop :=
  g.2 ≠ .pending ∧ Hitl.storedStatus tenancy g.1 s.1 = some g.2

/-- A settlement that is announced holds. -/
def Announced (tenancy : Tenancy) (s : State) : Prop :=
  ∀ event ∈ s.1.published, ∀ g, Hitl.Announces event g → Settled tenancy g s

/-- What is posted and pending is in a channel where nobody may decide. -/
def Unseen (tenancy : Tenancy) (config : SlackBridgeConfig) (s : State) : Prop :=
  ∀ r channel, PostedTo config r channel s → Pending tenancy r s → Unmanned config channel

/-- The bridge knows of no gate, and has published nothing. -/
def Bare (s : State) : Prop := (∀ key, s.2.1.gates key = none) ∧ s.2.1.stream = []

/-- What brings about a settlement. -/
def earns (tenancy : Tenancy) : interface.Cmd → Hitl.Settlement → Prop :=
  Sum.elim (Hitl.Earns tenancy) fun _ _ => False

/-- What relies on a settlement. -/
def owes : interface.Cmd → Hitl.Settlement → Prop := Sum.elim Hitl.Owes fun _ _ => False

/-- No command undoes a settlement. -/
theorem Settled.serve (hc : Apart tenancy config s c) {g : Hitl.Settlement}
    (h : Settled tenancy g s) : Settled tenancy g (serve c s).1 := by
  rcases c with c | c | c
  · refine ⟨h.1, ?_⟩
    change Hitl.storedStatus tenancy g.1 (Hitl.Store.serve c s.1).1 = _
    rw [Hitl.storedStatus_serve]
    cases hwritten : Hitl.written tenancy g.1 c with
    | none => simpa using h.2
    | some status =>
      obtain ⟨hnew, hold⟩ := hc g.1 status hwritten
      by_cases hstatus : status = .pending
      · have hnone := (hnew hstatus).1
        rw [h.2] at hnone
        cases hnone
      · obtain hpending | hsame := hold hstatus
        · exact absurd (Option.some.inj (h.2.symm.trans hpending)) h.1
        · simpa using hsame.symm.trans h.2
  · exact h
  · exact h

/-- What brings about a settlement does so. -/
theorem settled_of_earns {g : Hitl.Settlement} (h : earns tenancy c g) :
    Settled tenancy g (serve c s).1 := by
  rcases c with c | c
  · refine ⟨h.1, ?_⟩
    change Hitl.storedStatus tenancy g.1 (Hitl.Store.serve c s.1).1 = _
    rw [Hitl.storedStatus_serve, h.2, Option.some_or]
  · exact h.elim

/-- The events that a command publishes. -/
theorem published_hitl (c : Hitl.Cmd) (w : Hitl.Store) {event : ASDLCEvent}
    (h : event ∈ (Hitl.Store.serve c w).1.published) :
    event ∈ w.published ∨ c = .publish event := by
  cases c with
  | publish e =>
    obtain hold | hnew := List.mem_append.mp h
    · exact .inl hold
    · rw [List.mem_singleton.mp hnew]
      exact .inr rfl
  | _ => exact .inl h

/-- What is announced is settled. -/
theorem Announced.serve (h : Announced tenancy s) (hc : Apart tenancy config s c)
    (howes : ∀ g, owes c g → Settled tenancy g s) : Announced tenancy (serve c s).1 := by
  intro event hevent g hg
  apply Settled.serve hc
  rcases c with c | c
  · obtain hold | rfl := published_hitl c s.1 hevent
    · exact h event hold g hg
    · exact howes g hg
  · exact h event hevent g hg

/-- What is posted stays in channels where nobody may decide while it is pending. -/
theorem Unseen.serve (h : Unseen tenancy config s) (hc : Apart tenancy config s c) :
    Unseen tenancy config (serve c s).1 := by
  intro r channel hposted hpending
  rcases c with c | c | c
  · have hstatus : Hitl.storedStatus tenancy r (Hitl.Store.serve c s.1).1 = some .pending := hpending
    rw [Hitl.storedStatus_serve] at hstatus
    cases hwritten : Hitl.written tenancy r c with
    | none => exact h r channel hposted (by simpa [hwritten, Pending] using hstatus)
    | some status =>
      obtain ⟨hnew, -⟩ := hc r status hwritten
      exact (hnew (by simpa [hwritten] using hstatus)).2 channel hposted
  · exact h r channel hposted hpending
  · cases c with
    | chatPostMessage message =>
      obtain ⟨event, rfl, hchannel, hmessage⟩ := hposted
      obtain hold | hnew := List.mem_append.mp hmessage
      · exact h _ channel ⟨event, rfl, hchannel, hold⟩ hpending
      · exact hc event channel hchannel (List.mem_singleton.mp hnew).symm hpending
    | _ => exact h r channel hposted hpending

/-- The bridge neither publishes a decision nor writes a gate. -/
def Idle : interface.Cmd → Prop
  | .inr (.inl (.set _ _)) | .inr (.inl (.xadd _)) => False
  | _ => True

theorem Bare.serve (h : Bare s) (hc : Idle c) : Bare (serve c s).1 := by
  rcases c with c | c | c
  · exact h
  · have hset : ∀ key data, c ≠ .set key data := by
      rintro key data rfl
      exact hc
    have hxadd : ∀ data, c ≠ .xadd data := by
      rintro data rfl
      exact hc
    refine ⟨fun key => ?_, (stream_serve hxadd).trans h.2⟩
    exact (congrFun (gates_serve hset) key).trans (h.1 key)
  · exact h

theorem Bare.expire (h : Bare s) (e : Expiry) : Bare (expire e s) := by
  cases e with
  | posted => exact h
  | lock key =>
    have hsame : (s.2.1.expired key).gates = s.2.1.gates ∧
        (s.2.1.expired key).stream = s.2.1.stream := by
      unfold Store.expired
      split <;> exact ⟨rfl, rfl⟩
    exact ⟨fun r => (congrFun hsame.1 r).trans (h.1 r), hsame.2.trans h.2⟩

end

/-! ## The contracts of the calls -/

section

variable {tenancy : Tenancy} {env : Env} {config : SlackBridgeConfig} {K : Set Hitl.Settlement}

/-- No gate is found. -/
def Unknown : (c : interface.Cmd) → Except Error (interface.Reply c) → Prop
  | .inr (.inl (.get _)), r => ∀ data, r ≠ .ok (some data)
  | _, _ => True

theorem unknown_perform {s : State} (h : Bare s) (o : Outcome Error) (c : interface.Cmd) :
    Unknown c (serve.perform o c s).2 := by
  rcases c with c | c | c
  · trivial
  · cases c with
    | get key =>
      intro data hdata
      cases o with
      | ok =>
        have hgate : s.2.1.gates key = some data := Except.ok.inj hdata
        rw [h.1 key] at hgate
        cases hgate
      | refused e => cases hdata
      | lost e => cases hdata
    | _ => trivial
  · trivial

/-- A dispatcher's call relies on what it has written. -/
theorem Call.backed (call : Call) :
    (call.program tenancy env config).Backed (earns tenancy) owes (fun _ _ => True) K := by
  have hquiet : ∀ p : Program (Slack.interface.sum GateConsumer.interface) Error Bool,
      (p.inr : Program interface Error Bool).Backed (earns tenancy) owes (fun _ _ => True) K := by
    intro p
    apply backed_of_uses
    · exact uses_inr fun _ _ h => h
    · exact fun _ _ _ => trivial
  cases call with
  | requestGate now requestId args =>
    exact backed_inl (backed_bind ((Hitl.requestGate_backed now requestId args).mono subset_rfl
      fun _ _ _ _ _ => trivial))
  | recordDecision now decisionId requestId args =>
    exact backed_inl (backed_bind ((Hitl.recordDecision_backed now decisionId requestId args).mono
      subset_rfl fun _ _ _ _ _ => trivial))
  | checkExpired now =>
    exact backed_inl (backed_bind ((Hitl.checkExpired_backed now).mono subset_rfl
      fun _ _ _ _ _ => trivial))
  | post event => exact hquiet _
  | decide requestId d => exact hquiet _

/-- While no gate is found, the bridge does nothing, and no decision in Slack succeeds. -/
theorem Call.meets (call : Call) : (call.program tenancy env config).Meets Unknown Idle
    fun _ => ∀ r d, call ≠ .decide r d := by
  cases call with
  | requestGate now requestId args => exact meets_inl (meets_trivial (fun _ => trivial) (by simp))
  | recordDecision now decisionId requestId args => exact meets_inl (meets_trivial (fun _ => trivial) (by simp))
  | checkExpired now => exact meets_inl (meets_trivial (fun _ => trivial) (by simp))
  | post event => exact meets_inr (meets_inr (meets_trivial (fun _ => trivial) (by simp)))
  | decide requestId d =>
    apply meets_inr
    apply meets_inl
    apply Decision.handle_meets (Q := fun _ => False)
    · intro c hset hxadd
      cases c with
      | set key data => exact absurd rfl (hset key data)
      | xadd data => exact absurd rfl (hxadd data)
      | _ => trivial
    · exact fun key data hunknown _ => hunknown data rfl
    · exact fun _ _ h => h.elim

end

/-! ## Runs -/

section

variable {ι : Type} {tenancy : Tenancy} {env : Env} {config : SlackBridgeConfig}
  {calls : ι → Call} {cfg : Calls ι}

/-- What the calls keep while the two places are kept apart. -/
structure Sound (tenancy : Tenancy) (config : SlackBridgeConfig) (calls : ι → Call)
    (cfg : Calls ι) : Prop where
  meeting : cfg.Meeting Unknown Idle fun j _ => ∀ r d, calls j ≠ .decide r d
  backing : cfg.Backing (earns tenancy) owes (Settled tenancy)
  bare : Bare cfg.store
  announced : Announced tenancy cfg.store
  unseen : Unseen tenancy config cfg.store

theorem sound_begin : Sound tenancy config calls (begin tenancy env config calls) where
  meeting j := (calls j).meets
  backing j := (calls j).backed
  bare := ⟨fun _ => rfl, rfl⟩
  announced _ hevent := absurd hevent List.not_mem_nil
  unseen := by
    rintro r channel ⟨event, -, -, hmessage⟩
    exact absurd hmessage List.not_mem_nil

variable [DecidableEq ι]

/-- **The step lemma.** -/
theorem Sound.step (h : Sound tenancy config calls cfg) {a : Action ι Error Expiry}
    (ha : KeptApart tenancy config cfg a) :
    Sound tenancy config calls (SharedGates.step cfg a) := by
  have hmeeting := h.meeting.step serve expire a fun o c => unknown_perform h.bare o c
  have hbacking : ∀ s, (SharedGates.step cfg a).store = s →
      (∀ g, Settled tenancy g cfg.store → Settled tenancy g s) →
        (SharedGates.step cfg a).Backing (earns tenancy) owes (Settled tenancy) := by
    rintro s rfl hkeep
    exact h.backing.step serve expire a hkeep fun _ _ => settled_of_earns
  obtain ⟨j, o, c, rfl, ho, hnext, hstore⟩ | ⟨e, rfl, hstore⟩ | hstore :=
    Config.step_store serve expire cfg a
  · have hapart := ha ho c hnext
    refine ⟨hmeeting, hbacking _ hstore fun g hg => hg.serve hapart, ?_, ?_, ?_⟩
    · exact hstore ▸ h.bare.serve (h.meeting.next hnext)
    · exact hstore ▸ h.announced.serve hapart fun g hg => h.backing.holds hnext hg
    · exact hstore ▸ h.unseen.serve hapart
  · refine ⟨hmeeting, hbacking _ hstore fun g hg => ?_, ?_, ?_, ?_⟩
    · cases e <;> exact hg
    · exact hstore ▸ h.bare.expire e
    · rw [Announced, hstore]
      cases e <;> exact h.announced
    · rw [Unseen, hstore]
      cases e <;> exact h.unseen
  · exact ⟨hmeeting, hbacking _ hstore fun _ hg => hg, hstore ▸ h.bare, hstore ▸ h.announced,
      hstore ▸ h.unseen⟩

omit [DecidableEq ι] in
/-- The terminal events of a request are those of its status. -/
theorem Sound.terminalEvents (h : Sound tenancy config calls cfg) {r : String} {t : EventType}
    (ht : t ∈ SharedGates.terminalEvents r cfg.store) : ∃ status,
      Hitl.storedStatus tenancy r cfg.store.1 = some status ∧ t = Hitl.announcement status := by
  have hnone : published r cfg.store.2.1 = [] := by simp [published, h.bare.2]
  rw [SharedGates.terminalEvents, hnone, List.append_nil] at ht
  obtain ⟨event, hevent, rfl⟩ := List.mem_map.mp ht
  obtain ⟨hmem, hdecides⟩ := List.mem_filter.mp hevent
  obtain ⟨htype, hid⟩ : (event.eventType = .gateApproved ∨ event.eventType = .gateRejected ∨
      event.eventType = .gateExpired) ∧ event.metadata.lookup "request_id" = some r := by
    simpa [Hitl.decides] using hdecides
  have hsettled : ∀ status, status ≠ GateStatus.pending →
      event.eventType = Hitl.announcement status →
        Hitl.storedStatus tenancy r cfg.store.1 = some status := fun status hs hannounced =>
    (h.announced event hmem (r, status) ⟨hs, hannounced, hid⟩).2
  obtain htype | htype | htype := htype
  · exact ⟨.approved, hsettled .approved (by decide) htype, htype⟩
  · exact ⟨.rejected, hsettled .rejected (by decide) htype, htype⟩
  · exact ⟨.expired, hsettled .expired (by decide) htype, htype⟩

omit [DecidableEq ι] in
/-- Where the two places are kept apart there is one decision. -/
theorem Sound.oneDecision (h : Sound tenancy config calls cfg) :
    OneDecision tenancy env config calls cfg where
  decidable r channel hposted hpending d hchannel hrole := by
    have hnone := h.unseen r channel hposted hpending d.slackUserId
    rw [hrole] at hnone
    cases hnone
  ended j r d hj hreturned := by
    have hj' := h.meeting j
    rw [hreturned] at hj'
    exact absurd hj (hj' r d)
  closed j now decisionId r args _ _ := by
    simp [storedStatus, h.bare.1]
  agree r t ht t' ht' := by
    obtain ⟨status, hstatus, rfl⟩ := h.terminalEvents ht
    obtain ⟨status', hstatus', rfl⟩ := h.terminalEvents ht'
    rw [hstatus] at hstatus'
    rw [Option.some.inj hstatus']

/-- **One decision for each gate, over runs.**  However the calls are interleaved, whatever fails
and expires: if new requests have ids that are not in use, a status is only written to a request
that is pending or has it, and no pending request is posted to a channel in which somebody may
decide, then every gate has one decision in every state that is reached. -/
theorem oneDecision_of_apart (tenancy : Tenancy) (env : Env) (config : SlackBridgeConfig)
    (calls : ι → Call) (as : List (Action ι Error Expiry))
    (has : Each step (KeptApart tenancy config) (begin tenancy env config calls) as) :
    Along step (OneDecision tenancy env config calls) (fun _ _ _ => True)
      (begin tenancy env config calls) as :=
  along_of_each (I := Sound tenancy config calls) (fun _ _ h ha => h.step ha)
    (fun _ h => h.oneDecision) (fun _ _ _ _ => trivial) sound_begin has

end

/-- The event that announces the request of a review. -/
def reviewRequested : ASDLCEvent where
  eventType := .gateRequested
  sessionId := ⟨"s", blank_s⟩
  timestamp := 0
  taskId := some "t"
  metadata := [("request_id", "r"), ("gate_type", "hitl_4_code"), ("evidence_bundle_id", "b")]

/-- A review is requested, approved and rejected for the dispatcher, and posted. -/
def review : Fin 4 → Call
  | 0 => .requestGate 0 "r" Hitl.codeGate
  | 1 => .recordDecision 1 "d" "r" ⟨true, "U2", "good", []⟩
  | 2 => .recordDecision 1 "e" "r" ⟨false, "U3", "bad", []⟩
  | 3 => .post reviewRequested

/-- The commands of some calls in turn, all of them answered. -/
def inTurn (turns : List (Fin 4)) : List (Action (Fin 4) Error Expiry) :=
  turns.map fun j => .run j .ok

/-- The review is approved before it is posted. -/
theorem oneDecision_review : Along step (OneDecision Hitl.plain plainEnv reviewing review)
    (fun _ _ _ => True) (begin Hitl.plain plainEnv reviewing review) (inTurn [0, 1, 1, 3, 3]) := by
  apply oneDecision_of_apart Hitl.plain plainEnv reviewing review
  simp only [inTurn, List.map_cons, List.map_nil, each_cons, each_nil, and_true]
  refine ⟨?_, ?_, ?_, ?_, ?_⟩
  · rintro - c hc
    cases hc
    intro r status hwritten
    obtain ⟨rfl, rfl⟩ := (written_eq_some (d := (Hitl.codeGate.request 0 "r").toDict) rfl).mp
      hwritten
    refine ⟨fun _ => ⟨rfl, ?_⟩, fun h => absurd rfl h⟩
    rintro channel ⟨_, _, _, h⟩
    exact absurd h List.not_mem_nil
  · rintro - c hc
    cases hc
    intro r status hwritten
    cases hwritten
  · rintro - c hc
    cases hc
    intro r status hwritten
    obtain ⟨rfl, rfl⟩ := (written_eq_some (d := .field .status .approved) rfl).mp hwritten
    exact ⟨fun h => absurd h (by decide), fun _ => .inl (by rfl)⟩
  · rintro - c hc
    cases hc
    trivial
  · rintro - c hc
    cases hc
    intro event channel _ hmessage hpending
    have hid : "r" = event.meta "request_id" "" :=
      congrArg GateConsumer.GateMessage.requestId hmessage
    rw [← hid] at hpending
    exact absurd hpending (by unfold Pending; decide)

/-- A review that is requested and posted cannot be approved in Slack by a reviewer, and of an
approval and a rejection for the dispatcher that both find it pending both are announced. -/
theorem posted_and_unknown :
    (¬ Along step (OneDecision Hitl.plain plainEnv reviewing review) (fun _ _ _ => True)
      (begin Hitl.plain plainEnv reviewing review) (inTurn [0, 0, 0, 0, 0, 0, 3, 3, 3, 3])) ∧
    ¬ Along step (OneDecision Hitl.plain plainEnv reviewing review) (fun _ _ _ => True)
      (begin Hitl.plain plainEnv reviewing review)
      (inTurn [0, 0, 0, 0, 0, 0, 1, 2, 1, 1, 1, 1, 1, 2, 2, 2, 2, 2]) := by
  refine ⟨fun h => ?_, fun h => ?_⟩
  · have hdecided := h.last.decidable "r" reviewers
      ⟨reviewRequested, rfl, by decide, by decide⟩ (by rfl)
      (approval 0 "d" "U1" reviewers) rfl (by decide)
    exact absurd hdecided (by decide)
  · have hagree := h.last.agree "r" .gateApproved (by decide) .gateRejected
      (by decide)
    exact absurd hagree (by decide)

end DoxAsdlc.Slack.SharedGates
