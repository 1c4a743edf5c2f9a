import DoxAsdlc.Slack.Bridge
import DoxAsdlc.Slack.Exclusion
import DoxAsdlc.Slack.GateConsumer

/-!
# Who may decide a gate

A gate request is posted to the channel that its type and environment are routed to.  A click
is judged by the first configuration with the channel of the click, whatever gate it is about,
and a rejection whose channel is not among them by the first configuration of all.

## Main definitions

* `Entitled`, `Authorised` — the role that the routing of a gate request asks for.
* `JudgedBy`, `Consistent` — the role that is asked for, and when it is as good.

## Main results

* `alwaysAuthorised_iff` — when the decisions on a gate are all authorised.
-/

namespace DoxAsdlc.Slack

open Interaction Interaction.Program

/-- The reviewer that an entry names. -/
def reviewerOf (data : StreamEntry) : Option String := ((data .metadata).getD []).lookup "reviewer"

namespace Decision

variable {env : Env} {config : SlackBridgeConfig} {d : Decision} {requestId : String}

/-- An event names who decided. -/
theorem reviewerOf_event {gateStatus : GateData} {event : ASDLCEvent}
    (h : d.event requestId gateStatus = .ok event) :
    reviewerOf (event.prepared env).toStreamDict = some d.slackUserId := by
  unfold Decision.event at h
  obtain ⟨sessionId, -, hevent⟩ := bind_eq_ok.mp h
  cases hevent
  simp [reviewerOf, ASDLCEvent.toStreamDict, ASDLCEvent.prepared, List.lookup_cons]

/-- An event is about the gate that is decided. -/
theorem eq_of_decisionOf_event {gateStatus : GateData} {event : ASDLCEvent} {r : String}
    (h : d.event requestId gateStatus = .ok event)
    (hr : decisionOf r (event.prepared env).toStreamDict ≠ none) : r = requestId := by
  unfold Decision.event at h
  obtain ⟨sessionId, -, hevent⟩ := bind_eq_ok.mp h
  cases hevent
  by_contra hne
  apply hr
  simp [decisionOf, ASDLCEvent.toStreamDict, ASDLCEvent.prepared, Option.filter, Ne.symm hne]

/-- A pending gate is decided by a user who may do so. -/
theorem handle_publishes (hrole : config.canApproveGate d.slackUserId d.channelConfig = true)
    {w : Store} {gateStatus : GateData} {event : ASDLCEvent}
    (hlock : w.locks (lockKey requestId) = none)
    (hgate : w.gates (gateKey requestId) = some gateStatus)
    (hpending : gateStatus.statusOf = some "PENDING")
    (hevent : d.event requestId gateStatus = .ok event) :
    ((d.handle requestId env config).eval serve w).1 = .ok true ∧
      (event.prepared env).toStreamDict ∈
        ((d.handle requestId env config).eval serve w).2.stream := by
  simp [handle, hrole, checkGateStatusAndLock, acquireLock, checkGateStatus, getGateStatus, send,
    serve, hlock, hgate, hpending, decide, publish, hevent, publishEventModel, ensure, releaseLock]

end Decision

namespace Bridge

section

variable (config : SlackBridgeConfig) (event : ASDLCEvent)

/-- A user holds the role that the routing of a gate request asks for. -/
def Entitled (user : String) : Prop :=
  ∀ routed, GateConsumer.channelOf config event = some routed →
    config.hasRole user routed.requiredRole = true

/-- An entry that is a decision on the gate names a user who is entitled to it. -/
def Proper (data : StreamEntry) : Prop :=
  decisionOf (event.meta "request_id" "") data ≠ none →
    ∃ user, reviewerOf data = some user ∧ Entitled config event user

/-- **Authorisation.**  Every decision on the gate was taken by a user who is entitled to it. -/
def Authorised (w : Store) : Prop := ∀ data ∈ w.stream, Proper config event data

/-- The configurations of all gate types. -/
def channels : List ChannelConfig := config.routingPolicy.entries.map Sigma.snd

/-- The first configuration with a channel. -/
def IsFirst (channelId : String) (judged : ChannelConfig) : Prop :=
  judged.channelId = channelId ∧ ∃ before after, channels config = before ++ judged :: after ∧
    ∀ other ∈ before, other.channelId ≠ channelId

/-- The configuration by which a click that can decide a gate is judged. -/
def JudgedBy (requestId : String) (judged : ChannelConfig) : Click → Prop
  | .approveGate body => body.requestId = requestId ∧ IsFirst config body.channelId judged
  | .rejectGate _ => False
  | .rejectionModal submission => ∃ channelId reason,
      submission.privateMetadata.parse = .ok (requestId, channelId) ∧
      submission.reason = some reason ∧ blank reason = false ∧
      (channelId ≠ "" ∧ IsFirst config channelId judged ∨
        (channelId = "" ∨ ∀ other ∈ channels config, other.channelId ≠ channelId) ∧
          (channels config).head? = some judged)

/-- A click is judged by a configuration whose role is no less than the one of the gate. -/
def Consistent (click : Click) : Prop :=
  ∀ judged, JudgedBy config (event.meta "request_id" "") judged click →
    config.hasRole click.userId judged.requiredRole = true → Entitled config event click.userId

end

/-! ## What a click is judged by -/

section

variable {config : SlackBridgeConfig} {channelId : String} {judged : ChannelConfig}

theorem getChannelConfigForChannel_eq_some :
    getChannelConfigForChannel config channelId = some judged ↔ IsFirst config channelId judged := by
  change (channels config).find? _ = some judged ↔ _
  simp [List.find?_eq_some_iff_append, IsFirst]

theorem getChannelConfigForChannel_eq_none : getChannelConfigForChannel config channelId = none ↔
    ∀ other ∈ channels config, other.channelId ≠ channelId := by
  change (channels config).find? _ = none ↔ _
  simp [List.find?_eq_none]

/-- A rejection is judged by its channel, or by the first configuration of all. -/
theorem rejectionConfig_eq_some : rejectionConfig config channelId = some judged ↔
    channelId ≠ "" ∧ IsFirst config channelId judged ∨
      (channelId = "" ∨ ∀ other ∈ channels config, other.channelId ≠ channelId) ∧
        (channels config).head? = some judged := by
  rw [← getChannelConfigForChannel_eq_some, ← getChannelConfigForChannel_eq_none]
  by_cases hempty : channelId = ""
  · simp [rejectionConfig, given_some, hempty, getDefaultChannelConfig, channels]
  · cases hfound : getChannelConfigForChannel config channelId <;>
      simp [rejectionConfig, given_some, hempty, hfound, getDefaultChannelConfig, channels]

theorem stripped_eq_empty {reason : String} : stripped reason = "" ↔ blank reason = true := by
  have hdropped : ∀ l : List Char, (l.dropWhile isSpace).rdropWhile isSpace = [] ↔
      l.all isSpace = true := by
    intro l
    rw [List.rdropWhile_eq_nil_iff]
    constructor
    · intro h
      rw [← List.takeWhile_append_dropWhile (p := isSpace) (l := l), List.all_append,
        Bool.and_eq_true, List.all_takeWhile]
      exact ⟨rfl, List.all_eq_true.mpr h⟩
    · intro h x hx
      exact List.all_eq_true.mp h x ((List.dropWhile_sublist isSpace).mem hx)
  rw [stripped, String.ofList_eq_empty_iff]
  exact hdropped reason.toList

end

/-! ## What a click publishes -/

section

variable {env : Env} {config : SlackBridgeConfig} {event : ASDLCEvent} {draw : Draw}

/-- A command publishes nothing but what is proper. -/
def Allowed (config : SlackBridgeConfig) (event : ASDLCEvent) : Cmd → Prop
  | .xadd data => Proper config event data
  | _ => True

/-- The commands to Redis that are allowed, and all those to Slack. -/
def Permitted (config : SlackBridgeConfig) (event : ASDLCEvent) : interface.Cmd → Prop :=
  Sum.elim (Allowed config event) fun _ => True

theorem request_meets (r : Request) :
    (request r).Meets (fun _ _ => True) (Permitted config event) fun _ => True :=
  meets_command (I := interface) (c := .inr r) trivial fun _ _ => trivial

/-- A decision by a user who is entitled, if it is about the gate, is allowed. -/
theorem inl_meets {d : Decision} {requestId : String}
    (h : requestId = event.meta "request_id" "" →
      config.canApproveGate d.slackUserId d.channelConfig = true →
        Entitled config event d.slackUserId) :
    ((d.handle requestId env config).inl : Async Bool).Meets (fun _ _ => True)
      (Permitted config event) fun _ => True := by
  refine meets_inl (Decision.handle_meets (Q := fun _ => True) ?_ (fun _ _ _ _ => trivial) ?_)
  · intro c _ hc
    cases c with
    | xadd data => exact absurd rfl (hc data)
    | _ => trivial
  · intro hrole gateStatus _
    refine ⟨?_, trivial, trivial⟩
    intro decided hevent hdecision
    exact ⟨d.slackUserId, Decision.reviewerOf_event hevent,
      h (Decision.eq_of_decisionOf_event hevent hdecision).symm hrole⟩

theorem handleApproveGate_meets {body : ActionBody}
    (h : Consistent config event (.approveGate body)) :
    (handleApproveGate env config draw body).Meets (fun _ _ => True) (Permitted config event)
      fun _ => True := by
  refine meets_bind (request_meets .ack) ?_
  intro _ _
  cases hjudged : getChannelConfigForChannel config body.channelId with
  | none => exact request_meets _
  | some judged =>
    refine meets_tryCatch (meets_bind (inl_meets ?_) ?_) fun e => request_meets _
    · intro hgate hrole
      exact h judged ⟨hgate, getChannelConfigForChannel_eq_some.mp hjudged⟩ hrole
    · intro _ _
      refine meets_bind (request_meets _) ?_
      intro name _
      exact meets_tryCatch (request_meets _) fun _ => trivial

theorem handleRejectGate_meets (body : ActionBody) :
    (handleRejectGate body).Meets (fun _ _ => True) (Permitted config event) fun _ => True := by
  refine meets_bind (request_meets .ack) ?_
  intro _ _
  exact meets_tryCatch (request_meets _) fun _ => trivial

theorem handleRejectionModal_meets {submission : ViewSubmission}
    (h : Consistent config event (.rejectionModal submission)) :
    (handleRejectionModal env config draw submission).Meets (fun _ _ => True)
      (Permitted config event) fun _ => True := by
  refine meets_bind (request_meets .ack) ?_
  intro _ _
  refine meets_bind (Q := fun metadata => submission.privateMetadata.parse = .ok metadata)
    (meets_answer fun _ hmetadata => hmetadata) ?_
  intro metadata hmetadata
  cases hjudged : rejectionConfig config metadata.2 with
  | none => trivial
  | some judged =>
    refine meets_bind (Q := fun _ => True) ?_ fun _ _ => trivial
    unfold handleRejectionModalSubmit
    cases hreason : submission.reason with
    | none => trivial
    | some reason =>
      simp only
      split
      · trivial
      · next hstripped =>
        refine meets_tryCatch (meets_bind (inl_meets ?_) fun _ _ => trivial) fun e => trivial
        intro hgate hrole
        have hblank : blank reason = false := by simpa [stripped_eq_empty] using hstripped
        exact h judged ⟨metadata.2, reason, hgate ▸ hmetadata, hreason, hblank,
          rejectionConfig_eq_some.mp hjudged⟩ hrole

/-- **The contract of a click.** -/
theorem Click.handle_meets {click : Click} (h : Consistent config event click) :
    (click.handle env config draw).Meets (fun _ _ => True) (Permitted config event)
      fun _ => True := by
  cases click with
  | approveGate body => exact handleApproveGate_meets h
  | rejectGate body => exact handleRejectGate_meets body
  | rejectionModal submission => exact handleRejectionModal_meets h

theorem Permitted.authorised {c : interface.Cmd} {s : Store × Workspace}
    (hc : Permitted config event c) (hs : Authorised config event s.1) :
    Authorised config event (serve c s).1.1 := by
  rcases c with c | r
  · by_cases hxadd : ∃ data, c = .xadd data
    · obtain ⟨data, rfl⟩ := hxadd
      intro other hother
      obtain hold | hnew := List.mem_append.mp hother
      · exact hs other hold
      · exact List.mem_singleton.mp hnew ▸ hc
    · have hstream : (serve (.inl c) s).1.1.stream = s.1.stream :=
        stream_serve fun data hdata => hxadd ⟨data, hdata⟩
      rw [Authorised, hstream]
      exact hs
  · exact hs

/-- What is in the stream stays there. -/
theorem mem_stream_serve {data : StreamEntry} (c : interface.Cmd) (s : Store × Workspace)
    (h : data ∈ s.1.stream) : data ∈ (serve c s).1.1.stream := by
  rcases c with c | r
  · by_cases hxadd : ∃ data, c = .xadd data
    · obtain ⟨other, rfl⟩ := hxadd
      exact List.mem_append_left _ h
    · have hstream : (serve (.inl c) s).1.1.stream = s.1.stream :=
        stream_serve fun data hdata => hxadd ⟨data, hdata⟩
      rwa [hstream]
  · exact h

end

/-! ## A click that is judged by too little -/

section

variable {config : SlackBridgeConfig} {judged : ChannelConfig}

/-- Nothing but a gate that is pending. -/
def onlyGate (requestId : String) : Store where
  gates := Function.update (fun _ => none) (gateKey requestId) (some pendingGate)
  locks := fun _ => none
  stream := []

/-- Slack is told that the click has arrived. -/
theorem eval_ack {α : Type} (f : Unit → Async α) (g : Error → Async α) (s : Store × Workspace) :
    ((request .ack).elim f g).eval serve s = (f ()).eval serve s := rfl

/-- What the first part publishes is there at the end. -/
theorem mem_stream_elim {α β : Type} {data : StreamEntry} {p : Async α} {f : α → Async β}
    {g : Error → Async β} {s : Store × Workspace} (h : data ∈ (p.eval serve s).2.1.stream) :
    data ∈ ((p.elim f g).eval serve s).2.1.stream :=
  eval_elim_of_server (S := fun s : Store × Workspace => data ∈ s.1.stream) mem_stream_serve h

/-- A gate that is pending is decided by a user who passes the check. -/
theorem exists_decision (env : Env) (requestId : String) (w : Workspace) {d : Decision}
    (hrole : config.canApproveGate d.slackUserId d.channelConfig = true) :
    ∃ data, decisionOf requestId data = some d.verdict.eventType ∧
      reviewerOf data = some d.slackUserId ∧
      data ∈ ((((d.handle requestId env config).inl : Async Bool)).eval serve
        (onlyGate requestId, w)).2.1.stream := by
  have hevent : ∃ event, d.event requestId pendingGate = .ok event := ⟨_, rfl⟩
  obtain ⟨event, hevent⟩ := hevent
  refine ⟨(event.prepared env).toStreamDict, decisionOf_event hevent, Decision.reviewerOf_event hevent, ?_⟩
  rw [eval_inl]
  exact (Decision.handle_publishes hrole rfl (by simp [onlyGate]) rfl hevent).2

/-- A click decides a pending gate if the user has the role by which it is judged. -/
theorem Click.exists_decision (env : Env) (draw : Draw) (w : Workspace) {click : Click}
    {requestId : String} (h : JudgedBy config requestId judged click)
    (hrole : config.hasRole click.userId judged.requiredRole = true) :
    ∃ data, decisionOf requestId data ≠ none ∧ reviewerOf data = some click.userId ∧
      data ∈ ((click.handle env config draw).eval serve
        (onlyGate requestId, w)).2.1.stream := by
  cases click with
  | rejectGate body => exact h.elim
  | approveGate body =>
    obtain ⟨rfl, hfirst⟩ := h
    obtain ⟨data, hdecision, hreviewer, hmem⟩ := Bridge.exists_decision env body.requestId w
      (d := approval draw.now draw.decisionId body.userId judged) hrole
    refine ⟨data, by simp [hdecision], hreviewer, ?_⟩
    simp only [handle, handleApproveGate, bind_eq, eval_ack,
      getChannelConfigForChannel_eq_some.mpr hfirst]
    exact mem_stream_elim (mem_stream_elim hmem)
  | rejectionModal submission =>
    obtain ⟨channelId, reason, hparse, hreason, hblank, hjudged⟩ := h
    obtain ⟨data, hdecision, hreviewer, hmem⟩ := Bridge.exists_decision env requestId w
      (d := rejection draw.now draw.decisionId submission.userId (stripped reason) judged) hrole
    refine ⟨data, by simp [hdecision], hreviewer, ?_⟩
    have hstripped : stripped reason ≠ "" := by simp [stripped_eq_empty, hblank]
    simp only [handle, handleRejectionModal, hparse, answer_ok, bind_eq, elim_ret, eval_ack,
      rejectionConfig_eq_some.mpr hjudged, hreason, handleRejectionModalSubmit, if_neg hstripped]
    exact mem_stream_elim (mem_stream_elim (mem_stream_elim hmem))

end

/-! ## Runs -/

section

variable {ι : Type} [DecidableEq ι] (env : Env) (config : SlackBridgeConfig) (draws : ι → Draw)
  (clicks : ι → Click)

/-- Any number of clicks that are handled at the same time. -/
abbrev Clicks (ι : Type) := Config interface (Store × Workspace) Error Unit ι

/-- What others make of the gates and of the locks. -/
structure Surroundings where
  gates : Redis.Keys String GateData
  locks : Redis.Keys String Lock

omit [DecidableEq ι] in
/-- Every click at its beginning. -/
def begin (s : Store × Workspace) : Clicks ι :=
  Config.start s fun j => (clicks j).handle env config (draws j)

/-- Gates and locks change. -/
def surround (e : Surroundings) (s : Store × Workspace) : Store × Workspace :=
  ({ s.1 with gates := e.gates, locks := e.locks }, s.2)

/-- One step. -/
abbrev step (cfg : Clicks ι) (a : Action ι Error Surroundings) : Clicks ι :=
  cfg.step serve surround a

/-- The decisions on a gate are authorised, whatever the clicks are interleaved with. -/
def AlwaysAuthorised (event : ASDLCEvent) : Prop :=
  ∀ s as, Authorised config event s.1 →
    Along step (fun cfg => Authorised config event cfg.store.1) (fun _ _ _ => True)
      (begin env config draws clicks s) as

variable {env config draws clicks} {event : ASDLCEvent}

/-- A click that is judged by too little decides a gate that it should not. -/
theorem AlwaysAuthorised.consistent (h : AlwaysAuthorised env config draws clicks event) (j : ι) :
    Consistent config event (clicks j) := by
  intro judged hjudged hrole
  obtain ⟨data, hdecision, hreviewer, hmem⟩ := Click.exists_decision env (draws j) .empty hjudged
    hrole
  obtain ⟨as, has⟩ := Config.exists_run_eval serve surround
    (begin env config draws clicks (onlyGate (event.meta "request_id" ""), .empty)) (j := j) rfl
  have hlast : Authorised config event (run (Config.step serve surround) _ as).store.1 :=
    (h (onlyGate (event.meta "request_id" ""), .empty) as (by simp [Authorised, onlyGate])).last
  rw [has] at hlast
  obtain ⟨user, huser, hentitled⟩ := hlast data hmem hdecision
  rw [hreviewer] at huser
  exact Option.some.inj huser ▸ hentitled

/-- Clicks that are judged by enough decide nothing that they should not. -/
theorem alwaysAuthorised_of_consistent (h : ∀ j, Consistent config event (clicks j)) :
    AlwaysAuthorised env config draws clicks event := by
  intro s as hs
  have hmeeting : (begin env config draws clicks s).Meeting (fun _ _ => True)
      (Permitted config event) fun _ _ => True := fun j => Click.handle_meets (h j)
  have hsurround : ∀ e s, Authorised config event s.1 → Authorised config event (surround e s).1 :=
    fun _ _ hs => hs
  refine along_of_each (C := fun _ _ => True)
    (I := fun cfg : Clicks ι => cfg.Meeting (fun _ _ => True) (Permitted config event)
      (fun _ _ => True) ∧ Authorised config event cfg.store.1) ?_ (fun _ h => h.2)
    (fun _ _ _ _ => trivial) ⟨hmeeting, hs⟩ ((each_iff_forall as).mpr fun _ _ => trivial)
  rintro cfg a ⟨hcfg, hauthorised⟩ -
  refine ⟨hcfg.step _ _ a fun _ _ => trivial, ?_⟩
  exact hcfg.store_step (S := fun s => Authorised config event s.1) hauthorised
    (fun _ _ hc hs => hc.authorised hs) hsurround a

variable (env config draws clicks event)

/-- **When decisions are authorised.**  Whatever the clicks are interleaved with, the decisions
on a gate are all by users who hold the role of its own routing, exactly if no click is by a
user who holds the role that the click is judged by and not that one. -/
theorem alwaysAuthorised_iff :
    AlwaysAuthorised env config draws clicks event ↔ ∀ j, Consistent config event (clicks j) :=
  ⟨AlwaysAuthorised.consistent, alwaysAuthorised_of_consistent⟩

end

/-- Code and releases share a channel; releases to production have one of their own. -/
def sharing : SlackBridgeConfig where
  routingPolicy := AList.mk [⟨"hitl_4_code", ⟨"C1", "reviewer"⟩⟩,
    ⟨"hitl_6_release", ⟨"C1", "release_manager"⟩⟩] (by simp [List.NodupKeys, List.keys])
  rbacMap := (∅ : Dict (List String)).insert "U1" ["reviewer"]
  environmentOverrides := (∅ : Dict (Dict ChannelConfig)).insert "production"
    ((∅ : Dict ChannelConfig).insert "hitl_6_release" ⟨"C9", "release_manager"⟩)

/-- The request of a release. -/
def release (environment : String) : ASDLCEvent where
  eventType := .gateRequested
  sessionId := ⟨"s", blank_s⟩
  timestamp := 0
  metadata := [("request_id", "r"), ("gate_type", "hitl_6_release"), ("environment", environment)]

/-- A reviewer of code approves a release in the channel that they share, and rejects one to
production from the channel of its own. -/
theorem release_decided_by_reviewer :
    ¬ AlwaysAuthorised plainEnv sharing (fun _ : Unit => ⟨0, "d", "t"⟩)
      (fun _ => .approveGate { userId := "U1", channelId := "C1", requestId := "r" })
      (release "staging") ∧
    ¬ AlwaysAuthorised plainEnv sharing (fun _ : Unit => ⟨0, "d", "t"⟩)
      (fun _ => .rejectionModal ⟨"U1", (buildRejectionModal "r" "C9").privateMetadata, some "no"⟩)
      (release "production") := by
  constructor
  · intro h
    have hentitled := h.consistent () ⟨"C1", "reviewer"⟩
      ⟨rfl, rfl, [], [⟨"C1", "release_manager"⟩], rfl, by simp⟩ (by decide)
    exact absurd (hentitled ⟨"C1", "release_manager"⟩ (by decide)) (by decide)
  · intro h
    have hentitled := h.consistent () ⟨"C1", "reviewer"⟩
      ⟨"C9", "no", rfl, rfl, by decide, .inr ⟨.inr (by decide), rfl⟩⟩ (by decide)
    exact absurd (hentitled ⟨"C9", "release_manager"⟩ (by decide)) (by decide)

end Bridge
end DoxAsdlc.Slack
