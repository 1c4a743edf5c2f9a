import DoxAsdlc.Agents.Coordinators
import DoxAsdlc.Interaction.Transcript

/-!
# Is a gate ever skipped?

With a dispatcher configured, a workflow is to end in a result that waits for a gate, unless it
fails; no agent of a later phase is to run before.  The workflows take the absence of a request
id for the absence of a gate, so that they keep this exactly if the submission that they come to
succeeds: the evidence can be made, and the dispatcher answers with an id.

A submission that has failed cannot be mended later in the run, so that the two sides are
compared at the submission, and everything after it is carried along.

## Main definitions

* `Call`, `Verdict` — the three workflows, and what their results amount to.
* `Kept` — no gate was skipped.
* `Accepted` — the condition on what the agents and the dispatcher answered.
-/

namespace DoxAsdlc.Agents

open Interaction Interaction.Program
open Rlm (Json Args)

/-- A workflow with its arguments. -/
inductive Call where
  | runValidation (context : AgentContext) (implementation : Args)
      (acceptanceCriteria : List String)
  | runDeployment (context : AgentContext) (validationReport : ValidationReport)
      (securityReport : SecurityReport) (targetEnvironment : String)
  | runDesign (context : AgentContext) (args : DesignArgs)

/-- The result of a workflow. -/
inductive CallResult where
  | validation (result : ValidationResult)
  | deployment (result : DeploymentResult)
  | design (result : DesignResult)

/-- What a result amounts to. -/
inductive Verdict where
  | failed
  | pending (requestId : Option String)
  | succeeded
  deriving DecidableEq, Repr

def ValidationResult.verdict (r : ValidationResult) : Verdict :=
  if r.success then if r.pendingHitl5 then .pending r.hitl5RequestId else .succeeded else .failed

def DeploymentResult.verdict (r : DeploymentResult) : Verdict :=
  if r.success then if r.pendingHitl6 then .pending r.hitl6RequestId else .succeeded else .failed

def DesignResult.verdict (r : DesignResult) : Verdict :=
  if r.success then
    if r.status = some "pending_hitl2" then .pending r.hitl2RequestId
    else if r.status = some "pending_hitl3" then .pending r.hitl3RequestId
    else .succeeded
  else .failed

def CallResult.verdict : CallResult → Verdict
  | .validation result => result.verdict
  | .deployment result => result.verdict
  | .design result => result.verdict

variable (setting : Setting)

/-- The coroutine of a workflow, with the gates not skipped on request. -/
def Call.program : Call → Async CallResult
  | .runValidation context implementation acceptanceCriteria =>
    .validation <$> Agents.runValidation setting context implementation acceptanceCriteria false
  | .runDeployment context v s targetEnvironment =>
    .deployment <$> Agents.runDeployment setting context v s targetEnvironment false
  | .runDesign context args => .design <$> Agents.runDesign setting context args false

/-- What a workflow exchanged with the agents and the dispatcher. -/
abbrev History := List (Exchange interface Error)

/-- Does the command submit evidence? -/
def Cmd.isSubmission : Cmd → Bool
  | .requestGate _ | .submit _ => true
  | _ => false

/-- Does the command run an agent of the phase after the gate? -/
def Cmd.isLater : Cmd → Bool
  | .execute _ (.monitor _) | .execute _ (.planner ..) => true
  | _ => false

/-- The id of the gate request that the dispatcher created. -/
def created : Exchange interface Error → Option String
  | ⟨.requestGate _, .ok request, _⟩ => some request.requestId
  | ⟨.submit _, .ok requestId, _⟩ => some requestId
  | _ => none

/-- The manifest and the plan that the deployment agent has handed over. -/
def planned : Exchange interface Error → Option (ReleaseManifest × DeploymentPlan)
  | ⟨.execute _ (.deployment m _), .ok result, _⟩ =>
    if result.success then (extractDeploymentPlan setting result).map (m, ·) else none
  | _ => none

/-- The survey that was loaded. -/
def surveyed : Exchange interface Error → Option TechSurvey
  | ⟨.loadTechSurvey _, .ok survey, _⟩ => some survey
  | _ => none

/-- The architecture that was loaded. -/
def designed : Exchange interface Error → Option Architecture
  | ⟨.loadArchitecture _, .ok architecture, _⟩ => some architecture
  | _ => none

/-- **No gate is skipped.**  The workflow fails, or it waits for a gate request that the
dispatcher created; and no agent of a later phase has run. -/
structure Kept (h : History) (v : Verdict) : Prop where
  gated : v ≠ .failed → ∃ requestId, v = .pending (some requestId) ∧
    ∃ x ∈ h, created x = some requestId
  waits : ∀ x ∈ h, x.cmd.isLater = false

/-- The evidence of the phase can be made, and the dispatcher answers every submission with the
id of a request. -/
structure Accepted (h : History) : Prop where
  summary : ∀ x ∈ h, ∀ m p, planned setting x = some (m, p) →
    ∃ text, createHitl6Summary setting m p = .ok text
  design : ∀ x ∈ h, ∀ survey, surveyed x = some survey → ∀ y ∈ h, ∀ architecture,
    designed y = some architecture → ∃ text, hitl2Summary setting survey architecture = .ok text
  answered : ∀ x ∈ h, x.cmd.isSubmission = true →
    ∃ requestId, created x = some requestId ∧ requestId ≠ ""

/-- The two sides agree. -/
def Judged (h : History) (v : Verdict) : Prop := Kept h v ↔ Accepted setting h

/-! ## Histories -/

/-- Neither a submission nor a later agent, nor the last document of a phase. -/
structure Quiet (x : Exchange interface Error) : Prop where
  early : x.cmd.isLater = false
  noSubmission : x.cmd.isSubmission = false
  noPlan : planned setting x = none
  noDesign : designed x = none

/-- Nothing has gone wrong, and nothing was submitted. -/
structure Ready (h : History) : Prop where
  early : ∀ x ∈ h, x.cmd.isLater = false
  unsubmitted : ∀ x ∈ h, x.cmd.isSubmission = false
  accepted : Accepted setting h

section

variable {setting} {h : History} {x : Exchange interface Error} {v : Verdict}

theorem Ready.of_quiet (hq : ∀ x ∈ h, Quiet setting x) : Ready setting h where
  early := fun x hx => (hq x hx).early
  unsubmitted := fun x hx => (hq x hx).noSubmission
  accepted := {
    summary := by
      intro x hx m p hp
      simp [(hq x hx).noPlan] at hp
    design := by
      intro x _ survey _ y hy architecture harch
      simp [(hq y hy).noDesign] at harch
    answered := by
      intro x hx hsub
      simp [(hq x hx).noSubmission] at hsub }

/-- A failed submission is not mended by what follows. -/
theorem Accepted.of_append {h' : History} (ha : Accepted setting (h ++ h')) : Accepted setting h where
  summary := fun x hx => ha.summary x (List.mem_append_left _ hx)
  design := fun x hx survey hs y hy =>
    ha.design x (List.mem_append_left _ hx) survey hs y (List.mem_append_left _ hy)
  answered := fun x hx => ha.answered x (List.mem_append_left _ hx)

/-- A workflow that fails before its gate has skipped none. -/
theorem Ready.judged (hr : Ready setting h) : Judged setting h .failed :=
  iff_of_true ⟨fun hv => absurd rfl hv, hr.early⟩ hr.accepted

/-- The document that completes the evidence. -/
theorem Ready.snoc (hr : Ready setting h) (hlater : x.cmd.isLater = false)
    (hsub : x.cmd.isSubmission = false) (ha : Accepted setting (h ++ [x])) :
    Ready setting (h ++ [x]) where
  early := by
    intro y hy
    rcases List.mem_append.mp hy with hy | hy
    · exact hr.early y hy
    · rw [List.mem_singleton.mp hy]; exact hlater
  unsubmitted := by
    intro y hy
    rcases List.mem_append.mp hy with hy | hy
    · exact hr.unsubmitted y hy
    · rw [List.mem_singleton.mp hy]; exact hsub
  accepted := ha

/-- **What one exchange adds to the condition**, other than the loading of a survey. -/
theorem accepted_snoc (hsurvey : surveyed x = none) : Accepted setting (h ++ [x]) ↔
    Accepted setting h ∧
      (∀ m p, planned setting x = some (m, p) →
        ∃ text, createHitl6Summary setting m p = .ok text) ∧
      (∀ y ∈ h, ∀ survey, surveyed y = some survey → ∀ architecture,
        designed x = some architecture →
          ∃ text, hitl2Summary setting survey architecture = .ok text) ∧
      (x.cmd.isSubmission = true → ∃ requestId, created x = some requestId ∧ requestId ≠ "") := by
  have hlast : x ∈ h ++ [x] := by simp
  have hmem : ∀ y, y ∈ h ++ [x] → y ∈ h ∨ y = x := by simp
  constructor
  · intro ha
    exact ⟨ha.of_append, ha.summary x hlast,
      fun y hy survey hs => ha.design y (List.mem_append_left _ hy) survey hs x hlast,
      ha.answered x hlast⟩
  · rintro ⟨ha, hplan, hdesign, hsub⟩
    refine ⟨?_, ?_, ?_⟩
    · intro y hy
      rcases hmem y hy with hy | rfl
      · exact ha.summary y hy
      · exact hplan
    · intro y hy survey hs z hz
      rcases hmem y hy with hold | rfl
      · rcases hmem z hz with hz | rfl
        · exact ha.design y hold survey hs z hz
        · exact hdesign y hold survey hs
      · simp [hsurvey] at hs
    · intro y hy
      rcases hmem y hy with hy | rfl
      · exact ha.answered y hy
      · exact hsub

/-- The last document of a phase: the evidence can be made, or the condition has failed. -/
theorem Ready.complete (hr : Ready setting h) (hlater : x.cmd.isLater = false)
    (hsub : x.cmd.isSubmission = false) {evidence : Except Error String}
    (haccepted : Accepted setting (h ++ [x]) ↔ ∃ text, evidence = .ok text) :
    (∃ text, evidence = .ok text) ∧ Ready setting (h ++ [x]) ∨
      (∃ e, evidence = .error e) ∧ ¬ Accepted setting (h ++ [x]) := by
  cases evidence with
  | ok text => exact .inl ⟨⟨text, rfl⟩, hr.snoc hlater hsub (haccepted.mpr ⟨text, rfl⟩)⟩
  | error e =>
    refine .inr ⟨⟨e, rfl⟩, ?_⟩
    rw [haccepted]
    rintro ⟨text, htext⟩
    cases htext

/-- The plan of a deployment is judged by whether its evidence can be made. -/
theorem Ready.evidence (hr : Ready setting h) (hlater : x.cmd.isLater = false)
    (hsub : x.cmd.isSubmission = false) (hsurvey : surveyed x = none) (hdesign : designed x = none)
    {m : ReleaseManifest} {p : DeploymentPlan} (hplan : planned setting x = some (m, p)) :
    (∃ text, createHitl6Summary setting m p = .ok text) ∧ Ready setting (h ++ [x]) ∨
      (∃ e, createHitl6Summary setting m p = .error e) ∧ ¬ Accepted setting (h ++ [x]) := by
  refine hr.complete hlater hsub ?_
  rw [accepted_snoc hsurvey]
  simp [hr.accepted, hplan, hdesign, hsub]

/-- The architecture is judged by whether its evidence can be made. -/
theorem Ready.design (hr : Ready setting h) (hlater : x.cmd.isLater = false)
    (hsub : x.cmd.isSubmission = false) (hnone : surveyed x = none)
    (hplan : planned setting x = none) {architecture : Architecture} {survey : TechSurvey}
    (hdesign : designed x = some architecture) (hsurvey : ∃ y ∈ h, surveyed y = some survey)
    (honly : ∀ y ∈ h, ∀ survey', surveyed y = some survey' → survey' = survey) :
    (∃ text, hitl2Summary setting survey architecture = .ok text) ∧ Ready setting (h ++ [x]) ∨
      (∃ e, hitl2Summary setting survey architecture = .error e) ∧
        ¬ Accepted setting (h ++ [x]) := by
  refine hr.complete hlater hsub ?_
  rw [accepted_snoc hnone]
  constructor
  · rintro ⟨-, -, hall, -⟩
    obtain ⟨y, hy, hs⟩ := hsurvey
    exact hall y hy survey hs architecture hdesign
  · intro htext
    refine ⟨hr.accepted, by simp [hplan], ?_, by simp [hsub]⟩
    intro y hy survey' hs architecture' ha
    cases honly y hy survey' hs
    cases hdesign.symm.trans ha
    exact htext

/-- A submission is judged by its answer. -/
theorem Ready.submitted (hr : Ready setting h) (hsub : x.cmd.isSubmission = true) :
    Accepted setting (h ++ [x]) ↔ ∃ requestId, created x = some requestId ∧ requestId ≠ "" := by
  obtain ⟨c, reply, b⟩ := x
  cases c with
  | requestGate args =>
    rw [accepted_snoc rfl]
    simp [planned, designed, hr.accepted, Cmd.isSubmission]
  | submit args =>
    rw [accepted_snoc rfl]
    simp [planned, designed, hr.accepted, Cmd.isSubmission]
  | execute context input => cases hsub
  | loadTechSurvey path => cases hsub
  | loadArchitecture path => cases hsub
  | loadImplementationPlan path => cases hsub

end

/-! ## What the workflows come to -/

/-- What a run of a workflow amounts to; one that raises has not succeeded. -/
def outcome {α : Type} (verdict : α → Verdict) : Except Error α → Verdict
  | .ok result => verdict result
  | .error _ => .failed

/-- With the past `h`, the two sides agree at the end of every run. -/
def Settles {α : Type} (verdict : α → Verdict) (p : Async α) (h : History) : Prop :=
  p.Obeys (fun _ => True) (fun _ => True) (fun r h => Judged setting h (outcome verdict r)) h

section

variable {setting} {α β : Type} {verdict : α → Verdict} {h : History}

theorem settles_ret {a : α} (hj : Judged setting h (verdict a)) :
    Settles setting verdict (.ret a) h := ⟨trivial, hj⟩

theorem settles_raise {e : Error} (hj : Judged setting h .failed) :
    Settles setting verdict (.raise e) h := ⟨trivial, hj⟩

theorem settles_call {c : Cmd} {k : Except Error (Reply c) → Async α}
    (hk : ∀ r b, Settles setting verdict (k r) (h ++ [⟨c, r, b⟩])) :
    Settles setting verdict (.call c k) h := ⟨trivial, fun r b _ => hk r b⟩

/-- A submission has failed, and a later agent has run all the same. -/
structure Skipped (setting : Setting) (h : History) : Prop where
  failed : ¬ Accepted setting h
  later : ∃ x ∈ h, x.cmd.isLater = true

theorem Skipped.judged (hs : Skipped setting h) (v : Verdict) : Judged setting h v := by
  refine iff_of_false ?_ hs.failed
  intro hk
  obtain ⟨x, hx, hlater⟩ := hs.later
  simp [hk.waits x hx] at hlater

theorem Skipped.append (hs : Skipped setting h) (h' : History) : Skipped setting (h ++ h') where
  failed := fun ha => hs.failed ha.of_append
  later := by
    obtain ⟨x, hx, hlater⟩ := hs.later
    exact ⟨x, List.mem_append_left _ hx, hlater⟩

/-- Nothing that follows helps any more. -/
theorem Skipped.settles (hs : Skipped setting h) (p : Async α) : Settles setting verdict p h := by
  induction p generalizing h with
  | ret a => exact settles_ret (hs.judged _)
  | raise e => exact settles_raise (hs.judged _)
  | call c k ih => exact settles_call fun r b => ih r (hs.append _)

/-- A later agent is run after a submission that has failed. -/
theorem settles_later {c : Cmd} {k : Except Error (Reply c) → Async α}
    (ha : ¬ Accepted setting h) (hlater : c.isLater = true) :
    Settles setting verdict (.call c k) h := by
  refine settles_call fun r b => Skipped.settles ⟨fun hp => ha hp.of_append, ?_⟩ _
  exact ⟨⟨c, r, b⟩, by simp, hlater⟩

/-- The rule for a program followed by either of two continuations. -/
theorem settles_elim {p : Async β} {f : β → Async α} {g : Error → Async α}
    {Q : Except Error β → History → Prop}
    (hp : p.Obeys (fun _ => True) (fun _ => True) Q h)
    (hf : ∀ a h', Q (.ok a) h' → Settles setting verdict (f a) h')
    (hg : ∀ e h', Q (.error e) h' → Settles setting verdict (g e) h') :
    Settles setting verdict (p.elim f g) h := by
  refine obeys_elim p f g h (hp.mono (fun _ hJ => hJ) ?_)
  intro r h' _ hQ
  cases r with
  | ok a => exact hf a h' hQ
  | error e => exact hg e h' hQ

/-- A run whose exceptions are handled by a result that has failed, or whose result is told in
other words. -/
theorem Settles.elim {p : Async β} {f : β → Async α} {g : Error → Async α} {verdict' : β → Verdict}
    (hp : Settles setting verdict' p h)
    (hf : ∀ a, ∃ result, f a = .ret result ∧ verdict result = verdict' a)
    (hg : ∀ e, (∃ result, g e = .ret result ∧ verdict result = .failed) ∨ g e = .raise e) :
    Settles setting verdict (p.elim f g) h := by
  refine settles_elim hp ?_ ?_
  · intro a h' hj
    obtain ⟨result, hresult, hv⟩ := hf a
    rw [hresult]
    exact settles_ret (hv ▸ hj)
  · intro e h' hj
    obtain ⟨result, hresult, hv⟩ | hraise := hg e
    · rw [hresult]
      exact settles_ret (hv ▸ hj)
    · rw [hraise]
      exact settles_raise hj

/-- Run an agent before the gate. -/
theorem settles_send {c : Cmd} {k : Reply c → Async α}
    (hquiet : ∀ e b, Ready setting (h ++ [⟨c, .error e, b⟩]))
    (hk : ∀ a b, Settles setting verdict (k a) (h ++ [⟨c, .ok a, b⟩])) :
    Settles setting verdict (send c >>= k) h := by
  refine settles_call ?_
  intro r b
  cases r with
  | ok a => exact hk a b
  | error e => exact settles_raise (hquiet _ b).judged

end

/-! ## The submissions -/

/-- What a submission comes to: a request that the dispatcher created, or no id, and then the
condition has failed. -/
def Submitted (r : Except Error (Option String)) (h : History) : Prop :=
  ∃ requestId, r = .ok requestId ∧
    ((∃ id, given requestId = some id ∧ (∃ x ∈ h, created x = some id) ∧
        (∀ x ∈ h, x.cmd.isLater = false) ∧ Accepted setting h) ∨
      given requestId = none ∧ ¬ Accepted setting h)

section

variable {setting} {h : History}

/-- The command of a submission, with its exceptions handled. -/
theorem Ready.submit (hr : Ready setting h) (c : Cmd) (idOf : Reply c → String)
    (hsub : c.isSubmission = true) (hid : ∀ a b, created ⟨c, .ok a, b⟩ = some (idOf a))
    (herr : ∀ e b, created ⟨c, .error e, b⟩ = none)
    {k : Except Error (Reply c) → Async (Option String)}
    (hok : ∀ a, k (.ok a) = .ret (some (idOf a))) (hraise : ∀ e, k (.error e) = .ret none) :
    (Program.call c k).Obeys (fun _ => True) (fun _ => True) (Submitted setting) h := by
  refine ⟨trivial, ?_⟩
  intro r b _
  have haccepted := hr.submitted (x := ⟨c, r, b⟩) hsub
  cases r with
  | error e =>
    rw [hraise]
    refine ⟨trivial, none, rfl, .inr ⟨rfl, ?_⟩⟩
    rw [haccepted, herr]
    rintro ⟨id, hnone, -⟩
    cases hnone
  | ok a =>
    rw [hok]
    refine ⟨trivial, some (idOf a), rfl, ?_⟩
    rw [haccepted, hid]
    by_cases hempty : idOf a = ""
    · refine .inr ⟨by simp [given, hempty], ?_⟩
      simp [hempty]
    · refine .inl ⟨idOf a, by simp [given, hempty], ⟨_, by simp, hid a b⟩, ?_, _, rfl, hempty⟩
      intro y hy
      rcases List.mem_append.mp hy with hy | hy
      · exact hr.early y hy
      · rw [List.mem_singleton.mp hy]
        cases c <;> first | rfl | cases hsub

variable {context : AgentContext}

theorem submitBundle_obeys {gateType : GateType} {items : List EvidenceItem}
    {summary : Except Error String} (hd : setting.hitlDispatcher = true)
    (hs : (∃ text, summary = .ok text) ∧ Ready setting h ∨
      (∃ e, summary = .error e) ∧ ¬ Accepted setting h) :
    (submitBundle setting context gateType items summary).Obeys (fun _ => True) (fun _ => True)
      (Submitted setting) h := by
  simp only [submitBundle, hd, if_true]
  obtain ⟨⟨text, rfl⟩, hr⟩ | ⟨⟨e, rfl⟩, ha⟩ := hs
  · exact hr.submit (.requestGate _) Hitl.GateRequest.requestId rfl (fun _ _ => rfl)
      (fun _ _ => rfl) (fun _ => rfl) fun _ => rfl
  · exact ⟨trivial, none, rfl, .inr ⟨rfl, ha⟩⟩

theorem submitDesign_obeys {gateType : String} {evidence : Except Error DesignEvidence}
    (hd : setting.hitlDispatcher = true)
    (hs : (∃ made, evidence = .ok made) ∧ Ready setting h ∨
      (∃ e, evidence = .error e) ∧ ¬ Accepted setting h) :
    (submitDesign setting context gateType evidence).Obeys (fun _ => True) (fun _ => True)
      (Submitted setting) h := by
  simp only [submitDesign, hd, if_true]
  obtain ⟨⟨made, rfl⟩, hr⟩ | ⟨⟨e, rfl⟩, ha⟩ := hs
  · exact hr.submit (.submit _) id rfl (fun _ _ => rfl) (fun _ _ => rfl) (fun _ => rfl)
      fun _ => rfl
  · exact ⟨trivial, none, rfl, .inr ⟨rfl, ha⟩⟩

end

/-! ## Validation -/

section

variable {setting} {h : History} {context : AgentContext}

/-- Everything so far is quiet. -/
abbrev AllQuiet (setting : Setting) (h : History) : Prop := ∀ x ∈ h, Quiet setting x

theorem AllQuiet.snoc {x : Exchange interface Error} (hq : AllQuiet setting h)
    (hx : Quiet setting x) : AllQuiet setting (h ++ [x]) := by
  intro y hy
  rcases List.mem_append.mp hy with hy | hy
  · exact hq y hy
  · rw [List.mem_singleton.mp hy]; exact hx

theorem AllQuiet.ready (hq : AllQuiet setting h) : Ready setting h := Ready.of_quiet hq

/-- HITL-5. -/
theorem finishValidation_settles (hd : setting.hitlDispatcher = true) (hr : Ready setting h)
    (v : ValidationReport) (s : SecurityReport) (paths : List String) :
    Settles setting ValidationResult.verdict
      (finishValidation setting context v s paths false) h := by
  simp only [finishValidation, hd, and_self, if_true]
  refine settles_elim (submitBundle_obeys hd (.inl ⟨⟨_, rfl⟩, hr⟩)) ?_ ?_
  · rintro _ h' ⟨requestId, ⟨⟩, ⟨id, hid, hcreated, hearly, ha⟩ | ⟨hid, ha⟩⟩
    · simp only [hid]
      refine settles_ret (iff_of_true ⟨fun _ => ⟨id, rfl, hcreated⟩, hearly⟩ ha)
    · simp only [hid]
      refine settles_ret (iff_of_false ?_ ha)
      intro hk
      obtain ⟨id, hpending, -⟩ := hk.gated nofun
      cases hpending
  · rintro e h' ⟨requestId, hr', -⟩
    cases hr'

theorem runValidation_settles (hd : setting.hitlDispatcher = true) (implementation : Args)
    (acceptanceCriteria : List String) :
    Settles setting ValidationResult.verdict
      (runValidation setting context implementation acceptanceCriteria false) [] := by
  have hq₀ : AllQuiet setting [] := fun x hx => nomatch hx
  have hsteps : Settles setting ValidationResult.verdict
      (validationSteps setting context implementation acceptanceCriteria false) [] := by
    have hq₁ := fun r b => hq₀.snoc (x := ⟨.execute context (.validation implementation
      acceptanceCriteria (featureId context implementation)), r, b⟩) ⟨rfl, rfl, rfl, rfl⟩
    refine settles_send (fun e b => (hq₁ (.error e) b).ready) ?_
    intro validation b
    split
    · exact settles_ret (hq₁ _ b).ready.judged
    split
    · exact settles_ret (hq₁ _ b).ready.judged
    have hq₂ := fun r b' => (hq₁ (.ok validation) b).snoc (x := ⟨.execute context
      (.security implementation (featureId context implementation)), r, b'⟩) ⟨rfl, rfl, rfl, rfl⟩
    refine settles_send (fun e b' => (hq₂ (.error e) b').ready) ?_
    intro security b'
    split
    · exact settles_ret (hq₂ _ b').ready.judged
    split
    · exact settles_ret (hq₂ _ b').ready.judged
    exact finishValidation_settles hd (hq₂ _ b').ready _ _ _
  exact hsteps.elim (fun result => ⟨result, rfl, rfl⟩)
    fun e => .inl ⟨.failed "validation" e.str, rfl, rfl⟩

end

/-! ## Deployment -/

section

variable {setting} {h : History} {context : AgentContext} {m : ReleaseManifest}
  {p : DeploymentPlan}

/-- After a submission that has failed, the monitor agent runs. -/
theorem finishDeployment_settles (ha : ¬ Accepted setting h) :
    Settles setting DeploymentResult.verdict (finishDeployment setting context m p) h :=
  settles_later ha rfl

/-- HITL-6. -/
theorem gateDeployment_settles (hd : setting.hitlDispatcher = true)
    (hs : (∃ text, createHitl6Summary setting m p = .ok text) ∧ Ready setting h ∨
      (∃ e, createHitl6Summary setting m p = .error e) ∧ ¬ Accepted setting h)
    (paths : List String) :
    Settles setting DeploymentResult.verdict
      (gateDeployment setting context m p paths false) h := by
  simp only [gateDeployment, hd, and_self, if_true]
  refine settles_elim (submitBundle_obeys hd hs) ?_ ?_
  · rintro _ h' ⟨requestId, ⟨⟩, ⟨id, hid, hcreated, hearly, ha⟩ | ⟨hid, ha⟩⟩
    · simp only [hid]
      exact settles_ret (iff_of_true ⟨fun _ => ⟨id, rfl, hcreated⟩, hearly⟩ ha)
    · simp only [hid]
      exact finishDeployment_settles ha
  · rintro e h' ⟨requestId, hr', -⟩
    cases hr'

theorem runDeployment_settles (hd : setting.hitlDispatcher = true) (v : ValidationReport)
    (s : SecurityReport) (targetEnvironment : String) :
    Settles setting DeploymentResult.verdict
      (runDeployment setting context v s targetEnvironment false) [] := by
  have hq₀ : AllQuiet setting [] := fun x hx => nomatch hx
  have hsteps : Settles setting DeploymentResult.verdict
      (deploymentSteps setting context v s targetEnvironment false) [] := by
    have hq₁ := fun r b => hq₀.snoc (x := ⟨.execute context (.release v s), r, b⟩)
      ⟨rfl, rfl, rfl, rfl⟩
    refine settles_send (fun e b => (hq₁ (.error e) b).ready) ?_
    intro release b
    split
    · exact settles_ret (hq₁ _ b).ready.judged
    split
    · exact settles_ret (hq₁ _ b).ready.judged
    next m hm =>
    have hr := (hq₁ (.ok release) b).ready
    -- Only a plan that was handed over completes the evidence.
    have hq₂ := fun r b' (hplan : planned setting
        ⟨.execute context (.deployment m targetEnvironment), r, b'⟩ = none) =>
      (hq₁ (.ok release) b).snoc ⟨rfl, rfl, hplan, rfl⟩
    refine settles_send (fun e b' => (hq₂ (.error e) b' rfl).ready) ?_
    intro deployment b'
    split
    · next hfail => exact settles_ret (hq₂ _ b' (by simp [planned, hfail])).ready.judged
    split
    · next hplan => exact settles_ret (hq₂ _ b' (by simp [planned, hplan])).ready.judged
    next hok _ p hp =>
    have hplan : planned setting ⟨.execute context (.deployment m targetEnvironment),
        .ok deployment, b'⟩ = some (m, p) := by simpa [planned, hp] using hok
    exact gateDeployment_settles hd (hr.evidence rfl rfl rfl rfl hplan) _
  exact hsteps.elim (fun result => ⟨result, rfl, rfl⟩)
    fun e => .inl ⟨.failed "deployment" e.str, rfl, rfl⟩

end

/-! ## Design -/

section

variable {setting} {h : History} {context : AgentContext} {α : Type} {verdict : α → Verdict}

/-- Run an agent and load its document, and go on with what was loaded. -/
theorem settles_runAgent {D : Type} {input : AgentInput} {load : String → Async D}
    {k : Option D × String → Async α}
    (herror : ∀ e b, Judged setting (h ++ [⟨.execute context input, .error e, b⟩]) .failed)
    (hnone : ∀ result b path, Settles setting verdict (k (none, path))
      (h ++ [⟨.execute context input, .ok result, b⟩]))
    (hload : ∀ result b path, Settles setting verdict
      ((load path).elim (fun d => k (some d, path)) fun _ => k (none, path))
      (h ++ [⟨.execute context input, .ok result, b⟩])) :
    Settles setting verdict (runAgent context input load >>= k) h := by
  refine settles_call ?_
  intro r b
  cases r with
  | error e => exact settles_raise (herror e b)
  | ok result =>
    simp only [answer_ok, elim_ret]
    split
    · exact hnone result b ""
    split
    · exact hnone result b _
    · simpa using hload result b (result.artifactPaths.headD "")

variable {args : DesignArgs} {survey : TechSurvey} {architecture : Architecture}

/-- After a submission that has failed, the planner runs. -/
theorem planDesign_settles (ha : ¬ Accepted setting h) (requestId : Option String) :
    Settles setting DesignResult.verdict
      (planDesign setting context args survey architecture requestId false) h :=
  settles_later ha rfl

/-- HITL-2. -/
theorem gateDesign_settles (hd : setting.hitlDispatcher = true)
    (hs : (∃ text, hitl2Summary setting survey architecture = .ok text) ∧ Ready setting h ∨
      (∃ e, hitl2Summary setting survey architecture = .error e) ∧ ¬ Accepted setting h)
    (paths : List String) :
    Settles setting DesignResult.verdict
      (gateDesign setting context args survey architecture paths false) h := by
  have hbundle : (∃ made, createHitl2Bundle setting survey architecture paths = .ok made) ∧
        Ready setting h ∨
      (∃ e, createHitl2Bundle setting survey architecture paths = .error e) ∧
        ¬ Accepted setting h := by
    obtain ⟨⟨text, htext⟩, hr⟩ | ⟨⟨e, he⟩, ha⟩ := hs
    · exact .inl ⟨⟨_, by simp only [createHitl2Bundle, htext]; rfl⟩, hr⟩
    · exact .inr ⟨⟨e, by simp only [createHitl2Bundle, he]; rfl⟩, ha⟩
  simp only [gateDesign, hd, and_self, if_true]
  refine settles_elim (submitDesign_obeys hd hbundle) ?_ ?_
  · rintro _ h' ⟨requestId, ⟨⟩, ⟨id, hid, hcreated, hearly, ha⟩ | ⟨hid, ha⟩⟩
    · simp only [hid]
      exact settles_ret (iff_of_true ⟨fun _ => ⟨id, rfl, hcreated⟩, hearly⟩ ha)
    · simp only [hid]
      exact planDesign_settles ha _
  · rintro e h' ⟨requestId, hr', -⟩
    cases hr'

/-- The architect, with the survey at hand. -/
theorem architect_settles (hd : setting.hitlDispatcher = true) (hq : AllQuiet setting h)
    (hsurvey : ∃ x ∈ h, surveyed x = some survey)
    (honly : ∀ x ∈ h, ∀ survey', surveyed x = some survey' → survey' = survey)
    (surveyArtifact : String) :
    Settles setting DesignResult.verdict (do
      let (architecture, archArtifact) ←
        runArchitect context survey args.prdContent args.nfrRequirements
      match architecture with
      | none => return .failed "Architect Agent failed to produce architecture"
      | some architecture =>
        gateDesign setting context args survey architecture [surveyArtifact, archArtifact]
          false) h := by
  have hq₁ := fun r b => hq.snoc (x := ⟨.execute context
    (.architect survey args.prdContent args.nfrRequirements), r, b⟩) ⟨rfl, rfl, rfl, rfl⟩
  refine settles_runAgent (fun e b => (hq₁ (.error e) b).ready.judged)
    (fun result b path => settles_ret (hq₁ (.ok result) b).ready.judged) ?_
  intro result b path
  refine settles_call ?_
  intro r b'
  cases r with
  | error e =>
    have hq₂ := (hq₁ (.ok result) b).snoc (x := ⟨.loadArchitecture path, .error e, b'⟩)
      ⟨rfl, rfl, rfl, rfl⟩
    exact settles_ret hq₂.ready.judged
  | ok architecture =>
    refine gateDesign_settles hd ?_ _
    refine (hq₁ (.ok result) b).ready.design rfl rfl rfl rfl rfl ?_ ?_
    · obtain ⟨x, hx, hs⟩ := hsurvey
      exact ⟨x, List.mem_append_left _ hx, hs⟩
    · intro x hx survey' hs
      rcases List.mem_append.mp hx with hx | hx
      · exact honly x hx survey' hs
      · rw [List.mem_singleton.mp hx] at hs
        cases hs

theorem runDesign_settles (hd : setting.hitlDispatcher = true) :
    Settles setting DesignResult.verdict (runDesign setting context args false) [] := by
  have hq₀ : AllQuiet setting [] := fun x hx => nomatch hx
  have hsteps : Settles setting DesignResult.verdict
      (designSteps setting context args false) [] := by
    have hq₁ := fun reference r b => hq₀.snoc (x := ⟨.execute context
      (.surveyor args.prdContent reference), r, b⟩) ⟨rfl, rfl, rfl, rfl⟩
    refine settles_runAgent (fun e b => (hq₁ _ (.error e) b).ready.judged)
      (fun result b path => settles_ret (hq₁ _ (.ok result) b).ready.judged) ?_
    intro result b path
    refine settles_call ?_
    intro r b'
    have hq₂ := (hq₁ (if args.prdReference = "" then "PRD-" ++ context.taskId
      else args.prdReference) (.ok result) b).snoc (x := ⟨.loadTechSurvey path, r, b'⟩)
      ⟨rfl, rfl, rfl, rfl⟩
    cases r with
    | error e => exact settles_ret hq₂.ready.judged
    | ok survey =>
      refine architect_settles hd hq₂ ⟨_, List.mem_append_right _ List.mem_cons_self, rfl⟩ ?_ path
      intro x hx survey' hs
      rcases List.mem_append.mp hx with hx | hx
      · rw [List.nil_append, List.mem_singleton] at hx
        rw [hx] at hs
        cases hs
      · rw [List.mem_singleton.mp hx] at hs
        cases hs
        rfl
  exact hsteps.elim (fun result => ⟨result, rfl, rfl⟩) fun e => .inl ⟨.failed e.str, rfl, rfl⟩

end

/-! ## Every workflow -/

theorem Call.settles (hd : setting.hitlDispatcher = true) (call : Call) :
    Settles setting CallResult.verdict (call.program setting) [] := by
  cases call with
  | runValidation context implementation acceptanceCriteria =>
    exact (runValidation_settles hd implementation acceptanceCriteria).elim
      (fun result => ⟨.validation result, rfl, rfl⟩) fun e => .inr rfl
  | runDeployment context v s targetEnvironment =>
    exact (runDeployment_settles hd v s targetEnvironment).elim
      (fun result => ⟨.deployment result, rfl, rfl⟩) fun e => .inr rfl
  | runDesign context args =>
    exact (runDesign_settles hd).elim (fun result => ⟨.design result, rfl, rfl⟩) fun e => .inr rfl

/-- **When no gate is skipped.**  A run of a workflow keeps its gate exactly if the evidence of
the phase can be made and the dispatcher answers the submission with the id of a request. -/
theorem kept_iff_accepted (hd : setting.hitlDispatcher = true) (call : Call) {h : History}
    {r : Except Error CallResult} (hrun : (call.program setting).Yields h r) :
    Kept h (outcome CallResult.verdict r) ↔ Accepted setting h := by
  simpa [Judged] using (call.settles setting hd).of_yields (fun _ _ => trivial) hrun

/-! ### A dispatcher that raises -/

/-- Reports that have passed, read from any dictionary. -/
def passing : Setting where
  readers := {
    validationReport := fun j => .ok ⟨j, true, 3, 0, "91.5"⟩
    securityReport := fun _ => .ok ⟨true, []⟩
    releaseManifest := fun j => .ok ⟨j, .arr [.str "F1"]⟩
    deploymentPlan := fun j => .ok ⟨j, .canary, 4, 2, .arr []⟩
    monitoringConfig := .ok }
  render := fun _ => "?"
  hitlDispatcher := true
  bundleId := "b"
  now := 0

/-- The context of a task. -/
def taskContext : AgentContext := ⟨"s", "t", "default", "/work", some "abc"⟩

/-- The validation agent hands over its report. -/
def validated : AgentResult Json where
  success := true
  artifactPaths := ["t_validation_report.json"]
  metadata := [("validation_report", .str "validated")]

/-- The security agent hands over its report. -/
def secured : AgentResult Json where
  success := true
  artifactPaths := ["t_security_report.json"]
  metadata := [("security_report", .str "secured")]

/-- The validation of a feature, up to the submission. -/
def reviewed (answer : Except Error Hitl.GateRequest) : History :=
  [⟨.execute taskContext (.validation [] ["It works."] (.str "t")), .ok validated, true⟩,
    ⟨.execute taskContext (.security [] (.str "t")), .ok secured, true⟩,
    ⟨.requestGate (gateArgs taskContext .hitl5Validation (createBundle passing taskContext
      .hitl5Validation [hitl5Item "t_validation_report.json", hitl5Item "t_security_report.json"]
      (createHitl5Summary passing ⟨.str "validated", true, 3, 0, "91.5"⟩ ⟨true, []⟩))),
      answer, false⟩]

/-- The request that is created. -/
def hitl5Request : Hitl.GateRequest where
  requestId := "r1"
  taskId := "t"
  sessionId := "s"
  gateType := .hitl5Validation
  status := .pending
  evidenceBundle := createBundle passing taskContext .hitl5Validation [] ""
  requestedBy := "validation_deployment_coordinator"
  requestedAt := 0

theorem kept_review : Kept (reviewed (.ok hitl5Request))
      (outcome CallResult.verdict (.ok (.validation (.pendingApproval
        ⟨.str "validated", true, 3, 0, "91.5"⟩ ⟨true, []⟩ "r1")))) ↔
    Accepted passing (reviewed (.ok hitl5Request)) :=
  kept_iff_accepted passing rfl (.runValidation taskContext [] ["It works."])
    ⟨_, _, _, rfl, _, _, _, rfl, _, _, _, rfl, rfl, rfl⟩

/-- Redis does not answer the dispatcher, and the validation succeeds without a review. -/
theorem unreviewed_success : ¬ ∀ (setting : Setting) (call : Call) (h : History)
    (r : Except Error CallResult), setting.hitlDispatcher = true →
      (call.program setting).Yields h r → Kept h (outcome CallResult.verdict r) := by
  intro hall
  have hkept := hall passing (.runValidation taskContext [] ["It works."])
    (reviewed (.error ⟨.redisError, "Connection refused", []⟩))
    (.ok (.validation (.succeeded ⟨.str "validated", true, 3, 0, "91.5"⟩ ⟨true, []⟩))) rfl
    ⟨_, _, _, rfl, _, _, _, rfl, _, _, _, rfl, rfl, rfl⟩
  obtain ⟨requestId, hpending, -⟩ := hkept.gated nofun
  cases hpending

end DoxAsdlc.Agents
