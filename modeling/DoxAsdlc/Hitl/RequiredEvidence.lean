import DoxAsdlc.Hitl.Dispatcher

/-!
# The evidence behind a pending request

`requestGate` validates the bundle before it writes anything, and the validation asks for
evidence of one of the kinds that the gate of the bundle lists.  A request becomes pending
exactly when that holds and the write of its hash arrives, whatever becomes of the commands
after it.

## Main definitions

* `EvidenceBundle.Holds` — a bundle holds evidence of a kind.
* `IsPending`, `Creates` — a request stands pending for a gate, and a call made it so.
-/

namespace DoxAsdlc

/-- The bundle holds evidence of a kind. -/
def EvidenceBundle.Holds (b : EvidenceBundle) (kind : String) : Prop :=
  ∃ item ∈ b.items, item.itemType = kind

instance (b : EvidenceBundle) (kind : String) : Decidable (b.Holds kind) :=
  inferInstanceAs (Decidable (∃ item ∈ b.items, item.itemType = kind))

/-- What the validation asks for, in terms of the kinds of evidence. -/
theorem validateEvidenceForGate_eq_ok_iff_holds (b : EvidenceBundle) :
    validateEvidenceForGate b = .ok () ↔ ∃ kind ∈ requiredEvidence b.gateType, b.Holds kind := by
  rw [validateEvidenceForGate_eq_ok]
  constructor
  · intro ⟨item, hitem, hreq⟩
    exact ⟨_, hreq, item, hitem, rfl⟩
  · intro ⟨_, hreq, item, hitem, hkind⟩
    exact ⟨item, hitem, hkind ▸ hreq⟩

namespace Hitl

open Interaction Interaction.Program

variable (tenancy : Tenancy) (requestId : String)

/-- The request is stored as pending, for a gate. -/
def IsPending (gate : GateType) (w : Store) : Prop :=
  storedStatus tenancy requestId w = some .pending ∧
    Redis.hget (w.requests (requestKey tenancy requestId)) .gateType = some gate

instance (gate : GateType) (w : Store) : Decidable (IsPending tenancy requestId gate w) :=
  inferInstanceAs (Decidable (_ ∧ _))

/-- A call of `request_gate` makes a pending request for its gate, as far as its commands
are carried out. -/
def Creates (now : Time) (args : GateArgs) (w : Store) (os : List (Outcome Error)) : Prop :=
  ¬ IsPending tenancy requestId args.gateType w ∧
    IsPending tenancy requestId args.gateType
      (play Store.serve os (requestGate tenancy now requestId args) w).2

variable {tenancy requestId} {gate : GateType}

/-- The hash of a request makes it pending. -/
theorem isPending_hset (now : Time) (args : GateArgs) (w : Store) :
    IsPending tenancy requestId args.gateType
      (Store.serve (.hset (requestKey tenancy requestId)
        (args.request now requestId).toDict) w).1 := by
  constructor
  · simp [storedStatus_serve, written, GateArgs.request]
  · simp [Store.serve, Redis.hget_hset, GateRequest.toDict, GateArgs.request]

/-- Commands that touch no hash of a request leave it pending. -/
theorem IsPending.play_aside {α : Type} {p : Async α}
    (hp : p.Uses fun cmd => ∀ w : Store, (Store.serve cmd w).1.requests = w.requests)
    {w : Store} (hw : IsPending tenancy requestId gate w) (os : List (Outcome Error)) :
    IsPending tenancy requestId gate (play Store.serve os p w).2 := by
  refine (hp.keeps fun cmd hcmd w' hw' => ?_).play hw os
  rw [IsPending, storedStatus, hcmd w']
  exact hw'

/-- Nothing that announces a request touches a hash of one. -/
theorem uses_announceRequest (now : Time) (request : GateRequest) :
    (announceRequest tenancy now request).Uses fun cmd =>
      ∀ w : Store, (Store.serve cmd w).1.requests = w.requests := by
  refine uses_bind (uses_bind ?_ fun _ => ?_) fun _ => uses_bind (uses_answer _) fun _ => ?_
  · exact uses_command fun _ => rfl
  · exact uses_command fun _ => rfl
  · exact uses_bind (uses_command fun _ => rfl) fun _ => uses_ret _

/-- **When a request is created.**  The bundle holds evidence of a kind that its gate lists,
and the first command arrives. -/
theorem creates_iff (now : Time) (args : GateArgs) (w : Store) (os : List (Outcome Error)) :
    Creates tenancy requestId now args w os ↔
      ¬ IsPending tenancy requestId args.gateType w ∧
      (∃ kind ∈ requiredEvidence args.evidenceBundle.gateType, args.evidenceBundle.Holds kind) ∧
      ∃ o rest, os = o :: rest ∧ o.effective = true := by
  refine and_congr_right fun hw => ?_
  rw [← validateEvidenceForGate_eq_ok_iff_holds]
  cases hv : validateEvidenceForGate args.evidenceBundle with
  | error e =>
    -- nothing is written
    refine iff_of_false ?_ (by simp)
    simpa [requestGate, hv] using hw
  | ok u =>
    simp only [requestGate, hv, answer_ok, bind_eq, elim_ret, send, command_eq, elim_call,
      true_and]
    have hdone := @isPending_hset tenancy requestId now args w
    cases os with
    | nil => exact iff_of_false hw (by simp)
    | cons o rest =>
      cases o with
      | refused e => exact iff_of_false (by simpa using hw) (by simp [Outcome.effective])
      | lost e => exact iff_of_true (by simpa using hdone) ⟨_, _, rfl, rfl⟩
      | ok =>
        refine iff_of_true (hdone.play_aside ?_ rest) ⟨_, _, rfl, rfl⟩
        exact uses_bind (uses_command fun _ => rfl) fun _ =>
          uses_bind (uses_command fun _ => rfl) fun _ =>
            uses_bind (uses_announceRequest now _) fun _ => uses_ret _

instance (now : Time) (args : GateArgs) (w : Store) (os : List (Outcome Error)) :
    Decidable (Creates tenancy requestId now args w os) :=
  inferInstanceAs (Decidable (_ ∧ _))

end Hitl

end DoxAsdlc
