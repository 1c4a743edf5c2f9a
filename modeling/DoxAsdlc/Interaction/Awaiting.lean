import DoxAsdlc.Interaction.Run

/-!
# Clients that await answers

The script of a page runs in one thread.  An action does something at once and may send a
request; the answer comes in a later turn, in any order among the requests that are awaited
then, and the script goes on from where it waited.  Between two turns nothing of it runs.

A property of such a client is judged turn by turn: what its actions do, and what it does with
the answers to the requests it awaits.

## Main definitions

* `Client` — what an action does, and what an answer does.
* `Awaiting` — the state of a client with the requests it awaits.
* `Turn` — an action, or the arrival of one of the awaited answers; `Turn.Meets` is a condition
  on the two, `Turn.Shows` a relation of the states before and after.
-/

namespace Interaction

/-- What a client does at once on an action, with the request that it then awaits, and what it
does with the answer. -/
structure Client (σ α ρ : Type) (Answer : ρ → Type) where
  act : α → σ → σ × Option ρ
  resume : (r : ρ) → Answer r → σ → σ

/-- The state of a client and the requests that are not answered yet, the oldest first. -/
structure Awaiting (σ ρ : Type) where
  state : σ
  pending : List ρ

/-- What happens next: an action, or the arrival of an awaited answer. -/
inductive Turn (α ρ : Type) (Answer : ρ → Type)
  | act (a : α)
  | arrive (i : ℕ) (answer : (r : ρ) → Answer r)

variable {σ α ρ : Type} {Answer : ρ → Type}

namespace Client

/-- One turn.  The arrival of an answer that is not awaited is none. -/
def step (client : Client σ α ρ Answer) (w : Awaiting σ ρ) :
    Turn α ρ Answer → Awaiting σ ρ
  | .act a => ⟨(client.act a w.state).1, w.pending ++ (client.act a w.state).2.toList⟩
  | .arrive i answer =>
    match w.pending[i]? with
    | some r => ⟨client.resume r (answer r) w.state, w.pending.eraseIdx i⟩
    | none => w

variable (client : Client σ α ρ Answer) {w : Awaiting σ ρ}

@[simp] theorem step_act (a : α) : client.step w (.act a) =
    ⟨(client.act a w.state).1, w.pending ++ (client.act a w.state).2.toList⟩ := rfl

theorem step_arrive {i : ℕ} {r : ρ} (h : w.pending[i]? = some r)
    (answer : (r : ρ) → Answer r) : client.step w (.arrive i answer) =
      ⟨client.resume r (answer r) w.state, w.pending.eraseIdx i⟩ := by
  simp [step, h]

theorem step_arrive_none {i : ℕ} (h : w.pending[i]? = none) (answer : (r : ρ) → Answer r) :
    client.step w (.arrive i answer) = w := by
  simp [step, h]

end Client

namespace Turn

/-- A condition on actions and on the answers to awaited requests. -/
def Meets (A : α → σ → Prop) (B : (r : ρ) → Answer r → σ → Prop) (w : Awaiting σ ρ) :
    Turn α ρ Answer → Prop
  | .act a => A a w.state
  | .arrive i answer => ∀ r, w.pending[i]? = some r → B r (answer r) w.state

/-- What the awaited answers do to the state. -/
def Shows (R : (r : ρ) → Answer r → σ → σ → Prop) (w : Awaiting σ ρ) (t : Turn α ρ Answer)
    (w' : Awaiting σ ρ) : Prop :=
  match t with
  | .act _ => True
  | .arrive i answer => ∀ r, w.pending[i]? = some r → R r (answer r) w.state w'.state

end Turn

/-- **The rule of exact conditions, turn by turn.**  Where an action keeps the invariant exactly
if it meets `A`, and an answer does what it should and keeps the invariant exactly if it meets
`B`, all is well throughout a run exactly if every turn meets the conditions. -/
theorem Client.along_iff_each (client : Client σ α ρ Answer) {P : σ → Prop}
    {R : (r : ρ) → Answer r → σ → σ → Prop} {A : α → σ → Prop}
    {B : (r : ρ) → Answer r → σ → Prop}
    (hact : ∀ a s, P s → (P (client.act a s).1 ↔ A a s))
    (hresume : ∀ r answer s, P s →
      (R r answer s (client.resume r answer s) ∧ P (client.resume r answer s) ↔ B r answer s))
    {w : Awaiting σ ρ} (hP : P w.state) (turns : List (Turn α ρ Answer)) :
    Along client.step (fun w => P w.state) (Turn.Shows R) w turns ↔
      Each client.step (Turn.Meets A B) w turns := by
  refine Interaction.along_iff_each (P := fun w : Awaiting σ ρ => P w.state) (I := fun _ => True)
    (fun _ _ _ _ _ => trivial) ?_ trivial hP turns
  intro w t _ hP
  cases t with
  | act a =>
    constructor
    · intro h
      exact (hact a w.state hP).mp h.2
    · intro h
      exact ⟨trivial, (hact a w.state hP).mpr h⟩
  | arrive i answer =>
    cases hi : w.pending[i]? with
    | none => simp [client.step_arrive_none hi, Turn.Shows, Turn.Meets, hi, hP]
    | some r => simp [client.step_arrive hi, Turn.Shows, Turn.Meets, hi, hresume r _ _ hP]

/-- The rule for the states alone. -/
theorem Client.always_iff_each (client : Client σ α ρ Answer) {P : σ → Prop}
    {A : α → σ → Prop} {B : (r : ρ) → Answer r → σ → Prop}
    (hact : ∀ a s, P s → (P (client.act a s).1 ↔ A a s))
    (hresume : ∀ r answer s, P s → (P (client.resume r answer s) ↔ B r answer s))
    {w : Awaiting σ ρ} (hP : P w.state) (turns : List (Turn α ρ Answer)) :
    Along client.step (fun w => P w.state) (fun _ _ _ => True) w turns ↔
      Each client.step (Turn.Meets A B) w turns := by
  rw [← client.along_iff_each (R := fun _ _ _ _ => True) hact (by simpa using hresume) hP]
  constructor
  · intro h
    refine h.mono (fun _ hw => hw) ?_
    intro w t _ _
    cases t <;> simp [Turn.Shows]
  · intro h
    exact h.mono (fun _ hw => hw) fun _ _ _ _ => trivial

/-- A condition on actions alone is met when all the actions of the run meet it. -/
theorem Client.each_meets_iff (client : Client σ α ρ Answer) {A : α → Prop}
    {B : (r : ρ) → Answer r → σ → Prop} {w : Awaiting σ ρ} (turns : List (Turn α ρ Answer)) :
    Each client.step (Turn.Meets (fun a _ => A a) B) w turns ↔
      (∀ a, .act a ∈ turns → A a) ∧
        Each client.step (Turn.Meets (fun _ _ => True) B) w turns := by
  induction turns generalizing w with
  | nil => simp
  | cons t turns ih =>
    rw [each_cons, each_cons, ih]
    cases t with
    | act a => simp [Turn.Meets, and_assoc]
    | arrive i answer => simp [Turn.Meets, and_left_comm]

end Interaction
