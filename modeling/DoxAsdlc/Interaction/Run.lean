import Mathlib.Tactic.Common

/-!
# Runs and what holds along them

A run is a list of actions folded over a step function.  A property of a run has
two parts: a predicate on every state reached, and a relation on every step taken.
`Along` is the two together, by recursion on the list of actions, so that every
induction over runs is made here once.

The main rule is `along_iff`: when, from a good state, a step keeps the property
exactly if it meets a condition, then a run keeps it throughout exactly if every
step of it meets the condition.

A service answers a call and goes on to its next state.  Two services give the same answers to a
sequence of calls if their states stay related, where the calls meet a condition on the state of
one of them.

## Main definitions

* `run` — the state after a list of actions.
* `Along` — a state predicate and a step relation, throughout a run.
* `Each` — a condition met by every step of a run.
* `Service` — what is answered to a call, and the next state.
* `Service.answers` — the answers to a sequence of calls.
* `Service.Simulates` — two services answer alike in related states, and stay related.
-/

namespace Interaction

variable {σ α : Type}

/-- The state after a list of actions. -/
def run (step : σ → α → σ) (s : σ) (as : List α) : σ := as.foldl step s

@[simp] theorem run_nil (step : σ → α → σ) (s : σ) : run step s [] = s := rfl
@[simp] theorem run_cons (step : σ → α → σ) (s : σ) (a : α) (as : List α) :
    run step s (a :: as) = run step (step s a) as := rfl
theorem run_append (step : σ → α → σ) (s : σ) (as bs : List α) :
    run step s (as ++ bs) = run step (run step s as) bs := List.foldl_append

/-- `P` in every state reached and `R` across every step taken. -/
def Along (step : σ → α → σ) (P : σ → Prop) (R : σ → α → σ → Prop) : σ → List α → Prop
  | s, [] => P s
  | s, a :: as => P s ∧ R s a (step s a) ∧ Along step P R (step s a) as

/-- Every step of the run meets a condition on the state it starts from. -/
def Each (step : σ → α → σ) (C : σ → α → Prop) : σ → List α → Prop
  | _, [] => True
  | s, a :: as => C s a ∧ Each step C (step s a) as

variable {step : σ → α → σ} {P Q I : σ → Prop} {R T : σ → α → σ → Prop} {C D : σ → α → Prop}

@[simp] theorem along_nil (s : σ) : Along step P R s [] ↔ P s := Iff.rfl
@[simp] theorem along_cons (s : σ) (a : α) (as : List α) :
    Along step P R s (a :: as) ↔ P s ∧ R s a (step s a) ∧ Along step P R (step s a) as :=
  Iff.rfl
@[simp] theorem each_nil (s : σ) : Each step C s [] ↔ True := Iff.rfl
@[simp] theorem each_cons (s : σ) (a : α) (as : List α) :
    Each step C s (a :: as) ↔ C s a ∧ Each step C (step s a) as := Iff.rfl

instance decidableEach [∀ s a, Decidable (C s a)] : ∀ s as, Decidable (Each step C s as)
  | _, [] => .isTrue trivial
  | s, a :: as => @instDecidableAnd _ _ _ (decidableEach (step s a) as)

theorem each_append (s : σ) (as bs : List α) :
    Each step C s (as ++ bs) ↔ Each step C s as ∧ Each step C (run step s as) bs := by
  induction as generalizing s with
  | nil => simp
  | cons a as ih => simp [ih, and_assoc]

/-- Every step meets the condition when the step after each beginning of the run does. -/
theorem each_iff_split {s : σ} {as : List α} : Each step C s as ↔
    ∀ before a after, as = before ++ a :: after → C (run step s before) a := by
  constructor
  · rintro h before a after rfl
    exact ((each_append s before (a :: after)).mp h).2.1
  · intro h
    induction as generalizing s with
    | nil => trivial
    | cons a as ih =>
      refine ⟨h [] a as rfl, ih ?_⟩
      rintro before a' after rfl
      exact h (a :: before) a' after rfl

/-- A condition on the action alone is met by every step when every action meets it. -/
theorem each_iff_forall {s : σ} {c : α → Prop} (as : List α) :
    Each step (fun _ a => c a) s as ↔ ∀ a ∈ as, c a := by
  induction as generalizing s with
  | nil => simp
  | cons a as ih => rw [each_cons, ih, List.forall_mem_cons]

/-- What holds along a run holds where it starts. -/
theorem Along.here {s : σ} {as : List α} (h : Along step P R s as) : P s := by
  cases as with
  | nil => exact h
  | cons a as => exact h.1

/-- What holds along a run holds where it ends. -/
theorem Along.last {s : σ} {as : List α} (h : Along step P R s as) : P (run step s as) := by
  induction as generalizing s with
  | nil => exact h
  | cons a as ih => exact ih h.2.2

theorem Along.mono {s : σ} {as : List α} (h : Along step P R s as)
    (hP : ∀ s, P s → Q s) (hR : ∀ s a, P s → R s a (step s a) → T s a (step s a)) :
    Along step Q T s as := by
  induction as generalizing s with
  | nil => exact hP _ h
  | cons a as ih => exact ⟨hP _ h.1, hR _ _ h.1 h.2.1, ih h.2.2⟩

theorem each_and {s : σ} {as : List α} :
    Each step (fun s a => C s a ∧ D s a) s as ↔ Each step C s as ∧ Each step D s as := by
  induction as generalizing s with
  | nil => simp
  | cons a as ih =>
    simp only [each_cons, ih]
    tauto

/-- **The invariant rule.**  An invariant that every step meeting the condition
keeps holds after every run whose steps all meet it. -/
theorem run_invariant (hstep : ∀ s a, I s → C s a → I (step s a)) {s : σ} {as : List α}
    (h0 : I s) (hC : Each step C s as) : I (run step s as) := by
  induction as generalizing s with
  | nil => exact h0
  | cons a as ih => exact ih (hstep s a h0 hC.1) hC.2

/-- The invariant rule for unconditional steps. -/
theorem run_invariant' (hstep : ∀ s a, I s → I (step s a)) {s : σ} (h0 : I s)
    (as : List α) : I (run step s as) := by
  induction as generalizing s with
  | nil => exact h0
  | cons a as ih => exact ih (hstep s a h0)

/-- **The rule of judged runs.**  An invariant that is told, step by step, whether the
condition has been met so far. -/
theorem run_judged {J : σ → Prop → Prop} (hstep : ∀ s a b, J s b → J (step s a) (b ∧ C s a))
    {s : σ} {b : Prop} (h0 : J s b) (as : List α) :
    J (run step s as) (b ∧ Each step C s as) := by
  induction as generalizing s b with
  | nil => simpa using h0
  | cons a as ih => simpa [and_assoc] using ih (hstep s a b h0)

/-- **The rule of conditioned runs.**  Where every step from a state with the
invariant and the condition has the property, the whole run has it. -/
theorem along_of_each (hI : ∀ s a, I s → C s a → I (step s a)) (hP : ∀ s, I s → P s)
    (hR : ∀ s a, I s → C s a → R s a (step s a)) {s : σ} {as : List α} (h0 : I s)
    (hC : Each step C s as) : Along step P R s as := by
  induction as generalizing s with
  | nil => exact hP s h0
  | cons a as ih => exact ⟨hP s h0, hR s a h0 hC.1, ih (hI s a h0 hC.1) hC.2⟩

/-- **The rule of exact conditions.**  If from a state with the invariant and the
property a step keeps the property exactly when it meets the condition, then a run
keeps it throughout exactly when all its steps meet the condition. -/
theorem along_iff_each
    (hI : ∀ s a, I s → P s → C s a → I (step s a))
    (hstep : ∀ s a, I s → P s → ((R s a (step s a) ∧ P (step s a)) ↔ C s a))
    {s : σ} (h0 : I s) (hP : P s) (as : List α) :
    Along step P R s as ↔ Each step C s as := by
  induction as generalizing s with
  | nil => exact iff_of_true hP trivial
  | cons a as ih =>
    constructor
    · rintro ⟨_, hR, hrest⟩
      have hC : C s a := (hstep s a h0 hP).mp ⟨hR, hrest.here⟩
      exact ⟨hC, (ih (hI s a h0 hP hC) hrest.here).mp hrest⟩
    · rintro ⟨hC, hrest⟩
      obtain ⟨hR, hP'⟩ := (hstep s a h0 hP).mpr hC
      exact ⟨hP, hR, (ih (hI s a h0 hP hC) hP').mpr hrest⟩

end Interaction

/-! ## Services that answer calls -/

namespace Interaction

/-- What a service answers to a call in a state, and the state that it goes on to. -/
abbrev Service (σ α β : Type) := σ → α → β × σ

namespace Service

variable {σ τ α β : Type} {f : Service σ α β} {g : Service τ α β} {R : σ → τ → Prop}
  {C : τ → α → Prop}

/-- The next state. -/
def step (f : Service σ α β) (s : σ) (a : α) : σ := (f s a).2

/-- The answers to calls, one after the other. -/
def answers (f : Service σ α β) : σ → List α → List β
  | _, [] => []
  | s, a :: as => (f s a).1 :: answers f (f.step s a) as

@[simp] theorem answers_nil (s : σ) : f.answers s [] = [] := rfl
@[simp] theorem answers_cons (s : σ) (a : α) (as : List α) :
    f.answers s (a :: as) = (f s a).1 :: f.answers (f.step s a) as := rfl

/-- In related states, a call that meets the condition is answered alike, and leaves the states
related. -/
structure Simulates (f : Service σ α β) (g : Service τ α β) (R : σ → τ → Prop)
    (C : τ → α → Prop) : Prop where
  answer : ∀ s t a, R s t → C t a → (f s a).1 = (g t a).1
  related : ∀ s t a, R s t → C t a → R (f.step s a) (g.step t a)

/-- **The rule of simulation**: calls that all meet the condition have the same answers. -/
theorem Simulates.answers_eq (h : Simulates f g R C) {s : σ} {t : τ} (h0 : R s t) {as : List α}
    (hC : Each g.step C t as) : f.answers s as = g.answers t as := by
  induction as generalizing s t with
  | nil => rfl
  | cons a as ih =>
    obtain ⟨ha, has⟩ := hC
    rw [answers_cons, answers_cons, h.answer s t a h0 ha, ih (h.related s t a h0 ha) has]

end Service
end Interaction
