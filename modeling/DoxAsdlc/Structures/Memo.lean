import DoxAsdlc.Interaction.Run
import Mathlib.Data.List.Induction

/-!
# A memo over a source that changes

What is made of a source for a key is made on the first look-up and kept; the source may change
afterwards, and what is kept does not.  A look-up answers with what is made of the source as it
was when the kept value was made, so whether it answers as the present source would is told by the
two sources.

## Main definitions

* `Memo`, `Memo.lookUp` — the source, what is kept, and a look-up.
* `Memo.Event`, `Memo.step` — what happens to them.
* `Memo.Trace`, `Memo.record` — the source that each kept value was made of.

## Main results

* `Memo.traces_run` — the memo keeps what is made of the recorded sources.
-/

/-- A source, and what is kept. -/
structure Memo (σ κ α : Type) where
  source : σ
  kept : κ → Option α

namespace Memo

variable {σ κ ε α : Type}

/-- A memo that keeps nothing. -/
def start (s : σ) : Memo σ κ α := ⟨s, fun _ => none⟩

/-- What happens: the source changes, a key is looked up, and what is kept is forgotten. -/
inductive Event (σ κ : Type) where
  | change (f : σ → σ)
  | lookUp (k : κ)
  | forget (k : κ)
  | clear

/-- The present source, and the one that each kept value was made of. -/
structure Trace (σ κ : Type) where
  source : σ
  madeOf : κ → Option σ

def Trace.start (s : σ) : Trace σ κ := ⟨s, fun _ => none⟩

variable (make : σ → κ → Except ε α)

/-- What is kept under a key is what was made of a source. -/
def MadeOf (k : κ) : Option σ → Option α → Prop
  | none, kept => kept = none
  | some s, kept => ∃ a, make s k = .ok a ∧ kept = some a

/-- What is kept is what was made of the recorded sources. -/
structure Traces (t : Trace σ κ) (m : Memo σ κ α) : Prop where
  source : m.source = t.source
  kept : ∀ k, MadeOf make k (t.madeOf k) (m.kept k)

variable {make} {t : Trace σ κ} {m : Memo σ κ α} {k : κ}

theorem Traces.kept_none (h : Traces make t m) (hk : t.madeOf k = none) : m.kept k = none := by
  have hkept := h.kept k
  rwa [hk] at hkept

theorem Traces.kept_some (h : Traces make t m) {s : σ} (hk : t.madeOf k = some s) :
    ∃ a, make s k = .ok a ∧ m.kept k = some a := by
  have hkept := h.kept k
  rwa [hk] at hkept

theorem traces_start (s : σ) : Traces make (Trace.start s) (start s) := ⟨rfl, fun _ => rfl⟩

variable [DecidableEq κ] (make)

/-- Look a key up. -/
def lookUp (m : Memo σ κ α) (k : κ) : Except ε α × Memo σ κ α :=
  match m.kept k with
  | some a => (.ok a, m)
  | none =>
    match make m.source k with
    | .ok a => (.ok a, { m with kept := Function.update m.kept k (some a) })
    | .error e => (.error e, m)

/-- One event. -/
def step (m : Memo σ κ α) : Event σ κ → Memo σ κ α
  | .change f => { m with source := f m.source }
  | .lookUp k => (m.lookUp make k).2
  | .forget k => { m with kept := Function.update m.kept k none }
  | .clear => { m with kept := fun _ => none }

/-- What is recorded of one event. -/
def record (t : Trace σ κ) : Event σ κ → Trace σ κ
  | .change f => { t with source := f t.source }
  | .lookUp k =>
    match t.madeOf k, make t.source k with
    | none, .ok _ => { t with madeOf := Function.update t.madeOf k (some t.source) }
    | _, _ => t
  | .forget k => { t with madeOf := Function.update t.madeOf k none }
  | .clear => { t with madeOf := fun _ => none }

variable {make}

/-- What one key has changes on both sides. -/
theorem Traces.update (h : Traces make t m) {made : Option σ} {kept : Option α}
    (hk : MadeOf make k made kept) :
    Traces make { t with madeOf := Function.update t.madeOf k made }
      { m with kept := Function.update m.kept k kept } := by
  refine ⟨h.source, ?_⟩
  intro k'
  by_cases hne : k' = k
  · subst hne
    simpa using hk
  · simpa [hne] using h.kept k'

/-- **One event** keeps the trace. -/
theorem Traces.step (h : Traces make t m) (e : Event σ κ) :
    Traces make (record make t e) (m.step make e) := by
  cases e with
  | change f => exact ⟨congrArg f h.source, h.kept⟩
  | forget k => exact h.update rfl
  | clear => exact ⟨h.source, fun _ => rfl⟩
  | lookUp k =>
    cases hmade : t.madeOf k with
    | some s =>
      obtain ⟨a, -, hkept⟩ := h.kept_some hmade
      simpa [record, Memo.step, lookUp, hmade, hkept] using h
    | none =>
      have hkept := h.kept_none hmade
      cases hmake : make t.source k with
      | error e => simpa [record, Memo.step, lookUp, hmade, hkept, hmake, h.source] using h
      | ok a =>
        have hmadeOf : MadeOf make k (some t.source) (some a) := ⟨a, hmake, rfl⟩
        simpa [record, Memo.step, lookUp, hmade, hkept, hmake, h.source] using h.update hmadeOf

/-- **The memo keeps what is made of the recorded sources** in every run. -/
theorem traces_run (s : σ) (events : List (Event σ κ)) :
    Traces make (Interaction.run (record make) (Trace.start s) events)
      (Interaction.run (Memo.step make) (start s) events) := by
  induction events using List.reverseRecOn with
  | nil => exact traces_start s
  | append_singleton events e ih =>
    rw [Interaction.run_append, Interaction.run_append]
    exact ih.step e

/-- What a look-up answers: what is made of the recorded source, and else of the present one. -/
theorem Traces.answer (h : Traces make t m) (k : κ) :
    (m.lookUp make k).1 = make ((t.madeOf k).getD t.source) k := by
  cases hmade : t.madeOf k with
  | some s =>
    obtain ⟨a, hmake, hkept⟩ := h.kept_some hmade
    simp [lookUp, hkept, hmake]
  | none =>
    have hkept := h.kept_none hmade
    cases hmake : make t.source k <;> simp [lookUp, hkept, hmake, h.source]

end Memo
