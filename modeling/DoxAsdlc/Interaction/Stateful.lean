import Mathlib.Tactic.Common

/-!
# Sequential code with state and exceptions

Code that runs without interruption is a function of the state.  It comes to a result or to
an exception, and what it has done to the state until then stays done.

## Main definitions

* `Act` — such code, with `bind`, `throw` and `tryCatch`.
* `Act.read`, `Act.update` — the state is read, and changed.
* `Act.Leads`, `Act.Keeps` — what holds before and after, whatever the code comes to.
* `Act.Meets` — what holds after a result, and after an exception.
-/

namespace Interaction

/-- Code over a state of type `σ`, with exceptions of type `ε`. -/
def Act (σ ε α : Type) := σ → Except ε α × σ

namespace Act

variable {σ τ ε α β : Type}

/-- Go on with one of two continuations. -/
def elim (x : Act σ ε α) (onRet : α → Act σ ε β) (onRaise : ε → Act σ ε β) : Act σ ε β :=
  fun s => match x s with
    | (.ok a, s') => onRet a s'
    | (.error e, s') => onRaise e s'

def ret (a : α) : Act σ ε α := fun s => (.ok a, s)

def raise (e : ε) : Act σ ε α := fun s => (.error e, s)

instance : Monad (Act σ ε) where
  pure := ret
  bind x f := x.elim f raise

instance : MonadExceptOf ε (Act σ ε) where
  throw := raise
  tryCatch x h := x.elim ret h

/-- A reading of the state. -/
def read (f : σ → α) : Act σ ε α := fun s => (.ok (f s), s)

/-- A change of the state. -/
def update (f : σ → σ) : Act σ ε Unit := fun s => (.ok (), f s)

/-- A result or an exception that is already there. -/
def answer (r : Except ε α) : Act σ ε α := fun s => (r, s)

/-- Code on the second component of the state. -/
def onSnd (x : Act σ ε α) : Act (τ × σ) ε α := fun s => ((x s.2).1, (s.1, (x s.2).2))

@[simp] theorem ret_apply (a : α) (s : σ) : (ret a : Act σ ε α) s = (.ok a, s) := rfl
@[simp] theorem raise_apply (e : ε) (s : σ) : (raise e : Act σ ε α) s = (.error e, s) := rfl
@[simp] theorem read_apply (f : σ → α) (s : σ) : (read f : Act σ ε α) s = (.ok (f s), s) := rfl
@[simp] theorem update_apply (f : σ → σ) (s : σ) : (update f : Act σ ε Unit) s = (.ok (), f s) :=
  rfl
@[simp] theorem answer_apply (r : Except ε α) (s : σ) : (answer r : Act σ ε α) s = (r, s) := rfl
@[simp] theorem pure_apply (a : α) (s : σ) : (pure a : Act σ ε α) s = (.ok a, s) := rfl
@[simp] theorem throw_apply (e : ε) (s : σ) : (throw e : Act σ ε α) s = (.error e, s) := rfl

@[simp] theorem bind_apply (x : Act σ ε α) (f : α → Act σ ε β) (s : σ) :
    (x >>= f) s = match x s with
      | (.ok a, s') => f a s'
      | (.error e, s') => (.error e, s') := rfl

@[simp] theorem tryCatch_apply (x : Act σ ε α) (h : ε → Act σ ε α) (s : σ) :
    (tryCatch x h) s = match x s with
      | (.ok a, s') => (.ok a, s')
      | (.error e, s') => h e s' := rfl

/-! ## Assertions on the state -/

/-- From a state with `P` the code leads to one with `Q`, whatever it comes to. -/
def Leads (P Q : σ → Prop) (x : Act σ ε α) : Prop := ∀ s, P s → Q (x s).2

/-- What holds of the state before holds after. -/
abbrev Keeps (P : σ → Prop) (x : Act σ ε α) : Prop := Leads P P x

variable {P Q R : σ → Prop} {x : Act σ ε α}

theorem keeps_ret (a : α) : Keeps P (ret a : Act σ ε α) := fun _ hs => hs

theorem keeps_raise (e : ε) : Keeps P (raise e : Act σ ε α) := fun _ hs => hs

theorem keeps_read (f : σ → α) : Keeps P (read f : Act σ ε α) := fun _ hs => hs

theorem keeps_answer (r : Except ε α) : Keeps P (answer r : Act σ ε α) := fun _ hs => hs

theorem leads_update {f : σ → σ} (hf : ∀ s, P s → Q (f s)) :
    Leads P Q (update f : Act σ ε Unit) := hf

/-- The rule for code followed by either of two continuations. -/
theorem leads_elim {f : α → Act σ ε β} {h : ε → Act σ ε β} (hx : Leads P Q x)
    (hf : ∀ a, Leads Q R (f a)) (hh : ∀ e, Leads Q R (h e)) : Leads P R (x.elim f h) := by
  intro s hs
  have hx' := hx s hs
  rw [elim]
  rcases hr : x s with ⟨_ | _, s'⟩
  · rw [hr] at hx'
    exact hh _ s' hx'
  · rw [hr] at hx'
    exact hf _ s' hx'

/-- The rule of sequencing. -/
theorem leads_bind {f : α → Act σ ε β} (hx : Leads P Q x) (hf : ∀ a, Leads Q R (f a))
    (hQ : ∀ s, Q s → R s) : Leads P R (x >>= f) :=
  leads_elim hx hf fun _ => hQ

/-- The rule of sequencing, for an invariant. -/
theorem keeps_bind {f : α → Act σ ε β} (hx : Keeps P x) (hf : ∀ a, Keeps P (f a)) :
    Keeps P (x >>= f) := leads_bind hx hf fun _ hs => hs

theorem keeps_tryCatch {h : ε → Act σ ε α} (hx : Keeps P x) (hh : ∀ e, Keeps P (h e)) :
    Keeps P (tryCatch x h) := leads_elim hx keeps_ret hh

/-- From a state with `P` the code comes to a result with `Q`, or to an exception with `E`. -/
def Meets (P : σ → Prop) (x : Act σ ε α) (Q : α → σ → Prop) (E : ε → σ → Prop) : Prop :=
  ∀ s, P s → match x s with
    | (.ok a, s') => Q a s'
    | (.error e, s') => E e s'

theorem Leads.meets (h : Leads P Q x) : Meets P x (fun _ => Q) fun _ => Q := by
  intro s hs
  have hx := h s hs
  rcases hr : x s with ⟨_ | _, s'⟩
  · rw [hr] at hx
    exact hx
  · rw [hr] at hx
    exact hx

/-- The rule of consequence, for exceptions. -/
theorem Meets.weaken {Q : α → σ → Prop} {E E' : ε → σ → Prop} (h : Meets P x Q E)
    (hE : ∀ e s, E e s → E' e s) : Meets P x Q E' := by
  intro s hs
  have hx := h s hs
  rcases hr : x s with ⟨_ | _, s'⟩
  · rw [hr] at hx
    exact hE _ _ hx
  · rw [hr] at hx
    exact hx

theorem meets_ret {Q : α → σ → Prop} {E : ε → σ → Prop} {a : α} (h : ∀ s, P s → Q a s) :
    Meets P (ret a) Q E := h

theorem meets_raise {Q : α → σ → Prop} {E : ε → σ → Prop} {e : ε} (h : ∀ s, P s → E e s) :
    Meets P (raise e) Q E := h

/-- The rule of sequencing, with what each exception leaves behind. -/
theorem meets_bind {f : α → Act σ ε β} {Q : α → σ → Prop} {R : β → σ → Prop}
    {E : ε → σ → Prop} (hx : Meets P x Q E) (hf : ∀ a, Meets (Q a) (f a) R E) :
    Meets P (x >>= f) R E := by
  intro s hs
  have hx' := hx s hs
  rw [bind_apply]
  rcases hr : x s with ⟨_ | _, s'⟩
  · rw [hr] at hx'
    exact hx'
  · rw [hr] at hx'
    exact hf _ s' hx'

theorem leads_onSnd (hx : Leads P Q x) :
    Leads (fun s : τ × σ => P s.2) (fun s => Q s.2) (onSnd (τ := τ) x) :=
  fun s hs => hx s.2 hs

end Act
end Interaction
