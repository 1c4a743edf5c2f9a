import DoxAsdlc.Interaction.Contract

/-!
# Two servers side by side

Clients of one server are clients of two: the other one is left alone.

## Main definitions

* `Interface.sum`, `Server.sum` — the commands of either server, on both states.
* `Program.inl`, `Program.inr` — a client of one of them.
-/

namespace Interaction

/-- The commands of either interface. -/
abbrev Interface.sum (I J : Interface) : Interface := ⟨I.Cmd ⊕ J.Cmd, Sum.elim I.Reply J.Reply⟩

/-- Each command goes to its own server. -/
def Server.sum {I J : Interface} {σ τ : Type} (srv : Server I σ) (srv' : Server J τ) :
    Server (I.sum J) (σ × τ)
  | .inl c, s => (((srv c s.1).1, s.2), (srv c s.1).2)
  | .inr c, s => ((s.1, (srv' c s.2).1), (srv' c s.2).2)

section

variable {I J : Interface} {σ τ : Type} (srv : Server I σ) (srv' : Server J τ) (s : σ × τ)

@[simp] theorem Server.sum_inl (c : I.Cmd) :
    srv.sum srv' (.inl c) s = (((srv c s.1).1, s.2), (srv c s.1).2) := rfl

@[simp] theorem Server.sum_inr (c : J.Cmd) :
    srv.sum srv' (.inr c) s = ((s.1, (srv' c s.2).1), (srv' c s.2).2) := rfl

end

namespace Program

variable {I J : Interface} {σ τ ε α β : Type}

/-- A client of the first server. -/
def inl : Program I ε α → Program (I.sum J) ε α
  | .ret a => .ret a
  | .raise e => .raise e
  | .call c k => .call (.inl c) fun r => inl (k r)

/-- A client of the second server. -/
def inr : Program J ε α → Program (I.sum J) ε α
  | .ret a => .ret a
  | .raise e => .raise e
  | .call c k => .call (.inr c) fun r => inr (k r)

@[simp] theorem inl_ret (a : α) : (ret a : Program I ε α).inl = (.ret a : Program (I.sum J) ε α) :=
  rfl
@[simp] theorem inl_raise (e : ε) :
    (raise e : Program I ε α).inl = (.raise e : Program (I.sum J) ε α) := rfl
@[simp] theorem inr_ret (a : α) : (ret a : Program J ε α).inr = (.ret a : Program (I.sum J) ε α) :=
  rfl
@[simp] theorem inr_raise (e : ε) :
    (raise e : Program J ε α).inr = (.raise e : Program (I.sum J) ε α) := rfl

/-! ## Contracts -/

section

variable {A : (c : (I.sum J).Cmd) → Except ε ((I.sum J).Reply c) → Prop}
  {U : (I.sum J).Cmd → Prop} {Q : α → Prop}

theorem meets_inl {p : Program I ε α}
    (hp : p.Meets (fun c r => A (.inl c) r) (fun c => U (.inl c)) Q) :
    (p.inl : Program (I.sum J) ε α).Meets A U Q := by
  induction p with
  | ret a => exact hp
  | raise e => trivial
  | call c k ih => exact ⟨hp.1, fun r hr => ih r (hp.2 r hr)⟩

theorem meets_inr {p : Program J ε α}
    (hp : p.Meets (fun c r => A (.inr c) r) (fun c => U (.inr c)) Q) :
    (p.inr : Program (I.sum J) ε α).Meets A U Q := by
  induction p with
  | ret a => exact hp
  | raise e => trivial
  | call c k ih => exact ⟨hp.1, fun r hr => ih r (hp.2 r hr)⟩

/-- What the commands of the second server all satisfy. -/
theorem uses_inr {p : Program J ε α} (hU : ∀ c, U (.inr c)) :
    (p.inr : Program (I.sum J) ε α).Uses U := by
  induction p with
  | ret a => trivial
  | raise e => trivial
  | call c k ih => exact ⟨hU c, ih⟩

end

/-! ## Evaluation -/

section

variable (srv : Server I σ) (srv' : Server J τ)

theorem eval_inl (p : Program I ε α) (s : σ × τ) :
    (p.inl : Program (I.sum J) ε α).eval (srv.sum srv') s
      = ((p.eval srv s.1).1, ((p.eval srv s.1).2, s.2)) := by
  induction p generalizing s with
  | ret a => rfl
  | raise e => rfl
  | call c k ih => exact ih _ _

theorem eval_inr (p : Program J ε α) (s : σ × τ) :
    (p.inr : Program (I.sum J) ε α).eval (srv.sum srv') s
      = ((p.eval srv' s.2).1, (s.1, (p.eval srv' s.2).2)) := by
  induction p generalizing s with
  | ret a => rfl
  | raise e => rfl
  | call c k ih => exact ih _ _

end

end Program
end Interaction
