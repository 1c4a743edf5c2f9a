import DoxAsdlc.Interaction.Sum

/-!
# Clients without handlers

A client that catches nothing is ended by the first exception.  If it returns at all, then every
command of it was answered, and the result and the state are those of its evaluation.

## Main definitions

* `Program.Straight` — every exception ends the client.
-/

namespace Interaction.Program

variable {I J : Interface} {σ ε α β : Type}

/-- Every exception ends the client. -/
def Straight : Program I ε α → Prop
  | .ret _ | .raise _ => True
  | .call _ k => (∀ e, k (.error e) = .raise e) ∧ ∀ a, Straight (k (.ok a))

theorem straight_ret (a : α) : (ret a : Program I ε α).Straight := trivial

theorem straight_answer (r : Except ε α) : (answer r : Program I ε α).Straight := by
  cases r <;> trivial

theorem straight_command (c : I.Cmd) : (command c : Program I ε (I.Reply c)).Straight :=
  ⟨fun _ => rfl, fun a => straight_ret a⟩

theorem straight_bind {p : Program I ε α} {f : α → Program I ε β} (hp : p.Straight)
    (hf : ∀ a, (f a).Straight) : (p >>= f).Straight := by
  induction p with
  | ret a => exact hf a
  | raise e => trivial
  | call c k ih =>
    exact ⟨fun e => congrArg (elim f raise) (hp.1 e), fun a => ih (.ok a) (hp.2 a)⟩

theorem straight_inl {p : Program I ε α} (hp : p.Straight) :
    (p.inl : Program (I.sum J) ε α).Straight := by
  induction p with
  | ret a => trivial
  | raise e => trivial
  | call c k ih => exact ⟨fun e => congrArg inl (hp.1 e), fun a => ih (.ok a) (hp.2 a)⟩

theorem straight_inr {p : Program J ε α} (hp : p.Straight) :
    (p.inr : Program (I.sum J) ε α).Straight := by
  induction p with
  | ret a => trivial
  | raise e => trivial
  | call c k ih => exact ⟨fun e => congrArg inr (hp.1 e), fun a => ih (.ok a) (hp.2 a)⟩

/-- Carried out by such clients, such a client is one. -/
theorem straight_translate {f : (c : I.Cmd) → Program J ε (I.Reply c)} {p : Program I ε α}
    (hp : p.Straight) (hf : ∀ c, (f c).Straight) : (p.translate f).Straight := by
  induction p with
  | ret a => trivial
  | raise e => trivial
  | call c k ih =>
    have hcatch : (fun e => (k (.error e)).translate f) = raise := by
      funext e
      rw [hp.1 e, translate_raise]
    rw [translate_call, hcatch]
    exact straight_bind (hf c) fun a => ih (.ok a) (hp.2 a)

/-- What a client comes to is also what it comes to when every command is answered. -/
theorem exists_play (srv : Server I σ) (p : Program I ε α) (s : σ) :
    ∃ os, play srv os p s = (answer (eval srv p s).1, (eval srv p s).2) := by
  induction p generalizing s with
  | ret a => exact ⟨[], rfl⟩
  | raise e => exact ⟨[], rfl⟩
  | call c k ih =>
    obtain ⟨os, hos⟩ := ih (.ok (srv c s).2) (srv c s).1
    exact ⟨.ok :: os, hos⟩

/-- **A client that catches nothing** returns what it evaluates to, or not at all. -/
theorem Straight.play_eq_ret {p : Program I ε α} (hp : p.Straight) {srv : Server I σ} {s s' : σ}
    {a : α} : (∃ os, play srv os p s = (.ret a, s')) ↔ eval srv p s = (.ok a, s') := by
  constructor
  · intro ⟨os, hos⟩
    induction os generalizing p s with
    | nil =>
      rw [play_nil] at hos
      cases hos
      rfl
    | cons o os ih =>
      cases p with
      | ret b =>
        cases hos
        rfl
      | raise e => cases hos
      | call c k =>
        cases o with
        | ok => exact ih (hp.2 _) hos
        | refused e => simp [hp.1 e] at hos
        | lost e => simp [hp.1 e] at hos
  · intro h
    obtain ⟨os, hos⟩ := exists_play srv p s
    exact ⟨os, by rw [hos, h]; rfl⟩

end Interaction.Program
