import DoxAsdlc.Interaction.Program

/-!
# Environments that answer or refuse

A responder decides by its own state how it answers a command, an exception included.
Against a responder a program comes to one result, and what it asked and was told on the
way is the list `seen`.

## Main definitions

* `Responder`, `Seen` — an environment, and one command with what came back.
* `Program.exec` — the run of a program against a responder.
* `Program.forget` — a program with its result left out.
* `Program.Guarded` — every command is allowed by what was seen before it.
-/

namespace Interaction

/-- An environment that answers each command, or raises, by its state. -/
abbrev Responder (I : Interface) (ε σ : Type) :=
  (c : I.Cmd) → σ → σ × Except ε (I.Reply c)

/-- A command and what came back. -/
abbrev Seen (I : Interface) (ε : Type) := (c : I.Cmd) × Except ε (I.Reply c)

/-- What a program came to. -/
structure Execution (I : Interface) (ε σ α : Type) where
  result : Except ε α
  state : σ
  seen : List (Seen I ε)

namespace Program

variable {I : Interface} {ε σ α β : Type}

/-- Run to the end against a responder. -/
def exec (env : Responder I ε σ) : Program I ε α → σ → Execution I ε σ α
  | .ret a, s => ⟨.ok a, s, []⟩
  | .raise e, s => ⟨.error e, s, []⟩
  | .call c k, s =>
    let rest := exec env (k (env c s).2) (env c s).1
    ⟨rest.result, rest.state, ⟨c, (env c s).2⟩ :: rest.seen⟩

@[simp] theorem exec_ret (env : Responder I ε σ) (a : α) (s : σ) :
    exec env (.ret a : Program I ε α) s = ⟨.ok a, s, []⟩ := rfl
@[simp] theorem exec_raise (env : Responder I ε σ) (e : ε) (s : σ) :
    exec env (.raise e : Program I ε α) s = ⟨.error e, s, []⟩ := rfl
@[simp] theorem exec_call (env : Responder I ε σ) (c : I.Cmd)
    (k : Except ε (I.Reply c) → Program I ε α) (s : σ) :
    exec env (.call c k) s
      = ⟨(exec env (k (env c s).2) (env c s).1).result,
          (exec env (k (env c s).2) (env c s).1).state,
          ⟨c, (env c s).2⟩ :: (exec env (k (env c s).2) (env c s).1).seen⟩ := rfl

/-- What comes after the first part of a program. -/
def follow (env : Responder I ε σ) (f : α → Program I ε β) (h : ε → Program I ε β)
    (first : Execution I ε σ α) : Execution I ε σ β :=
  match first.result with
  | .ok a => exec env (f a) first.state
  | .error e => exec env (h e) first.state

/-- A program followed by either of two continuations. -/
theorem exec_elim (env : Responder I ε σ) (p : Program I ε α) (f : α → Program I ε β)
    (h : ε → Program I ε β) (s : σ) :
    exec env (p.elim f h) s
      = ⟨(follow env f h (exec env p s)).result, (follow env f h (exec env p s)).state,
          (exec env p s).seen ++ (follow env f h (exec env p s)).seen⟩ := by
  induction p generalizing s with
  | ret a => rfl
  | raise e => rfl
  | call c k ih =>
    rw [elim_call, exec_call, ih]
    rfl

theorem exec_elim_ok {env : Responder I ε σ} {p : Program I ε α} {s : σ} {a : α}
    (hp : (exec env p s).result = .ok a) (f : α → Program I ε β) (h : ε → Program I ε β) :
    exec env (p.elim f h) s
      = ⟨(exec env (f a) (exec env p s).state).result, (exec env (f a) (exec env p s).state).state,
          (exec env p s).seen ++ (exec env (f a) (exec env p s).state).seen⟩ := by
  rw [exec_elim, follow, hp]

theorem exec_elim_error {env : Responder I ε σ} {p : Program I ε α} {s : σ} {e : ε}
    (hp : (exec env p s).result = .error e) (f : α → Program I ε β) (h : ε → Program I ε β) :
    exec env (p.elim f h) s
      = ⟨(exec env (h e) (exec env p s).state).result, (exec env (h e) (exec env p s).state).state,
          (exec env p s).seen ++ (exec env (h e) (exec env p s).state).seen⟩ := by
  rw [exec_elim, follow, hp]

/-- Continuations without commands ask nothing. -/
theorem seen_elim_finished (env : Responder I ε σ) (p : Program I ε α) {f : α → Program I ε β}
    {h : ε → Program I ε β} (s : σ) (hf : ∀ a, (f a).finished = true)
    (hh : ∀ e, (h e).finished = true) :
    (exec env (p.elim f h) s).seen = (exec env p s).seen := by
  have hnone {q : Program I ε β} (hq : q.finished = true) (s : σ) : (exec env q s).seen = [] := by
    cases q with
    | ret a => rfl
    | raise e => rfl
    | call c k => cases hq
  rw [exec_elim, follow]
  split
  · simp [hnone (hf _)]
  · simp [hnone (hh _)]

/-- What a program asks is among the commands it uses. -/
theorem Uses.exec {A : I.Cmd → Prop} {p : Program I ε α} (hp : Uses A p) (env : Responder I ε σ)
    (s : σ) {x : Seen I ε} (hx : x ∈ (Program.exec env p s).seen) : A x.1 := by
  induction p generalizing s with
  | ret a => cases hx
  | raise e => cases hx
  | call c k ih =>
    rcases List.mem_cons.mp hx with rfl | hx
    · exact hp.1
    · exact ih _ (hp.2 _) _ hx

/-- Only the commands that a program uses matter to its run. -/
theorem Uses.exec_congr {A : I.Cmd → Prop} {p : Program I ε α} (hp : Uses A p)
    {env env' : Responder I ε σ} (h : ∀ c s, A c → env c s = env' c s) (s : σ) :
    Program.exec env p s = Program.exec env' p s := by
  induction p generalizing s with
  | ret a => rfl
  | raise e => rfl
  | call c k ih => rw [exec_call, exec_call, h c s hp.1, ih _ (hp.2 _)]

/-- The program with its result left out. -/
def forget (p : Program I ε α) : Program I ε Unit := p.elim (fun _ => .ret ()) fun _ => .ret ()

/-- A program does what it does whatever becomes of its result. -/
theorem exec_forget (env : Responder I ε σ) (p : Program I ε α) (s : σ) :
    (exec env p.forget s).state = (exec env p s).state ∧
      (exec env p.forget s).seen = (exec env p s).seen := by
  rw [forget, exec_elim]
  cases hp : (exec env p s).result with
  | ok a => simp [follow, hp]
  | error e => simp [follow, hp]

/-- Every command is issued when what was seen before allows it. -/
def Guarded (A : List (Seen I ε) → I.Cmd → Prop) : Program I ε α → List (Seen I ε) → Prop
  | .ret _, _ | .raise _, _ => True
  | .call c k, h => A h c ∧ ∀ r, Guarded A (k r) (h ++ [⟨c, r⟩])

variable {A : List (Seen I ε) → I.Cmd → Prop}

theorem guarded_ret (a : α) (h : List (Seen I ε)) : (.ret a : Program I ε α).Guarded A h := trivial
theorem guarded_raise (e : ε) (h : List (Seen I ε)) :
    (.raise e : Program I ε α).Guarded A h := trivial

theorem guarded_answer (r : Except ε α) (h : List (Seen I ε)) :
    (answer r : Program I ε α).Guarded A h := by
  cases r <;> trivial

/-- The rule for a program followed by either of two continuations. -/
theorem guarded_elim {p : Program I ε α} {f : α → Program I ε β} {g : ε → Program I ε β}
    {h : List (Seen I ε)} (hp : p.Guarded A h) (hf : ∀ a l, (f a).Guarded A (h ++ l))
    (hg : ∀ e l, (g e).Guarded A (h ++ l)) : (p.elim f g).Guarded A h := by
  induction p generalizing h with
  | ret a => simpa using hf a []
  | raise e => simpa using hg e []
  | call c k ih =>
    refine ⟨hp.1, fun r => ih r (hp.2 r) ?_ ?_⟩
    · intro a l
      rw [List.append_assoc]
      exact hf a _
    · intro e l
      rw [List.append_assoc]
      exact hg e _

theorem guarded_bind {p : Program I ε α} {f : α → Program I ε β} {h : List (Seen I ε)}
    (hp : p.Guarded A h) (hf : ∀ a l, (f a).Guarded A (h ++ l)) : (p >>= f).Guarded A h :=
  guarded_elim hp hf fun e l => guarded_raise e (h ++ l)

theorem guarded_forget {p : Program I ε α} {h : List (Seen I ε)} :
    p.forget.Guarded A h ↔ p.Guarded A h := by
  induction p generalizing h with
  | ret a => exact Iff.rfl
  | raise e => exact Iff.rfl
  | call c k ih => exact and_congr_right fun _ => forall_congr' fun r => ih r

/-- Against every responder, what was seen before a command allows it. -/
theorem Guarded.exec {p : Program I ε α} {h : List (Seen I ε)} (hp : p.Guarded A h)
    (env : Responder I ε σ) (s : σ) {before after : List (Seen I ε)} {x : Seen I ε}
    (hseen : (Program.exec env p s).seen = before ++ x :: after) : A (h ++ before) x.1 := by
  induction p generalizing h s before with
  | ret a => simp at hseen
  | raise e => simp at hseen
  | call c k ih =>
    rw [exec_call] at hseen
    cases before with
    | nil =>
      injection hseen with hfirst _
      subst hfirst
      simpa using hp.1
    | cons first before =>
      injection hseen with hfirst hrest
      subst hfirst
      have hlater := ih _ (hp.2 _) _ hrest
      rwa [List.append_assoc] at hlater

end Program
end Interaction
