import DoxAsdlc.Interaction.Pool

/-!
# Contracts without a past

What a client may issue and return, as long as it is answered as the contract allows.  The
contract looks at one command and one answer at a time; one that depends on what went before
is `Obeys`.

## Main definitions

* `Program.Meets` — the contract of a client, with the rules of its composition.
* `Config.Meeting` — every client of a pool keeps its contract.
-/

namespace Interaction

namespace Program

variable {I : Interface} {ε α β : Type}

/-- For all answers that `A` allows, `U` holds of every command and `Q` of the result. -/
def Meets (A : (c : I.Cmd) → Except ε (I.Reply c) → Prop) (U : I.Cmd → Prop) (Q : α → Prop) :
    Program I ε α → Prop
  | .ret a => Q a
  | .raise _ => True
  | .call c k => U c ∧ ∀ r, A c r → Meets A U Q (k r)

variable {A A' : (c : I.Cmd) → Except ε (I.Reply c) → Prop} {U U' : I.Cmd → Prop}
  {Q Q' : α → Prop} {R : β → Prop}

@[simp] theorem meets_ret (a : α) : (.ret a : Program I ε α).Meets A U Q ↔ Q a := Iff.rfl
@[simp] theorem meets_raise (e : ε) : (.raise e : Program I ε α).Meets A U Q := trivial
@[simp] theorem meets_call (c : I.Cmd) (k : Except ε (I.Reply c) → Program I ε α) :
    (Program.call c k).Meets A U Q ↔ U c ∧ ∀ r, A c r → (k r).Meets A U Q := Iff.rfl

theorem meets_answer {r : Except ε α} (h : ∀ a, r = .ok a → Q a) :
    (answer r : Program I ε α).Meets A U Q := by
  cases r with
  | ok a => exact h a rfl
  | error e => trivial

theorem meets_command {c : I.Cmd} {Q : I.Reply c → Prop} (hc : U c)
    (h : ∀ a, A c (.ok a) → Q a) : (command c : Program I ε (I.Reply c)).Meets A U Q := by
  refine ⟨hc, ?_⟩
  intro r hr
  exact meets_answer fun a ha => h a (ha ▸ hr)

/-- A contract that asks for nothing. -/
theorem meets_trivial {p : Program I ε α} (hU : ∀ c, U c) (hQ : ∀ a, Q a) : p.Meets A U Q := by
  induction p with
  | ret a => exact hQ a
  | raise e => trivial
  | call c k ih => exact ⟨hU c, fun r _ => ih r⟩

/-- The rule for a program followed by either of two continuations. -/
theorem meets_elim {p : Program I ε α} {f : α → Program I ε β} {g : ε → Program I ε β}
    (hp : p.Meets A U Q) (hf : ∀ a, Q a → (f a).Meets A U R) (hg : ∀ e, (g e).Meets A U R) :
    (p.elim f g).Meets A U R := by
  induction p with
  | ret a => exact hf a hp
  | raise e => exact hg e
  | call c k ih => exact ⟨hp.1, fun r hr => ih r (hp.2 r hr)⟩

/-- The rule of sequencing. -/
theorem meets_bind {p : Program I ε α} {f : α → Program I ε β} (hp : p.Meets A U Q)
    (hf : ∀ a, Q a → (f a).Meets A U R) : (p >>= f).Meets A U R :=
  meets_elim hp hf fun _ => trivial

/-- The rule of handled exceptions. -/
theorem meets_tryCatch {p : Program I ε α} {h : ε → Program I ε α} (hp : p.Meets A U Q)
    (hh : ∀ e, (h e).Meets A U Q) : (MonadExcept.tryCatch p h).Meets A U Q :=
  meets_elim hp (fun _ ha => ha) hh

theorem meets_map {p : Program I ε α} {f : α → β} (hp : p.Meets A U Q)
    (hf : ∀ a, Q a → R (f a)) : (f <$> p).Meets A U R :=
  meets_elim hp hf fun _ => trivial

/-- A contract may ask for less, of an environment that may do less. -/
theorem Meets.mono {p : Program I ε α} (hp : p.Meets A U Q) (hA : ∀ c r, A' c r → A c r)
    (hU : ∀ c, U c → U' c) (hQ : ∀ a, Q a → Q' a) : p.Meets A' U' Q' := by
  induction p with
  | ret a => exact hQ a hp
  | raise e => trivial
  | call c k ih => exact ⟨hU c hp.1, fun r hr => ih r (hp.2 r (hA c r hr))⟩

end Program

namespace Config

variable {I : Interface} {σ ε α ι E : Type}

/-- Every client is keeping its contract. -/
def Meeting (A : (c : I.Cmd) → Except ε (I.Reply c) → Prop) (U : I.Cmd → Prop)
    (Q : ι → α → Prop) (cfg : Config I σ ε α ι) : Prop :=
  ∀ j, (cfg.threads j).Meets A U (Q j)

variable {A : (c : I.Cmd) → Except ε (I.Reply c) → Prop} {U : I.Cmd → Prop}
  {Q : ι → α → Prop} {cfg : Config I σ ε α ι}

/-- The next command of a client is one that the contract allows. -/
theorem Meeting.next (h : cfg.Meeting A U Q) {j : ι} {c : I.Cmd} (hc : cfg.next? j = some c) :
    U c := by
  have hj := h j
  cases hp : cfg.threads j with
  | call c' k =>
    rw [hp] at hj
    cases hs : cfg.stopped j with
    | true => simp [next?, hs] at hc
    | false =>
      have : c' = c := by simpa [next?, hs, hp] using hc
      exact this ▸ hj.1
  | ret a => simp [next?, hp] at hc
  | raise e => simp [next?, hp] at hc

variable [DecidableEq ι]

/-- No step makes a client break its contract, where the server answers as it allows. -/
theorem Meeting.step (h : cfg.Meeting A U Q) (srv : Server I σ) (env : E → σ → σ)
    (a : Action ι ε E) (hA : ∀ o c, A c (srv.perform o c cfg.store).2) :
    (cfg.step srv env a).Meeting A U Q := by
  obtain ⟨j, o, c, k, rfl, -, hp, -, he⟩ | ⟨j, o, rfl, -, he⟩ | ⟨j, rfl, he⟩ | ⟨e, rfl, he⟩ :=
    step_cases srv env cfg a
  · rw [he]
    intro i
    by_cases hi : i = j
    · subst hi
      have hj := h i
      rw [hp] at hj
      simpa [Config.exchange] using hj.2 _ (hA o c)
    · simpa [Config.exchange, hi] using h i
  · rw [he]; exact h
  · rw [he]; exact h
  · rw [he]; exact h

/-- A step keeps what every command of the contract keeps. -/
theorem Meeting.store_step {S : σ → Prop} (h : cfg.Meeting A U Q) (hS : S cfg.store)
    {srv : Server I σ} {env : E → σ → σ} (hsrv : ∀ c s, U c → S s → S (srv c s).1)
    (henv : ∀ e s, S s → S (env e s)) (a : Action ι ε E) : S (cfg.step srv env a).store := by
  obtain ⟨j, o, c, -, -, hc, hstore⟩ | ⟨e, -, hstore⟩ | hstore := step_store srv env cfg a
  · exact hstore ▸ hsrv c cfg.store (h.next hc) hS
  · exact hstore ▸ henv e cfg.store hS
  · exact hstore ▸ hS

end Config
end Interaction
