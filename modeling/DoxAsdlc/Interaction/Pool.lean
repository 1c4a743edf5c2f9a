import DoxAsdlc.Interaction.Program
import DoxAsdlc.Interaction.Run
import Mathlib.Algebra.BigOperators.Group.Finset.Basic
import Mathlib.Data.Fintype.Basic

/-!
# Interleaved clients

A pool is a family of clients of one server, of any number, run in any order one
command at a time.  A client may also be stopped for good between two of its
commands, and the environment may change the store by itself (a key expires).  A
client that is merely never scheduled again has crashed as far as the store can
tell, so stopping is only needed where a statement has to name it.

Every client carries the list of its exchanges with the server.  What a client may
ever do is a property of its program alone, and `Program.Obeys` is the logic for it:
an assertion on the history that holds at every point, for all exchanges the
environment is assumed to allow.  What the clients do together is counted by
`Config.total`, a sum over all histories that every step increases by the weight of
the one exchange it makes.

## Main definitions

* `Exchange`, `Program.Obeys` — histories of one client, and its local contract.
* `Config`, `Action`, `Config.step` — the pool and its steps.
* `Config.turn` — the step of a pool without faults.
* `Config.Obeying` — every client keeps its contract, an invariant of every run.
* `Tracker`, `Config.Follows` — a machine that says where a client stands.
* `Config.total` — what all clients together have done.
-/

namespace Interaction

/-- A command a client issued, what it saw, and whether the server acted on it. -/
structure Exchange (I : Interface) (ε : Type) where
  cmd : I.Cmd
  reply : Except ε (I.Reply cmd)
  effective : Bool

/-- An answer that came back belongs to a command that took effect. -/
def Exchange.Sound {I : Interface} {ε : Type} (x : Exchange I ε) : Prop :=
  ∀ a, x.reply = .ok a → x.effective = true

/-- The command was answered. -/
def Exchange.Answered {I : Interface} {ε : Type} (x : Exchange I ε) : Prop :=
  x.effective = true ∧ ∃ a, x.reply = .ok a

/-- The command was answered, by an answer that satisfies `B`. -/
def Exchange.AnsweredWith {I : Interface} {ε : Type} (B : Exchange I ε → Prop)
    (x : Exchange I ε) : Prop :=
  x.Answered ∧ B x

/-- A history taken apart into its last exchange and what went before. -/
theorem snoc_eq_iff {X : Type} {h l : List X} {x : X} :
    h ++ [x] = l ↔ h = l.dropLast ∧ l.getLast? = some x := by
  constructor
  · rintro rfl
    simp
  · rintro ⟨rfl, hx⟩
    exact List.dropLast_append_getLast? x hx

/-- The exchange a command makes under an outcome. -/
def Server.exchange {I : Interface} {σ ε : Type} (srv : Server I σ) (o : Outcome ε)
    (c : I.Cmd) (s : σ) : Exchange I ε :=
  ⟨c, (srv.perform o c s).2, o.effective⟩

section

variable {I : Interface} {σ ε : Type} (srv : Server I σ) (c : I.Cmd) (s : σ)

@[simp] theorem Server.exchange_ok :
    srv.exchange (.ok : Outcome ε) c s = ⟨c, .ok (srv c s).2, true⟩ := rfl

theorem Server.exchange_sound (o : Outcome ε) : (srv.exchange o c s).Sound := by
  cases o with
  | ok => exact fun _ _ => rfl
  | refused e => intro a ha; cases ha
  | lost e => intro a ha; cases ha

/-- An answer that came back is the one that the server gave. -/
theorem Server.eq_of_exchange {srv : Server I σ} {s : σ} {o : Outcome ε} {c c' : I.Cmd}
    {a : I.Reply c} {b : Bool} (h : ⟨c, .ok a, b⟩ = srv.exchange o c' s) : (srv c s).2 = a := by
  cases o with
  | ok => cases h; rfl
  | refused e => cases h
  | lost e => cases h

theorem Server.exchange_answered : (srv.exchange (.ok : Outcome ε) c s).Answered :=
  ⟨rfl, _, rfl⟩

end

namespace Program

variable {I : Interface} {σ ε α β : Type}

/-- With past `h`, and for all exchanges that `A` allows, `J` holds of the history at
every point and `Q` of the result and the history at the end. -/
def Obeys (A : Exchange I ε → Prop) (J : List (Exchange I ε) → Prop)
    (Q : Except ε α → List (Exchange I ε) → Prop) :
    Program I ε α → List (Exchange I ε) → Prop
  | .ret a, h => J h ∧ Q (.ok a) h
  | .raise e, h => J h ∧ Q (.error e) h
  | .call c k, h => J h ∧ ∀ r b, A ⟨c, r, b⟩ → Obeys A J Q (k r) (h ++ [⟨c, r, b⟩])

variable {A : Exchange I ε → Prop} {J J' : List (Exchange I ε) → Prop}
  {Q Q' : Except ε α → List (Exchange I ε) → Prop}

@[simp] theorem obeys_ret (a : α) (h : List (Exchange I ε)) :
    Obeys A J Q (.ret a) h ↔ J h ∧ Q (.ok a) h := Iff.rfl
@[simp] theorem obeys_raise (e : ε) (h : List (Exchange I ε)) :
    Obeys A J Q (.raise e) h ↔ J h ∧ Q (.error e) h := Iff.rfl

/-- An environment without faults. -/
@[simp] theorem obeys_call_answered (c : I.Cmd) (k : Except ε (I.Reply c) → Program I ε α)
    (h : List (Exchange I ε)) :
    Obeys Exchange.Answered J Q (.call c k) h ↔ J h ∧
      ∀ a, Obeys Exchange.Answered J Q (k (.ok a)) (h ++ [⟨c, .ok a, true⟩]) := by
  refine and_congr_right fun _ => ⟨fun hk a => hk _ _ ⟨rfl, a, rfl⟩, ?_⟩
  rintro hok (e | a) (_ | _) ⟨hb, b, ha⟩
  · cases ha
  · cases ha
  · cases hb
  · exact hok a

/-- An environment without faults, whose answers satisfy `B`. -/
theorem obeys_call_answeredWith {B : Exchange I ε → Prop} (c : I.Cmd)
    (k : Except ε (I.Reply c) → Program I ε α) (h : List (Exchange I ε)) :
    Obeys (Exchange.AnsweredWith B) J Q (.call c k) h ↔ J h ∧
      ∀ a, B ⟨c, .ok a, true⟩ →
        Obeys (Exchange.AnsweredWith B) J Q (k (.ok a)) (h ++ [⟨c, .ok a, true⟩]) := by
  refine and_congr_right fun _ => ⟨fun hk a hB => hk _ _ ⟨⟨rfl, a, rfl⟩, hB⟩, ?_⟩
  rintro hok (e | a) (_ | _) ⟨⟨hb, b, ha⟩, hB⟩
  · cases ha
  · cases ha
  · cases hb
  · exact hok a hB

theorem Obeys.here {p : Program I ε α} {h : List (Exchange I ε)} (hp : Obeys A J Q p h) :
    J h := by
  cases p <;> exact hp.1

/-- The rule for a program followed by either of two continuations. -/
theorem obeys_elim {Q : Except ε β → List (Exchange I ε) → Prop} (p : Program I ε α)
    (f : α → Program I ε β) (g : ε → Program I ε β) (h : List (Exchange I ε))
    (hp : Obeys A J (fun r h => match r with
      | .ok a => Obeys A J Q (f a) h
      | .error e => Obeys A J Q (g e) h) p h) :
    Obeys A J Q (p.elim f g) h := by
  induction p generalizing h with
  | ret a => exact hp.2
  | raise e => exact hp.2
  | call c k ih => exact ⟨hp.1, fun r b hb => ih _ _ (hp.2 r b hb)⟩

/-- The rule of sequencing. -/
theorem obeys_bind {Q : Except ε β → List (Exchange I ε) → Prop} (p : Program I ε α)
    (f : α → Program I ε β) (h : List (Exchange I ε))
    (hp : Obeys A J (fun r h => match r with
      | .ok a => Obeys A J Q (f a) h
      | .error e => J h ∧ Q (.error e) h) p h) :
    Obeys A J Q (p >>= f) h :=
  obeys_elim p f .raise h hp

/-- The rule for one command. -/
theorem obeys_command {c : I.Cmd} {Q : Except ε (I.Reply c) → List (Exchange I ε) → Prop}
    {h : List (Exchange I ε)} (hJ : J h)
    (hQ : ∀ r b, J (h ++ [⟨c, r, b⟩]) ∧ Q r (h ++ [⟨c, r, b⟩])) :
    (command c).Obeys A J Q h := by
  refine ⟨hJ, ?_⟩
  intro r b _
  cases r with
  | ok a => exact hQ (.ok a) b
  | error e => exact hQ (.error e) b

/-- At the end the result and the history are as the contract says. -/
theorem Obeys.finished {p : Program I ε α} {h : List (Exchange I ε)} (hp : Obeys A J Q p h)
    (hf : p.finished = true) : (∃ a, p = .ret a ∧ Q (.ok a) h) ∨ ∃ e, p = .raise e ∧ Q (.error e) h := by
  cases p with
  | ret a => exact .inl ⟨a, rfl, hp.2⟩
  | raise e => exact .inr ⟨e, rfl, hp.2⟩
  | call c k => cases hf

theorem Obeys.mono {p : Program I ε α} {h : List (Exchange I ε)} (hp : Obeys A J Q p h)
    (hJ : ∀ h, J h → J' h) (hQ : ∀ r h, J h → Q r h → Q' r h) : Obeys A J' Q' p h := by
  induction p generalizing h with
  | ret a => exact ⟨hJ _ hp.1, hQ _ _ hp.1 hp.2⟩
  | raise e => exact ⟨hJ _ hp.1, hQ _ _ hp.1 hp.2⟩
  | call c k ih => exact ⟨hJ _ hp.1, fun r b hb => ih _ (hp.2 r b hb)⟩

/-- A contract that asks for nothing. -/
theorem obeys_trivial (p : Program I ε α) (h : List (Exchange I ε)) (hJ : ∀ h, J h)
    (hQ : ∀ r h, Q r h) : p.Obeys A J Q h := by
  induction p generalizing h with
  | ret a => exact ⟨hJ h, hQ _ h⟩
  | raise e => exact ⟨hJ h, hQ _ h⟩
  | call c k ih => exact ⟨hJ h, fun r b _ => ih r _⟩

/-- A program keeps what none of the commands that it uses can break. -/
theorem Uses.obeys {C : I.Cmd → Prop} {p : Program I ε α} {h : List (Exchange I ε)}
    (hp : p.Uses C) (hJ : J h) (hstep : ∀ h x, J h → C x.cmd → J (h ++ [x])) :
    p.Obeys A J (fun _ h => J h) h := by
  induction p generalizing h with
  | ret a => exact ⟨hJ, hJ⟩
  | raise e => exact ⟨hJ, hJ⟩
  | call c k ih => exact ⟨hJ, fun r b _ => ih r (hp.2 r) (hstep _ _ hJ hp.1)⟩

end Program

/-! ## The pool -/

/-- The shared store and the clients: what is left of each, what each has done, and
which have been stopped. -/
structure Config (I : Interface) (σ ε α ι : Type) where
  store : σ
  threads : ι → Program I ε α
  history : ι → List (Exchange I ε)
  stopped : ι → Bool

/-- One step of a pool: a client issues its next command under some outcome, a client
stops for good, or the environment acts. -/
inductive Action (ι ε E : Type) where
  | run (j : ι) (o : Outcome ε)
  | stop (j : ι)
  | env (e : E)

namespace Config

variable {I : Interface} {σ ε α ι E : Type}

/-- Every client at its beginning. -/
def start (s : σ) (calls : ι → Program I ε α) : Config I σ ε α ι where
  store := s
  threads := calls
  history := fun _ => []
  stopped := fun _ => false

/-- The command client `j` issues when it is next scheduled. -/
def next? (cfg : Config I σ ε α ι) (j : ι) : Option I.Cmd :=
  if cfg.stopped j then none else (cfg.threads j).head?

/-- Client `j` can still issue commands. -/
def Live (cfg : Config I σ ε α ι) (j : ι) : Prop :=
  cfg.stopped j = false ∧ (cfg.threads j).finished = false

/-- Every client has come to the end of its program. -/
def Done (cfg : Config I σ ε α ι) : Prop := ∀ j, (cfg.threads j).finished = true

variable [DecidableEq ι]

/-- Client `j`, standing before command `c`, has it performed under outcome `o`. -/
def exchange (srv : Server I σ) (cfg : Config I σ ε α ι) (j : ι) (o : Outcome ε) (c : I.Cmd)
    (k : Except ε (I.Reply c) → Program I ε α) : Config I σ ε α ι where
  store := (srv.perform o c cfg.store).1
  threads := Function.update cfg.threads j (k (srv.perform o c cfg.store).2)
  history := Function.update cfg.history j (cfg.history j ++ [srv.exchange o c cfg.store])
  stopped := cfg.stopped

/-- One step.  Scheduling a client that is stopped or finished changes nothing. -/
def step (srv : Server I σ) (env : E → σ → σ) (cfg : Config I σ ε α ι) :
    Action ι ε E → Config I σ ε α ι
  | .run j o =>
    if cfg.stopped j then cfg else
      match cfg.threads j with
      | .call c k => cfg.exchange srv j o c k
      | _ => cfg
  | .stop j => { cfg with stopped := Function.update cfg.stopped j true }
  | .env e => { cfg with store := env e cfg.store }

/-- **What one step can do.** -/
theorem step_cases (srv : Server I σ) (env : E → σ → σ) (cfg : Config I σ ε α ι)
    (a : Action ι ε E) :
    (∃ j o c k, a = .run j o ∧ cfg.stopped j = false ∧ cfg.threads j = .call c k ∧
      cfg.next? j = some c ∧ cfg.step srv env a = cfg.exchange srv j o c k) ∨
    (∃ j o, a = .run j o ∧ cfg.next? j = none ∧ cfg.step srv env a = cfg) ∨
    (∃ j, a = .stop j ∧ cfg.step srv env a =
      { cfg with stopped := Function.update cfg.stopped j true }) ∨
    (∃ e, a = .env e ∧ cfg.step srv env a = { cfg with store := env e cfg.store }) := by
  cases a with
  | stop j => exact .inr (.inr (.inl ⟨j, rfl, rfl⟩))
  | env e => exact .inr (.inr (.inr ⟨e, rfl, rfl⟩))
  | run j o =>
    cases hs : cfg.stopped j with
    | true => exact .inr (.inl ⟨j, o, rfl, by simp [next?, hs], by simp [step, hs]⟩)
    | false =>
      cases hp : cfg.threads j with
      | ret a => exact .inr (.inl ⟨j, o, rfl, by simp [next?, hs, hp], by simp [step, hs, hp]⟩)
      | raise e =>
        exact .inr (.inl ⟨j, o, rfl, by simp [next?, hs, hp], by simp [step, hs, hp]⟩)
      | call c k =>
        exact .inl ⟨j, o, c, k, rfl, hs, hp, by simp [next?, hs, hp],
          by simp [step, hs, hp]⟩

/-- The step of a pool without faults and stops: the next command of `j` is answered. -/
def turn (srv : Server I σ) (cfg : Config I σ ε α ι) (j : ι) : Config I σ ε α ι :=
  match cfg.threads j with
  | .call c k => cfg.exchange srv j .ok c k
  | _ => cfg

/-- **What one turn can do.** -/
theorem turn_cases (srv : Server I σ) (cfg : Config I σ ε α ι) (j : ι) :
    (∃ c k, cfg.threads j = .call c k ∧ cfg.turn srv j = cfg.exchange srv j .ok c k) ∨
    ((cfg.threads j).finished = true ∧ cfg.turn srv j = cfg) := by
  cases hp : cfg.threads j with
  | ret a => exact .inr ⟨rfl, by simp [turn, hp]⟩
  | raise e => exact .inr ⟨rfl, by simp [turn, hp]⟩
  | call c k => exact .inl ⟨c, k, rfl, by simp [turn, hp]⟩

/-! ## Contracts of the clients -/

/-- Every client is keeping its contract. -/
def Obeying (A : Exchange I ε → Prop) (J : ι → List (Exchange I ε) → Prop)
    (Q : ι → Except ε α → List (Exchange I ε) → Prop) (cfg : Config I σ ε α ι) : Prop :=
  ∀ j, (cfg.threads j).Obeys A (J j) (Q j) (cfg.history j)

variable {A : Exchange I ε → Prop} {J : ι → List (Exchange I ε) → Prop}
  {Q : ι → Except ε α → List (Exchange I ε) → Prop}

omit [DecidableEq ι] in
theorem obeying_start (s : σ) (calls : ι → Program I ε α)
    (h : ∀ j, (calls j).Obeys A (J j) (Q j) []) : (start s calls).Obeying A J Q := h

/-- No exchange that the environment may make breaks a contract. -/
theorem Obeying.exchange {cfg : Config I σ ε α ι} (h : cfg.Obeying A J Q) (srv : Server I σ)
    {j : ι} {o : Outcome ε} {c : I.Cmd} {k : Except ε (I.Reply c) → Program I ε α}
    (hp : cfg.threads j = .call c k) (hA : A (srv.exchange o c cfg.store)) :
    (cfg.exchange srv j o c k).Obeying A J Q := by
  intro i
  by_cases hi : i = j
  · subst hi
    have hk := h i
    rw [hp] at hk
    simpa [Config.exchange, Server.exchange] using hk.2 _ _ hA
  · simpa [Config.exchange, hi] using h i

/-- No step makes a client break its contract. -/
theorem Obeying.step {cfg : Config I σ ε α ι} (h : cfg.Obeying Exchange.Sound J Q)
    (srv : Server I σ) (env : E → σ → σ) (a : Action ι ε E) :
    (cfg.step srv env a).Obeying Exchange.Sound J Q := by
  obtain ⟨j, o, c, k, rfl, -, hp, -, he⟩ | ⟨j, o, rfl, -, he⟩ | ⟨j, rfl, he⟩ | ⟨e, rfl, he⟩ :=
    step_cases srv env cfg a
  · rw [he]; exact h.exchange srv hp (srv.exchange_sound c cfg.store o)
  · rw [he]; exact h
  · rw [he]; exact h
  · rw [he]; exact h

/-- No turn makes a client break its contract. -/
theorem Obeying.turn {cfg : Config I σ ε α ι} (h : cfg.Obeying Exchange.Answered J Q)
    (srv : Server I σ) (j : ι) : (cfg.turn srv j).Obeying Exchange.Answered J Q := by
  obtain ⟨c, k, hp, he⟩ | ⟨-, he⟩ := turn_cases srv cfg j
  · rw [he]; exact h.exchange srv hp (srv.exchange_answered c cfg.store)
  · rw [he]; exact h

omit [DecidableEq ι] in
/-- The assertion on a history, and the one on its extension by the next exchange. -/
theorem Obeying.next {cfg : Config I σ ε α ι} (h : cfg.Obeying A J Q) {j : ι} {c : I.Cmd}
    {k : Except ε (I.Reply c) → Program I ε α} (hp : cfg.threads j = .call c k)
    (srv : Server I σ) {o : Outcome ε} (hA : A (srv.exchange o c cfg.store)) :
    J j (cfg.history j ++ [srv.exchange o c cfg.store]) := by
  have hk := h j
  rw [hp] at hk
  exact (hk.2 _ _ hA).here

/-- **What a step does to the store**: a command that takes effect, something that happens to the
store by itself, or nothing. -/
theorem step_store (srv : Server I σ) (env : E → σ → σ) (cfg : Config I σ ε α ι)
    (a : Action ι ε E) :
    (∃ j o c, a = .run j o ∧ o.effective = true ∧ cfg.next? j = some c ∧
      (cfg.step srv env a).store = (srv c cfg.store).1) ∨
    (∃ e, a = .env e ∧ (cfg.step srv env a).store = env e cfg.store) ∨
    (cfg.step srv env a).store = cfg.store := by
  obtain ⟨j, o, c, k, rfl, -, -, hn, he⟩ | ⟨j, o, rfl, -, he⟩ | ⟨j, rfl, he⟩ | ⟨e, rfl, he⟩ :=
    step_cases srv env cfg a
  · have hstore := (congrArg Config.store he).trans (srv.perform_state o c cfg.store)
    cases ho : o.effective with
    | true => exact .inl ⟨j, o, c, rfl, ho, hn, by simpa [ho] using hstore⟩
    | false => exact .inr (.inr (by simpa [ho] using hstore))
  · exact .inr (.inr (congrArg Config.store he))
  · exact .inr (.inr ((congrArg Config.store he).trans rfl))
  · exact .inr (.inl ⟨e, rfl, (congrArg Config.store he).trans rfl⟩)

/-- What is in the history of a client was exchanged in one of the steps. -/
theorem exists_of_mem_history (srv : Server I σ) (env : E → σ → σ) {j : ι} {x : Exchange I ε}
    (as : List (Action ι ε E)) (cfg : Config I σ ε α ι)
    (h : x ∈ (run (Config.step srv env) cfg as).history j) : x ∈ cfg.history j ∨
      ∃ before o c after, as = before ++ .run j o :: after ∧
        (run (Config.step srv env) cfg before).next? j = some c ∧
        x = srv.exchange o c (run (Config.step srv env) cfg before).store := by
  induction as generalizing cfg with
  | nil => exact .inl h
  | cons a as ih =>
    obtain hfirst | ⟨before, o, c, after, rfl, hnext, hx⟩ := ih (cfg.step srv env a) h
    · obtain ⟨i, o, c, k, rfl, -, -, hn, he⟩ | ⟨i, o, rfl, -, he⟩ | ⟨i, rfl, he⟩ | ⟨e, rfl, he⟩ :=
        step_cases srv env cfg a
      · rw [he] at hfirst
        by_cases hij : j = i
        · subst hij
          obtain hold | hnew : x ∈ cfg.history j ∨ x = srv.exchange o c cfg.store := by
            simpa [Config.exchange] using hfirst
          · exact .inl hold
          · exact .inr ⟨[], o, c, as, rfl, hn, hnew⟩
        · exact .inl (by simpa [Config.exchange, hij] using hfirst)
      · exact .inl (by rwa [he] at hfirst)
      · exact .inl (by rwa [he] at hfirst)
      · exact .inl (by rwa [he] at hfirst)
    · exact .inr ⟨a :: before, o, c, after, rfl, hnext, hx⟩

/-- A client that runs alone comes to what it evaluates to. -/
theorem exists_run_eval (srv : Server I σ) (env : E → σ → σ) (cfg : Config I σ ε α ι) {j : ι}
    (hj : cfg.stopped j = false) : ∃ as : List (Action ι ε E),
      (run (Config.step srv env) cfg as).store = ((cfg.threads j).eval srv cfg.store).2 := by
  generalize hp : cfg.threads j = p
  induction p generalizing cfg with
  | ret a => exact ⟨[], rfl⟩
  | raise e => exact ⟨[], rfl⟩
  | call c k ih =>
    obtain ⟨as, has⟩ := ih (.ok (srv c cfg.store).2) (cfg.exchange srv j .ok c k)
      (by simpa [exchange] using hj) (by simp [exchange])
    have hstep : cfg.step srv env (.run j .ok) = cfg.exchange srv j .ok c k := by
      simp [step, hj, hp]
    refine ⟨.run j .ok :: as, ?_⟩
    rw [run_cons, hstep, has]
    rfl

/-- What a client may ever issue only shrinks. -/
theorem uses_step {C : I.Cmd → Prop} {cfg : Config I σ ε α ι} {j : ι}
    (h : (cfg.threads j).Uses C) (srv : Server I σ) (env : E → σ → σ) (a : Action ι ε E) :
    ((cfg.step srv env a).threads j).Uses C := by
  obtain ⟨i, o, c, k, rfl, -, hp, -, he⟩ | ⟨i, o, rfl, -, he⟩ | ⟨i, rfl, he⟩ | ⟨e, rfl, he⟩ :=
    step_cases srv env cfg a
  · rw [he]
    by_cases hj : j = i
    · subst hj
      rw [hp] at h
      simpa [Config.exchange] using h.2 _
    · simpa [Config.exchange, hj] using h
  · rw [he]; exact h
  · rw [he]; exact h
  · rw [he]; exact h

/-- A command that satisfies `C` is the last one of the client, also where it has been
issued. -/
def Closing (C : I.Cmd → Prop) (j : ι) (cfg : Config I σ ε α ι) : Prop :=
  (cfg.threads j).Closes C ∧
    ((∃ x ∈ cfg.history j, C x.cmd) → (cfg.threads j).finished = true)

omit [DecidableEq ι] in
theorem closing_start {C : I.Cmd → Prop} {j : ι} (s : σ) {calls : ι → Program I ε α}
    (h : (calls j).Closes C) : (start s calls).Closing C j := by
  refine ⟨h, ?_⟩
  rintro ⟨x, hx, -⟩
  cases hx

theorem Closing.exchange {C : I.Cmd → Prop} {j : ι} {cfg : Config I σ ε α ι}
    (h : cfg.Closing C j) (srv : Server I σ) {i : ι} (o : Outcome ε) {c : I.Cmd}
    {k : Except ε (I.Reply c) → Program I ε α} (hp : cfg.threads i = .call c k) :
    (cfg.exchange srv i o c k).Closing C j := by
  by_cases hj : j = i
  · subst hj
    obtain ⟨hcloses, hlast⟩ := h
    rw [hp] at hcloses hlast
    refine ⟨by simpa [Config.exchange] using hcloses.2 _, ?_⟩
    rintro ⟨x, hx, hC⟩
    simp only [Config.exchange, Function.update_self, List.mem_append, List.mem_singleton] at hx ⊢
    rcases hx with hold | rfl
    · cases hlast ⟨x, hold, hC⟩
    · exact hcloses.1 hC _
  · simpa [Closing, Config.exchange, hj] using h

end Config

/-! ## Clients followed by a machine -/

/-- A machine that follows a client: its state says what is left of the program, and
every exchange moves it on. -/
structure Tracker (I : Interface) (ε α P : Type) where
  program : P → Program I ε α
  next : P → Exchange I ε → P
  follows : ∀ {p : P} {c : I.Cmd} {k : Except ε (I.Reply c) → Program I ε α},
    program p = .call c k → ∀ r b, k r = program (next p ⟨c, r, b⟩)

/-- The state of the machine after a history. -/
def Tracker.after {I : Interface} {ε α P : Type} (T : Tracker I ε α P) (p : P)
    (h : List (Exchange I ε)) : P := h.foldl T.next p

section

variable {I : Interface} {ε α P : Type} (T : Tracker I ε α P) (p : P)

@[simp] theorem Tracker.after_nil : T.after p [] = p := rfl

@[simp] theorem Tracker.after_snoc (h : List (Exchange I ε)) (x : Exchange I ε) :
    T.after p (h ++ [x]) = T.next (T.after p h) x := by
  simp [Tracker.after]

end

namespace Config

variable {I : Interface} {σ ε α ι E P : Type} [DecidableEq ι]

/-- Client `j` stands where the machine, started in `p`, says. -/
def Follows (T : Tracker I ε α P) (p : P) (j : ι) (cfg : Config I σ ε α ι) : Prop :=
  cfg.threads j = T.program (T.after p (cfg.history j))

omit [DecidableEq ι] in
theorem follows_start (T : Tracker I ε α P) {p : P} {j : ι} (s : σ) {calls : ι → Program I ε α}
    (h : calls j = T.program p) : (start s calls).Follows T p j := h

/-- The machine keeps up with every step. -/
theorem Follows.step {T : Tracker I ε α P} {p : P} {j : ι} {cfg : Config I σ ε α ι}
    (h : cfg.Follows T p j) (srv : Server I σ) (env : E → σ → σ) (a : Action ι ε E) :
    (cfg.step srv env a).Follows T p j := by
  obtain ⟨i, o, c, k, rfl, -, hp, -, he⟩ | ⟨i, o, rfl, -, he⟩ | ⟨i, rfl, he⟩ | ⟨e, rfl, he⟩ :=
    step_cases srv env cfg a
  · rw [he]
    by_cases hj : j = i
    · subst hj
      have hprogram : T.program (T.after p (cfg.history j)) = .call c k := h.symm.trans hp
      have hnext := T.follows hprogram (srv.perform o c cfg.store).2 o.effective
      simpa [Follows, Config.exchange, Server.exchange] using hnext
    · simpa [Follows, Config.exchange, hj] using h
  · rw [he]; exact h
  · rw [he]; exact h
  · rw [he]; exact h

/-- **What a step does** where a machine follows client `j`: it is a command of `j`, which
moves the machine, or it leaves the machine where it is. -/
theorem Follows.step_after {T : Tracker I ε α P} {p : P} {j : ι} {cfg : Config I σ ε α ι}
    (h : cfg.Follows T p j) (srv : Server I σ) (env : E → σ → σ) (a : Action ι ε E) :
    (∃ o c, a = .run j o ∧ cfg.next? j = some c ∧
      (T.program (T.after p (cfg.history j))).head? = some c ∧
      (cfg.step srv env a).store = (srv.perform o c cfg.store).1 ∧
      T.after p ((cfg.step srv env a).history j)
        = T.next (T.after p (cfg.history j)) (srv.exchange o c cfg.store)) ∨
    ((∀ o, a = .run j o → cfg.next? j = none) ∧
      T.after p ((cfg.step srv env a).history j) = T.after p (cfg.history j) ∧
      ((cfg.step srv env a).store = cfg.store ∨
        (∃ i o c k, i ≠ j ∧ a = .run i o ∧ cfg.threads i = .call c k ∧
          (cfg.step srv env a).store = (srv.perform o c cfg.store).1) ∨
        ∃ e, a = .env e ∧ (cfg.step srv env a).store = env e cfg.store)) := by
  obtain ⟨i, o, c, k, rfl, -, hp, hn, he⟩ | ⟨i, o, rfl, hn, he⟩ | ⟨i, rfl, he⟩ | ⟨e, rfl, he⟩ :=
    step_cases srv env cfg a
  · by_cases hi : i = j
    · subst hi
      refine .inl ⟨o, c, rfl, hn, ?_, ?_, ?_⟩
      · rw [← h, hp]
        rfl
      · rw [he]
        rfl
      · rw [he]
        simp [Config.exchange]
    · refine .inr ⟨?_, ?_, .inr (.inl ⟨i, o, c, k, hi, rfl, hp, ?_⟩)⟩
      · intro o' ho
        cases ho
        exact absurd rfl hi
      · rw [he]
        simp [Config.exchange, Ne.symm hi]
      · rw [he]
        rfl
  · refine .inr ⟨?_, by rw [he], .inl (by rw [he])⟩
    intro o' ho
    cases ho
    exact hn
  · exact .inr ⟨nofun, by rw [he], .inl (by rw [he])⟩
  · exact .inr ⟨nofun, by rw [he], .inr (.inr ⟨e, rfl, by rw [he]⟩)⟩

/-- Where the machines of all clients stand. -/
def positions (T : ι → Tracker I ε α P) (p : ι → P) (cfg : Config I σ ε α ι) (j : ι) : P :=
  (T j).after (p j) (cfg.history j)

omit [DecidableEq ι] in
@[simp] theorem positions_start (T : ι → Tracker I ε α P) (p : ι → P) (s : σ)
    (calls : ι → Program I ε α) : positions T p (start s calls) = p := rfl

/-- **What a step does** where a machine follows every client: the next command of one of them,
which moves its machine, or a stop, or something that happens to the store. -/
theorem step_positions {T : ι → Tracker I ε α P} {p : ι → P} {cfg : Config I σ ε α ι}
    (h : ∀ j, cfg.Follows (T j) (p j) j) (srv : Server I σ) (env : E → σ → σ)
    (a : Action ι ε E) :
    (∃ j o c, a = .run j o ∧ cfg.stopped j = false ∧
      ((T j).program (cfg.positions T p j)).head? = some c ∧
      (cfg.step srv env a).store = (srv.perform o c cfg.store).1 ∧
      (cfg.step srv env a).stopped = cfg.stopped ∧
      (cfg.step srv env a).positions T p = Function.update (cfg.positions T p) j
        ((T j).next (cfg.positions T p j) (srv.exchange o c cfg.store))) ∨
    (∃ j o, a = .run j o ∧ cfg.step srv env a = cfg) ∨
    (∃ j, a = .stop j ∧ (cfg.step srv env a).store = cfg.store ∧
      (cfg.step srv env a).stopped = Function.update cfg.stopped j true ∧
      (cfg.step srv env a).positions T p = cfg.positions T p) ∨
    (∃ e, a = .env e ∧ (cfg.step srv env a).store = env e cfg.store ∧
      (cfg.step srv env a).stopped = cfg.stopped ∧
      (cfg.step srv env a).positions T p = cfg.positions T p) := by
  obtain ⟨j, o, c, k, rfl, hs, hp, -, he⟩ | ⟨j, o, rfl, -, he⟩ | ⟨j, rfl, he⟩ | ⟨e, rfl, he⟩ :=
    step_cases srv env cfg a
  · have hj : cfg.threads j = (T j).program (cfg.positions T p j) := h j
    refine .inl ⟨j, o, c, rfl, hs, ?_, ?_, ?_, ?_⟩
    · rw [← hj, hp]
      rfl
    · rw [he]
      rfl
    · rw [he]
      rfl
    · rw [he]
      funext i
      by_cases hi : i = j
      · subst hi
        simp [positions, Config.exchange]
      · simp [positions, Config.exchange, hi]
  · exact .inr (.inl ⟨j, o, rfl, he⟩)
  · exact .inr (.inr (.inl ⟨j, rfl, by rw [he], by rw [he], by rw [he]; rfl⟩))
  · exact .inr (.inr (.inr ⟨e, rfl, by rw [he], by rw [he], by rw [he]; rfl⟩))

/-- **What a turn does** where a machine follows every client: the next command of one of
them is answered, and its machine moves on. -/
theorem turn_after {T : ι → Tracker I ε α P} {p : ι → P} {cfg : Config I σ ε α ι}
    (h : ∀ j, cfg.Follows (T j) (p j) j) (srv : Server I σ) (j : ι) :
    (cfg.turn srv j).store
        = ((((T j).program ((T j).after (p j) (cfg.history j))).head?).elim cfg.store
            fun c => (srv c cfg.store).1) ∧
      (fun i => (T i).after (p i) ((cfg.turn srv j).history i))
        = Function.update (fun i => (T i).after (p i) (cfg.history i)) j
          ((((T j).program ((T j).after (p j) (cfg.history j))).head?).elim
            ((T j).after (p j) (cfg.history j))
            fun c => (T j).next ((T j).after (p j) (cfg.history j))
              ⟨c, .ok (srv c cfg.store).2, true⟩) ∧
      ∀ i, (cfg.turn srv j).Follows (T i) (p i) i := by
  have hj : cfg.threads j = (T j).program ((T j).after (p j) (cfg.history j)) := h j
  obtain ⟨c, k, hp, he⟩ | ⟨hfinished, he⟩ := turn_cases srv cfg j
  · rw [he, ← hj, hp]
    refine ⟨rfl, funext fun i => ?_, fun i => ?_⟩
    · by_cases hi : i = j
      · subst hi
        simp [Config.exchange]
      · simp [Config.exchange, hi]
    · by_cases hi : i = j
      · subst hi
        have hnext := (T i).follows (hj.symm.trans hp)
          (srv.perform (.ok : Outcome ε) c cfg.store).2 (Outcome.ok : Outcome ε).effective
        simpa [Follows, Config.exchange, Server.exchange] using hnext
      · simpa [Follows, Config.exchange, hi] using h i
  · rw [he, ← hj, Program.head?_of_finished hfinished]
    exact ⟨rfl, by simp, h⟩

end Config

/-! ## Totals over all clients -/

namespace Config

variable {I : Interface} {σ ε α ι : Type} [DecidableEq ι]

variable {M : Type} [AddCommMonoid M] [Fintype ι]

/-- A quantity of the histories, summed over all clients. -/
def tally (f : ι → List (Exchange I ε) → M) (cfg : Config I σ ε α ι) : M :=
  ∑ j, f j (cfg.history j)

/-- An exchange changes the summand of its client. -/
theorem tally_exchange (f : ι → List (Exchange I ε) → M) (srv : Server I σ)
    (cfg : Config I σ ε α ι) (j : ι) (o : Outcome ε) (c : I.Cmd)
    (k : Except ε (I.Reply c) → Program I ε α) :
    f j (cfg.history j) + (cfg.exchange srv j o c k).tally f
      = f j (cfg.history j ++ [srv.exchange o c cfg.store]) + cfg.tally f := by
  have hrest : ∑ i ∈ Finset.univ.erase j, f i ((cfg.exchange srv j o c k).history i)
      = ∑ i ∈ Finset.univ.erase j, f i (cfg.history i) := by
    refine Finset.sum_congr rfl fun i hi => ?_
    simp [exchange, Finset.ne_of_mem_erase hi]
  rw [tally, tally, ← Finset.add_sum_erase _ _ (Finset.mem_univ j),
    ← Finset.add_sum_erase _ (fun i => f i (cfg.history i)) (Finset.mem_univ j), hrest]
  simp only [exchange, Function.update_self]
  exact add_left_comm _ _ _

/-- The weight of everything the clients have done. -/
def total (w : ι → Exchange I ε → M) (cfg : Config I σ ε α ι) : M :=
  ∑ j, ((cfg.history j).map (w j)).sum

/-- An exchange adds its own weight to the total. -/
theorem total_exchange (w : ι → Exchange I ε → M) (srv : Server I σ)
    (cfg : Config I σ ε α ι) (j : ι) (o : Outcome ε) (c : I.Cmd)
    (k : Except ε (I.Reply c) → Program I ε α) :
    (cfg.exchange srv j o c k).total w = cfg.total w + w j (srv.exchange o c cfg.store) := by
  have hrest : ∑ i ∈ Finset.univ.erase j,
        (((cfg.exchange srv j o c k).history i).map (w i)).sum
      = ∑ i ∈ Finset.univ.erase j, ((cfg.history i).map (w i)).sum := by
    refine Finset.sum_congr rfl fun i hi => ?_
    simp [exchange, Finset.ne_of_mem_erase hi]
  rw [total, total, ← Finset.add_sum_erase _ _ (Finset.mem_univ j),
    ← Finset.add_sum_erase _ (fun i => ((cfg.history i).map (w i)).sum) (Finset.mem_univ j),
    hrest]
  simp only [exchange, Function.update_self, List.map_append, List.map_cons, List.map_nil,
    List.sum_append, List.sum_cons, List.sum_nil, add_zero]
  rw [add_assoc, add_assoc, add_comm (w j _)]

end Config
end Interaction
