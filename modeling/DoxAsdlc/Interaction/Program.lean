import Mathlib.Tactic.Common

/-!
# Client programs and the server they talk to

A client is a program that issues one command at a time to a shared server and
goes on according to the answer.  The server is a function of the command and its
own state.  The only thing a client ever sees is an answer or an exception, so
everything an environment can do to it is which of the two it gets, and whether
the command took effect.

`Program` is the resumption monad of such clients; it is finite in depth, so every
recursion over it is structural.  Three readings of a program are given: `eval`,
where every command is answered; `play`, where a list of outcomes decides command
by command, and a list that runs out leaves the program where it stands; and `wp`,
the weakest precondition over every environment.

## Main definitions

* `Interface`, `Server` — commands with typed answers, and what they do.
* `Program` — a client, with `bind`, `throw` and `tryCatch`.
* `Outcome`, `Server.perform` — a command answered, refused, or answered too late.
* `Program.eval`, `Program.play`, `Program.wp` — the three readings.
-/

namespace Interaction

/-- The commands a server understands, each with the type of its answer. -/
structure Interface where
  Cmd : Type
  Reply : Cmd → Type

/-- A client: it returns, raises, or issues a command and resumes with what comes
back. -/
inductive Program (I : Interface) (ε α : Type) where
  | ret (a : α)
  | raise (e : ε)
  | call (c : I.Cmd) (k : Except ε (I.Reply c) → Program I ε α)

/-- What the environment makes of one command.  `lost` is the command whose effect
took place and whose answer never came back. -/
inductive Outcome (ε : Type) where
  | ok
  | refused (e : ε)
  | lost (e : ε)
  deriving DecidableEq, Repr

/-- Did the command reach the server? -/
def Outcome.effective {ε : Type} : Outcome ε → Bool
  | .ok | .lost _ => true
  | .refused _ => false

/-- Did the client get an exception? -/
def Outcome.failed {ε : Type} : Outcome ε → Bool
  | .ok => false
  | .refused _ | .lost _ => true

/-- A server answers each command and changes its state in one indivisible step. -/
abbrev Server (I : Interface) (σ : Type) := (c : I.Cmd) → σ → σ × I.Reply c

/-- One command under an outcome: the new state and what the client sees. -/
def Server.perform {I : Interface} {σ ε : Type} (srv : Server I σ) (o : Outcome ε)
    (c : I.Cmd) (s : σ) : σ × Except ε (I.Reply c) :=
  match o with
  | .ok => ((srv c s).1, .ok (srv c s).2)
  | .refused e => (s, .error e)
  | .lost e => ((srv c s).1, .error e)

@[simp] theorem Server.perform_ok {I : Interface} {σ ε : Type} (srv : Server I σ)
    (c : I.Cmd) (s : σ) :
    srv.perform (.ok : Outcome ε) c s = ((srv c s).1, .ok (srv c s).2) := rfl
@[simp] theorem Server.perform_refused {I : Interface} {σ ε : Type} (srv : Server I σ)
    (e : ε) (c : I.Cmd) (s : σ) : srv.perform (.refused e) c s = (s, .error e) := rfl
@[simp] theorem Server.perform_lost {I : Interface} {σ ε : Type} (srv : Server I σ)
    (e : ε) (c : I.Cmd) (s : σ) :
    srv.perform (.lost e) c s = ((srv c s).1, .error e) := rfl

/-- The state changes exactly when the command reaches the server. -/
theorem Server.perform_state {I : Interface} {σ ε : Type} (srv : Server I σ) (o : Outcome ε)
    (c : I.Cmd) (s : σ) :
    (srv.perform o c s).1 = if o.effective then (srv c s).1 else s := by
  cases o <;> rfl

namespace Program

variable {I : Interface} {σ ε α β γ : Type}

/-- Go on with one of two continuations after the end of a program. -/
def elim (onRet : α → Program I ε β) (onRaise : ε → Program I ε β) :
    Program I ε α → Program I ε β
  | .ret a => onRet a
  | .raise e => onRaise e
  | .call c k => .call c fun r => elim onRet onRaise (k r)

/-- Sequencing: an exception skips the continuation. -/
def bind (p : Program I ε α) (f : α → Program I ε β) : Program I ε β :=
  p.elim f .raise

/-- `try p except e: h e`. -/
def tryCatch (p : Program I ε α) (h : ε → Program I ε α) : Program I ε α :=
  p.elim .ret h

/-- Go on with what came back, or raise it. -/
def answer : Except ε α → Program I ε α
  | .ok a => .ret a
  | .error e => .raise e

/-- Issue one command; its exception propagates. -/
def command (c : I.Cmd) : Program I ε (I.Reply c) := .call c answer

instance : Monad (Program I ε) where
  pure := .ret
  bind := bind

instance : MonadExcept ε (Program I ε) where
  throw := .raise
  tryCatch := tryCatch

@[simp] theorem elim_ret (f : α → Program I ε β) (h : ε → Program I ε β) (a : α) :
    elim f h (.ret a) = f a := rfl
@[simp] theorem elim_raise (f : α → Program I ε β) (h : ε → Program I ε β) (e : ε) :
    elim f h (.raise e) = h e := rfl
@[simp] theorem elim_call (f : α → Program I ε β) (h : ε → Program I ε β) (c : I.Cmd)
    (k : Except ε (I.Reply c) → Program I ε α) :
    elim f h (.call c k) = .call c fun r => elim f h (k r) := rfl

@[simp] theorem answer_ok (a : α) : answer (.ok a : Except ε α) = (.ret a : Program I ε α) := rfl
@[simp] theorem answer_error (e : ε) :
    answer (.error e : Except ε α) = (.raise e : Program I ε α) := rfl
@[simp] theorem command_eq (c : I.Cmd) :
    (command c : Program I ε (I.Reply c)) = .call c answer := rfl

@[simp] theorem pure_eq (a : α) : (pure a : Program I ε α) = .ret a := rfl
@[simp] theorem throw_eq (e : ε) : (throw e : Program I ε α) = .raise e := rfl
@[simp] theorem bind_eq (p : Program I ε α) (f : α → Program I ε β) :
    p >>= f = p.elim f .raise := rfl
@[simp] theorem tryCatch_eq (p : Program I ε α) (h : ε → Program I ε α) :
    MonadExcept.tryCatch p h = p.elim .ret h := rfl

@[simp] theorem map_eq (f : α → β) (p : Program I ε α) :
    f <$> p = p.elim (fun a => .ret (f a)) .raise := rfl

/-- Two continuations in a row are one. -/
@[simp] theorem elim_elim (p : Program I ε α) (f : α → Program I ε β) (h : ε → Program I ε β)
    (f' : β → Program I ε γ) (h' : ε → Program I ε γ) :
    (p.elim f h).elim f' h' = p.elim (fun a => (f a).elim f' h') fun e => (h e).elim f' h' := by
  induction p with
  | ret a => rfl
  | raise e => rfl
  | call c k ih =>
    simp only [elim_call]
    congr 1
    funext r
    exact ih r

theorem elim_ret_raise (p : Program I ε α) : p.elim .ret .raise = p := by
  induction p with
  | ret a => rfl
  | raise e => rfl
  | call c k ih =>
    rw [elim_call]
    congr 1
    funext r
    exact ih r

instance : LawfulMonad (Program I ε) :=
  LawfulMonad.mk' _ elim_ret_raise (fun _ _ => rfl) fun p f g => elim_elim p f .raise g .raise

/-- The program with each command carried out by a program of another interface. -/
def translate {J : Interface} (f : (c : I.Cmd) → Program J ε (I.Reply c)) :
    Program I ε α → Program J ε α
  | .ret a => .ret a
  | .raise e => .raise e
  | .call c k => (f c).elim (fun a => translate f (k (.ok a))) fun e => translate f (k (.error e))

section

variable {J : Interface} (f : (c : I.Cmd) → Program J ε (I.Reply c))

@[simp] theorem translate_ret (a : α) : (ret a : Program I ε α).translate f = .ret a := rfl
@[simp] theorem translate_raise (e : ε) : (raise e : Program I ε α).translate f = .raise e := rfl
@[simp] theorem translate_call (c : I.Cmd) (k : Except ε (I.Reply c) → Program I ε α) :
    (call c k).translate f
      = (f c).elim (fun a => (k (.ok a)).translate f) fun e => (k (.error e)).translate f := rfl

/-- A command on its own is carried out. -/
@[simp] theorem translate_command (c : I.Cmd) :
    (command c : Program I ε (I.Reply c)).translate f = f c :=
  elim_ret_raise (f c)

@[simp] theorem translate_answer (r : Except ε α) :
    (answer r : Program I ε α).translate f = answer r := by
  cases r <;> rfl

/-- Translation goes through continuations. -/
theorem translate_elim (p : Program I ε α) (g : α → Program I ε β) (h : ε → Program I ε β) :
    (p.elim g h).translate f
      = (p.translate f).elim (fun a => (g a).translate f) fun e => (h e).translate f := by
  induction p with
  | ret a => rfl
  | raise e => rfl
  | call c k ih =>
    rw [elim_call, translate_call, translate_call, elim_elim]
    congr 1
    · funext a
      exact ih (.ok a)
    · funext e
      exact ih (.error e)

theorem translate_bind (p : Program I ε α) (g : α → Program I ε β) :
    (p >>= g).translate f = p.translate f >>= fun a => (g a).translate f :=
  translate_elim f p g .raise

end

/-- Is there nothing left to do? -/
def finished : Program I ε α → Bool
  | .call _ _ => false
  | _ => true

@[simp] theorem finished_ret (a : α) : (Program.ret a : Program I ε α).finished = true := rfl
@[simp] theorem finished_raise (e : ε) :
    (Program.raise e : Program I ε α).finished = true := rfl
@[simp] theorem finished_call (c : I.Cmd) (k : Except ε (I.Reply c) → Program I ε α) :
    (Program.call c k).finished = false := rfl

/-- The command that is issued next. -/
def head? : Program I ε α → Option I.Cmd
  | .call c _ => some c
  | _ => none

@[simp] theorem head?_ret (a : α) : (Program.ret a : Program I ε α).head? = none := rfl
@[simp] theorem head?_raise (e : ε) : (Program.raise e : Program I ε α).head? = none := rfl
@[simp] theorem head?_call (c : I.Cmd) (k : Except ε (I.Reply c) → Program I ε α) :
    (Program.call c k).head? = some c := rfl

theorem head?_of_finished {p : Program I ε α} (hp : p.finished = true) : p.head? = none := by
  cases p with
  | ret a => rfl
  | raise e => rfl
  | call c k => cases hp

/-! ## Every command answered -/

/-- Run to the end with every command answered. -/
def eval (srv : Server I σ) : Program I ε α → σ → Except ε α × σ
  | .ret a, s => (.ok a, s)
  | .raise e, s => (.error e, s)
  | .call c k, s => eval srv (k (.ok (srv c s).2)) (srv c s).1

@[simp] theorem eval_ret (srv : Server I σ) (a : α) (s : σ) :
    eval srv (.ret a : Program I ε α) s = (.ok a, s) := rfl
@[simp] theorem eval_raise (srv : Server I σ) (e : ε) (s : σ) :
    eval srv (.raise e : Program I ε α) s = (.error e, s) := rfl
@[simp] theorem eval_call (srv : Server I σ) (c : I.Cmd)
    (k : Except ε (I.Reply c) → Program I ε α) (s : σ) :
    eval srv (.call c k) s = eval srv (k (.ok (srv c s).2)) (srv c s).1 := rfl

/-- Evaluation goes on with what the first part came to. -/
theorem eval_elim (srv : Server I σ) (p : Program I ε α) (f : α → Program I ε β)
    (h : ε → Program I ε β) (s : σ) :
    eval srv (p.elim f h) s = match eval srv p s with
      | (.ok a, s') => eval srv (f a) s'
      | (.error e, s') => eval srv (h e) s' := by
  induction p generalizing s with
  | ret a => rfl
  | raise e => rfl
  | call c k ih => exact ih _ _

/-- Evaluation of a sequence is sequential evaluation. -/
theorem eval_bind (srv : Server I σ) (p : Program I ε α) (f : α → Program I ε β) (s : σ) :
    eval srv (p >>= f) s = match eval srv p s with
      | (.ok a, s') => eval srv (f a) s'
      | (.error e, s') => (.error e, s') :=
  eval_elim srv p f .raise s

/-- A sequence that returns is one whose parts do. -/
theorem eval_bind_eq_ok {srv : Server I σ} {p : Program I ε α} {f : α → Program I ε β} {s s' : σ}
    {b : β} : eval srv (p >>= f) s = (.ok b, s') ↔
      ∃ a s₁, eval srv p s = (.ok a, s₁) ∧ eval srv (f a) s₁ = (.ok b, s') := by
  rw [eval_bind]
  rcases eval srv p s with ⟨_ | a, s₁⟩
  · simp
  · simp only [Prod.mk.injEq, Except.ok.injEq, and_assoc]
    constructor
    · intro h
      exact ⟨a, s₁, rfl, rfl, h⟩
    · intro ⟨_, _, rfl, rfl, h⟩
      exact h

theorem eval_answer_eq_ok {srv : Server I σ} {r : Except ε α} {s s' : σ} {a : α} :
    eval srv (answer r) s = (.ok a, s') ↔ r = .ok a ∧ s = s' := by
  cases r <;> simp

/-! ## An outcome for each command -/

/-- Run against a list of outcomes, one for each command.  When the list is used up
the rest of the program is handed back: the client stopped there. -/
def play (srv : Server I σ) : List (Outcome ε) → Program I ε α → σ → Program I ε α × σ
  | [], p, s => (p, s)
  | _ :: _, .ret a, s => (.ret a, s)
  | _ :: _, .raise e, s => (.raise e, s)
  | o :: os, .call c k, s => play srv os (k (srv.perform o c s).2) (srv.perform o c s).1

@[simp] theorem play_nil (srv : Server I σ) (p : Program I ε α) (s : σ) :
    play srv [] p s = (p, s) := rfl
@[simp] theorem play_ret (srv : Server I σ) (os : List (Outcome ε)) (a : α) (s : σ) :
    play srv os (.ret a) s = (.ret a, s) := by cases os <;> rfl
@[simp] theorem play_raise (srv : Server I σ) (os : List (Outcome ε)) (e : ε) (s : σ) :
    play srv os (.raise e : Program I ε α) s = (.raise e, s) := by cases os <;> rfl
@[simp] theorem play_call (srv : Server I σ) (o : Outcome ε) (os : List (Outcome ε))
    (c : I.Cmd) (k : Except ε (I.Reply c) → Program I ε α) (s : σ) :
    play srv (o :: os) (.call c k) s
      = play srv os (k (srv.perform o c s).2) (srv.perform o c s).1 := rfl

/-- Nothing is played of a program with nothing left to do. -/
theorem play_finished (srv : Server I σ) (os : List (Outcome ε)) {p : Program I ε α}
    (hp : p.finished = true) (s : σ) : play srv os p s = (p, s) := by
  cases p with
  | ret a => exact play_ret srv os a s
  | raise e => exact play_raise srv os e s
  | call c k => cases hp

/-- A program followed by continuations without commands is played by playing it. -/
theorem play_elim_finished (srv : Server I σ) (os : List (Outcome ε)) (p : Program I ε α)
    (f : α → Program I ε β) (g : ε → Program I ε β) (s : σ)
    (hf : ∀ a, (f a).finished = true) (hg : ∀ e, (g e).finished = true) :
    play srv os (p.elim f g) s = ((play srv os p s).1.elim f g, (play srv os p s).2) := by
  induction os generalizing p s with
  | nil => rfl
  | cons o os ih =>
    cases p with
    | ret a => exact play_finished srv _ (hf a) _
    | raise e => exact play_finished srv _ (hg e) _
    | call c k => exact ih _ _

/-! ## Every environment -/

/-- The weakest precondition over every environment: `Q` at a return, `E` at an
exception, and `S` at every state on the way, the first and the last included. -/
def wp (srv : Server I σ) (Q : α → σ → Prop) (E : ε → σ → Prop) (S : σ → Prop) :
    Program I ε α → σ → Prop
  | .ret a, s => S s ∧ Q a s
  | .raise e, s => S s ∧ E e s
  | .call c k, s => S s ∧ ∀ o : Outcome ε,
      wp srv Q E S (k (srv.perform o c s).2) (srv.perform o c s).1

variable {srv : Server I σ} {Q Q' : α → σ → Prop} {E E' : ε → σ → Prop} {S S' : σ → Prop}

@[simp] theorem wp_ret (a : α) (s : σ) :
    wp srv Q E S (.ret a) s ↔ S s ∧ Q a s := Iff.rfl
@[simp] theorem wp_raise (e : ε) (s : σ) :
    wp srv Q E S (.raise e) s ↔ S s ∧ E e s := Iff.rfl

/-- A command has three outcomes to consider. -/
@[simp] theorem wp_call (c : I.Cmd) (k : Except ε (I.Reply c) → Program I ε α) (s : σ) :
    wp srv Q E S (.call c k) s ↔ S s ∧
      wp srv Q E S (k (.ok (srv c s).2)) (srv c s).1 ∧
      (∀ e, wp srv Q E S (k (.error e)) s) ∧
      (∀ e, wp srv Q E S (k (.error e)) (srv c s).1) := by
  refine and_congr_right fun _ => ⟨fun h => ⟨h .ok, fun e => h (.refused e),
    fun e => h (.lost e)⟩, ?_⟩
  rintro ⟨hok, hrefused, hlost⟩ (_ | e | e)
  · exact hok
  · exact hrefused e
  · exact hlost e

/-- The rule for a program followed by either of two continuations. -/
theorem wp_elim {Q : β → σ → Prop} (p : Program I ε α) (f : α → Program I ε β)
    (h : ε → Program I ε β) (s : σ)
    (hp : wp srv (fun a => wp srv Q E S (f a)) (fun e => wp srv Q E S (h e)) S p s) :
    wp srv Q E S (p.elim f h) s := by
  induction p generalizing s with
  | ret a => exact hp.2
  | raise e => exact hp.2
  | call c k ih => exact ⟨hp.1, fun o => ih _ _ (hp.2 o)⟩

/-- The rule of sequencing. -/
theorem wp_bind {Q : β → σ → Prop} (p : Program I ε α) (f : α → Program I ε β) (s : σ)
    (hp : wp srv (fun a => wp srv Q E S (f a)) (fun e s => S s ∧ E e s) S p s) :
    wp srv Q E S (p >>= f) s :=
  wp_elim p f .raise s hp

/-- The rule of consequence. -/
theorem wp_mono (p : Program I ε α) (s : σ) (hQ : ∀ a s, S s → Q a s → Q' a s)
    (hE : ∀ e s, S s → E e s → E' e s) (hS : ∀ s, S s → S' s)
    (hp : wp srv Q E S p s) : wp srv Q' E' S' p s := by
  induction p generalizing s with
  | ret a => exact ⟨hS _ hp.1, hQ _ _ hp.1 hp.2⟩
  | raise e => exact ⟨hS _ hp.1, hE _ _ hp.1 hp.2⟩
  | call c k ih => exact ⟨hS _ hp.1, fun o => ih _ _ (hp.2 o)⟩

/-- `wp` speaks about every list of outcomes. -/
theorem wp.play {p : Program I ε α} {s : σ} (hp : wp srv Q E S p s)
    (os : List (Outcome ε)) :
    wp srv Q E S (Program.play srv os p s).1 (Program.play srv os p s).2 := by
  induction os generalizing p s with
  | nil => exact hp
  | cons o os ih =>
    cases p with
    | ret a => exact hp
    | raise e => exact hp
    | call c k => exact ih (hp.2 o)

/-- Wherever the client stands, the intermediate assertion holds. -/
theorem wp.here {p : Program I ε α} {s : σ} (hp : wp srv Q E S p s) : S s := by
  cases p <;> exact hp.1

/-- The intermediate assertion holds at the end of every attempt. -/
theorem wp.state_play {p : Program I ε α} {s : σ} (hp : wp srv Q E S p s)
    (os : List (Outcome ε)) : S (Program.play srv os p s).2 :=
  (hp.play os).here

/-! ## Invariants of one client -/

/-- Wherever it starts in `S`, the client keeps the server in `S`. -/
def Keeps (srv : Server I σ) (S : σ → Prop) (p : Program I ε α) : Prop :=
  ∀ s, S s → wp srv (fun _ => S) (fun _ => S) S p s

theorem keeps_ret (a : α) : Keeps srv S (.ret a : Program I ε α) := fun _ hs => ⟨hs, hs⟩

theorem keeps_raise (e : ε) : Keeps srv S (.raise e : Program I ε α) := fun _ hs => ⟨hs, hs⟩

/-- A command whose effect keeps the invariant, and continuations that keep it. -/
theorem keeps_call {c : I.Cmd} {k : Except ε (I.Reply c) → Program I ε α}
    (hc : ∀ s, S s → S (srv c s).1) (hk : ∀ r, Keeps srv S (k r)) :
    Keeps srv S (.call c k) := by
  intro s hs
  refine ⟨hs, fun o => ?_⟩
  cases o with
  | ok => exact hk _ _ (hc s hs)
  | refused e => exact hk _ _ hs
  | lost e => exact hk _ _ (hc s hs)

theorem keeps_answer (r : Except ε α) : Keeps srv S (answer r : Program I ε α) := by
  cases r with
  | ok a => exact keeps_ret a
  | error e => exact keeps_raise e

theorem keeps_command {c : I.Cmd} (hc : ∀ s, S s → S (srv c s).1) :
    Keeps srv S (command c : Program I ε (I.Reply c)) :=
  keeps_call hc keeps_answer

theorem keeps_elim {p : Program I ε α} {f : α → Program I ε β} {h : ε → Program I ε β}
    (hp : Keeps srv S p) (hf : ∀ a, Keeps srv S (f a)) (hh : ∀ e, Keeps srv S (h e)) :
    Keeps srv S (p.elim f h) := fun s hs =>
  wp_elim p f h s (wp_mono p s (fun a s' _ h' => hf a s' h') (fun e s' _ h' => hh e s' h')
    (fun _ h' => h') (hp s hs))

theorem keeps_bind {p : Program I ε α} {f : α → Program I ε β}
    (hp : Keeps srv S p) (hf : ∀ a, Keeps srv S (f a)) : Keeps srv S (p >>= f) :=
  keeps_elim hp hf keeps_raise

theorem keeps_tryCatch {p : Program I ε α} {h : ε → Program I ε α}
    (hp : Keeps srv S p) (hh : ∀ e, Keeps srv S (h e)) :
    Keeps srv S (MonadExcept.tryCatch p h) :=
  keeps_elim hp keeps_ret hh

/-- An invariant that a client keeps holds after every attempt at it. -/
theorem Keeps.play {p : Program I ε α} (hp : Keeps srv S p) {s : σ} (hs : S s)
    (os : List (Outcome ε)) : S (Program.play srv os p s).2 :=
  (hp s hs).state_play os

/-- An invariant that a client keeps holds after all of it. -/
theorem Keeps.eval {p : Program I ε α} (hp : Keeps srv S p) {s : σ} (hs : S s) :
    S (Program.eval srv p s).2 := by
  have hwp := hp s hs
  clear hp hs
  induction p generalizing s with
  | ret a => exact hwp.1
  | raise e => exact hwp.1
  | call c k ih => exact ih _ (hwp.2 .ok)

/-- What was not so before, and is kept once it is so, is never undone. -/
theorem Keeps.play_ne {p : Program I ε α} (hp : Keeps srv S p) {s s₀ : σ} (hs : S s)
    (hs₀ : ¬ S s₀) (os : List (Outcome ε)) : (Program.play srv os p s).2 ≠ s₀ :=
  fun h => hs₀ (h ▸ hp.play hs os)

/-! ## The commands of a client -/

/-- Every command the client may ever issue satisfies `A`. -/
def Uses (A : I.Cmd → Prop) : Program I ε α → Prop
  | .ret _ | .raise _ => True
  | .call c k => A c ∧ ∀ r, Uses A (k r)

variable {A : I.Cmd → Prop}

theorem uses_ret (a : α) : Uses A (.ret a : Program I ε α) := trivial

theorem uses_raise (e : ε) : Uses A (.raise e : Program I ε α) := trivial

theorem uses_answer (r : Except ε α) : Uses A (answer r : Program I ε α) := by
  cases r <;> trivial

theorem uses_command {c : I.Cmd} (hc : A c) : Uses A (command c : Program I ε (I.Reply c)) :=
  ⟨hc, uses_answer⟩

theorem uses_elim {p : Program I ε α} {f : α → Program I ε β} {h : ε → Program I ε β}
    (hp : Uses A p) (hf : ∀ a, Uses A (f a)) (hh : ∀ e, Uses A (h e)) : Uses A (p.elim f h) := by
  induction p with
  | ret a => exact hf a
  | raise e => exact hh e
  | call c k ih => exact ⟨hp.1, fun r => ih r (hp.2 r)⟩

theorem uses_bind {p : Program I ε α} {f : α → Program I ε β} (hp : Uses A p)
    (hf : ∀ a, Uses A (f a)) : Uses A (p >>= f) :=
  uses_elim hp hf uses_raise

theorem uses_tryCatch {p : Program I ε α} {h : ε → Program I ε α} (hp : Uses A p)
    (hh : ∀ e, Uses A (h e)) : Uses A (MonadExcept.tryCatch p h) :=
  uses_elim hp uses_ret hh

theorem Uses.mono {B : I.Cmd → Prop} {p : Program I ε α} (hp : Uses A p)
    (h : ∀ c, A c → B c) : Uses B p := by
  induction p with
  | ret a => trivial
  | raise e => trivial
  | call c k ih => exact ⟨h c hp.1, fun r => ih r (hp.2 r)⟩

/-- A client keeps what each of its commands keeps. -/
theorem Uses.keeps {p : Program I ε α} (hp : Uses A p)
    (hc : ∀ c, A c → ∀ s, S s → S (srv c s).1) : Keeps srv S p := by
  induction p with
  | ret a => exact keeps_ret a
  | raise e => exact keeps_raise e
  | call c k ih => exact keeps_call (hc c hp.1) fun r => ih r (hp.2 r)

theorem uses_true (p : Program I ε α) : Uses (fun _ => True) p := by
  induction p with
  | ret a => trivial
  | raise e => trivial
  | call c k ih => exact ⟨trivial, ih⟩

/-- A command that satisfies `A` is the last one. -/
def Closes (A : I.Cmd → Prop) : Program I ε α → Prop
  | .ret _ | .raise _ => True
  | .call c k => (A c → ∀ r, (k r).finished = true) ∧ ∀ r, Closes A (k r)

/-- A part without such a command may come first. -/
theorem closes_elim {p : Program I ε α} {f : α → Program I ε β} {h : ε → Program I ε β}
    (hp : p.Uses fun c => ¬ A c) (hf : ∀ a, (f a).Closes A) (hh : ∀ e, (h e).Closes A) :
    (p.elim f h).Closes A := by
  induction p with
  | ret a => exact hf a
  | raise e => exact hh e
  | call c k ih => exact ⟨fun hc => absurd hc hp.1, fun r => ih r (hp.2 r)⟩

theorem closes_bind {p : Program I ε α} {f : α → Program I ε β} (hp : p.Uses fun c => ¬ A c)
    (hf : ∀ a, (f a).Closes A) : (p >>= f).Closes A :=
  closes_elim hp hf fun _ => trivial

/-- An invariant of every command is kept by every client. -/
theorem keeps_of_server (hc : ∀ c s, S s → S (srv c s).1) (p : Program I ε α) :
    Keeps srv S p :=
  (uses_true p).keeps fun c _ => hc c

/-- What no command undoes holds at the end if the first part brings it about. -/
theorem eval_elim_of_server (hc : ∀ c s, S s → S (srv c s).1) {p : Program I ε α}
    {f : α → Program I ε β} {h : ε → Program I ε β} {s : σ} (hp : S (eval srv p s).2) :
    S (eval srv (p.elim f h) s).2 := by
  rw [eval_elim]
  split
  · next a s' heq => exact (keeps_of_server hc (f a)).eval (by simpa [heq] using hp)
  · next e s' heq => exact (keeps_of_server hc (h e)).eval (by simpa [heq] using hp)

end Program
end Interaction
