import DoxAsdlc.Interaction.Contract

/-!
# Transcripts of one client

Everything that a client may do from its beginning to its end is told by what it exchanged with
its environment and what it came to.  No environment is singled out: any answer, and any
exception, may come back to any command.

Where the commands of a client are carried out by other clients, a transcript of the whole is
made of one transcript for each command.

## Main definitions

* `Program.Yields` — a transcript of a client, and its result.
* `Program.conversation` — the transcript of a client in an environment that answers by what went before.
* `Program.Parts` — the transcript of a client by the commands of another one.
-/

namespace Interaction.Program

variable {I : Interface} {ε α β : Type}

/-- The client may exchange `h` with its environment and come to `r`. -/
def Yields : Program I ε α → List (Exchange I ε) → Except ε α → Prop
  | .ret a, h, r => h = [] ∧ r = .ok a
  | .raise e, h, r => h = [] ∧ r = .error e
  | .call c k, h, r => ∃ reply b h', h = ⟨c, reply, b⟩ :: h' ∧ Yields (k reply) h' r

@[simp] theorem yields_ret (a : α) (h : List (Exchange I ε)) (r : Except ε α) :
    (.ret a : Program I ε α).Yields h r ↔ h = [] ∧ r = .ok a := Iff.rfl
@[simp] theorem yields_raise (e : ε) (h : List (Exchange I ε)) (r : Except ε α) :
    (.raise e : Program I ε α).Yields h r ↔ h = [] ∧ r = .error e := Iff.rfl
@[simp] theorem yields_call (c : I.Cmd) (k : Except ε (I.Reply c) → Program I ε α)
    (h : List (Exchange I ε)) (r : Except ε α) :
    (Program.call c k).Yields h r ↔
      ∃ reply b h', h = ⟨c, reply, b⟩ :: h' ∧ (k reply).Yields h' r := Iff.rfl

variable {A : Exchange I ε → Prop} {J : List (Exchange I ε) → Prop}
  {Q : Except ε α → List (Exchange I ε) → Prop}

/-- What a contract promises holds at the end of every transcript that it allows. -/
theorem Obeys.of_yields {p : Program I ε α} {past h : List (Exchange I ε)} {r : Except ε α}
    (hp : p.Obeys A J Q past) (hA : ∀ x ∈ h, A x) (hrun : p.Yields h r) : Q r (past ++ h) := by
  induction p generalizing past h with
  | ret a =>
    obtain ⟨rfl, rfl⟩ := hrun
    simpa using hp.2
  | raise e =>
    obtain ⟨rfl, rfl⟩ := hrun
    simpa using hp.2
  | call c k ih =>
    obtain ⟨reply, b, h', rfl, hrest⟩ := hrun
    have hnext := hp.2 reply b (hA _ List.mem_cons_self)
    simpa using ih reply hnext (fun x hx => hA x (List.mem_cons_of_mem _ hx)) hrest

/-- What a contract without conditions promises of the result holds in every transcript. -/
theorem Meets.of_yields {R : α → Prop} {p : Program I ε α}
    (hp : p.Meets (fun _ _ => True) (fun _ => True) R) {h : List (Exchange I ε)} {a : α}
    (hrun : p.Yields h (.ok a)) : R a := by
  induction p generalizing h with
  | ret a' =>
    obtain ⟨-, ha⟩ := hrun
    cases ha
    exact hp
  | raise e =>
    obtain ⟨-, ha⟩ := hrun
    cases ha
  | call c k ih =>
    obtain ⟨reply, b, h', rfl, hrest⟩ := hrun
    exact ih reply (hp.2 reply trivial) hrest

/-- A transcript of a client and its continuation. -/
theorem yields_elim {p : Program I ε α} {f : α → Program I ε β} {g : ε → Program I ε β}
    {h : List (Exchange I ε)} {r : Except ε β} :
    (p.elim f g).Yields h r ↔ ∃ h₁ h₂ r₁, h = h₁ ++ h₂ ∧ p.Yields h₁ r₁ ∧
      (match r₁ with | .ok a => f a | .error e => g e).Yields h₂ r := by
  induction p generalizing h with
  | ret a =>
    constructor
    · intro hf
      exact ⟨[], h, .ok a, rfl, ⟨rfl, rfl⟩, hf⟩
    · rintro ⟨h₁, h₂, r₁, rfl, ⟨rfl, rfl⟩, hf⟩
      exact hf
  | raise e =>
    constructor
    · intro hg
      exact ⟨[], h, .error e, rfl, ⟨rfl, rfl⟩, hg⟩
    · rintro ⟨h₁, h₂, r₁, rfl, ⟨rfl, rfl⟩, hg⟩
      exact hg
  | call c k ih =>
    constructor
    · rintro ⟨reply, b, h', rfl, hrest⟩
      obtain ⟨h₁, h₂, r₁, rfl, hp, hrest⟩ := (ih reply).mp hrest
      exact ⟨_ :: h₁, h₂, r₁, rfl, ⟨reply, b, h₁, rfl, hp⟩, hrest⟩
    · rintro ⟨_, h₂, r₁, rfl, ⟨reply, b, h₁, rfl, hp⟩, hrest⟩
      exact ⟨reply, b, h₁ ++ h₂, rfl, (ih reply).mpr ⟨h₁, h₂, r₁, rfl, hp, hrest⟩⟩

/-- What a client exchanges with an environment that answers by what went before, and what it comes
to. -/
def conversation (answers : List (Exchange I ε) → (c : I.Cmd) → Except ε (I.Reply c)) :
    Program I ε α → List (Exchange I ε) → List (Exchange I ε) × Except ε α
  | .ret a, _ => ([], .ok a)
  | .raise e, _ => ([], .error e)
  | .call c k, past =>
    let x : Exchange I ε := ⟨c, answers past c, true⟩
    let rest := conversation answers (k (answers past c)) (past ++ [x])
    (x :: rest.1, rest.2)

/-- **Every client comes to an end**, whatever it is answered. -/
theorem yields_conversation (answers : List (Exchange I ε) → (c : I.Cmd) → Except ε (I.Reply c))
    (p : Program I ε α) (past : List (Exchange I ε)) :
    p.Yields (p.conversation answers past).1 (p.conversation answers past).2 := by
  induction p generalizing past with
  | ret a => exact ⟨rfl, rfl⟩
  | raise e => exact ⟨rfl, rfl⟩
  | call c k ih => exact ⟨_, true, _, rfl, ih _ _⟩

/-- Every exchange is as `P` allows after what went before. -/
def Preceded (P : List (Exchange I ε) → Exchange I ε → Prop) :
    List (Exchange I ε) → List (Exchange I ε) → Prop
  | _, [] => True
  | past, x :: h => P past x ∧ Preceded P (past ++ [x]) h

theorem preceded_append {P : List (Exchange I ε) → Exchange I ε → Prop}
    {past h₁ h₂ : List (Exchange I ε)} :
    Preceded P past (h₁ ++ h₂) ↔ Preceded P past h₁ ∧ Preceded P (past ++ h₁) h₂ := by
  induction h₁ generalizing past with
  | nil => simp [Preceded]
  | cons x h₁ ih => simp [Preceded, ih, and_assoc]

/-- The exchanges of a transcript, one by one. -/
theorem preceded_iff {P : List (Exchange I ε) → Exchange I ε → Prop} {past h : List (Exchange I ε)} :
    Preceded P past h ↔ ∀ before x after, h = before ++ x :: after → P (past ++ before) x := by
  constructor
  · intro hP before x after hh
    rw [hh, preceded_append] at hP
    exact hP.2.1
  · intro hP
    induction h generalizing past with
    | nil => trivial
    | cons y h ih =>
      refine ⟨by simpa using hP [] y h rfl, ih fun before x after hh => ?_⟩
      simpa using hP (y :: before) x after (by rw [hh]; rfl)

/-- The exchanges of a client, each with the transcript of the client that carries it out. -/
abbrev Parts (I J : Interface) (ε : Type) := List (Exchange I ε × List (Exchange J ε))

/-- Every command of the transcript is carried out. -/
def Carried {J : Interface} (f : (c : I.Cmd) → Program J ε (I.Reply c)) (parts : Parts I J ε) :
    Prop :=
  ∀ part ∈ parts, (f part.1.cmd).Yields part.2 part.1.reply

/-- **Transcripts of a translation** are those of the client, with each command carried out. -/
theorem yields_translate {J : Interface} {f : (c : I.Cmd) → Program J ε (I.Reply c)}
    {p : Program I ε α} {h : List (Exchange J ε)} {r : Except ε α} :
    (p.translate f).Yields h r ↔ ∃ parts : Parts I J ε, p.Yields (parts.map Prod.fst) r ∧
      Carried f parts ∧ h = (parts.map Prod.snd).flatten := by
  induction p generalizing h with
  | ret a =>
    constructor
    · rintro ⟨rfl, rfl⟩
      exact ⟨[], ⟨rfl, rfl⟩, by simp [Carried], rfl⟩
    · rintro ⟨parts, ⟨hparts, rfl⟩, -, rfl⟩
      simp [List.map_eq_nil_iff.mp hparts]
  | raise e =>
    constructor
    · rintro ⟨rfl, rfl⟩
      exact ⟨[], ⟨rfl, rfl⟩, by simp [Carried], rfl⟩
    · rintro ⟨parts, ⟨hparts, rfl⟩, -, rfl⟩
      simp [List.map_eq_nil_iff.mp hparts]
  | call c k ih =>
    rw [translate_call, yields_elim]
    constructor
    · rintro ⟨h₁, h₂, r₁, rfl, hf, hrest⟩
      obtain ⟨parts, hp, hparts, rfl⟩ : ∃ parts : Parts I J ε,
          (k r₁).Yields (parts.map Prod.fst) r ∧ Carried f parts ∧
            h₂ = (parts.map Prod.snd).flatten := by
        cases r₁ with
        | ok a => exact (ih _).mp hrest
        | error e => exact (ih _).mp hrest
      refine ⟨(⟨c, r₁, true⟩, h₁) :: parts, ⟨r₁, true, _, rfl, hp⟩, ?_, rfl⟩
      exact List.forall_mem_cons.mpr ⟨hf, hparts⟩
    · rintro ⟨parts, ⟨reply, b, h', hparts, hp⟩, hcarried, rfl⟩
      obtain ⟨⟨x, h₁⟩, parts, rfl, hx, rfl⟩ := List.map_eq_cons_iff.mp hparts
      subst hx
      obtain ⟨hf, hrest⟩ := List.forall_mem_cons.mp hcarried
      refine ⟨h₁, _, reply, rfl, hf, ?_⟩
      cases reply with
      | ok a => exact (ih _).mpr ⟨parts, hp, hrest, rfl⟩
      | error e => exact (ih _).mpr ⟨parts, hp, hrest, rfl⟩

end Interaction.Program
