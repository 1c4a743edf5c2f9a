import DoxAsdlc.Interaction.Pool

/-!
# Clients apart from the others

Some clients of a pool form a party.  Where no command of the others changes what the commands
of the party are answered from, the party is not aware of them: its clients end as they would
have ended in a run of the same steps from which those of the others are left out, and they leave
the same behind.

The two runs are related by a relation on stores, and by one on programs that are in the midst of
what they do.  Answers need not be the same in both runs where the clients make nothing of the
difference, and two stores may differ in what no answer shows.

## Main definitions

* `Program.outcome?` — what a program has come to.
* `Program.Alike` — two programs that no difference between answers tells apart.
* `Separates` — a relation on stores that own commands keep together and foreign ones alone.
* `Action.own`, `Config.Shadows` — the steps of the party, and the pool without the others.
-/

namespace Interaction

namespace Program

variable {I : Interface} {ε α β γ δ : Type}

/-- What a program has come to, when it has come to its end. -/
def outcome? : Program I ε α → Option (Except ε α)
  | .ret a => some (.ok a)
  | .raise e => some (.error e)
  | .call _ _ => none

@[simp] theorem outcome?_ret (a : α) : (ret a : Program I ε α).outcome? = some (.ok a) := rfl
@[simp] theorem outcome?_raise (e : ε) :
    (raise e : Program I ε α).outcome? = some (.error e) := rfl
@[simp] theorem outcome?_call (c : I.Cmd) (k : Except ε (I.Reply c) → Program I ε α) :
    (call c k).outcome? = none := rfl

/-- A function of the result leaves the same behind. -/
theorem eval_map_snd {σ : Type} (srv : Server I σ) (f : α → γ) (p : Program I ε α) (s : σ) :
    ((f <$> p).eval srv s).2 = (p.eval srv s).2 := by
  rw [map_eq, eval_elim]
  split <;> simp [*]

/-- Two programs that issue the same commands, each of them an own one, as long as they get the
same exceptions and answers that are alike, and that end alike. -/
inductive Alike (Own : I.Cmd → Prop) (Rep : (c : I.Cmd) → I.Reply c → I.Reply c → Prop)
    (A : α → β → Prop) : Program I ε α → Program I ε β → Prop where
  | ret {a : α} {b : β} (h : A a b) : Alike Own Rep A (.ret a) (.ret b)
  | raise (e : ε) : Alike Own Rep A (.raise e) (.raise e)
  | call {c : I.Cmd} {k : Except ε (I.Reply c) → Program I ε α}
      {k' : Except ε (I.Reply c) → Program I ε β} (own : Own c)
      (ok : ∀ a b, Rep c a b → Alike Own Rep A (k (.ok a)) (k' (.ok b)))
      (error : ∀ e, Alike Own Rep A (k (.error e)) (k' (.error e))) :
      Alike Own Rep A (.call c k) (.call c k')

variable {Own : I.Cmd → Prop} {Rep : (c : I.Cmd) → I.Reply c → I.Reply c → Prop}
  {A : α → β → Prop} {B : γ → δ → Prop} {p : Program I ε α} {q : Program I ε β}

/-- The rule for programs followed by either of two continuations. -/
theorem Alike.elim (h : Alike Own Rep A p q) {f : α → Program I ε γ} {f' : β → Program I ε δ}
    {g g' : ε → Program I ε _} (hf : ∀ a b, A a b → Alike Own Rep B (f a) (f' b))
    (hg : ∀ e, Alike Own Rep B (g e) (g' e)) :
    Alike Own Rep B (p.elim f g) (q.elim f' g') := by
  induction h with
  | ret h => exact hf _ _ h
  | raise e => exact hg e
  | call own _ _ hok herror => exact .call own hok herror

/-- The rule of sequencing. -/
theorem Alike.bind (h : Alike Own Rep A p q) {f : α → Program I ε γ} {f' : β → Program I ε δ}
    (hf : ∀ a b, A a b → Alike Own Rep B (f a) (f' b)) :
    Alike Own Rep B (p >>= f) (q >>= f') :=
  h.elim hf .raise

theorem Alike.map (h : Alike Own Rep A p q) {f : α → γ} {f' : β → δ}
    (hf : ∀ a b, A a b → B (f a) (f' b)) : Alike Own Rep B (f <$> p) (f' <$> q) :=
  h.elim (fun a b hab => .ret (hf a b hab)) .raise

/-- The rule for what is no command. -/
theorem alike_answer (r : Except ε α) :
    Alike Own Rep Eq (answer r : Program I ε α) (answer r) := by
  cases r with
  | ok a => exact .ret rfl
  | error e => exact .raise e

/-- The rule for one command. -/
theorem alike_command {c : I.Cmd} (hc : Own c) :
    Alike Own Rep (Rep c) (command c : Program I ε (I.Reply c)) (command c) :=
  .call hc (fun _ _ h => .ret h) fun e => .raise e

theorem Alike.mono {A' : α → β → Prop} (h : Alike Own Rep A p q)
    (hA : ∀ a b, A a b → A' a b) : Alike Own Rep A' p q := by
  induction h with
  | ret h => exact .ret (hA _ _ h)
  | raise e => exact .raise e
  | call own _ _ hok herror => exact .call own hok herror

/-- Programs that are alike have come to the same. -/
theorem Alike.outcome? {p q : Program I ε α} (h : Alike Own Rep Eq p q) :
    p.outcome? = q.outcome? := by
  cases h with
  | ret h => rw [h]
  | raise e => rfl
  | call => rfl

/-- The commands of a program that is like another one are its own. -/
theorem Alike.uses (h : Alike Own Rep A p q) (hrefl : ∀ c a, Rep c a a) : p.Uses Own := by
  induction h with
  | ret h => exact uses_ret _
  | raise e => exact uses_raise e
  | call own _ _ hok herror =>
    refine ⟨own, ?_⟩
    intro r
    cases r with
    | ok a => exact hok a a (hrefl _ a)
    | error e => exact herror e

end Program

open Program

/-! ## Stores that the party cannot tell apart -/

section

variable {I : Interface} {σ ε α ι E : Type}

/-- A relation on stores that own commands keep when they are carried out on both sides, with
answers that are alike, and foreign ones when they are carried out on the left alone. -/
structure Separates (srv : Server I σ) (Own Foreign : I.Cmd → Prop)
    (Rep : (c : I.Cmd) → I.Reply c → I.Reply c → Prop) (S : σ → σ → Prop) : Prop where
  own : ∀ c s t, Own c → S s t → S (srv c s).1 (srv c t).1
  reply : ∀ c s t, Own c → S s t → Rep c (srv c s).2 (srv c t).2
  foreign : ∀ c s t, Foreign c → S s t → S (srv c s).1 t

variable {srv : Server I σ} {env : E → σ → σ} {Own Foreign : I.Cmd → Prop}
  {Rep : (c : I.Cmd) → I.Reply c → I.Reply c → Prop} {S : σ → σ → Prop}

/-- A foreign command keeps the relation under every outcome. -/
theorem Separates.perform_foreign (h : Separates srv Own Foreign Rep S) (o : Outcome ε)
    {c : I.Cmd} (hc : Foreign c) {s t : σ} (hst : S s t) : S (srv.perform o c s).1 t := by
  cases o with
  | refused e => exact hst
  | ok => exact h.foreign c s t hc hst
  | lost e => exact h.foreign c s t hc hst

/-- An own command keeps the relation under every outcome. -/
theorem Separates.perform_own (h : Separates srv Own Foreign Rep S) (o : Outcome ε)
    {c : I.Cmd} (hc : Own c) {s t : σ} (hst : S s t) :
    S (srv.perform o c s).1 (srv.perform o c t).1 := by
  cases o with
  | refused e => exact hst
  | ok => exact h.own c s t hc hst
  | lost e => exact h.own c s t hc hst

/-- Programs that are alike go on alike after an own command. -/
theorem Separates.resume (h : Separates srv Own Foreign Rep S) (o : Outcome ε) {c : I.Cmd}
    {k k' : Except ε (I.Reply c) → Program I ε α} (hc : Own c) {s t : σ} (hst : S s t)
    (hok : ∀ a b, Rep c a b → Alike Own Rep Eq (k (.ok a)) (k' (.ok b)))
    (herror : ∀ e, Alike Own Rep Eq (k (.error e)) (k' (.error e))) :
    Alike Own Rep Eq (k (srv.perform o c s).2) (k' (srv.perform o c t).2) := by
  cases o with
  | refused e => exact herror e
  | ok => exact hok _ _ (h.reply c s t hc hst)
  | lost e => exact herror e

/-! ## The pool without the others -/

/-- Is it a step of a client of the party? -/
def Action.own (party : ι → Bool) : Action ι ε E → Bool
  | .run j _ | .stop j => party j
  | .env _ => false

/-- The party stands alike in two pools, and no other client of the first one issues a command
that is not foreign. -/
structure Config.Shadows (party : ι → Bool) (Own Foreign : I.Cmd → Prop)
    (Rep : (c : I.Cmd) → I.Reply c → I.Reply c → Prop) (S : σ → σ → Prop)
    (cfg cfg' : Config I σ ε α ι) : Prop where
  store : S cfg.store cfg'.store
  threads : ∀ j, party j = true → Alike Own Rep Eq (cfg.threads j) (cfg'.threads j)
  stopped : ∀ j, party j = true → cfg.stopped j = cfg'.stopped j
  others : ∀ j, party j = false → (cfg.threads j).Uses Foreign

variable {party : ι → Bool} {cfg cfg' : Config I σ ε α ι}

theorem Config.shadows_start {s t : σ} {calls : ι → Program I ε α} (hst : S s t)
    (hparty : ∀ j, party j = true → Alike Own Rep Eq (calls j) (calls j))
    (hothers : ∀ j, party j = false → (calls j).Uses Foreign) :
    Shadows party Own Foreign Rep S (start s calls) (start t calls) :=
  ⟨hst, hparty, fun _ _ => rfl, hothers⟩

variable [DecidableEq ι]

/-- A step of the party is taken in both pools. -/
theorem Config.Shadows.step_own (h : Shadows party Own Foreign Rep S cfg cfg')
    (hsep : Separates srv Own Foreign Rep S) {a : Action ι ε E} (ha : a.own party = true) :
    Shadows party Own Foreign Rep S (cfg.step srv env a) (cfg'.step srv env a) := by
  cases a with
  | env e => cases ha
  | stop j =>
    refine ⟨h.store, h.threads, ?_, h.others⟩
    intro i hi
    simp only [step, Function.update_apply, h.stopped i hi]
  | run j o =>
    have hj : party j = true := ha
    simp only [step, ← h.stopped j hj]
    split
    case isTrue => exact h
    case isFalse =>
      have halike := h.threads j hj
      generalize hp : cfg.threads j = p at halike
      generalize hp' : cfg'.threads j = p' at halike
      cases halike with
      | ret => exact h
      | raise => exact h
      | call own ok error =>
        refine ⟨hsep.perform_own o own h.store, ?_, h.stopped, ?_⟩
        · intro i hi
          by_cases hij : i = j
          · subst hij
            simpa [exchange] using hsep.resume o own h.store ok error
          · simpa [exchange, hij] using h.threads i hi
        · intro i hi
          have hij : i ≠ j := by
            rintro rfl
            simp [hj] at hi
          simpa [exchange, hij] using h.others i hi

/-- A step of another client, or of the environment, is taken in the first pool alone. -/
theorem Config.Shadows.step_foreign (h : Shadows party Own Foreign Rep S cfg cfg')
    (hsep : Separates srv Own Foreign Rep S) (henv : ∀ e s t, S s t → S (env e s) t)
    {a : Action ι ε E} (ha : a.own party = false) :
    Shadows party Own Foreign Rep S (cfg.step srv env a) cfg' := by
  rcases step_cases srv env cfg a with ⟨j, o, c, k, rfl, -, hthread, -, hstep⟩ | ⟨j, o, rfl, -, hstep⟩ |
    ⟨j, rfl, hstep⟩ | ⟨e, rfl, hstep⟩ <;> rw [hstep]
  · -- one of the others issues a command
    have hj : party j = false := ha
    have huses := h.others j hj
    rw [hthread] at huses
    refine ⟨hsep.perform_foreign o huses.1 h.store, ?_, h.stopped, ?_⟩
    · intro i hi
      have hij : i ≠ j := by
        rintro rfl
        simp [hj] at hi
      simpa [exchange, hij] using h.threads i hi
    · intro i hi
      by_cases hij : i = j
      · subst hij
        simpa [exchange] using huses.2 _
      · simpa [exchange, hij] using h.others i hi
  · exact h
  · refine ⟨h.store, h.threads, ?_, h.others⟩
    intro i hi
    have hij : i ≠ j := by
      rintro rfl
      have hj : party i = false := ha
      simp [hj] at hi
    simpa [hij] using h.stopped i hi
  · exact ⟨henv e _ _ h.store, h.threads, h.stopped, h.others⟩

/-- **The party does not see the others.**  Whatever the order of the steps and whatever fails,
the party stands where it would stand if its own steps alone had been taken. -/
theorem Config.Shadows.run (h : Shadows party Own Foreign Rep S cfg cfg')
    (hsep : Separates srv Own Foreign Rep S) (henv : ∀ e s t, S s t → S (env e s) t)
    (as : List (Action ι ε E)) :
    Shadows party Own Foreign Rep S (Interaction.run (Config.step srv env) cfg as)
      (Interaction.run (Config.step srv env) cfg' (as.filter (Action.own party))) := by
  induction as generalizing cfg cfg' with
  | nil => exact h
  | cons a as ih =>
    cases ha : a.own party with
    | true =>
      rw [List.filter_cons_of_pos ha]
      exact ih (h.step_own hsep ha)
    | false =>
      rw [List.filter_cons_of_neg (by simp [ha])]
      exact ih (h.step_foreign hsep henv ha)

end

end Interaction
