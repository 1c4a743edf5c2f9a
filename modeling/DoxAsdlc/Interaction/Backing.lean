import DoxAsdlc.Interaction.Sum

/-!
# Commands that rely on facts

A client issues some commands only after it has brought about a fact, such as a value that it
has written.  Where no step undoes a fact, the fact still holds in the shared store when the
command is carried out, whatever the other clients do.

## Main definitions

* `Program.Backed` — what a client relies on is what it has brought about.
* `Config.Backing` — every client relies on facts that hold in the store.
-/

namespace Interaction

namespace Program

variable {I J : Interface} {ε α β G : Type}

/-- With the facts of `K` at hand, every command relies on facts that are at hand by then: those
that the answered commands before it have brought about.  At the end `Q` holds of the result
and the facts. -/
def Backed (earns owes : I.Cmd → G → Prop) (Q : α → Set G → Prop) :
    Program I ε α → Set G → Prop
  | .ret a, K => Q a K
  | .raise _, _ => True
  | .call c k, K => (∀ g, owes c g → g ∈ K) ∧
      (∀ a, Backed earns owes Q (k (.ok a)) (K ∪ {g | earns c g})) ∧
      ∀ e, Backed earns owes Q (k (.error e)) K

variable {earns owes : I.Cmd → G → Prop} {Q Q' : α → Set G → Prop} {R : β → Set G → Prop}
  {K K' : Set G}

theorem backed_answer {r : Except ε α} (h : ∀ a, r = .ok a → Q a K) :
    (answer r : Program I ε α).Backed earns owes Q K := by
  cases r with
  | ok a => exact h a rfl
  | error e => trivial

theorem backed_command {c : I.Cmd} {Q : I.Reply c → Set G → Prop} (hc : ∀ g, owes c g → g ∈ K)
    (h : ∀ a, Q a (K ∪ {g | earns c g})) :
    (command c : Program I ε (I.Reply c)).Backed earns owes Q K :=
  ⟨hc, h, fun _ => trivial⟩

/-- The rule of sequencing. -/
theorem backed_bind {p : Program I ε α} {f : α → Program I ε β}
    (hp : p.Backed earns owes (fun a K => (f a).Backed earns owes R K) K) :
    (p >>= f).Backed earns owes R K := by
  induction p generalizing K with
  | ret a => exact hp
  | raise e => trivial
  | call c k ih => exact ⟨hp.1, fun a => ih _ (hp.2.1 a), fun e => ih _ (hp.2.2 e)⟩

/-- A client may have more facts at hand. -/
theorem Backed.mono {p : Program I ε α} (hp : p.Backed earns owes Q K) (hK : K ⊆ K')
    (hQ : ∀ a K K', K ⊆ K' → Q a K → Q' a K') : p.Backed earns owes Q' K' := by
  induction p generalizing K K' with
  | ret a => exact hQ a K K' hK hp
  | raise e => trivial
  | call c k ih =>
    refine ⟨fun g hg => hK (hp.1 g hg), fun a => ?_, fun e => ih _ (hp.2.2 e) hK⟩
    exact ih _ (hp.2.1 a) (Set.union_subset_union_left _ hK)

/-- A client that relies on nothing. -/
theorem backed_of_uses {p : Program I ε α} (hp : p.Uses fun c => ∀ g, ¬ owes c g)
    (hQ : ∀ a K', K ⊆ K' → Q a K') : p.Backed earns owes Q K := by
  induction p generalizing K with
  | ret a => exact hQ a K subset_rfl
  | raise e => trivial
  | call c k ih =>
    refine ⟨fun g hg => absurd hg (hp.1 g), fun a => ?_, fun e => ih _ (hp.2 _) hQ⟩
    exact ih _ (hp.2 _) fun a K' hK' => hQ a K' (Set.subset_union_left.trans hK')

/-- A client of one of two servers relies on what it relied on. -/
theorem backed_inl {earns owes : (I.sum J).Cmd → G → Prop} {p : Program I ε α}
    (hp : p.Backed (fun c => earns (.inl c)) (fun c => owes (.inl c)) Q K) :
    (p.inl : Program (I.sum J) ε α).Backed earns owes Q K := by
  induction p generalizing K with
  | ret a => exact hp
  | raise e => trivial
  | call c k ih => exact ⟨hp.1, fun a => ih _ (hp.2.1 a), fun e => ih _ (hp.2.2 e)⟩

end Program

namespace Config

variable {I : Interface} {σ ε α ι E G : Type}

/-- Every client relies on facts that hold in the store. -/
def Backing (earns owes : I.Cmd → G → Prop) (Holds : G → σ → Prop) (cfg : Config I σ ε α ι) :
    Prop :=
  ∀ j, (cfg.threads j).Backed earns owes (fun _ _ => True) {g | Holds g cfg.store}

variable {earns owes : I.Cmd → G → Prop} {Holds : G → σ → Prop} {cfg : Config I σ ε α ι}

/-- What the next command of a client relies on holds. -/
theorem Backing.holds (h : cfg.Backing earns owes Holds) {j : ι} {c : I.Cmd}
    (hc : cfg.next? j = some c) {g : G} (hg : owes c g) : Holds g cfg.store := by
  have hj := h j
  cases hp : cfg.threads j with
  | call c' k =>
    rw [hp] at hj
    cases hs : cfg.stopped j with
    | true => simp [next?, hs] at hc
    | false =>
      have hcc : c' = c := by simpa [next?, hs, hp] using hc
      exact hj.1 g (hcc ▸ hg)
  | ret a => simp [next?, hp] at hc
  | raise e => simp [next?, hp] at hc

variable [DecidableEq ι]

/-- **The rule of backing.**  A step that undoes no fact, and brings about what it is to bring
about, leaves every client with the facts that it relies on. -/
theorem Backing.step (h : cfg.Backing earns owes Holds) (srv : Server I σ) (env : E → σ → σ)
    (a : Action ι ε E)
    (hkeep : ∀ g, Holds g cfg.store → Holds g (cfg.step srv env a).store)
    (hearn : ∀ c g, earns c g → Holds g (srv c cfg.store).1) :
    (cfg.step srv env a).Backing earns owes Holds := by
  intro i
  have hi : (cfg.threads i).Backed earns owes (fun _ _ => True)
      {g | Holds g (cfg.step srv env a).store} := (h i).mono hkeep fun _ _ _ _ _ => trivial
  obtain ⟨j, o, c, k, rfl, -, hp, -, he⟩ | ⟨j, o, rfl, -, he⟩ | ⟨j, rfl, he⟩ | ⟨e, rfl, he⟩ :=
    step_cases srv env cfg a
  · by_cases hij : i = j
    · subst hij
      have hj := h i
      rw [hp] at hj
      rw [he] at hkeep ⊢
      have hthread : (cfg.exchange srv i o c k).threads i = k (srv.perform o c cfg.store).2 := by
        simp [Config.exchange]
      rw [hthread]
      cases o with
      | refused e => exact (hj.2.2 e).mono hkeep fun _ _ _ _ _ => trivial
      | lost e => exact (hj.2.2 e).mono hkeep fun _ _ _ _ _ => trivial
      | ok =>
        refine (hj.2.1 _).mono (Set.union_subset hkeep ?_) fun _ _ _ _ _ => trivial
        intro g hg
        exact hearn c g hg
    · rw [he] at hi ⊢
      simpa [Config.exchange, hij] using hi
  · rw [he] at hi ⊢; exact hi
  · rw [he] at hi ⊢; exact hi
  · rw [he] at hi ⊢; exact hi

end Config
end Interaction
