import DoxAsdlc.Core.Exceptions
import DoxAsdlc.Interaction.Sum

/-!
# Secrets behind a cache

A client of two secret stores: the primary, whose word counts, and a cache that is asked when the
primary raises.  The cache is updated on reads, writes and deletions as far as it can be.

A store fails in two ways: a call raises, or the store is down and answers as if there was
nothing.

Reads, writes and deletions of any number, interleaved call by call, with failures of both
stores.  The cache may lag behind the primary; what a read must not return is a value that the
primary has not held since it last was known to be gone.

## Main definitions

* `Vault`, `vault` — a secret store.
* `getSecret`, `setSecret`, `deleteSecret` — the operations of the client.
* `Gone` — a step after which a secret is known to be gone.
* `Held` — a value that the primary has held since then.
* `Coherent`, `Timely` — what reads return, and the condition on the cache.

## Main results

* `coherent_of_timely` — coherence over runs.
-/

namespace DoxAsdlc.Secrets

open Interaction Interaction.Program

/-- The name of a secret, and its environment. -/
abbrev Key := String × String

/-- A secret store. -/
structure Vault where
  secrets : Key → Option String
  down : Bool

/-- A store without secrets. -/
def Vault.empty : Vault where
  secrets _ := none
  down := false

/-- The operations of a store. -/
inductive Cmd where
  | getSecret (key : Key)
  | setSecret (key : Key) (value : String)
  | deleteSecret (key : Key)

/-- Their answers. -/
abbrev Reply : Cmd → Type
  | .getSecret _ => Option String
  | _ => Bool

/-- What each operation does. -/
def vault : Server ⟨Cmd, Reply⟩ Vault
  | .getSecret key, w => (w, if w.down then none else w.secrets key)
  | .setSecret key value, w =>
    if w.down then (w, false)
    else ({ w with secrets := Function.update w.secrets key (some value) }, true)
  | .deleteSecret key, w =>
    if w.down then (w, false)
    else ({ w with secrets := Function.update w.secrets key none }, (w.secrets key).isSome)

/-- The operations of the primary and of the cache. -/
abbrev interface : Interface := Interface.sum ⟨Cmd, Reply⟩ ⟨Cmd, Reply⟩

/-- What they do. -/
abbrev serve : Server interface (Vault × Vault) := vault.sum vault

/-- A coroutine of the client. -/
abbrev Async (α : Type) := Program interface Error α

/-- Call the primary. -/
def primary (c : Cmd) : Async (Reply c) := command (I := interface) (.inl c)

/-- Call the cache. -/
def cache (c : Cmd) : Async (Reply c) := command (I := interface) (.inr c)

/-- Call the cache, whatever comes of it. -/
def bestEffort (c : Cmd) : Async Unit :=
  try do
    let _ ← cache c
  catch _ => pure ()

/-- `_update_cache`. -/
def updateCache (key : Key) (value : String) : Async Unit := bestEffort (.setSecret key value)

/-- `get_secret`. -/
def getSecret (key : Key) : Async (Option String) :=
  try do
    match ← primary (.getSecret key) with
    | some value =>
      updateCache key value
      pure (some value)
    | none => pure none
  catch _ => cache (.getSecret key)

/-- `set_secret`. -/
def setSecret (key : Key) (value : String) : Async Bool :=
  try do
    let result ← primary (.setSecret key value)
    if result then bestEffort (.setSecret key value)
    pure result
  catch _ => pure false

/-- `delete_secret`. -/
def deleteSecret (key : Key) : Async Bool :=
  try do
    let result ← primary (.deleteSecret key)
    if result then bestEffort (.deleteSecret key)
    pure result
  catch _ => pure false

end DoxAsdlc.Secrets

/-! ## Coherence of the secrets cache -/

namespace DoxAsdlc.Secrets

open Interaction Interaction.Program

/-- An operation on a secret. -/
inductive Call where
  | getSecret (key : Key)
  | setSecret (key : Key) (value : String)
  | deleteSecret (key : Key)

/-- What an operation returns. -/
inductive Result where
  | value (value : Option String)
  | done (success : Bool)
  deriving DecidableEq

/-- The coroutine of an operation. -/
def Call.program : Call → Async Result
  | getSecret key => .value <$> Secrets.getSecret key
  | setSecret key value => .done <$> Secrets.setSecret key value
  | deleteSecret key => .done <$> Secrets.deleteSecret key

/-- A store goes down, or comes up. -/
inductive Outage where
  | primary (down : Bool)
  | cache (down : Bool)

/-- The stores after that. -/
def outage : Outage → Vault × Vault → Vault × Vault
  | .primary down, s => ({ s.1 with down := down }, s.2)
  | .cache down, s => (s.1, { s.2 with down := down })

/-- Operations at work on the two stores. -/
abbrev Clients (ι : Type) := Config interface (Vault × Vault) Error Result ι

section

variable {ι : Type} [DecidableEq ι]

/-- One step. -/
abbrev step (cfg : Clients ι) (a : Action ι Error Outage) : Clients ι := cfg.step serve outage a

variable (calls : ι → Call)

/-- What is reached from two empty stores. -/
def reached (as : List (Action ι Error Outage)) : Clients ι :=
  run step (Config.start (.empty, .empty) fun j => (calls j).program) as

/-- In a step, a deletion of the secret returns `True`, or the primary answers that there is
none. -/
def Gone (cfg : Clients ι) (a : Action ι Error Outage) (key : Key) : Prop :=
  (∃ j, calls j = .deleteSecret key ∧ cfg.threads j ≠ .ret (.done true) ∧
    (step cfg a).threads j = .ret (.done true)) ∨
  ∃ j, a = .run j .ok ∧ cfg.next? j = some (.inl (.getSecret key)) ∧
    (vault (.getSecret key) cfg.store.1).2 = none

/-- The primary has held the value at some moment, and the secret has not been gone since. -/
def Held (as : List (Action ι Error Outage)) (key : Key) (value : String) : Prop :=
  ∃ before rest, as = before ++ rest ∧
    (reached calls before).store.1.secrets key = some value ∧
    Each step (fun cfg a => ¬ Gone calls cfg a key) (reached calls before) rest

/-- **Coherence.**  A read that had not begun at some point returns a value that the primary has
held since the secret was last gone before that point. -/
def Coherent (as : List (Action ι Error Outage)) : Prop :=
  ∀ before rest, before ++ rest <+: as → ∀ j key value, calls j = .getSecret key →
    (reached calls before).history j = [] →
    (reached calls (before ++ rest)).threads j = .ret (.value (some value)) →
    Held calls before key value ∨
      ∃ mid, mid <+: rest ∧ (reached calls (before ++ mid)).store.1.secrets key = some value

/-- After the steps `before`, the step `a` is in time: where a secret is gone with it, the cache
holds nothing but what the primary holds, and a value that it puts into the cache is one that the
primary has held since the secret was last gone. -/
structure InTime (before : List (Action ι Error Outage)) (a : Action ι Error Outage) : Prop where
  cleared : ∀ key, Gone calls (reached calls before) a key → ∀ value,
    (reached calls (before ++ [a])).store.2.secrets key = some value →
      (reached calls (before ++ [a])).store.1.secrets key = some value
  current : ∀ j o key value, a = .run j o → o.effective = true →
    (reached calls before).store.2.down = false →
    (reached calls before).next? j = some (.inr (.setSecret key value)) →
      Held calls before key value

/-- Every step is in time. -/
def Timely (as : List (Action ι Error Outage)) : Prop :=
  ∀ before a rest, as = before ++ a :: rest → InTime calls before a

/-! ## What the primary has held -/

variable {calls} {as before rest : List (Action ι Error Outage)} {a : Action ι Error Outage}
  {key : Key} {value : String}

theorem reached_append : reached calls (before ++ rest) = run step (reached calls before) rest :=
  run_append step _ before rest

theorem held_of_primary (h : (reached calls as).store.1.secrets key = some value) :
    Held calls as key value := ⟨as, [], by simp, h, trivial⟩

theorem Held.snoc (h : Held calls as key value) (ha : ¬ Gone calls (reached calls as) a key) :
    Held calls (as ++ [a]) key value := by
  obtain ⟨before, rest, rfl, hvalue, hrest⟩ := h
  refine ⟨before, rest ++ [a], by simp, hvalue, ?_⟩
  rw [each_append]
  refine ⟨hrest, ?_, trivial⟩
  rwa [reached_append] at ha

/-- What was held at some point was held before an earlier one, or between the two. -/
theorem Held.split (h : Held calls (before ++ rest) key value) : Held calls before key value ∨
    ∃ mid, mid <+: rest ∧ (reached calls (before ++ mid)).store.1.secrets key = some value := by
  obtain ⟨b, r, happend, hvalue, hrest⟩ := h
  obtain ⟨m, rfl, rfl⟩ | ⟨m, rfl, rfl⟩ := List.append_eq_append_iff.mp happend
  · exact .inr ⟨m, List.prefix_append _ _, hvalue⟩
  · exact .inl ⟨b, m, rfl, hvalue, ((each_append _ m rest).mp hrest).1⟩

/-- What is gone, and not held by the primary, is held no more. -/
theorem not_held_of_gone (h : Gone calls (reached calls as) a key)
    (hvalue : (reached calls (as ++ [a])).store.1.secrets key ≠ some value) :
    ¬ Held calls (as ++ [a]) key value := by
  rintro ⟨before, rest, happend, hheld, hrest⟩
  obtain rfl | ⟨rest, b, rfl⟩ := List.eq_nil_or_concat rest
  · rw [List.append_nil] at happend
    exact hvalue (happend ▸ hheld)
  · rw [List.concat_eq_append] at hrest happend
    rw [← List.append_assoc] at happend
    obtain ⟨rfl, hb⟩ := List.append_inj' happend rfl
    cases hb
    rw [each_append, ← reached_append] at hrest
    exact hrest.2.1 h

/-! ## What the cache holds -/

theorem reached_snoc : reached calls (as ++ [a]) = step (reached calls as) a := reached_append

theorem Timely.shorter (h : Timely calls (before ++ rest)) : Timely calls before := by
  rintro first a last rfl
  exact h first a (last ++ rest) (by simp)

/-- What a store holds after an operation it held before, or was given. -/
theorem vault_secrets {c : Cmd} {w : Vault} (h : (vault c w).1.secrets key = some value) :
    w.secrets key = some value ∨ w.down = false ∧ c = .setSecret key value := by
  cases hdown : w.down with
  | true => cases c <;> exact .inl (by simpa [vault, hdown] using h)
  | false =>
    cases c with
    | getSecret key' => exact .inl h
    | setSecret key' value' =>
      by_cases hkey : key = key'
      · subst hkey
        have hvalue : value' = value := by simpa [vault, hdown] using h
        exact .inr ⟨rfl, by rw [hvalue]⟩
      · exact .inl (by simpa [vault, hdown, hkey] using h)
    | deleteSecret key' =>
      by_cases hkey : key = key'
      · simp [vault, hdown, hkey] at h
      · exact .inl (by simpa [vault, hdown, hkey] using h)

theorem timely_nil : Timely calls [] := by
  intro before a rest h
  simp at h

theorem Timely.snoc (h : Timely calls as) (ha : InTime calls as a) : Timely calls (as ++ [a]) := by
  intro before b rest happend
  obtain rfl | ⟨rest, c, rfl⟩ := List.eq_nil_or_concat rest
  · obtain ⟨rfl, hb⟩ := List.append_inj' happend rfl
    cases hb
    exact ha
  · rw [List.concat_eq_append, ← List.cons_append, ← List.append_assoc] at happend
    obtain ⟨rfl, -⟩ := List.append_inj' happend rfl
    exact h before b rest rfl

/-- **What a step does to the cache**: what it holds afterwards it held before, or was put there. -/
theorem cache_step {cfg : Clients ι} (h : (step cfg a).store.2.secrets key = some value) :
    cfg.store.2.secrets key = some value ∨ ∃ j o, a = .run j o ∧ o.effective = true ∧
      cfg.store.2.down = false ∧ cfg.next? j = some (.inr (.setSecret key value)) := by
  obtain ⟨j, o, c, rfl, ho, hc, hstore⟩ | ⟨e, rfl, hstore⟩ | hstore :=
    Config.step_store serve outage cfg a
  · rw [hstore] at h
    rcases c with c | c
    · exact .inl h
    · obtain hold | ⟨hdown, rfl⟩ := vault_secrets (c := c) (w := cfg.store.2) h
      · exact .inl hold
      · exact .inr ⟨j, o, rfl, ho, hdown, hc⟩
  · rw [hstore] at h
    cases e <;> exact .inl h
  · rw [hstore] at h
    exact .inl h

/-- While every step is in time, the cache holds what the primary has held. -/
theorem Timely.cached (h : Timely calls as) :
    ∀ key value, (reached calls as).store.2.secrets key = some value →
      Held calls as key value := by
  induction as using List.reverseRecOn with
  | nil => exact fun _ _ h => nomatch h
  | append_singleton as a ih =>
    intro key value hvalue
    have hintime := h as a [] rfl
    by_cases hgone : Gone calls (reached calls as) a key
    · exact held_of_primary (hintime.cleared key hgone value hvalue)
    · apply Held.snoc _ hgone
      rw [reached_snoc] at hvalue
      obtain hold | ⟨j, o, ha, ho, hdown, hnext⟩ := cache_step hvalue
      · exact ih h.shorter key value hold
      · exact hintime.current j o key value ha ho hdown hnext

/-! ## What a read returns -/

/-- What a store answers it holds. -/
theorem eq_of_read {w : Vault} (h : (vault (.getSecret key) w).2 = some value) :
    w.secrets key = some value := by
  cases hdown : w.down <;> simp_all [vault]

/-- A value is the answer of the primary or of the cache. -/
def Answered (key : Key) (value : String) (h : List (Exchange interface Error)) : Prop :=
  ∃ b, (⟨.inl (.getSecret key), .ok (some value), b⟩ : Exchange interface Error) ∈ h ∨
    (⟨.inr (.getSecret key), .ok (some value), b⟩ : Exchange interface Error) ∈ h

theorem getSecret_obeys : (Call.getSecret key).program.Obeys Exchange.Sound (fun _ => True)
    (fun r h => ∀ value, r = .ok (.value (some value)) → Answered key value h) [] := by
  refine ⟨trivial, fun answered b _ => ?_⟩
  cases answered with
  | error e =>
    -- the primary raised, and the answer is the cache's
    refine ⟨trivial, fun fallback b' _ => ?_⟩
    cases fallback with
    | error e' => exact ⟨trivial, nofun⟩
    | ok found =>
      refine ⟨trivial, fun value hvalue => ⟨b', .inr ?_⟩⟩
      cases hvalue
      simp
  | ok found =>
    cases found with
    | none => exact ⟨trivial, nofun⟩
    | some value =>
      refine ⟨trivial, fun updated b' _ => ?_⟩
      cases updated with
      | error e =>
        refine ⟨trivial, fun value hvalue => ⟨b, .inl ?_⟩⟩
        cases hvalue
        simp
      | ok success =>
        refine ⟨trivial, fun value hvalue => ⟨b, .inl ?_⟩⟩
        cases hvalue
        simp

/-- What a read returns it was answered with. -/
def Faithful (calls : ι → Call) (j : ι) (r : Except Error Result)
    (h : List (Exchange interface Error)) : Prop :=
  ∀ key, calls j = .getSecret key → ∀ value, r = .ok (.value (some value)) → Answered key value h

variable (calls) in
theorem obeying_reached (as : List (Action ι Error Outage)) :
    (reached calls as).Obeying Exchange.Sound (fun _ _ => True) (Faithful calls) := by
  apply run_invariant' (I := fun cfg : Clients ι => cfg.Obeying Exchange.Sound (fun _ _ => True)
    (Faithful calls)) (fun cfg a h => h.step serve outage a)
  intro i
  change (calls i).program.Obeys Exchange.Sound (fun _ => True) (Faithful calls i) []
  cases hi : calls i with
  | getSecret key =>
    apply getSecret_obeys.mono (fun _ h => h)
    intro r h _ hread key' hkey
    obtain rfl : key = key' := by simpa [hi] using hkey
    exact hread
  | setSecret key value =>
    exact obeys_trivial _ _ (fun _ => trivial) fun _ _ _ h => nomatch hi.symm.trans h
  | deleteSecret key =>
    exact obeys_trivial _ _ (fun _ => trivial) fun _ _ _ h => nomatch hi.symm.trans h

/-- A read that returns a value was answered with it after any point at which it had not begun. -/
theorem exists_answer {j : ι} (hj : calls j = .getSecret key)
    (hbegun : (reached calls before).history j = [])
    (hreturned : (reached calls (before ++ rest)).threads j = .ret (.value (some value))) :
    ∃ mid, mid <+: rest ∧ ((reached calls (before ++ mid)).store.1.secrets key = some value ∨
      (reached calls (before ++ mid)).store.2.secrets key = some value) := by
  have hobeying := obeying_reached calls (before ++ rest)
  have hread : Answered key value ((reached calls (before ++ rest)).history j) := by
    have hj' := hobeying j
    rw [hreturned] at hj'
    exact hj'.2 key hj value rfl
  have hanswer : ∀ x ∈ (reached calls (before ++ rest)).history j, ∃ mid o c, mid <+: rest ∧
      x = serve.exchange o c (reached calls (before ++ mid)).store := by
    intro x hx
    rw [reached_append] at hx
    obtain hold | ⟨mid, o, c, last, rfl, -, hexchange⟩ :=
      Config.exists_of_mem_history serve outage rest _ hx
    · rw [hbegun] at hold
      cases hold
    · exact ⟨mid, o, c, List.prefix_append _ _, by rw [reached_append]; exact hexchange⟩
  obtain ⟨b, hprimary | hcache⟩ := hread
  · obtain ⟨mid, o, c, hmid, hx⟩ := hanswer _ hprimary
    exact ⟨mid, hmid, .inl (eq_of_read (Server.eq_of_exchange hx))⟩
  · obtain ⟨mid, o, c, hmid, hx⟩ := hanswer _ hcache
    exact ⟨mid, hmid, .inr (eq_of_read (Server.eq_of_exchange hx))⟩

/-- **Coherence over runs.**  However reads, writes and deletions are interleaved, whatever fails
and whichever store is down: if every step is in time, the reads are coherent. -/
theorem coherent_of_timely (calls : ι → Call) (as : List (Action ι Error Outage))
    (h : Timely calls as) : Coherent calls as := by
  intro before rest hprefix j key value hj hbegun hreturned
  obtain ⟨mid, hmid, hprimary | hcache⟩ := exists_answer hj hbegun hreturned
  · exact .inr ⟨mid, hmid, hprimary⟩
  · obtain ⟨last, rfl⟩ := hmid
    obtain ⟨more, rfl⟩ := hprefix
    have htimely : Timely calls (before ++ mid) := by
      rw [← List.append_assoc, List.append_assoc] at h
      exact h.shorter
    obtain hheld | ⟨m, hm, hvalue⟩ := (htimely.cached key value hcache).split
    · exact .inl hheld
    · exact .inr ⟨m, hm.trans (List.prefix_append _ _), hvalue⟩

/-- A later read that returns a value which the primary has not held since is not coherent. -/
theorem not_coherent {j : ι} (hgone : Gone calls (reached calls before) a key)
    (hj : calls j = .getSecret key) (hbegun : (reached calls (before ++ [a])).history j = [])
    (hreturned : (reached calls (before ++ [a] ++ rest)).threads j = .ret (.value (some value)))
    (hnever : ∀ mid ∈ rest.inits,
      (reached calls (before ++ [a] ++ mid)).store.1.secrets key ≠ some value) :
    ¬ Coherent calls (before ++ [a] ++ rest) := by
  intro h
  have hnow : (reached calls (before ++ [a])).store.1.secrets key ≠ some value := by
    simpa using hnever [] (by simp)
  obtain hheld | ⟨mid, hmid, hvalue⟩ :=
    h (before ++ [a]) rest List.prefix_rfl j key value hj hbegun hreturned
  · exact not_held_of_gone hgone hnow hheld
  · exact hnever mid ((List.mem_inits mid rest).mpr hmid) hvalue

end

/-- A token. -/
def token : Key := ("SLACK_BOT_TOKEN", "dev")

/-- The token is set, deleted and read twice. -/
def rotation : Fin 4 → Call
  | 0 => .setSecret token "x"
  | 1 => .deleteSecret token
  | _ => .getSecret token

/-- The primary raises. -/
def unreachable : Error := ⟨.exception, "unreachable", []⟩

/-- The calls of some operations in turn, all of them answered. -/
def inTurn (turns : List (Fin 4)) : List (Action (Fin 4) Error Outage) :=
  turns.map fun j => .run j .ok

/-- A read in which the primary raises. -/
def fallback (j : Fin 4) : List (Action (Fin 4) Error Outage) :=
  [.run j (.refused unreachable), .run j .ok]

/-- The token is set, and read from the cache. -/
theorem coherent_rotation : Coherent rotation (inTurn [0, 0] ++ fallback 2) := by
  apply coherent_of_timely
  have hfirst : Timely rotation (inTurn [0]) := by
    apply timely_nil.snoc
    constructor
    · exact fun _ _ _ h => nomatch h
    · intro j o key value ha _ _ hnext
      cases ha
      cases hnext
  have hset : Timely rotation (inTurn [0, 0]) := by
    apply hfirst.snoc
    constructor
    · exact fun _ _ _ h => h
    · intro j o key value ha _ _ hnext
      cases ha
      cases hnext
      exact held_of_primary rfl
  have hraised : Timely rotation (inTurn [0, 0] ++ [.run 2 (.refused unreachable)]) := by
    apply hset.snoc
    constructor
    · exact fun _ _ _ h => h
    · intro j o key value ha _ _ hnext
      cases ha
      cases hnext
  apply hraised.snoc
  constructor
  · exact fun _ _ _ h => h
  · intro j o key value ha _ _ hnext
    cases ha
    cases hnext

/-- A deletion that leaves the cache as it is, a read that writes the value back after the
deletion, and a primary that answers that there is none: each time a later read returns the old
value from the cache. -/
theorem deleted_and_read :
    ¬ Coherent rotation (inTurn [0, 0, 1] ++ [.run 1 (.refused unreachable)] ++ fallback 2) ∧
    ¬ Coherent rotation (inTurn [0, 0, 2, 1] ++ [.run 1 .ok] ++ (.run 2 .ok :: fallback 3)) ∧
    ¬ Coherent rotation (inTurn [0, 0] ++ [.run 1 (.lost unreachable)] ++ [.run 2 .ok] ++
      fallback 3) := by
  refine ⟨not_coherent (j := 2) ?_ rfl rfl rfl (by decide),
    not_coherent (j := 3) ?_ rfl rfl rfl (by decide),
    not_coherent (j := 3) ?_ rfl rfl rfl (by decide)⟩
  · exact .inl ⟨1, rfl, nofun, rfl⟩
  · exact .inl ⟨1, rfl, nofun, rfl⟩
  · exact .inr ⟨2, rfl, rfl, rfl⟩

end DoxAsdlc.Secrets
