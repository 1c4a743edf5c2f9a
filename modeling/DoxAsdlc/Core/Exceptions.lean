import Mathlib.Data.Int.Notation
import Mathlib.Tactic.Common

/-!
# Exceptions and tenants

The exceptions that the modelled code raises or tells apart, with the message and
the details each carries, and the key prefix that every Redis-backed component puts
in front of its keys when multi-tenancy is on.
-/

namespace DoxAsdlc

/-- Instants, in microseconds since the epoch, UTC. -/
abbrev Time := ℤ

/-- The classes of exception. `osError` is `OSError` with its subclasses `ConnectionError`
and `TimeoutError`; `exception` is any other subclass of `Exception`. -/
inductive ErrorClass where
  | redisError
  | valueError
  | streamError
  | taskNotFoundError
  | taskStateError
  | agentNotFoundError
  | gitOperationError
  | hitlError
  | publishError
  | acknowledgeError
  | evidenceValidationError
  | coordinationError
  | presenceError
  | rbacDenied
  | gateNotFound
  | gateAlreadyDecided
  | keyError
  | llmClientError
  | osError
  | exception
  deriving DecidableEq, Repr

/-- A value in the details of an exception. -/
inductive Detail where
  | text (s : String)
  | texts (l : List String)
  deriving DecidableEq, Repr

/-- A raised exception. -/
structure Error where
  cls : ErrorClass
  message : String
  details : List (String × Detail) := []
  deriving DecidableEq, Repr

namespace Error

/-- `str(e)`. -/
def str (e : Error) : String := e.message

/-- `isinstance(e, redis.RedisError)`. -/
def isRedis (e : Error) : Bool := e.cls == .redisError

end Error

theorem ok_bind {ε α β : Type} (a : α) (f : α → Except ε β) : (Except.ok a >>= f) = f a := rfl

/-- A sequence of fallible steps comes to a result when each of them does. -/
theorem bind_eq_ok {ε α β : Type} {x : Except ε α} {f : α → Except ε β} {b : β} :
    x >>= f = .ok b ↔ ∃ a, x = .ok a ∧ f a = .ok b := by
  cases x with
  | ok a => simp [Bind.bind, Except.bind]
  | error e => simp [Bind.bind, Except.bind]

/-- A check that comes first. -/
theorem check_bind_eq_ok {ε β : Type} {x : Except ε Unit} {f : Unit → Except ε β} {b : β} :
    x >>= f = .ok b ↔ x = .ok () ∧ f () = .ok b := by
  rw [bind_eq_ok]
  constructor
  · intro ⟨(), h⟩
    exact h
  · intro h
    exact ⟨(), h⟩

/-- It raises what one of them raises. -/
theorem bind_eq_error {ε α β : Type} {x : Except ε α} {f : α → Except ε β} {e : ε} :
    x >>= f = .error e ↔ x = .error e ∨ ∃ a, x = .ok a ∧ f a = .error e := by
  cases x with
  | ok a => simp [Bind.bind, Except.bind]
  | error e' => simp [Bind.bind, Except.bind]

/-- What comes after a step may raise nothing. -/
theorem exists_bind_ok {ε α β : Type} {x : Except ε α} {f : α → Except ε β}
    (hf : ∀ a, ∃ b, f a = .ok b) : (∃ b, x >>= f = .ok b) ↔ ∃ a, x = .ok a := by
  constructor
  · intro ⟨b, hb⟩
    obtain ⟨a, ha, _⟩ := bind_eq_ok.mp hb
    exact ⟨a, ha⟩
  · intro ⟨a, ha⟩
    rw [ha]
    exact hf a

/-- Steps none of which raises. -/
theorem mapM_eq_map {ε α β : Type} {f : α → Except ε β} {g : α → β} {l : List α}
    (h : ∀ a ∈ l, f a = .ok (g a)) : l.mapM f = .ok (l.map g) := by
  induction l with
  | nil => rfl
  | cons a l ih =>
    rw [List.mapM_cons, h a List.mem_cons_self, ih fun a ha => h a (List.mem_cons_of_mem _ ha)]
    rfl

/-- Steps one after another come to results if and only if each of them does. -/
theorem mapM_ok {ε α β : Type} {f : α → Except ε β} {l : List α} :
    (∃ bs, l.mapM f = .ok bs) ↔ ∀ a ∈ l, ∃ b, f a = .ok b := by
  induction l with
  | nil => exact ⟨fun _ => by simp, fun _ => ⟨[], rfl⟩⟩
  | cons a l ih =>
    rw [List.mapM_cons, List.forall_mem_cons, ← ih]
    constructor
    · intro ⟨bs, hbs⟩
      obtain ⟨b, hb, hrest⟩ := bind_eq_ok.mp hbs
      obtain ⟨later, hlater, _⟩ := bind_eq_ok.mp hrest
      exact ⟨⟨b, hb⟩, later, hlater⟩
    · intro ⟨⟨b, hb⟩, later, hlater⟩
      exact ⟨b :: later, by rw [hb, ok_bind, hlater]; rfl⟩

/-- What a list is mapped to, element by element. -/
theorem forall₂_of_mapM {ε α β : Type} {f : α → Except ε β} {l : List α} {bs : List β}
    (h : l.mapM f = .ok bs) : List.Forall₂ (fun a b => f a = .ok b) l bs := by
  induction l generalizing bs with
  | nil =>
    cases h
    exact .nil
  | cons a l ih =>
    rw [List.mapM_cons] at h
    obtain ⟨b, hb, hrest⟩ := bind_eq_ok.mp h
    obtain ⟨later, hlater, heq⟩ := bind_eq_ok.mp hrest
    cases heq
    exact .cons hb (ih hlater)

theorem exists_of_forall₂ {α β : Type} {R : α → β → Prop} {l : List α} {l' : List β}
    (h : List.Forall₂ R l l') {a : α} (ha : a ∈ l) : ∃ b ∈ l', R a b := by
  induction h with
  | nil => cases ha
  | cons hab _ ih =>
    rcases List.mem_cons.mp ha with rfl | hrest
    · exact ⟨_, List.mem_cons_self, hab⟩
    · obtain ⟨b, hb, hR⟩ := ih hrest
      exact ⟨b, List.mem_cons_of_mem _ hb, hR⟩

/-- Steps one after another raise what the first of them raises that does not come to a result. -/
theorem exists_of_mapM_eq_error {ε α β : Type} {f : α → Except ε β} {l : List α} {e : ε}
    (h : l.mapM f = .error e) : ∃ before a after bs,
      l = before ++ a :: after ∧ before.mapM f = .ok bs ∧ f a = .error e := by
  induction l with
  | nil => cases h
  | cons a l ih =>
    rw [List.mapM_cons] at h
    cases ha : f a with
    | error e' =>
      rw [ha] at h
      cases h
      exact ⟨[], a, l, [], rfl, rfl, ha⟩
    | ok b =>
      rw [ha, ok_bind] at h
      rcases bind_eq_error.mp h with hl | ⟨bs, _, hnone⟩
      · obtain ⟨before, a', after, bs, rfl, hbefore, ha'⟩ := ih hl
        refine ⟨a :: before, a', after, b :: bs, rfl, ?_, ha'⟩
        rw [List.mapM_cons, ha, ok_bind, hbefore]
        rfl
      · cases hnone

/-! ## Tenant prefixes -/

/-- The tenant configuration together with the tenant of the current context. -/
structure Tenancy where
  enabled : Bool
  defaultTenant : String
  current : Option String
  deriving DecidableEq, Repr

/-- `get_current_tenant()`, or the default tenant when none is set. -/
def Tenancy.tenantId (t : Tenancy) : String := t.current.getD t.defaultTenant

/-- The tenant prefix that every `_get_key` puts in front of its base key. -/
def Tenancy.key (t : Tenancy) (baseKey : String) : String :=
  if t.enabled then "tenant:" ++ t.tenantId ++ ":" ++ baseKey else baseKey

/-- Within one tenant context, keys of different names are different. -/
@[simp] theorem Tenancy.key_inj (t : Tenancy) {k k' : String} : t.key k = t.key k' ↔ k = k' := by
  unfold key
  split
  · exact String.append_right_inj _
  · exact Iff.rfl

end DoxAsdlc
