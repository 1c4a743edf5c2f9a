import DoxAsdlc.Redis.Glob
import DoxAsdlc.Redis.Hash
import DoxAsdlc.Redis.MemberSet
import Mathlib.Data.List.AList

/-!
# Keys that are found by pattern

A family of stored keys whose names a client lists with `KEYS`.  Every write to one key is
`Keyspace.modify`, so what a write leaves of the other keys is said once.  A set without
members is no stored key.

## Main definitions

* `Keyspace` — the stored keys of one kind.
* `Keyspace.modify` — a write to one of them.
* `Keyspace.matching` — the answer to `KEYS`.
* `Keyspace.smembers`, `sadd`, `srem` — sets under keys.
-/

namespace Redis

/-- Stored keys of one kind, by name. -/
abbrev Keyspace (A : Type) := AList fun _ : String => A

namespace Keyspace

variable {A M : Type}

/-- Change what one key holds. -/
def modify (s : Keyspace A) (key : String) (f : Option A → Option A) : Keyspace A :=
  match f (s.lookup key) with
  | some a => s.insert key a
  | none => s.erase key

theorem lookup_modify (s : Keyspace A) (key k : String) (f : Option A → Option A) :
    (s.modify key f).lookup k = if k = key then f (s.lookup key) else s.lookup k := by
  unfold modify
  by_cases hk : k = key
  · subst hk
    cases hf : f (s.lookup k) with
    | none => simp
    | some a => simp
  · cases hf : f (s.lookup key) with
    | none => simp [hk]
    | some a => simp [hk]

theorem mem_modify {s : Keyspace A} {key k : String} {f : Option A → Option A} :
    k ∈ s.modify key f ↔ (k = key ∧ (f (s.lookup key)).isSome) ∨ (k ≠ key ∧ k ∈ s) := by
  rw [← AList.lookup_isSome, lookup_modify]
  by_cases hk : k = key
  · simp [hk]
  · simp [hk, AList.lookup_isSome]

/-- `KEYS pattern`, in the order of the answer. -/
def matching (s : Keyspace A) (order : IterationOrder String) (pattern : String) : List String :=
  order.list (s.keys.filter (globMatches pattern))

@[simp] theorem mem_matching {s : Keyspace A} {order : IterationOrder String}
    {pattern k : String} : k ∈ s.matching order pattern ↔ k ∈ s ∧ globMatches pattern k := by
  simp [matching, AList.mem_keys]

theorem nodup_matching (s : Keyspace A) (order : IterationOrder String) (pattern : String) :
    (s.matching order pattern).Nodup :=
  order.nodup_list (s.keys_nodup.filter _)

@[simp] theorem matching_empty (order : IterationOrder String) (pattern : String) :
    (∅ : Keyspace A).matching order pattern = [] := by
  rw [List.eq_nil_iff_forall_not_mem]
  intro k hk
  exact AList.notMem_empty k (mem_matching.mp hk).1

/-! ## Sets under keys -/

/-- `SMEMBERS key`. -/
def smembers (s : Keyspace (MemberSet M)) (key : String) : MemberSet M :=
  (s.lookup key).getD .empty

@[simp] theorem smembers_empty (key : String) :
    (∅ : Keyspace (MemberSet M)).smembers key = .empty := by
  simp [smembers]

theorem mem_of_mem_smembers {s : Keyspace (MemberSet M)} {key : String} {x : M}
    (h : x ∈ s.smembers key) : key ∈ s := by
  rw [← AList.lookup_isSome]
  by_contra hnone
  rw [smembers, Option.not_isSome_iff_eq_none.mp hnone] at h
  exact MemberSet.not_mem_empty x h

/-- A set as it is stored: without members it is not. -/
def stored (z : MemberSet M) : Option (MemberSet M) := if z.members = [] then none else some z

@[simp] theorem getD_stored (z : MemberSet M) : (stored z).getD .empty = z := by
  unfold stored
  split
  case isTrue h => exact MemberSet.ext h.symm
  case isFalse => rfl

variable [DecidableEq M]

/-- `SADD key m`. -/
def sadd (s : Keyspace (MemberSet M)) (key : String) (m : M) : Keyspace (MemberSet M) :=
  s.modify key fun z => some ((z.getD .empty).sadd m)

/-- `SREM key m`. -/
def srem (s : Keyspace (MemberSet M)) (key : String) (m : M) : Keyspace (MemberSet M) :=
  s.modify key fun z => stored ((z.getD .empty).srem m)

@[simp] theorem mem_smembers_sadd {s : Keyspace (MemberSet M)} {key k : String} {m x : M} :
    x ∈ (s.sadd key m).smembers k ↔ (k = key ∧ x = m) ∨ x ∈ s.smembers k := by
  rw [smembers, sadd, lookup_modify]
  by_cases hk : k = key
  · subst hk
    simp [smembers]
  · rw [if_neg hk]
    simp [hk, smembers]

@[simp] theorem mem_smembers_srem {s : Keyspace (MemberSet M)} {key k : String} {m x : M} :
    x ∈ (s.srem key m).smembers k ↔ x ∈ s.smembers k ∧ ¬ (k = key ∧ x = m) := by
  rw [smembers, srem, lookup_modify]
  by_cases hk : k = key
  · subst hk
    simp [smembers, and_comm]
  · rw [if_neg hk]
    simp [hk, smembers]

omit [DecidableEq M] in
@[simp] theorem erase_empty (key : String) : AList.erase key (∅ : Keyspace A) = ∅ := rfl

/-- There is nothing to remove where nothing is stored. -/
@[simp] theorem srem_empty (key : String) (m : M) :
    srem (∅ : Keyspace (MemberSet M)) key m = ∅ := rfl

theorem mem_sadd {s : Keyspace (MemberSet M)} {key k : String} {m : M} :
    k ∈ s.sadd key m ↔ k = key ∨ k ∈ s := by
  rw [sadd, mem_modify]
  by_cases hk : k = key
  · simp [hk]
  · simp [hk]

theorem mem_of_mem_srem {s : Keyspace (MemberSet M)} {key k : String} {m : M}
    (h : k ∈ s.srem key m) : k ∈ s := by
  rcases mem_modify.mp h with ⟨rfl, hsome⟩ | ⟨-, hmem⟩
  · rw [← AList.lookup_isSome]
    by_contra hnone
    rw [Option.not_isSome_iff_eq_none.mp hnone] at hsome
    exact absurd hsome (by simp [stored, MemberSet.srem, MemberSet.empty])
  · exact hmem

omit [DecidableEq M] in
theorem mem_smembers_erase {s : Keyspace (MemberSet M)} {key k : String} {x : M} :
    x ∈ smembers (s.erase key) k ↔ x ∈ s.smembers k ∧ k ≠ key := by
  by_cases hk : k = key
  · subst hk
    simp [smembers]
  · rw [smembers, AList.lookup_erase_ne hk]
    simp [hk, smembers]

omit [DecidableEq M] in
/-- A loop of removals removes what one of its rounds removes. -/
theorem mem_smembers_foldl {β : Type} {f : Keyspace (MemberSet M) → β → Keyspace (MemberSet M)}
    (Removes : β → String → M → Prop)
    (hf : ∀ s b k x, x ∈ (f s b).smembers k ↔ x ∈ s.smembers k ∧ ¬ Removes b k x)
    (bs : List β) (s : Keyspace (MemberSet M)) (k : String) (x : M) :
    x ∈ (bs.foldl f s).smembers k ↔ x ∈ s.smembers k ∧ ∀ b ∈ bs, ¬ Removes b k x := by
  induction bs generalizing s with
  | nil => simp
  | cons b bs ih => rw [List.foldl_cons, ih, hf, List.forall_mem_cons, and_assoc]

theorem lookup_erase_eq_some {s : Keyspace A} {key k : String} {a : A} :
    (s.erase key).lookup k = some a ↔ k ≠ key ∧ s.lookup k = some a := by
  by_cases hk : k = key
  · subst hk
    simp
  · rw [AList.lookup_erase_ne hk, and_iff_right hk]

/-- A loop that creates no key has the keys it began with. -/
theorem mem_of_mem_foldl {β : Type} {f : Keyspace A → β → Keyspace A}
    (hf : ∀ s b k, k ∈ f s b → k ∈ s) {bs : List β} {s : Keyspace A} {k : String}
    (h : k ∈ bs.foldl f s) : k ∈ s := by
  induction bs generalizing s with
  | nil => exact h
  | cons b bs ih => exact hf s b k (ih h)

/-- A loop of `DEL` deletes the keys it is given. -/
theorem lookup_foldl_erase (ks : List String) (s : Keyspace A) (k : String) :
    (ks.foldl (fun t key => t.erase key) s).lookup k = if k ∈ ks then none else s.lookup k := by
  induction ks generalizing s with
  | nil => simp
  | cons key ks ih =>
    rw [List.foldl_cons, ih]
    by_cases hk : k = key
    · subst hk
      simp
    · simp [hk]

end Keyspace
end Redis
