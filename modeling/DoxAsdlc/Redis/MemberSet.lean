import Mathlib.Data.List.Nodup

/-!
# Redis sets

A set holds each member once, in no order that a client may rely on.  It is kept as a
list without repetitions; what is said about it is said about its members.

## Main definitions

* `MemberSet` — the members of a set.
* `MemberSet.sadd`, `srem` — the commands.
* `IterationOrder` — the order in which a client walks through a set.
-/

namespace Redis

/-- The members of a set, each once. -/
@[ext] structure MemberSet (M : Type) where
  members : List M
  nodup : members.Nodup

namespace MemberSet

variable {M : Type} [DecidableEq M]

/-- The set of a key that does not exist. -/
def empty : MemberSet M := ⟨[], List.nodup_nil⟩

instance : Membership M (MemberSet M) := ⟨fun z m => m ∈ z.members⟩

instance (m : M) (z : MemberSet M) : Decidable (m ∈ z) :=
  inferInstanceAs (Decidable (m ∈ z.members))

/-- `SADD key m`. -/
def sadd (z : MemberSet M) (m : M) : MemberSet M := ⟨z.members.insert m, z.nodup.insert⟩

/-- `SREM key m`. -/
def srem (z : MemberSet M) (m : M) : MemberSet M := ⟨z.members.erase m, z.nodup.erase m⟩

omit [DecidableEq M] in
@[simp] theorem mem_members {z : MemberSet M} {m : M} : m ∈ z.members ↔ m ∈ z := Iff.rfl

omit [DecidableEq M] in
@[simp] theorem not_mem_empty (m : M) : m ∉ (empty : MemberSet M) := List.not_mem_nil

@[simp] theorem mem_sadd {z : MemberSet M} {m x : M} : x ∈ z.sadd m ↔ x = m ∨ x ∈ z :=
  List.mem_insert_iff

@[simp] theorem mem_srem {z : MemberSet M} {m x : M} : x ∈ z.srem m ↔ x ≠ m ∧ x ∈ z :=
  z.nodup.mem_erase_iff

end MemberSet

/-- An order for every collection that a client walks through. -/
structure IterationOrder (M : Type) where
  list : List M → List M
  perm : ∀ l, (list l).Perm l

namespace IterationOrder

variable {M : Type} (order : IterationOrder M)

/-- The order of the answer. -/
def asAnswered : IterationOrder M := ⟨id, fun _ => .rfl⟩

@[simp] theorem mem_list {l : List M} {m : M} : m ∈ order.list l ↔ m ∈ l := (order.perm l).mem_iff

theorem nodup_list {l : List M} (h : l.Nodup) : (order.list l).Nodup :=
  (order.perm l).nodup_iff.mpr h

/-- There is one order of at most one member. -/
theorem list_of_length_le_one {l : List M} (h : l.length ≤ 1) : order.list l = l := by
  match l, h with
  | [], _ => exact List.perm_nil.mp (order.perm [])
  | [m], _ => exact List.perm_singleton.mp (order.perm [m])

end IterationOrder
end Redis
