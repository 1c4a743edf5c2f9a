import Mathlib.Data.List.Nodup
import Mathlib.Data.List.Perm.Basic
import Mathlib.Order.WithBot

/-!
# Joining values by key

Items that have a key and a value in a semilattice are joined by key: for each key that occurs
there is one entry, with the join of the values that occur with it.  What comes out does not
depend on the order of the items.

## Main definitions

* `KeyedJoin.joinAt` — the join of the values of a key.
* `KeyedJoin.Joins` — entries that are the items joined by key.

## Main results

* `Joins.append`, `Joins.absorb` — one more item.
* `Joins.perm` — the order of the items does not matter.
-/

namespace KeyedJoin

variable {κ S : Type*} [DecidableEq κ] [SemilatticeSup S]

/-- The join of the values that occur with a key; nothing if there is none. -/
def joinAt (k : κ) (items : List (κ × S)) : WithBot S :=
  items.foldl (fun acc item => if item.1 = k then acc ⊔ item.2 else acc) ⊥

theorem joinAt_append_singleton (k : κ) (items : List (κ × S)) (item : κ × S) :
    joinAt k (items ++ [item])
      = if item.1 = k then joinAt k items ⊔ item.2 else joinAt k items := by
  simp [joinAt, List.foldl_append]

/-- The order of the items does not matter. -/
theorem joinAt_perm {items items' : List (κ × S)} (h : items.Perm items') (k : κ) :
    joinAt k items = joinAt k items' := by
  refine h.foldl_eq' (fun item _ item' _ acc => ?_) ⊥
  by_cases hitem : item.1 = k <;> by_cases hitem' : item'.1 = k <;>
    simp [hitem, hitem', sup_right_comm]

/-- The entries are the items joined by key. -/
structure Joins (entries items : List (κ × S)) : Prop where
  keys_nodup : (entries.map Prod.fst).Nodup
  mem_iff : ∀ k v, (k, v) ∈ entries ↔ joinAt k items = v

variable {entries entries' items items' : List (κ × S)} {k : κ} {v w : S}

theorem Joins.nil : Joins ([] : List (κ × S)) [] where
  keys_nodup := by simp
  mem_iff k v := by simp [joinAt]

/-- An item with a key of its own is an entry of its own. -/
theorem Joins.append (h : Joins entries items) (hk : k ∉ entries.map Prod.fst) :
    Joins (entries ++ [(k, v)]) (items ++ [(k, v)]) where
  keys_nodup := by
    rw [List.map_append, List.map_singleton, ← List.concat_eq_append]
    exact h.keys_nodup.concat hk
  mem_iff k' v' := by
    have hbot : joinAt k items = ⊥ := by
      cases hjoin : joinAt k items with
      | bot => rfl
      | coe u => exact absurd (List.mem_map_of_mem ((h.mem_iff k u).mpr hjoin)) hk
    rw [joinAt_append_singleton, List.mem_append, List.mem_singleton, h.mem_iff]
    by_cases hkey : k = k'
    · subst hkey
      simp [hbot, eq_comm]
    · simp [hkey, Ne.symm hkey]

/-- An item with the key of an entry is joined to it. -/
theorem Joins.absorb {before after : List (κ × S)}
    (h : Joins (before ++ (k, v) :: after) items) :
    Joins (before ++ (k, v ⊔ w) :: after) (items ++ [(k, w)]) where
  keys_nodup := by simpa using h.keys_nodup
  mem_iff k' v' := by
    have hjoin : joinAt k items = v := (h.mem_iff k v).mp (by simp)
    have hother := h.mem_iff k' v'
    have hkeys := h.keys_nodup
    rw [joinAt_append_singleton]
    by_cases hkey : k = k'
    · subst hkey
      -- the keys of the other entries are others
      have hne : ∀ u, (k, u) ∉ before ∧ (k, u) ∉ after := by
        intro u
        rw [List.map_append, List.map_cons, List.nodup_append, List.nodup_cons] at hkeys
        refine ⟨fun hmem => ?_, fun hmem => ?_⟩
        · exact hkeys.2.2 k (List.mem_map_of_mem hmem) k List.mem_cons_self rfl
        · exact hkeys.2.1.1 (List.mem_map.mpr ⟨(k, u), hmem, rfl⟩)
      simp [hjoin, hne, ← WithBot.coe_sup, eq_comm]
    · simpa [hkey, Ne.symm hkey] using hother

theorem Joins.nodup (h : Joins entries items) : entries.Nodup :=
  List.Nodup.of_map _ h.keys_nodup

/-- **The order of the items does not matter.** -/
theorem Joins.perm (h : Joins entries items) (h' : Joins entries' items')
    (hitems : items.Perm items') : entries.Perm entries' := by
  rw [List.perm_ext_iff_of_nodup h.nodup h'.nodup]
  intro ⟨k, v⟩
  rw [h.mem_iff, h'.mem_iff, joinAt_perm hitems]

end KeyedJoin
