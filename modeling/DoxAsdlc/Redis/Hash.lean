import Mathlib.Tactic.Common

/-!
# Redis hashes

A hash maps field names to values.  `HSET` overwrites the fields it is given and
leaves the others; a key that was never written holds no hash at all, and `HGETALL`
on it answers with nothing.  Since a hash is created by its first `HSET`, a stored
key is an `Option (Hash V)`.

The values of a field have the type that the field's writers and readers agree on,
so that a decoded record and a stored one differ only in which fields are there.

## Main definitions

* `Hash` — a partial record over a type of field names.
* `Hash.overlay` — what `HSET` with a mapping does to a hash.
* `hset` — the same on a stored key.
* `Keys`, `Keys.modify` — a family of stored keys, and a write to one of them.
-/

namespace Redis

/-- A hash: every field holds a value of its own type or is absent. -/
def Hash {F : Type} (V : F → Type) := (f : F) → Option (V f)

namespace Hash

variable {F : Type} {V : F → Type}

@[ext] theorem ext {h m : Hash V} (hf : ∀ f, h f = m f) : h = m := funext hf

/-- The hash without fields. -/
def empty : Hash V := fun _ => none

/-- `HSET key mapping`: the fields of `m` are written over those of `h`. -/
def overlay (h m : Hash V) : Hash V := fun f => (m f).or (h f)

@[simp] theorem empty_apply (f : F) : (empty : Hash V) f = none := rfl

theorem overlay_apply (h m : Hash V) (f : F) : h.overlay m f = (m f).or (h f) := rfl

/-- A field that is written has the value written. -/
theorem overlay_of_some {h m : Hash V} {f : F} {v : V f} (hm : m f = some v) :
    h.overlay m f = some v := by
  simp [overlay, hm]

/-- A field that is not written keeps its value. -/
theorem overlay_of_none {h m : Hash V} {f : F} (hm : m f = none) : h.overlay m f = h f := by
  simp [overlay, hm]

@[simp] theorem empty_overlay (m : Hash V) : (empty : Hash V).overlay m = m := by
  ext f : 1
  simp [overlay]

/-- A write of values that are there already changes nothing. -/
theorem overlay_eq_self_iff (h m : Hash V) :
    h.overlay m = h ↔ ∀ f v, m f = some v → h f = some v := by
  constructor
  · intro hself f v hm
    rw [← hself, overlay_of_some hm]
  · intro hm
    ext f : 1
    cases hf : m f with
    | none => exact overlay_of_none hf
    | some v => rw [overlay_of_some hf, hm f v hf]

variable [DecidableEq F]

/-- The mapping of a single field. -/
def field (f : F) (v : V f) : Hash V := fun g => if hg : g = f then some (hg ▸ v) else none

@[simp] theorem field_self (f : F) (v : V f) : field f v f = some v := by simp [field]
@[simp] theorem field_of_ne {f g : F} (v : V f) (hg : g ≠ f) : field f v g = none := by
  simp [field, hg]

end Hash

/-! ## Stored keys -/

variable {K F : Type} {V : F → Type}

/-- `HSET` on a stored key, which it creates when absent. -/
def hset (stored : Option (Hash V)) (m : Hash V) : Option (Hash V) :=
  some ((stored.getD .empty).overlay m)

@[simp] theorem hset_none (m : Hash V) : hset none m = some m := by simp [hset]
@[simp] theorem hset_some (h m : Hash V) : hset (some h) m = some (h.overlay m) := rfl

/-- The value of a field of a stored key. -/
def hget (stored : Option (Hash V)) (f : F) : Option (V f) := stored.bind (· f)

@[simp] theorem hget_none (f : F) : hget (none : Option (Hash V)) f = none := rfl
@[simp] theorem hget_some (h : Hash V) (f : F) : hget (some h) f = h f := rfl

theorem hget_hset (stored : Option (Hash V)) (m : Hash V) (f : F) :
    hget (hset stored m) f = (m f).or (hget stored f) := by
  cases stored <;> simp [Hash.overlay]

/-- `HSET` changes nothing exactly when the key holds the values already. -/
theorem hset_eq_self_iff (stored : Option (Hash V)) (m : Hash V) :
    hset stored m = stored ↔
      stored.isSome ∧ ∀ f v, m f = some v → hget stored f = some v := by
  cases stored with
  | none => simp
  | some h => simp [Hash.overlay_eq_self_iff]

/-- Stored keys of one kind. -/
abbrev Keys (K A : Type) := K → Option A

variable {A : Type} [DecidableEq K]

/-- Change what one key holds. -/
def Keys.modify (s : Keys K A) (k : K) (f : Option A → Option A) : Keys K A :=
  Function.update s k (f (s k))

@[simp] theorem Keys.modify_self (s : Keys K A) (k : K) (f : Option A → Option A) :
    s.modify k f k = f (s k) := by simp [modify]

@[simp] theorem Keys.modify_of_ne (s : Keys K A) {k k' : K} (f : Option A → Option A)
    (h : k' ≠ k) : s.modify k f k' = s k' := by simp [modify, h]

theorem Keys.modify_apply (s : Keys K A) (k k' : K) (f : Option A → Option A) :
    s.modify k f k' = if k' = k then f (s k) else s k' := by
  by_cases h : k' = k
  · simp [h]
  · simp [h]

end Redis
