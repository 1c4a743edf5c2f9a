import Mathlib.Data.List.Perm.Basic
import Mathlib.Data.List.Pairwise
import Mathlib.Data.Int.Notation

/-!
# Edits of a listing

A listing shows some entries and says how many there are in all.  An edit replaces the whole of
it, puts an entry at its head, puts an entry in the place of those with its key, or takes out
those with a key, adjusting the number in its own way.  Two edits are compatible when it does
not matter which comes first, and pairwise compatible edits may be made in any order.

## Main definitions

* `Listing`, `Edit`, `Edit.apply` — the edits.
* `Edit.Compatible`, `Edit.compatible_iff` — when the order of two of them does not matter.
* `applyAll`, `applyAll_perm` — several edits, in any order.
-/

/-- The entries that are shown, and the number of entries there are. -/
structure Listing (α : Type) where
  items : List α
  total : ℤ
  deriving DecidableEq

namespace Listing

variable {α κ : Type}

/-- What is done to a listing. -/
inductive Edit (α κ : Type)
  | keep
  | replace (l : Listing α)
  | insert (a : α)
  | put (a : α)
  | remove (k : κ) (counted : Bool)
  deriving DecidableEq

variable [DecidableEq κ] (key : α → κ)

namespace Edit

/-- The listing after an edit. -/
def apply (l : Listing α) : Edit α κ → Listing α
  | keep => l
  | replace l' => l'
  | insert a => ⟨a :: l.items, l.total + 1⟩
  | put a => { l with items := l.items.map fun i => if key i = key a then a else i }
  | remove k counted =>
    ⟨l.items.filter fun i => key i ≠ k, if counted then l.total - 1 else l.total⟩

/-- The edit leaves the listing as it is. -/
def Fixes (l : Listing α) : Edit α κ → Prop
  | keep => True
  | replace l' => l' = l
  | insert _ => False
  | put a => ∀ i ∈ l.items, key i = key a → i = a
  | remove k counted => counted = false ∧ ∀ i ∈ l.items, key i ≠ k

/-- The edit leaves an entry alone that is put at the head. -/
def Spares (a : α) : Edit α κ → Prop
  | insert b => b = a
  | put b => key b = key a → b = a
  | remove k _ => key a ≠ k
  | _ => True

/-- It does not matter which of the two edits comes first. -/
def Compatible : Edit α κ → Edit α κ → Prop
  | keep, _ => True
  | _, keep => True
  | replace l, b => b.Fixes key l
  | a, replace l => a.Fixes key l
  | insert a, b => b.Spares key a
  | a, insert b => a.Spares key b
  | put a, put b => key a = key b → a = b
  | put _, remove _ _ => True
  | remove _ _, put _ => True
  | remove _ _, remove _ _ => True

section Decide

variable [DecidableEq α]

instance (l : Listing α) (e : Edit α κ) : Decidable (e.Fixes key l) := by
  cases e <;> (unfold Fixes; infer_instance)

instance (a : α) (e : Edit α κ) : Decidable (e.Spares key a) := by
  cases e <;> (unfold Spares; infer_instance)

instance (a b : Edit α κ) : Decidable (a.Compatible key b) := by
  cases a <;> cases b <;> (unfold Compatible; infer_instance)

end Decide

variable (a b : α) (k k' : κ) (counted counted' : Bool) (l : Listing α) (e : Edit α κ)

/-- The edits may be exchanged, whatever the listing. -/
def Commute (e e' : Edit α κ) : Prop :=
  ∀ l : Listing α, e.apply key (e'.apply key l) = e'.apply key (e.apply key l)

/-- What is put in the place of others goes when they go. -/
theorem filter_map_put (items : List α) :
    ((items.map fun i => if key i = key a then a else i).filter fun i => key i ≠ key a)
      = items.filter fun i => key i ≠ key a := by
  induction items with
  | nil => rfl
  | cons i items ih => by_cases hi : key i = key a <;> simp_all

variable {key}

theorem Commute.comm {e e' : Edit α κ} : Commute key e e' ↔ Commute key e' e :=
  ⟨fun h l => (h l).symm, fun h l => (h l).symm⟩

theorem map_put_eq_self {items : List α} :
    (items.map fun i => if key i = key a then a else i) = items ↔
      ∀ i ∈ items, key i = key a → i = a := by
  induction items with
  | nil => simp
  | cons i items ih =>
    rw [List.map_cons, List.cons.injEq, ih, List.forall_mem_cons]
    apply and_congr_left'
    by_cases hi : key i = key a
    · simp [hi, eq_comm]
    · simp [hi]

theorem fixes_iff : e.Fixes key l ↔ e.apply key l = l := by
  obtain ⟨items, total⟩ := l
  cases e with
  | keep => exact iff_of_true trivial rfl
  | replace l' => exact Iff.rfl
  | insert a => simp [Fixes, apply]
  | put a => simp [Fixes, apply, map_put_eq_self]
  | remove k counted =>
    cases counted with
    | true =>
      refine iff_of_false (by simp [Fixes]) ?_
      intro h
      have htotal : total - 1 = total := congrArg Listing.total h
      omega
    | false => simp [Fixes, apply]

theorem commute_replace : Commute key (.replace l) e ↔ e.Fixes key l := by
  rw [fixes_iff]
  constructor
  · intro h
    exact (h l).symm
  · intro h m
    exact h.symm

theorem commute_insert_insert : Commute (κ := κ) key (.insert a) (.insert b) ↔ b = a := by
  constructor
  · intro h
    have hitems := congrArg Listing.items (h ⟨[], 0⟩)
    simp only [apply, List.cons.injEq] at hitems
    exact hitems.1.symm
  · rintro rfl l
    rfl

theorem commute_insert_put :
    Commute (κ := κ) key (.insert a) (.put b) ↔ (key b = key a → b = a) := by
  constructor
  · intro h hkey
    have hitems := congrArg Listing.items (h ⟨[], 0⟩)
    simpa [apply, hkey, eq_comm] using hitems
  · intro h l
    by_cases hkey : key a = key b
    · simp [apply, h hkey.symm]
    · simp [apply, hkey]

theorem commute_insert_remove :
    Commute key (.insert a) (.remove k counted) ↔ key a ≠ k := by
  constructor
  · rintro h rfl
    have hitems := congrArg Listing.items (h ⟨[], 0⟩)
    simp [apply] at hitems
  · intro h l
    cases counted <;> simp [apply, h]

theorem commute_put_put :
    Commute (κ := κ) key (.put a) (.put b) ↔ (key a = key b → a = b) := by
  constructor
  · intro h hkey
    have hitems := congrArg Listing.items (h ⟨[a], 0⟩)
    simpa [apply, hkey] using hitems
  · intro h l
    simp only [apply, List.map_map, mk.injEq, and_true, List.map_inj_left, Function.comp_apply]
    intro i _
    by_cases ha : key i = key a <;> by_cases hb : key i = key b
    · have hab := h (ha.symm.trans hb)
      simp [hab]
    · have hab : key a ≠ key b := fun hab => hb (ha.trans hab)
      simp [ha, hab]
    · have hab : key b ≠ key a := fun hab => ha (hb.trans hab)
      simp [hb, hab]
    · simp [ha, hb]

theorem commute_put_remove : Commute key (.put a) (.remove k counted) := by
  intro l
  have hfilter : ∀ items : List α,
      (items.filter fun i => key i ≠ k).map (fun i => if key i = key a then a else i)
        = (items.map fun i => if key i = key a then a else i).filter fun i => key i ≠ k := by
    intro items
    rw [List.filter_map]
    congr 1
    apply List.filter_congr
    intro i _
    by_cases hi : key i = key a <;> simp [hi]
  simp only [apply, hfilter]

theorem commute_remove_remove : Commute (α := α) key (.remove k counted) (.remove k' counted') := by
  intro l
  simp only [apply, List.filter_filter, mk.injEq]
  refine ⟨List.filter_congr fun i _ => Bool.and_comm _ _, ?_⟩
  cases counted <;> cases counted' <;> simp

/-- **Compatible edits are those that may be exchanged.** -/
theorem compatible_iff (e e' : Edit α κ) : e.Compatible key e' ↔ Commute key e e' := by
  have hkeep : ∀ e : Edit α κ, Commute key .keep e := fun e l => rfl
  have hreplace : ∀ (l : Listing α) (e : Edit α κ), Commute key (.replace l) e ↔ e.Fixes key l :=
    commute_replace
  cases e with
  | keep => exact iff_of_true (by cases e' <;> trivial) (hkeep e')
  | replace l =>
    cases e' with
    | keep => exact iff_of_true trivial (Commute.comm.mp (hkeep _))
    | replace l' => exact (hreplace l (.replace l')).symm
    | insert a => exact (hreplace l (.insert a)).symm
    | put a => exact (hreplace l (.put a)).symm
    | remove k counted => exact (hreplace l (.remove k counted)).symm
  | insert a =>
    cases e' with
    | keep => exact iff_of_true trivial (Commute.comm.mp (hkeep _))
    | replace l => exact (Commute.comm.trans (hreplace l (.insert a))).symm
    | insert b => exact (commute_insert_insert a b).symm
    | put b => exact (commute_insert_put a b).symm
    | remove k counted => exact (commute_insert_remove a k counted).symm
  | put a =>
    cases e' with
    | keep => exact iff_of_true trivial (Commute.comm.mp (hkeep _))
    | replace l => exact (Commute.comm.trans (hreplace l (.put a))).symm
    | insert b => exact (Commute.comm.trans (commute_insert_put b a)).symm
    | put b => exact (commute_put_put a b).symm
    | remove k counted => exact iff_of_true trivial (commute_put_remove a k counted)
  | remove k counted =>
    cases e' with
    | keep => exact iff_of_true trivial (Commute.comm.mp (hkeep _))
    | replace l => exact (Commute.comm.trans (hreplace l (.remove k counted))).symm
    | insert b => exact (Commute.comm.trans (commute_insert_remove b k counted)).symm
    | put b => exact iff_of_true trivial (Commute.comm.mp (commute_put_remove b k counted))
    | remove k' counted' => exact iff_of_true trivial (commute_remove_remove k k' counted counted')

theorem Compatible.comm {e e' : Edit α κ} (h : e.Compatible key e') : e'.Compatible key e :=
  (compatible_iff _ _).mpr (Commute.comm.mp ((compatible_iff _ _).mp h))

end Edit

/-! ## Several edits -/

/-- The listing after several edits, the first of them made first. -/
def applyAll (edits : List (Edit α κ)) (l : Listing α) : Listing α :=
  edits.foldl (fun l e => e.apply key l) l

variable {key}

/-- **Pairwise compatible edits may be made in any order.** -/
theorem applyAll_perm {edits edits' : List (Edit α κ)}
    (hcompatible : edits.Pairwise (Edit.Compatible key)) (h : edits.Perm edits') (l : Listing α) :
    applyAll key edits l = applyAll key edits' l := by
  apply h.foldl_eq'
  have : Std.Symm (Edit.Commute key) := ⟨fun _ _ h => Edit.Commute.comm.mp h⟩
  have hcommute : edits.Pairwise (Edit.Commute key) :=
    hcompatible.imp fun h => (Edit.compatible_iff _ _).mp h
  intro e he e' he' m
  exact hcommute.forall_of_forall (fun _ _ _ => rfl) he' he m

end Listing
