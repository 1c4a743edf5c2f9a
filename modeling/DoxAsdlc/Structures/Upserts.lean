import Mathlib.Data.List.Induction

/-!
# A store that is only ever written

Batches of entries are written to a store one after the other, an entry under its key in place
of what was there, and nothing is removed.  Each batch belongs to an owner, and is meant to be
all that the owner has.  What the store holds in the end is told by the last batch with each
key; it is what the owners last meant, without one owner having written over another, exactly
if no key of an earlier batch is missing from the last one of its owner, and no two owners have
a key in common.

## Main definitions

* `Batch` — the entries of one owner, with one value for a key.
* `Upserts.store`, `Upserts.latest` — what is stored, and the last batch of an owner.
* `Upserts.Mirrors`, `Upserts.Undisturbed` — what the store is meant to be.
* `Upserts.Kept`, `Upserts.Apart` — when it is.
-/

/-- The entries of one owner, each with the owner in its value. -/
structure Batch {ι W : Type} (K : Type) (ownerOf : W → ι) where
  owner : ι
  entries : List (K × W)
  owned : ∀ e ∈ entries, ownerOf e.2 = owner
  functional : ∀ e ∈ entries, ∀ e' ∈ entries, e.1 = e'.1 → e.2 = e'.2

namespace Upserts

/-- The last element of a list is also the last one that satisfies what it satisfies. -/
theorem getLast?_filter_of_getLast? {α : Type} {p : α → Bool} {l : List α} {a : α}
    (h : l.getLast? = some a) (ha : p a = true) : (l.filter p).getLast? = some a := by
  obtain ⟨front, rfl⟩ := List.getLast?_eq_some_iff.mp h
  simp [ha]

variable {ι K W : Type} {ownerOf : W → ι}

/-- The keys of a batch. -/
def keys (b : Batch K ownerOf) : List K := b.entries.map Prod.fst

theorem mem_keys {b : Batch K ownerOf} {k : K} : k ∈ keys b ↔ ∃ w, (k, w) ∈ b.entries := by
  simp [keys]

variable [DecidableEq K]

/-- Write entries one after the other. -/
def write (entries : List (K × W)) (s : K → Option W) : K → Option W :=
  entries.foldl (fun s e => Function.update s e.1 (some e.2)) s

@[simp] theorem write_nil (s : K → Option W) : write [] s = s := rfl

theorem write_append (es es' : List (K × W)) (s : K → Option W) :
    write (es ++ es') s = write es' (write es s) := List.foldl_append

theorem write_of_not_mem {es : List (K × W)} {k : K} (hk : ∀ e ∈ es, e.1 ≠ k)
    (s : K → Option W) : write es s k = s k := by
  induction es generalizing s with
  | nil => rfl
  | cons e es ih =>
    have hne : k ≠ e.1 := (hk e List.mem_cons_self).symm
    refine (ih (fun e' he' => hk e' (List.mem_cons_of_mem _ he')) _).trans ?_
    simp [hne]

/-- What is stored under a key that is written is the value it is written with. -/
theorem write_of_mem {es : List (K × W)} {k : K} {w : W} (h : (k, w) ∈ es)
    (hes : ∀ e ∈ es, e.1 = k → e.2 = w) (s : K → Option W) : write es s k = some w := by
  induction es using List.reverseRecOn with
  | nil => cases h
  | append_singleton es e ih =>
    rw [write_append]
    by_cases hk : k = e.1
    · have hw : e.2 = w := hes e (by simp) hk.symm
      simp [write, hk, hw]
    · have hmem : (k, w) ∈ es := by
        rcases List.mem_append.mp h with hmem | hlast
        · exact hmem
        · exact absurd (congrArg Prod.fst (List.mem_singleton.mp hlast)) hk
      have hrest := ih hmem fun e' he' => hes e' (List.mem_append_left _ he')
      simpa [write, hk] using hrest

/-- What is stored is what was written last, and else what was there. -/
theorem write_eq_or (es : List (K × W)) (s : K → Option W) (k : K) :
    write es s k = (write es (fun _ => none) k).or (s k) := by
  induction es using List.reverseRecOn with
  | nil => rfl
  | append_singleton es e ih =>
    rw [write_append, write_append]
    by_cases hk : k = e.1
    · simp [write, hk]
    · simpa [write, hk] using ih

/-- Values may be looked at when they are written, or when they are read. -/
theorem write_map {V : Type} (f : W → V) (es : List (K × W)) (s : K → Option W) (k : K) :
    (write es s k).map f = write (es.map fun e => (e.1, f e.2)) (fun k => (s k).map f) k := by
  induction es generalizing s with
  | nil => rfl
  | cons e es ih =>
    have hupdate : (fun k => (Function.update s e.1 (some e.2) k).map f)
        = Function.update (fun k => (s k).map f) e.1 (some (f e.2)) := by
      ext1 k
      by_cases hk : k = e.1
      · simp [hk]
      · simp [hk]
    exact (ih _).trans (by rw [hupdate]; rfl)

/-- What the store holds after batches, from nothing. -/
def store (bs : List (Batch K ownerOf)) : K → Option W :=
  bs.foldl (fun s b => write b.entries s) fun _ => none

theorem store_append (bs : List (Batch K ownerOf)) (b : Batch K ownerOf) :
    store (bs ++ [b]) = write b.entries (store bs) := by
  simp [store]

/-- A batch decides what is stored under its keys, and leaves the others alone. -/
theorem store_append_eq_some {bs : List (Batch K ownerOf)} {b : Batch K ownerOf} {k : K} {w : W} :
    store (bs ++ [b]) k = some w ↔
      (k, w) ∈ b.entries ∨ (k ∉ keys b ∧ store bs k = some w) := by
  rw [store_append]
  by_cases hk : k ∈ keys b
  · obtain ⟨w', hw'⟩ := mem_keys.mp hk
    rw [write_of_mem hw' fun e he hek => b.functional e he (k, w') hw' hek]
    constructor
    · intro h
      cases h
      exact .inl hw'
    · rintro (hw | ⟨hnot, -⟩)
      · exact congrArg some (b.functional _ hw' _ hw rfl)
      · exact absurd hk hnot
  · have hnone : ∀ e ∈ b.entries, e.1 ≠ k := by
      intro e he hek
      exact hk (mem_keys.mpr ⟨e.2, hek ▸ he⟩)
    rw [write_of_not_mem hnone]
    constructor
    · intro h
      exact .inr ⟨hk, h⟩
    · rintro (hw | ⟨-, h⟩)
      · exact absurd (mem_keys.mpr ⟨w, hw⟩) hk
      · exact h

/-- **What is stored** under a key is what the last batch with that key has. -/
theorem store_eq_some {bs : List (Batch K ownerOf)} {k : K} {w : W} : store bs k = some w ↔
    ∃ b, (bs.filter fun b => k ∈ keys b).getLast? = some b ∧ (k, w) ∈ b.entries := by
  induction bs using List.reverseRecOn with
  | nil => simp [store]
  | append_singleton bs b ih =>
    rw [store_append_eq_some]
    by_cases hk : k ∈ keys b
    · simp [hk, List.filter_append]
    · have hnot : (k, w) ∉ b.entries := fun hw => hk (mem_keys.mpr ⟨w, hw⟩)
      simp [hk, hnot, ih, List.filter_append]

variable [DecidableEq ι]

/-- The last batch of an owner. -/
def latest (bs : List (Batch K ownerOf)) (o : ι) : Option (Batch K ownerOf) :=
  (bs.filter fun b => b.owner = o).getLast?

/-- The store holds exactly what the last batches of the owners have. -/
def Mirrors (bs : List (Batch K ownerOf)) : Prop :=
  ∀ k w, store bs k = some w ↔ ∃ o b, latest bs o = some b ∧ (k, w) ∈ b.entries

/-- No batch is written over what another owner has stored. -/
def Undisturbed (bs : List (Batch K ownerOf)) : Prop :=
  ∀ before b after, bs = before ++ b :: after →
    ∀ k ∈ keys b, ∀ w, store before k = some w → ownerOf w = b.owner

/-- No key of an owner is missing from its last batch. -/
def Kept (bs : List (Batch K ownerOf)) : Prop :=
  ∀ o last, latest bs o = some last → ∀ b ∈ bs, b.owner = o → ∀ k ∈ keys b, k ∈ keys last

/-- No two owners have a key in common. -/
def Apart (bs : List (Batch K ownerOf)) : Prop :=
  ∀ b ∈ bs, ∀ c ∈ bs, ∀ k ∈ keys b, k ∈ keys c → b.owner = c.owner

section

variable {bs : List (Batch K ownerOf)} {o : ι} {b : Batch K ownerOf} {k : K} {w : W}

omit [DecidableEq K] in
theorem mem_of_latest (h : latest bs o = some b) : b ∈ bs ∧ b.owner = o := by
  simpa using List.mem_filter.mp (List.mem_of_getLast? h)

omit [DecidableEq K] in
theorem exists_latest (hb : b ∈ bs) : ∃ last, latest bs b.owner = some last := by
  cases h : latest bs b.owner with
  | none =>
    have hnil := List.getLast?_eq_none_iff.mp h
    have hmem : b ∈ bs.filter fun c => c.owner = b.owner := by simp [hb]
    rw [hnil] at hmem
    cases hmem
  | some last => exact ⟨last, rfl⟩

/-- Where nothing is shared, the last batch of an owner decides on its keys. -/
theorem store_of_latest (ha : Apart bs) (h : latest bs o = some b) (hw : (k, w) ∈ b.entries) :
    store bs k = some w := by
  have hk : k ∈ keys b := mem_keys.mpr ⟨w, hw⟩
  obtain ⟨hmem, howner⟩ := mem_of_latest h
  have hfilter : bs.filter (fun c => k ∈ keys c)
      = (bs.filter fun c => c.owner = o).filter fun c => k ∈ keys c := by
    rw [List.filter_filter]
    refine List.filter_congr ?_
    intro c hc
    by_cases hkc : k ∈ keys c
    · simp [hkc, ← howner, ha c hc b hmem k hkc hk]
    · simp [hkc]
  rw [store_eq_some, hfilter]
  exact ⟨b, getLast?_filter_of_getLast? h (by simp [hk]), hw⟩

omit [DecidableEq ι] in
/-- Where no batch disturbs another owner, everything under a key is of one owner. -/
theorem Undisturbed.owner (hu : Undisturbed bs) (hb : b ∈ bs) (hk : k ∈ keys b) :
    ∃ w, store bs k = some w ∧ ownerOf w = b.owner := by
  induction bs using List.reverseRecOn with
  | nil => cases hb
  | append_singleton bs c ih =>
    have hfront : Undisturbed bs := by
      rintro before d after rfl
      exact hu before d (after ++ [c]) (by simp)
    by_cases hc : k ∈ keys c
    · obtain ⟨w, hw⟩ := mem_keys.mp hc
      refine ⟨w, store_append_eq_some.mpr (.inl hw), (c.owned _ hw).trans ?_⟩
      rcases List.mem_append.mp hb with hb | hb
      · obtain ⟨w', hw', howner⟩ := ih hfront hb
        rw [← howner, hu bs c [] rfl k hc w' hw']
      · rw [List.mem_singleton.mp hb]
    · rcases List.mem_append.mp hb with hb | hb
      · obtain ⟨w, hw, howner⟩ := ih hfront hb
        exact ⟨w, store_append_eq_some.mpr (.inr ⟨hc, hw⟩), howner⟩
      · rw [List.mem_singleton.mp hb] at hk
        exact absurd hk hc

/-- **When the store is what its owners last meant.** -/
theorem mirrors_iff : Mirrors bs ∧ Undisturbed bs ↔ Kept bs ∧ Apart bs := by
  constructor
  · rintro ⟨hm, hu⟩
    refine ⟨?_, ?_⟩
    · intro o last hlast b hb howner k hk
      -- What is stored is of this owner, so it is in the last batch of this owner.
      obtain ⟨w, hw, hwo⟩ := hu.owner hb hk
      obtain ⟨o', b', hb', hmem⟩ := (hm k w).mp hw
      have ho : o' = o := by
        rw [← (mem_of_latest hb').2, ← b'.owned _ hmem, hwo, howner]
      subst ho
      cases hlast.symm.trans hb'
      exact mem_keys.mpr ⟨w, hmem⟩
    · intro b hb c hc k hkb hkc
      obtain ⟨w, hw, hwb⟩ := hu.owner hb hkb
      obtain ⟨w', hw', hwc⟩ := hu.owner hc hkc
      cases hw.symm.trans hw'
      exact hwb.symm.trans hwc
  · rintro ⟨hk, ha⟩
    refine ⟨?_, ?_⟩
    · intro k w
      constructor
      · intro hw
        obtain ⟨b, hb, hmem⟩ := store_eq_some.mp hw
        have hbs : b ∈ bs := (List.mem_filter.mp (List.mem_of_getLast? hb)).1
        obtain ⟨last, hlast⟩ := exists_latest hbs
        -- The last batch of the owner has the key too, and so decides on it.
        obtain ⟨w', hw'⟩ := mem_keys.mp
          (hk b.owner last hlast b hbs rfl k (mem_keys.mpr ⟨w, hmem⟩))
        cases hw.symm.trans (store_of_latest ha hlast hw')
        exact ⟨b.owner, last, hlast, hw'⟩
      · rintro ⟨o, b, hlast, hmem⟩
        exact store_of_latest ha hlast hmem
    · rintro before b after rfl k hkb w hw
      obtain ⟨c, hc, hmem⟩ := store_eq_some.mp hw
      have hcs : c ∈ before := (List.mem_filter.mp (List.mem_of_getLast? hc)).1
      rw [c.owned _ hmem]
      exact ha c (by simp [hcs]) b (by simp) k (mem_keys.mpr ⟨w, hmem⟩) hkb

end

end Upserts
