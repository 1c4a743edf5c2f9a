import Mathlib.Data.List.Nodup

/-!
# Dictionaries with an order

Every key is there once, in the order in which the keys came.  A key that is set again keeps its
place.

## Main definitions

* `OrderedDict` — keys with their values.
* `OrderedDict.get?`, `set`, `erase`, `map` — the operations.
* `OrderedDict.entriesOf` — the entries that pairs make.
-/

/-- Keys with their values, each key once. -/
@[ext] structure OrderedDict (K A : Type*) where
  entries : List (K × A)
  nodup : (entries.map Prod.fst).Nodup

namespace OrderedDict

variable {K A B : Type*}

/-- The dictionary without keys. -/
def empty : OrderedDict K A := ⟨[], List.nodup_nil⟩

/-- The values, changed. -/
def map (f : A → B) (d : OrderedDict K A) : OrderedDict K B where
  entries := d.entries.map fun e => (e.1, f e.2)
  nodup := by
    rw [List.map_map]
    exact d.nodup

/-- The keys. -/
def keys (d : OrderedDict K A) : List K := d.entries.map Prod.fst

/-- The values. -/
def values (d : OrderedDict K A) : List A := d.entries.map Prod.snd

@[simp] theorem map_empty (f : A → B) : (empty : OrderedDict K A).map f = empty := rfl

variable [DecidableEq K]

/-- The value of a key. -/
def get? (d : OrderedDict K A) (k : K) : Option A := d.entries.lookup k

/-- A key and its value, in the place of the key if it is there, else at the end. -/
def put (k : K) (a : A) : List (K × A) → List (K × A)
  | [] => [(k, a)]
  | e :: es => if e.1 = k then (k, a) :: es else e :: put k a es

theorem mem_put {k : K} {a : A} {es : List (K × A)} {e : K × A} (h : e ∈ put k a es) :
    e = (k, a) ∨ e ∈ es := by
  induction es with
  | nil => exact .inl (List.mem_singleton.mp h)
  | cons e' es ih =>
    rw [put] at h
    split at h
    · rcases List.mem_cons.mp h with hnew | hold
      · exact .inl hnew
      · exact .inr (List.mem_cons_of_mem _ hold)
    · rcases List.mem_cons.mp h with hfirst | hrest
      · exact .inr (hfirst ▸ List.mem_cons_self)
      · exact (ih hrest).imp_right (List.mem_cons_of_mem _)

theorem nodup_put {k : K} {a : A} {es : List (K × A)} (h : (es.map Prod.fst).Nodup) :
    ((put k a es).map Prod.fst).Nodup := by
  induction es with
  | nil => simp [put]
  | cons e es ih =>
    obtain ⟨hfresh, hrest⟩ := List.nodup_cons.mp h
    rw [put]
    split
    · rename_i hk
      rw [List.map_cons, List.nodup_cons]
      exact ⟨hk ▸ hfresh, hrest⟩
    · rename_i hk
      rw [List.map_cons, List.nodup_cons]
      refine ⟨?_, ih hrest⟩
      intro hmem
      obtain ⟨e', he', hkey⟩ := List.mem_map.mp hmem
      rcases mem_put he' with rfl | hold
      · exact hk hkey.symm
      · exact hfresh (List.mem_map.mpr ⟨e', hold, hkey⟩)

theorem map_put (f : A → B) (k : K) (a : A) (es : List (K × A)) :
    (put k a es).map (fun e => (e.1, f e.2)) = put k (f a) (es.map fun e => (e.1, f e.2)) := by
  induction es with
  | nil => rfl
  | cons e es ih =>
    by_cases hk : e.1 = k
    · simp [put, hk]
    · simp [put, hk, ih]

/-- `d[k] = a`. -/
def set (d : OrderedDict K A) (k : K) (a : A) : OrderedDict K A :=
  ⟨put k a d.entries, nodup_put d.nodup⟩

/-- `del d[k]`. -/
def erase (d : OrderedDict K A) (k : K) : OrderedDict K A where
  entries := d.entries.filter fun e => e.1 ≠ k
  nodup := d.nodup.sublist (List.filter_sublist.map _)

theorem map_set (f : A → B) (d : OrderedDict K A) (k : K) (a : A) :
    (d.set k a).map f = (d.map f).set k (f a) :=
  OrderedDict.ext (map_put f k a d.entries)

theorem map_erase (f : A → B) (d : OrderedDict K A) (k : K) :
    (d.erase k).map f = (d.map f).erase k := by
  apply OrderedDict.ext
  simp [map, erase, List.filter_map, Function.comp_def]

@[simp] theorem get?_empty (k : K) : (empty : OrderedDict K A).get? k = none := rfl

theorem lookup_cons_ite (e : K × A) (es : List (K × A)) (k : K) :
    (e :: es).lookup k = if k = e.1 then some e.2 else es.lookup k := by
  obtain ⟨k', a⟩ := e
  by_cases hk : k = k'
  · simp [hk]
  · have hbeq : (k == k') = false := beq_eq_false_iff_ne.mpr hk
    simp [List.lookup_cons, hk, hbeq]

/-- The value that stands at a key is its value. -/
theorem get?_of_mem (d : OrderedDict K A) {k : K} {a : A} (h : (k, a) ∈ d.entries) :
    d.get? k = some a := by
  obtain ⟨entries, hnodup⟩ := d
  simp only [get?] at h ⊢
  induction entries with
  | nil => cases h
  | cons e es ih =>
    obtain ⟨k', a'⟩ := e
    obtain ⟨hfresh, hrest⟩ := List.nodup_cons.mp hnodup
    rcases List.mem_cons.mp h with heq | hold
    · cases heq
      simp
    · have hne : k ≠ k' := by
        intro hk
        exact hfresh (List.mem_map.mpr ⟨(k, a), hold, hk⟩)
      have hbeq : (k == k') = false := beq_eq_false_iff_ne.mpr hne
      simp only [List.lookup_cons, hbeq]
      exact ih hrest hold

theorem get?_eq_some {d : OrderedDict K A} {k : K} {a : A} :
    d.get? k = some a ↔ (k, a) ∈ d.entries := by
  constructor
  · rw [get?]
    induction d.entries with
    | nil => simp
    | cons e es ih =>
      intro h
      rw [lookup_cons_ite] at h
      split at h
      case isTrue hk =>
        cases h
        simp [hk]
      case isFalse => exact List.mem_cons_of_mem _ (ih h)
  · exact d.get?_of_mem

/-- Dictionaries with the same entries have the same values. -/
theorem get?_of_perm {d d' : OrderedDict K A} (h : d.entries.Perm d'.entries) (k : K) :
    d.get? k = d'.get? k := by
  ext a
  rw [get?_eq_some, get?_eq_some, h.mem_iff]

@[simp] theorem get?_map (f : A → B) (d : OrderedDict K A) (k : K) :
    (d.map f).get? k = (d.get? k).map f := by
  simp only [get?, map]
  induction d.entries with
  | nil => rfl
  | cons e es ih =>
    obtain ⟨k', a⟩ := e
    cases hbeq : k == k' <;> simp [List.lookup_cons, hbeq, ih]

theorem lookup_put (k k' : K) (a : A) (es : List (K × A)) :
    (put k a es).lookup k' = if k' = k then some a else es.lookup k' := by
  induction es with
  | nil => simp [put, lookup_cons_ite]
  | cons e es ih =>
    by_cases he : e.1 = k
    · by_cases hk : k' = k <;> simp [put, lookup_cons_ite, he, hk]
    · rw [put, if_neg he, lookup_cons_ite, lookup_cons_ite, ih]
      by_cases hk : k' = k
      · simp [hk, Ne.symm he]
      · simp [hk]

/-- The key that is set has the value, the others have theirs. -/
theorem get?_set (d : OrderedDict K A) (k k' : K) (a : A) :
    (d.set k a).get? k' = if k' = k then some a else d.get? k' :=
  lookup_put k k' a d.entries

/-- The key that is deleted is not there, the others have their values. -/
theorem get?_erase (d : OrderedDict K A) (k k' : K) :
    (d.erase k).get? k' = if k' = k then none else d.get? k' := by
  simp only [get?, erase]
  induction d.entries with
  | nil => simp
  | cons e es ih =>
    rw [List.filter_cons]
    by_cases he : e.1 = k
    · rw [if_neg (by simp [he]), ih, lookup_cons_ite, he]
      by_cases hk : k' = k
      · simp [hk]
      · simp [hk]
    · rw [if_pos (by simpa using he), lookup_cons_ite, lookup_cons_ite, ih]
      by_cases hk : k' = k
      · simp [hk, Ne.symm he]
      · simp [hk]

/-- A property of the values that setting one keeps. -/
theorem forall_set {P : K × A → Prop} {d : OrderedDict K A} {k : K} {a : A}
    (h : ∀ e ∈ d.entries, P e) (ha : P (k, a)) : ∀ e ∈ (d.set k a).entries, P e := by
  intro e he
  rcases mem_put he with rfl | hold
  · exact ha
  · exact h e hold

theorem forall_erase {P : K × A → Prop} {d : OrderedDict K A} {k : K}
    (h : ∀ e ∈ d.entries, P e) : ∀ e ∈ (d.erase k).entries, P e := by
  intro e he
  exact h e (List.mem_filter.mp he).1

/-! ## From pairs -/

/-- Pairs set one after the other: a later one with the same key counts. -/
def entriesOf (pairs : List (K × A)) : List (K × A) :=
  pairs.foldl (fun es e => put e.1 e.2 es) []

theorem put_of_fresh {k : K} {a : A} {es : List (K × A)} (h : k ∉ es.map Prod.fst) :
    put k a es = es ++ [(k, a)] := by
  induction es with
  | nil => rfl
  | cons e es ih =>
    rw [List.map_cons, List.mem_cons, not_or] at h
    rw [put, if_neg (Ne.symm h.1), ih h.2, List.cons_append]

theorem nodup_entriesOf (pairs : List (K × A)) : ((entriesOf pairs).map Prod.fst).Nodup := by
  have hfold : ∀ es : List (K × A), (es.map Prod.fst).Nodup →
      ((pairs.foldl (fun es e => put e.1 e.2 es) es).map Prod.fst).Nodup := by
    induction pairs with
    | nil => exact fun _ h => h
    | cons e pairs ih => exact fun es h => ih _ (nodup_put h)
  exact hfold [] List.nodup_nil

/-- Nothing but the pairs is set. -/
theorem mem_of_mem_entriesOf {pairs : List (K × A)} {e : K × A} (h : e ∈ entriesOf pairs) :
    e ∈ pairs := by
  have hfold : ∀ es : List (K × A), e ∈ pairs.foldl (fun es e => put e.1 e.2 es) es →
      e ∈ es ∨ e ∈ pairs := by
    clear h
    induction pairs with
    | nil => exact fun _ h => .inl h
    | cons e' pairs ih =>
      intro es hmem
      rcases ih _ hmem with hold | hlater
      · rcases mem_put hold with rfl | hold
        · exact .inr List.mem_cons_self
        · exact .inl hold
      · exact .inr (List.mem_cons_of_mem _ hlater)
  exact (hfold [] h).resolve_left (List.not_mem_nil)

theorem mem_keys_put {k k' : K} {a : A} {es : List (K × A)} :
    k' ∈ (put k a es).map Prod.fst ↔ k' = k ∨ k' ∈ es.map Prod.fst := by
  induction es with
  | nil => simp [put]
  | cons e es ih =>
    by_cases he : e.1 = k
    · simp [put, he]
    · rw [put, if_neg he, List.map_cons, List.mem_cons, ih, List.map_cons, List.mem_cons]
      exact or_left_comm

/-- Every key is set. -/
theorem mem_keys_entriesOf {pairs : List (K × A)} {k : K} :
    k ∈ (entriesOf pairs).map Prod.fst ↔ k ∈ pairs.map Prod.fst := by
  have hfold : ∀ es : List (K × A), k ∈ (pairs.foldl (fun es e => put e.1 e.2 es) es).map Prod.fst ↔
      k ∈ es.map Prod.fst ∨ k ∈ pairs.map Prod.fst := by
    induction pairs with
    | nil => simp
    | cons e pairs ih =>
      intro es
      rw [List.foldl_cons, ih, mem_keys_put, List.map_cons, List.mem_cons, or_assoc, or_left_comm]
  have hempty := hfold []
  rwa [List.map_nil, List.mem_nil_iff, false_or] at hempty

/-- Pairs with different keys are all there, in their order. -/
theorem entriesOf_of_nodup {pairs : List (K × A)} (h : (pairs.map Prod.fst).Nodup) :
    entriesOf pairs = pairs := by
  have hfold : ∀ es : List (K × A), ((es ++ pairs).map Prod.fst).Nodup →
      pairs.foldl (fun es e => put e.1 e.2 es) es = es ++ pairs := by
    clear h
    induction pairs with
    | nil => simp
    | cons e pairs ih =>
      intro es hes
      have hfresh : e.1 ∉ es.map Prod.fst := by
        intro hmem
        rw [List.map_append, List.nodup_append] at hes
        exact hes.2.2 _ hmem _ (by simp) rfl
      rw [List.foldl_cons, put_of_fresh hfresh, ih _ (by simpa using hes)]
      simp
  exact hfold [] (by simpa using h)

end OrderedDict
