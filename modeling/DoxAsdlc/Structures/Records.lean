import Mathlib.Data.List.Nodup

/-!
# Records with keys

Records no two of which have the same key, in the order in which they came.  A record that is put
where there is one with its key takes its place.

## Main definitions

* `Records` — records, each with a key of its own.
* `Records.find?`, `put`, `discard` — the operations.
-/

/-- Records, no two with the same key. -/
structure Records {R K : Type*} (key : R → K) where
  rows : List R
  nodup : (rows.map key).Nodup

namespace Records

variable {R K : Type*} {key : R → K} {t : Records key} {r x : R} {p q : R → Bool}

/-- No records. -/
def empty : Records key := ⟨[], List.nodup_nil⟩

instance : Membership R (Records key) := ⟨fun t r => r ∈ t.rows⟩

@[simp] theorem mem_rows : r ∈ t.rows ↔ r ∈ t := Iff.rfl
@[simp] theorem not_mem_empty (r : R) : r ∉ (empty : Records key) := List.not_mem_nil
@[simp] theorem rows_empty : (empty : Records key).rows = [] := rfl

instance [DecidableEq R] (r : R) (t : Records key) : Decidable (r ∈ t) :=
  inferInstanceAs (Decidable (r ∈ t.rows))

theorem eq_of_key (hr : r ∈ t) (hx : x ∈ t) (h : key r = key x) : r = x :=
  List.inj_on_of_nodup_map t.nodup hr hx h

theorem nodup_rows (t : Records key) : t.rows.Nodup := t.nodup.of_map key

/-- Take away the records that have a property. -/
def discard (p : R → Bool) (t : Records key) : Records key where
  rows := t.rows.filter fun r => !p r
  nodup := t.nodup.sublist (List.filter_sublist.map key)

@[simp] theorem mem_discard : r ∈ t.discard p ↔ r ∈ t ∧ p r = false := by
  show r ∈ t.rows.filter (fun r => !p r) ↔ _
  simp

/-- What is left of a selection of which nothing is taken away. -/
theorem filter_discard_of_disjoint (h : ∀ r, q r = true → p r = false) :
    (t.discard p).rows.filter q = t.rows.filter q := by
  simp only [discard, List.filter_filter]
  apply List.filter_congr
  intro r _
  cases hq : q r with
  | false => simp
  | true => simp [h r hq]

/-- What is left of a selection that is taken away. -/
theorem filter_discard_of_subset (h : ∀ r, q r = true → p r = true) :
    (t.discard p).rows.filter q = [] := by
  rw [List.filter_eq_nil_iff]
  intro r hr hq
  exact absurd (h r hq) (by simpa using (mem_discard.mp hr).2)

/-- A selection by a value, when the records with a value are taken away. -/
theorem filter_discard_eq {B : Type*} [DecidableEq B] (f : R → B) (b b' : B) :
    (t.discard fun r => f r = b).rows.filter (fun r => f r = b') =
      if b' = b then [] else t.rows.filter fun r => f r = b' := by
  split
  case isTrue hb =>
    apply filter_discard_of_subset
    intro r hr
    simpa [hb] using hr
  case isFalse hb =>
    apply filter_discard_of_disjoint
    intro r hr
    simp only [decide_eq_true_eq, decide_eq_false_iff_not] at hr ⊢
    exact fun hkey => hb (hr.symm.trans hkey)

variable [DecidableEq K]

/-- The record with a key. -/
def find? (t : Records key) (k : K) : Option R := t.rows.find? fun r => key r = k

theorem find?_eq_some {k : K} : t.find? k = some r ↔ r ∈ t ∧ key r = k := by
  constructor
  · intro h
    exact ⟨List.mem_of_find?_eq_some h, by simpa using List.find?_some h⟩
  · intro h
    cases hfind : t.find? k with
    | none => exact absurd h.2 (by simpa using List.find?_eq_none.mp hfind r h.1)
    | some x =>
      have hx : key x = k := by simpa using List.find?_some hfind
      exact congrArg some (eq_of_key (List.mem_of_find?_eq_some hfind) h.1 (hx.trans h.2.symm))

theorem find?_eq_none {k : K} : t.find? k = none ↔ ∀ r ∈ t, key r ≠ k := by
  simp [find?]

@[simp] theorem find?_empty (k : K) : (empty : Records key).find? k = none := rfl

theorem find?_discard_key {k k' : K} :
    (t.discard fun r => key r = k).find? k' = if k' = k then none else t.find? k' := by
  ext r
  simp only [find?_eq_some, mem_discard, decide_eq_false_iff_not]
  split
  case isTrue hk => simp [hk]
  case isFalse hk =>
    rw [find?_eq_some]
    constructor
    · intro h
      exact ⟨h.1.1, h.2⟩
    · intro h
      exact ⟨⟨h.1, fun hkey => hk (h.2.symm.trans hkey)⟩, h.2⟩

/-- A record in the place of the one with its key, or at the end. -/
def putRow (key : R → K) (r : R) : List R → List R
  | [] => [r]
  | x :: xs => if key x = key r then r :: xs else x :: putRow key r xs

theorem mem_putRow {l : List R} (hl : (l.map key).Nodup) :
    x ∈ putRow key r l ↔ x = r ∨ (x ∈ l ∧ key x ≠ key r) := by
  induction l with
  | nil => simp [putRow]
  | cons y ys ih =>
    obtain ⟨hfresh, hrest⟩ := List.nodup_cons.mp hl
    have hother : x ∈ ys → key x ≠ key y := by
      intro hx hkey
      exact hfresh (hkey ▸ List.mem_map_of_mem hx)
    by_cases hy : key y = key r
    · have hys : x ∈ ys → key x ≠ key r := fun hx => hy ▸ hother hx
      have hne : x = y → ¬ key x ≠ key r := fun hxy => by simp [hxy, hy]
      simp only [putRow, hy, if_true, List.mem_cons]
      tauto
    · have hyr : x = y → key x ≠ key r := fun hxy => hxy ▸ hy
      simp only [putRow, hy, if_false, List.mem_cons, ih hrest]
      tauto

theorem nodup_putRow {l : List R} (hl : (l.map key).Nodup) :
    ((putRow key r l).map key).Nodup := by
  induction l with
  | nil => simp [putRow]
  | cons y ys ih =>
    obtain ⟨hfresh, hrest⟩ := List.nodup_cons.mp hl
    by_cases hy : key y = key r
    · simpa [putRow, hy] using ⟨by simpa [hy] using hfresh, hrest⟩
    · rw [putRow, if_neg hy, List.map_cons, List.nodup_cons]
      refine ⟨?_, ih hrest⟩
      intro hmem
      obtain ⟨x, hx, hkey⟩ := List.mem_map.mp hmem
      rcases (mem_putRow hrest).mp hx with rfl | hold
      · exact hy hkey.symm
      · exact hfresh (hkey ▸ List.mem_map_of_mem hold.1)

theorem putRow_of_new {l : List R} (h : ∀ x ∈ l, key x ≠ key r) : putRow key r l = l ++ [r] := by
  induction l with
  | nil => rfl
  | cons y ys ih =>
    obtain ⟨hy, hys⟩ := List.forall_mem_cons.mp h
    simp [putRow, hy, ih hys]

/-- A record that is there already stays. -/
theorem putRow_of_mem {l : List R} (hl : (l.map key).Nodup) (hr : r ∈ l) : putRow key r l = l := by
  induction l with
  | nil => cases hr
  | cons y ys ih =>
    obtain ⟨hfresh, hrest⟩ := List.nodup_cons.mp hl
    rcases List.mem_cons.mp hr with rfl | hr
    · simp [putRow]
    · have hy : key y ≠ key r := by
        intro hkey
        exact hfresh (hkey ▸ List.mem_map_of_mem hr)
      simp [putRow, hy, ih hrest hr]

/-- A selection that a record belongs to like the one whose place it takes. -/
theorem filter_putRow {l : List R} (hr : p r = true)
    (h : ∀ x ∈ l, key x = key r → p x = true) :
    (putRow key r l).filter p = putRow key r (l.filter p) := by
  induction l with
  | nil => simp [putRow, hr]
  | cons y ys ih =>
    obtain ⟨hy, hys⟩ := List.forall_mem_cons.mp h
    by_cases hkey : key y = key r
    · simp [putRow, hkey, hr, hy hkey]
    · cases hp : p y with
      | true => simp [putRow, hkey, hp, ih hys]
      | false => simp [putRow, hkey, hp, ih hys]

theorem filter_putRow_of_not {l : List R} (hr : p r = false)
    (h : ∀ x ∈ l, key x = key r → p x = false) :
    (putRow key r l).filter p = l.filter p := by
  induction l with
  | nil => simp [putRow, hr]
  | cons y ys ih =>
    obtain ⟨hy, hys⟩ := List.forall_mem_cons.mp h
    by_cases hkey : key y = key r
    · simp [putRow, hkey, hr, hy hkey]
    · simp [putRow, hkey, List.filter_cons, ih hys]

/-- Put a record. -/
def put (r : R) (t : Records key) : Records key := ⟨putRow key r t.rows, nodup_putRow t.nodup⟩

@[simp] theorem mem_put : x ∈ t.put r ↔ x = r ∨ (x ∈ t ∧ key x ≠ key r) := mem_putRow t.nodup

theorem rows_put_of_new (h : ∀ x ∈ t, key x ≠ key r) : (t.put r).rows = t.rows ++ [r] :=
  putRow_of_new h

theorem put_of_mem (hr : r ∈ t) : t.put r = t := by
  obtain ⟨rows, hnodup⟩ := t
  simp only [put, mk.injEq]
  exact putRow_of_mem hnodup hr

theorem find?_put {k : K} : (t.put r).find? k = if k = key r then some r else t.find? k := by
  ext x
  by_cases hk : k = key r
  · simp only [find?_eq_some, mem_put, hk, if_true, Option.some.injEq]
    constructor
    · intro h
      rcases h.1 with hx | hx
      · exact hx.symm
      · exact absurd h.2 hx.2
    · intro h
      simp [← h]
  · simp only [find?_eq_some, mem_put, hk, if_false]
    constructor
    · intro h
      rcases h.1 with hx | hx
      · exact absurd (hx ▸ h.2.symm) hk
      · exact ⟨hx.1, h.2⟩
    · intro h
      exact ⟨.inr ⟨h.1, fun hkey => hk (h.2.symm.trans hkey)⟩, h.2⟩

end Records
