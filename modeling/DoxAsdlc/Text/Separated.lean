import Mathlib.Data.List.Chain

/-!
# Lists joined by a separator of two

`parts a b` splits a list wherever `a` is followed by `b`, and `joined a b` puts the two
between lists.  As the two are different, joining pieces that do not hold the separator and
splitting again gives the pieces back: no separator begins in the one before it.

## Main definitions

* `Separated.parts`, `Separated.joined` — split and join.
* `Separated.Free` — a list without the separator.
-/

namespace Separated

variable {α : Type*} [DecidableEq α] {a b : α}

/-- Put an element in front of the first part. -/
def consHead (x : α) : List (List α) → List (List α)
  | [] => [[x]]
  | p :: ps => (x :: p) :: ps

variable (a b) in
/-- Split wherever `a` is followed by `b`. -/
def parts : List α → List (List α)
  | [] => [[]]
  | [x] => [[x]]
  | x :: y :: rest =>
    if x = a ∧ y = b then [] :: parts rest else consHead x (parts (y :: rest))

omit [DecidableEq α] in
variable (a b) in
/-- Put `a` and `b` between lists. -/
def joined : List (List α) → List α
  | [] => []
  | [p] => p
  | p :: q :: ps => p ++ a :: b :: joined (q :: ps)

omit [DecidableEq α] in
variable (a b) in
/-- The separator is not in the list. -/
def Free (p : List α) : Prop := p.IsChain fun x y => ¬ (x = a ∧ y = b)

theorem parts_ne_nil (l : List α) : parts a b l ≠ [] := by
  fun_cases parts a b l with
  | case1 => exact List.cons_ne_nil _ _
  | case2 x => exact List.cons_ne_nil _ _
  | case3 x y rest h => exact List.cons_ne_nil _ _
  | case4 x y rest h =>
    cases parts a b (y :: rest) with
    | nil => exact List.cons_ne_nil _ _
    | cons p ps => exact List.cons_ne_nil _ _

/-- A list without the separator is one part. -/
theorem parts_of_free {p : List α} (h : Free a b p) : parts a b p = [p] := by
  induction p with
  | nil => rfl
  | cons x p ih =>
    cases p with
    | nil => rfl
    | cons y rest =>
      obtain ⟨hxy, hrest⟩ := List.isChain_cons_cons.mp h
      rw [parts, if_neg hxy, ih hrest]
      rfl

/-- A list without the separator, up to the first separator. -/
theorem parts_append {p : List α} (hab : a ≠ b) (h : Free a b p) (rest : List α) :
    parts a b (p ++ a :: b :: rest) = p :: parts a b rest := by
  induction p with
  | nil => rw [List.nil_append, parts, if_pos ⟨rfl, rfl⟩]
  | cons x p ih =>
    cases p with
    | nil =>
      -- what comes next begins with `a`, which is not `b`
      rw [List.singleton_append, parts, if_neg fun hx => hab hx.2]
      rw [parts, if_pos ⟨rfl, rfl⟩]
      rfl
    | cons y p =>
      obtain ⟨hxy, hrest⟩ := List.isChain_cons_cons.mp h
      rw [List.cons_append, List.cons_append, parts, if_neg hxy, ← List.cons_append, ih hrest]
      rfl

/-- **Splitting what was joined** gives the parts back. -/
theorem parts_joined {ps : List (List α)} (hab : a ≠ b) (hne : ps ≠ [])
    (h : ∀ p ∈ ps, Free a b p) : parts a b (joined a b ps) = ps := by
  induction ps with
  | nil => exact absurd rfl hne
  | cons p ps ih =>
    obtain ⟨hp, hps⟩ := List.forall_mem_cons.mp h
    cases ps with
    | nil => exact parts_of_free hp
    | cons q ps => rw [joined, parts_append hab hp, ih (List.cons_ne_nil _ _) hps]

omit [DecidableEq α] in
theorem free_cons_iff {x : α} {p : List α} :
    Free a b (x :: p) ↔ (∀ y ∈ p.head?, ¬ (x = a ∧ y = b)) ∧ Free a b p := by
  cases p with
  | nil => simp [Free]
  | cons y p => simp [Free, List.isChain_cons_cons]

/-- The first part begins as the list does, or is empty. -/
theorem head_of_parts {l p : List α} {ps : List (List α)} (h : parts a b l = p :: ps) {y : α}
    (hy : y ∈ p.head?) : y ∈ l.head? := by
  fun_cases parts a b l with
  | case1 =>
    obtain ⟨rfl, -⟩ := List.cons.inj h
    exact hy
  | case2 x =>
    obtain ⟨rfl, -⟩ := List.cons.inj h
    exact hy
  | case3 x z rest hsep =>
    rw [parts, if_pos hsep] at h
    obtain ⟨rfl, -⟩ := List.cons.inj h
    cases hy
  | case4 x z rest hsep =>
    rw [parts, if_neg hsep] at h
    cases hparts : parts a b (z :: rest) with
    | nil => exact absurd hparts (parts_ne_nil _)
    | cons q qs =>
      rw [hparts] at h
      obtain ⟨rfl, -⟩ := List.cons.inj h
      exact hy

/-- No part holds the separator. -/
theorem free_of_mem_parts {l p : List α} (h : p ∈ parts a b l) : Free a b p := by
  induction l using parts.induct a b generalizing p with
  | case1 =>
    obtain rfl := List.mem_singleton.mp h
    exact List.isChain_nil
  | case2 x =>
    obtain rfl := List.mem_singleton.mp h
    exact List.isChain_singleton x
  | case3 x y rest hsep ih =>
    rw [parts, if_pos hsep] at h
    rcases List.mem_cons.mp h with rfl | h
    · exact List.isChain_nil
    · exact ih h
  | case4 x y rest hsep ih =>
    rw [parts, if_neg hsep] at h
    cases hparts : parts a b (y :: rest) with
    | nil => exact absurd hparts (parts_ne_nil _)
    | cons q qs =>
      rw [hparts] at h ih
      rcases List.mem_cons.mp h with rfl | h
      · refine free_cons_iff.mpr ⟨?_, ih List.mem_cons_self⟩
        intro z hz
        obtain rfl : y = z := by simpa using head_of_parts hparts hz
        exact hsep
      · exact ih (List.mem_cons_of_mem _ h)

end Separated
