import Mathlib.Algebra.Order.BigOperators.Group.List
import Mathlib.Tactic.Linarith

/-!
# Greedy selection within a budget

Items are looked at in order, and each one that is wanted is taken if there is room for it.  What
is taken fits the budget, and a wanted item is left out only if what was taken before leaves too
little room.  Where the items come in descending order of a rank, those of the highest rank come
first, in the order in which they were given.

## Main definitions

* `Greedy.select` — the selection.
* `Greedy.ranked` — items in descending order of a rank.

## Main results

* `Greedy.cost_select_le` — the budget is kept.
* `Greedy.no_room` — why a wanted item is left out.
* `Greedy.ranked_eq_append` — the items of the highest rank come first.
-/

namespace Greedy

variable {A : Type*}

/-! ## The selection -/

section

variable (cost : A → ℕ) (wanted : A → Bool) (budget : ℤ)

/-- What is taken, where some of the budget is used already. -/
def select : ℕ → List A → List A
  | _, [] => []
  | used, x :: xs =>
    if wanted x ∧ (used + cost x : ℤ) ≤ budget then x :: select (used + cost x) xs
    else select used xs

/-- What items cost together. -/
def total (xs : List A) : ℕ := (xs.map cost).sum

variable {cost wanted budget} {used : ℕ} {xs ys : List A} {x : A}

@[simp] theorem total_nil : total cost ([] : List A) = 0 := rfl

@[simp] theorem total_cons : total cost (x :: xs) = cost x + total cost xs := by simp [total]

@[simp] theorem total_append : total cost (xs ++ ys) = total cost xs + total cost ys := by
  simp [total]

theorem select_sublist : (select cost wanted budget used xs).Sublist xs := by
  induction xs generalizing used with
  | nil => exact .slnil
  | cons x xs ih =>
    rw [select]
    split
    · exact ih.cons_cons x
    · exact ih.cons x

/-- Items that come after others are selected with what these leave. -/
theorem select_append : select cost wanted budget used (xs ++ ys) =
    select cost wanted budget used xs ++
      select cost wanted budget (used + total cost (select cost wanted budget used xs)) ys := by
  induction xs generalizing used with
  | nil => simp [select]
  | cons x xs ih =>
    by_cases hx : wanted x ∧ (used + cost x : ℤ) ≤ budget
    · simp [select, hx, ih, add_assoc]
    · simp [select, hx, ih]

/-- The selection among images is the image of the selection. -/
theorem select_map {B : Type*} {cost : B → ℕ} {wanted : B → Bool} {f : A → B} :
    select cost wanted budget used (xs.map f) =
      (select (cost ∘ f) (wanted ∘ f) budget used xs).map f := by
  induction xs generalizing used with
  | nil => rfl
  | cons x xs ih =>
    by_cases hx : wanted (f x) ∧ (used + cost (f x) : ℤ) ≤ budget
    · simp [select, hx, ih]
    · simp [select, hx, ih]

/-- What is taken fits the budget. -/
theorem cost_select_le (hused : (used : ℤ) ≤ budget) :
    (used + total cost (select cost wanted budget used xs) : ℤ) ≤ budget := by
  induction xs generalizing used with
  | nil => simpa [select] using hused
  | cons x xs ih =>
    rw [select]
    split
    · next hx =>
      have hrest := @ih (used + cost x) (by exact_mod_cast hx.2)
      push_cast [total_cons] at hrest ⊢
      linarith
    · exact ih hused

/-- Without a budget nothing is taken. -/
theorem select_eq_nil (hbudget : budget < 0) : select cost wanted budget used xs = [] := by
  induction xs with
  | nil => rfl
  | cons x xs ih =>
    have hroom : ¬ (used + cost x : ℤ) ≤ budget := by omega
    simp [select, hroom, ih]

/-- A wanted item is left out only if what was taken before leaves too little room. -/
theorem no_room (hx : wanted x = true)
    (hout : x ∉ select cost wanted budget used (xs ++ x :: ys)) :
    budget < used + total cost (select cost wanted budget used xs) + cost x := by
  by_contra hroom
  apply hout
  rw [select_append]
  apply List.mem_append_right
  rw [select, if_pos]
  · exact List.mem_cons_self
  · refine ⟨hx, ?_⟩
    push_cast
    omega

end

/-- A filter that keeps the one list and drops the other. -/
theorem filter_append_eq_left {p : A → Bool} {xs ys : List A} (hxs : ∀ x ∈ xs, p x = true)
    (hys : ∀ y ∈ ys, p y = false) : (xs ++ ys).filter p = xs := by
  have hdrop : ys.filter p = [] := by simpa using hys
  rw [List.filter_append, List.filter_eq_self.mpr hxs, hdrop, List.append_nil]

/-! ## The order -/

/-- The items in descending order of a rank; items of one rank stay in the order in which they
came. -/
def ranked {R : Type*} [LinearOrder R] (rank : A → R) (xs : List A) : List A :=
  xs.mergeSort fun a b => rank b ≤ rank a

section

variable {R : Type*} [LinearOrder R] {rank : A → R} {xs : List A}

theorem ranked_perm : (ranked rank xs).Perm xs := List.mergeSort_perm _ _

theorem ranked_map {B : Type*} {rank : B → R} {f : A → B} :
    ranked rank (xs.map f) = (ranked (rank ∘ f) xs).map f := by
  rw [ranked, ranked, ← List.map_mergeSort]
  simp

theorem ranked_pairwise : (ranked rank xs).Pairwise fun a b => rank b ≤ rank a := by
  have h := @List.pairwise_mergeSort A (fun a b => decide (rank b ≤ rank a))
    (fun a b c hab hbc => by simp at hab hbc ⊢; exact hbc.trans hab)
    (fun a b => by simp [le_total]) xs
  simpa [ranked] using h

/-- Items one after another no two of which are the wrong way round. -/
theorem eq_filter_append {p : A → Bool} {xs : List A}
    (h : xs.Pairwise fun a b => p b = true → p a = true) :
    xs = xs.filter p ++ xs.filter fun a => !p a := by
  induction xs with
  | nil => rfl
  | cons x xs ih =>
    obtain ⟨hhead, htail⟩ := List.pairwise_cons.mp h
    by_cases hx : p x = true
    · simpa [hx] using ih htail
    · have hnone : ∀ a ∈ xs, p a = false := fun a ha => by
        simpa using mt (hhead a ha) hx
      have hp : xs.filter p = [] := by simpa using hnone
      have hnot : xs.filter (fun a => !p a) = xs := by simpa using hnone
      simp [hx, hp, hnot]

/-- The items of the highest rank come first, in the order in which they were given. -/
theorem ranked_eq_append {p : A → Bool} {top : R} (htop : ∀ a ∈ xs, p a = true → rank a = top)
    (hlow : ∀ a ∈ xs, p a = false → rank a < top) :
    ranked rank xs = xs.filter p ++ (ranked rank xs).filter fun a => !p a := by
  have hmem : ∀ a ∈ ranked rank xs, a ∈ xs := fun a ha => ranked_perm.mem_iff.mp ha
  have hpairs : (ranked rank xs).Pairwise fun a b => p b = true → p a = true := by
    apply (List.pairwise_iff_forall_sublist.mpr ?_)
    intro a b hab hb
    by_contra ha
    have hle : rank b ≤ rank a := List.pairwise_iff_forall_sublist.mp ranked_pairwise hab
    have ha' := hlow a (hmem a (hab.subset (by simp))) (by simpa using ha)
    rw [htop b (hmem b (hab.subset (by simp))) hb] at hle
    exact absurd ha' hle.not_gt
  have hstable : (xs.filter p).Sublist (ranked rank xs) := by
    apply List.sublist_mergeSort
    · intro a b c hab hbc
      simp at hab hbc ⊢
      exact hbc.trans hab
    · intro a b
      simp [le_total]
    · apply List.pairwise_of_forall_mem_list
      intro a ha b hb
      simp only [List.mem_filter] at ha hb
      simp [htop a ha.1 ha.2, htop b hb.1 hb.2]
    · exact List.filter_sublist
  have hfirst : xs.filter p = (ranked rank xs).filter p := by
    have hsub := hstable.filter p
    rw [List.filter_filter] at hsub
    simp only [Bool.and_self] at hsub
    exact hsub.eq_of_length (ranked_perm.filter p).length_eq.symm
  rw [hfirst]
  exact eq_filter_append hpairs

end

end Greedy
