import Mathlib.Data.List.Sort

/-!
# Pages of sorted lists

A list that is sorted by a key is not told by its elements where keys are equal.  The place of an
element is told up to the elements with its key; so two ways of sorting show the same page if no
element of it has its key in common with another.

## Main definitions

* `page` — a number of elements from a place on.
* `sortedBy` — the elements in the order of their keys, those with equal keys as they come.
* `rank`, `ties` — where an element stands.
* `Untied` — no two elements that may stand on a page have the same key.
-/

namespace Paging

variable {A T : Type} [LinearOrder T] {key : A → T} {l l' : List A} {x : A} {i offset limit : ℕ}

/-- `limit` elements from the place `offset` on. -/
def page (offset limit : ℕ) (l : List A) : List A := (l.drop offset).take limit

theorem page_ext (h : ∀ i, offset ≤ i → i < offset + limit → l[i]? = l'[i]?) :
    page offset limit l = page offset limit l' := by
  apply List.ext_getElem?
  intro i
  simp only [page, List.getElem?_take, List.getElem?_drop]
  split
  · exact h _ (by omega) (by omega)
  · rfl

/-- The elements in the order of their keys. -/
def sortedBy (key : A → T) (l : List A) : List A := l.mergeSort fun a b => key a ≤ key b

/-- The order of the keys. -/
def Sorted (key : A → T) (l : List A) : Prop := l.Pairwise fun a b => key a ≤ key b

theorem sortedBy_perm (key : A → T) (l : List A) : (sortedBy key l).Perm l := List.mergeSort_perm _ _

theorem sorted_sortedBy (key : A → T) (l : List A) : Sorted key (sortedBy key l) := by
  have htrans : ∀ a b c : A, decide (key a ≤ key b) = true → decide (key b ≤ key c) = true →
      decide (key a ≤ key c) = true := by
    intro a b c hab hbc
    simp only [decide_eq_true_eq] at hab hbc ⊢
    exact hab.trans hbc
  have htotal : ∀ a b : A, (decide (key a ≤ key b) || decide (key b ≤ key a)) = true := by
    intro a b
    simpa using le_total (key a) (key b)
  exact (List.pairwise_mergeSort htrans htotal l).imp (by simp)

theorem sortedBy_eq_self (h : Sorted key l) : sortedBy key l = l :=
  List.mergeSort_of_pairwise (h.imp (by simp))

/-- An element with a smaller key than all others comes first. -/
theorem head?_of_least (hs : Sorted key l) (hx : x ∈ l) (h : ∀ y ∈ l, y ≠ x → key x < key y) :
    l.head? = some x := by
  cases l with
  | nil => cases hx
  | cons y ys =>
    by_cases hy : y = x
    · simp [hy]
    · have hle : key y ≤ key x := by
        rcases List.mem_cons.mp hx with hx | hx
        · exact absurd hx.symm hy
        · exact (List.pairwise_cons.mp hs).1 x hx
      exact absurd (h y List.mem_cons_self hy) hle.not_gt

/-- The elements before those with a key. -/
def rank (key : A → T) (x : A) (l : List A) : ℕ := l.countP fun y => key y < key x

/-- The elements with the key of one. -/
def ties (key : A → T) (x : A) (l : List A) : ℕ := l.countP fun y => key y = key x

theorem rank_perm (key : A → T) (x : A) (h : l.Perm l') : rank key x l = rank key x l' :=
  h.countP_eq _

theorem ties_perm (key : A → T) (x : A) (h : l.Perm l') : ties key x l = ties key x l' :=
  h.countP_eq _

theorem rank_add_ties : rank key x l + ties key x l = l.countP fun y => key y ≤ key x := by
  induction l with
  | nil => rfl
  | cons y l ih =>
    simp only [rank, ties, List.countP_cons, decide_eq_true_eq] at ih ⊢
    rcases lt_trichotomy (key y) (key x) with h | h | h
    · simp only [h, h.le, h.ne, if_true, if_false]
      omega
    · simp only [h, lt_irrefl, le_refl, if_true, if_false]
      omega
    · simp only [h.not_gt, h.not_ge, h.ne', if_false]
      omega

/-- No element with a smaller key stands after one in a sorted list. -/
theorem rank_le (h : Sorted key l) (hi : l[i]? = some x) : rank key x l ≤ i := by
  obtain ⟨hlt, rfl⟩ := List.getElem?_eq_some_iff.mp hi
  have hrest : (l.drop i).countP (fun y => key y < key l[i]) = 0 := by
    rw [List.countP_eq_zero]
    intro y hy
    rw [List.drop_eq_getElem_cons hlt, List.mem_cons] at hy
    rcases hy with rfl | hy
    · simp
    · have hle := (List.pairwise_cons.mp (List.drop_eq_getElem_cons hlt ▸ h.drop)).1 y hy
      simpa using hle
  calc rank key l[i] l
      = (l.take i).countP (fun y => key y < key l[i]) +
          (l.drop i).countP (fun y => key y < key l[i]) := by
        rw [← List.countP_append, List.take_append_drop, rank]
    _ ≤ (l.take i).length := by
        rw [hrest]
        exact List.countP_le_length
    _ ≤ i := List.length_take_le i l

/-- No element with a greater key stands before one in a sorted list. -/
theorem lt_rank_add_ties (h : Sorted key l) (hi : l[i]? = some x) :
    i < rank key x l + ties key x l := by
  obtain ⟨hlt, rfl⟩ := List.getElem?_eq_some_iff.mp hi
  have hfirst : (l.take (i + 1)).countP (fun y => key y ≤ key l[i]) = i + 1 := by
    have hall : ∀ y ∈ l.take (i + 1), decide (key y ≤ key l[i]) = true := by
      intro y hy
      rw [List.take_add_one, List.getElem?_eq_getElem hlt, List.mem_append] at hy
      rcases hy with hy | hy
      · have hsplit : Sorted key (l.take i ++ l[i] :: l.drop (i + 1)) := by
          rwa [← List.drop_eq_getElem_cons hlt, List.take_append_drop]
        simpa using (List.pairwise_append.mp hsplit).2.2 y hy l[i] List.mem_cons_self
      · simp only [Option.toList_some, List.mem_singleton] at hy
        simp [hy]
    rw [List.countP_eq_length.mpr hall, List.length_take]
    omega
  rw [rank_add_ties]
  have hsub := (List.take_sublist (i + 1) l).countP_le (p := fun y => key y ≤ key l[i])
  omega

/-- An element without ties stands at its rank. -/
theorem getElem?_rank (h : Sorted key l) (hx : x ∈ l) (hties : ties key x l = 1) :
    l[rank key x l]? = some x := by
  obtain ⟨i, hi⟩ := List.getElem?_of_mem hx
  have hle := rank_le h hi
  have hlt := lt_rank_add_ties h hi
  have heq : rank key x l = i := by omega
  rw [heq, hi]

/-- No other element has the key. -/
theorem ties_eq_one (hl : l.Nodup) (hx : x ∈ l) (h : ∀ y ∈ l, key y = key x → y = x) :
    ties key x l = 1 := by
  classical
  have hcount : ties key x l = l.count x := by
    rw [ties, List.count]
    apply List.countP_congr
    intro y hy
    simp only [decide_eq_true_eq, beq_iff_eq]
    exact ⟨h y hy, fun hyx => hyx ▸ rfl⟩
  rw [hcount, List.count_eq_one_of_mem hl hx]

/-- The elements that have their key in common with another stand outside of the page. -/
def Untied (key : A → T) (l : List A) (offset limit : ℕ) : Prop :=
  ∀ x ∈ l, (∃ y ∈ l, y ≠ x ∧ key y = key x) →
    rank key x l + ties key x l ≤ offset ∨ offset + limit ≤ rank key x l

theorem Untied.perm (h : Untied key l offset limit) (hperm : l.Perm l') :
    Untied key l' offset limit := by
  intro x hx hother
  obtain ⟨y, hy, hne, hkey⟩ := hother
  have hx' := h x (hperm.mem_iff.mpr hx) ⟨y, hperm.mem_iff.mpr hy, hne, hkey⟩
  rwa [rank_perm key x hperm, ties_perm key x hperm] at hx'

/-- What stands on such a page stands there in every sorted list of the elements. -/
theorem Untied.getElem? (h : Untied key l offset limit) (hl : l.Nodup) (hs : Sorted key l)
    (hs' : Sorted key l') (hperm : l.Perm l') (ho : offset ≤ i) (hi : i < offset + limit)
    (hx : l[i]? = some x) : l'[i]? = some x := by
  have hmem : x ∈ l := List.mem_of_getElem? hx
  have hle := rank_le hs hx
  have hlt := lt_rank_add_ties hs hx
  have hunique : ∀ y ∈ l, key y = key x → y = x := by
    intro y hy hkey
    by_contra hne
    rcases h x hmem ⟨y, hy, hne, hkey⟩ with hbefore | hafter
    · omega
    · omega
  have hties := ties_eq_one hl hmem hunique
  have hrank : i = rank key x l' := by
    rw [← rank_perm key x hperm]
    omega
  rw [hrank]
  exact getElem?_rank hs' (hperm.mem_iff.mp hmem) (ties_perm key x hperm ▸ hties)

/-- **A page without ties** does not depend on how the list is sorted. -/
theorem page_eq_of_untied (h : Untied key l offset limit) (hl : l.Nodup) (hs : Sorted key l)
    (hs' : Sorted key l') (hperm : l.Perm l') : page offset limit l = page offset limit l' := by
  apply page_ext
  intro i ho hi
  cases hx : l[i]? with
  | some x => exact (h.getElem? hl hs hs' hperm ho hi hx).symm
  | none =>
    rw [List.getElem?_eq_none_iff] at hx
    exact (List.getElem?_eq_none (hperm.length_eq ▸ hx)).symm

/-- The elements on a page stand at their ranks, and have no key in common with another. -/
def InOrder (key : A → T) (l : List A) (offset limit : ℕ) : Prop :=
  ∀ i < l.length, offset ≤ i → i < offset + limit → ∀ x ∈ l[i]?,
    rank key x l = i ∧ ties key x l = 1

/-- **A page in order** is the page of the sorted list. -/
theorem page_eq_of_inOrder (h : InOrder key l offset limit) (hs' : Sorted key l')
    (hperm : l.Perm l') : page offset limit l = page offset limit l' := by
  apply page_ext
  intro i ho hi
  cases hx : l[i]? with
  | some x =>
    have hlt : i < l.length := (List.getElem?_eq_some_iff.mp hx).1
    obtain ⟨hrank, hties⟩ := h i hlt ho hi x hx
    have hget := getElem?_rank hs' (hperm.mem_iff.mp (List.mem_of_getElem? hx))
      (ties_perm key x hperm ▸ hties)
    rw [← rank_perm key x hperm, hrank] at hget
    exact hget.symm
  | none =>
    rw [List.getElem?_eq_none_iff] at hx
    exact (List.getElem?_eq_none (hperm.length_eq ▸ hx)).symm

instance [DecidableEq A] (key : A → T) (l : List A) (offset limit : ℕ) :
    Decidable (Untied key l offset limit) := List.decidableBAll _ _

instance (key : A → T) (l : List A) (offset limit : ℕ) : Decidable (InOrder key l offset limit) :=
  inferInstanceAs (Decidable (∀ i < l.length, _))

end Paging
