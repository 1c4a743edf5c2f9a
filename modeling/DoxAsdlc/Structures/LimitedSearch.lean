import Mathlib.Data.List.Lemmas
import Mathlib.Data.List.Nodup

/-!
# Searches that stop at a limit

Places are searched one after the other, each for some results, until there are as many results as
the limit allows.  What is found is the beginning of all there is to find, so it is told by the
places that are reached: those with results, that come before the limit does.

## Main definitions

* `LimitedSearch.gather` — the search.
* `LimitedSearch.reached` — the places whose results are found.

## Main results

* `LimitedSearch.gather_eq_take` — what is found.
* `LimitedSearch.forall_take_iff`, `LimitedSearch.nodup_take_iff` — what holds of the results found,
  by the places that are reached.
-/

namespace LimitedSearch

variable {A B : Type}

/-- Take results until there are as many as the limit allows, which is asked after each. -/
def collect (limit : ℕ) : List B → List B → List B
  | [], found => found
  | b :: bs, found =>
    if limit ≤ found.length + 1 then found ++ [b] else collect limit bs (found ++ [b])

/-- Search places one after the other, unless there are as many results as the limit allows. -/
def gather (limit : ℕ) (results : A → List B) : List A → List B → List B
  | [], found => found
  | a :: as, found =>
    if limit ≤ found.length then found
    else gather limit results as (collect limit (results a) found)

theorem collect_eq {limit : ℕ} {bs found : List B} (h : found.length < limit) :
    collect limit bs found = found ++ bs.take (limit - found.length) := by
  induction bs generalizing found with
  | nil => simp [collect]
  | cons b bs ih =>
    obtain ⟨n, hn⟩ : ∃ n, limit - found.length = n + 1 := ⟨limit - found.length - 1, by omega⟩
    rw [collect, hn, List.take_succ_cons]
    split
    · obtain rfl : n = 0 := by omega
      simp
    · rw [ih (by simp; omega), List.length_append, List.length_singleton,
        show limit - (found.length + 1) = n by omega, List.append_assoc]
      rfl

/-- What is collected up to a limit is among what there is. -/
theorem mem_of_mem_collect {limit : ℕ} {bs found : List B} {b : B}
    (h : b ∈ collect limit bs found) : b ∈ found ∨ b ∈ bs := by
  induction bs generalizing found with
  | nil => exact .inl h
  | cons first bs ih =>
    rw [collect] at h
    split at h
    · simp only [List.mem_append, List.mem_singleton] at h
      exact h.imp_right fun heq => by simp [heq]
    · obtain hfound | hlater := ih h
      · simp only [List.mem_append, List.mem_singleton] at hfound
        exact hfound.imp_right fun heq => by simp [heq]
      · exact .inr (List.mem_cons_of_mem _ hlater)

/-- What is found is the beginning of what there is. -/
theorem gather_eq {limit : ℕ} {results : A → List B} {as : List A} {found : List B}
    (h : found.length ≤ limit) : gather limit results as found =
      found ++ (as.flatMap results).take (limit - found.length) := by
  induction as generalizing found with
  | nil => simp [gather]
  | cons a as ih =>
    rw [gather]
    split
    · rw [show limit - found.length = 0 by omega]
      simp
    · rw [collect_eq (by omega), ih (by simp; omega), List.flatMap_cons, List.take_append,
        List.append_assoc, List.length_append, List.length_take]
      congr 3
      omega

theorem gather_eq_take (limit : ℕ) (results : A → List B) (as : List A) :
    gather limit results as [] = (as.flatMap results).take limit :=
  gather_eq (Nat.zero_le limit)

variable (results : A → List B)

/-- The places with results that are searched before there are as many as the limit allows. -/
def reached : ℕ → List A → List A
  | _, [] => []
  | n, a :: as =>
    if n = 0 then [] else
      if results a = [] then reached n as else a :: reached (n - (results a).length) as

variable {results}

/-- What holds of places holds of all results found exactly if it holds of the reached places. -/
theorem forall_take_iff {owner : B → A} (howner : ∀ a, ∀ b ∈ results a, owner b = a)
    {P : A → Prop} {n : ℕ} {as : List A} :
    (∀ b ∈ (as.flatMap results).take n, P (owner b)) ↔ ∀ a ∈ reached results n as, P a := by
  induction as generalizing n with
  | nil => simp [reached]
  | cons a as ih =>
    rw [reached, List.flatMap_cons, List.take_append]
    split
    · simp [*]
    · split
      · next hnil => simp [hnil, ih]
      · next hpos hne =>
        simp only [List.forall_mem_append, List.forall_mem_cons, ih]
        refine and_congr_left fun _ => ⟨fun h => ?_, fun h b hb => ?_⟩
        · obtain ⟨b, bs, hbs⟩ := List.exists_cons_of_ne_nil hne
          have hmem : b ∈ (results a).take n := by
            obtain ⟨k, rfl⟩ := Nat.exists_eq_succ_of_ne_zero hpos
            simp [hbs]
          exact howner a b (List.mem_of_mem_take hmem) ▸ h b hmem
        · rwa [howner a b (List.mem_of_mem_take hb)]

section

variable {K N : Type} {owner : B → A} {key : A → K} {number : B → N}

/-- A later result has the name of an earlier one exactly if its place is identified with the place
of that one. -/
theorem ne_iff_of_later (howner : ∀ a, ∀ b ∈ results a, owner b = a)
    (hsame : ∀ a a', key a = key a' → (results a).map number = (results a').map number)
    {n : ℕ} {a : A} {as : List A} :
    (∀ b ∈ (results a).take n, ∀ b' ∈ (as.flatMap results).take (n - (results a).length),
        (key (owner b), number b) ≠ (key (owner b'), number b')) ↔
      ∀ b' ∈ (as.flatMap results).take (n - (results a).length), key (owner b') ≠ key a := by
  constructor
  · intro h b' hb' hkey
    obtain ⟨a', -, hmem⟩ := List.mem_flatMap.mp (List.mem_of_mem_take hb')
    rw [howner a' b' hmem] at hkey
    have hnumber : number b' ∈ (results a).map number :=
      hsame a' a hkey ▸ List.mem_map_of_mem hmem
    obtain ⟨b, hb, heq⟩ := List.mem_map.mp hnumber
    have hroom : n - (results a).length ≠ 0 := by
      intro hzero
      simp [hzero] at hb'
    have htake : b ∈ (results a).take n := by
      rwa [List.take_of_length_le (by omega)]
    apply h b htake b' hb'
    rw [howner a b hb, howner a' b' hmem, hkey, heq]
  · intro h b hb b' hb' heq
    rw [howner a b (List.mem_of_mem_take hb)] at heq
    exact h b' hb' (Prod.mk.inj heq).1.symm

/-- Results that are told apart by what identifies their places, and by a number in each place,
are found once exactly if no place is reached twice. -/
theorem nodup_take_iff (howner : ∀ a, ∀ b ∈ results a, owner b = a)
    (hnumbers : ∀ a, ((results a).map number).Nodup)
    (hsame : ∀ a a', key a = key a' → (results a).map number = (results a').map number)
    {n : ℕ} {as : List A} :
    (((as.flatMap results).take n).map fun b => (key (owner b), number b)).Nodup ↔
      ((reached results n as).map key).Nodup := by
  induction as generalizing n with
  | nil => simp [reached]
  | cons a as ih =>
    rw [reached, List.flatMap_cons, List.take_append]
    split
    · simp [*]
    · split
      · next hnil =>
        rw [hnil, List.take_nil, List.nil_append]
        exact ih
      · have hfirst : (((results a).take n).map fun b => (key (owner b), number b)).Nodup := by
          have hall : ((results a).map fun b => (key (owner b), number b)).Nodup :=
            List.Nodup.of_map Prod.snd (by simpa [Function.comp_def] using hnumbers a)
          exact hall.sublist ((List.take_sublist n _).map _)
        rw [List.map_append, List.nodup_append, ih, List.map_cons, List.nodup_cons,
          and_iff_right hfirst, and_comm]
        refine and_congr_left fun _ => ?_
        simp only [List.forall_mem_map]
        rw [ne_iff_of_later howner hsame, forall_take_iff (P := fun a' => key a' ≠ key a) howner]
        simp

end

end LimitedSearch
