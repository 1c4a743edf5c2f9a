import Mathlib.Data.Finset.Sort
import Mathlib.Data.String.Basic

/-!
# Texts joined by a character

Joining texts by a character and splitting again gives the texts back, if none of them has the
character in it and there is one of them at least.

## Main results

* `Joined.splitOn_eq` — splitting a text is splitting its characters.
* `Joined.splitOn_intercalate` — splitting what was joined.
* `Joined.intercalate_inj` — which texts are joined to the same text.
* `Joined.eq_of_splitLast` — cutting a list at the last place where an element stands.
-/

namespace Joined

/-- The pieces have the separator nowhere. -/
theorem not_mem_of_mem_splitOn {α : Type*} [BEq α] [LawfulBEq α] {a : α} {l piece : List α}
    (h : piece ∈ l.splitOn a) : a ∉ piece := by
  induction l generalizing piece with
  | nil =>
    rw [List.splitOn_nil, List.mem_singleton] at h
    simp [h]
  | cons c l ih =>
    rw [List.splitOn_cons_eq_if_modifyHead] at h
    cases hsplit : l.splitOn a with
    | nil => exact absurd hsplit (List.splitOn_ne_nil _ _)
    | cons first rest =>
      rw [hsplit] at h ih
      split at h
      · rcases List.mem_cons.mp h with rfl | h
        · simp
        · exact ih h
      · next hc =>
        rcases List.mem_cons.mp h with rfl | h
        · have hne : a ≠ c := fun heq => hc (by simp [← heq])
          simp [hne, ih List.mem_cons_self]
        · exact ih (List.mem_cons_of_mem _ h)

section

open String

/-- Splitting from a position on, with the piece that was begun. -/
theorem splitOnAux_eq (c : Char) (l m r : List Char) (acc : List String) :
    splitOnAux (ofList (l ++ m ++ r)) (ofList [c]) ⟨utf8Len l⟩ ⟨utf8Len l + utf8Len m⟩ 0 acc
      = acc.reverse ++ (List.splitOnPPrepend (· == c) r m.reverse).map ofList := by
  induction r generalizing l m acc with
  | nil =>
    have hend : Pos.Raw.atEnd (ofList (l ++ m ++ [])) ⟨utf8Len l + utf8Len m⟩ = true := by
      rw [atEnd_iff, rawEndPos_ofList]
      simp
    unfold splitOnAux
    rw [if_pos hend]
    simpa using extract_of_valid l m []
  | cons d r ih =>
    have hend : ¬ Pos.Raw.atEnd (ofList (l ++ m ++ d :: r)) ⟨utf8Len l + utf8Len m⟩ = true := by
      have hd := Char.utf8Size_pos d
      rw [atEnd_iff, rawEndPos_ofList]
      simp only [utf8Len_append, utf8Len_cons, Pos.Raw.le_iff]
      omega
    have hget : Pos.Raw.get (ofList (l ++ m ++ d :: r)) ⟨utf8Len l + utf8Len m⟩ = d := by
      simpa [-ofList_append] using get_of_valid (l ++ m) (d :: r)
    have hnext : Pos.Raw.next (ofList (l ++ m ++ d :: r)) ⟨utf8Len l + utf8Len m⟩
        = ⟨utf8Len l + utf8Len m + d.utf8Size⟩ := by
      simpa [-ofList_append] using next_of_valid (l ++ m) d r
    have hsep : Pos.Raw.get (ofList [c]) 0 = c := get_of_valid [] [c]
    have hsepNext : Pos.Raw.next (ofList [c]) 0 = ⟨c.utf8Size⟩ := by
      simpa [-ofList_append] using next_of_valid [] c []
    have hsepEnd : Pos.Raw.atEnd (ofList [c]) ⟨c.utf8Size⟩ = true := by
      rw [atEnd_iff, rawEndPos_ofList]
      simp
    unfold splitOnAux
    rw [if_neg hend, hget, hsep]
    by_cases hdc : d = c
    · subst hdc
      have hpiece : Pos.Raw.extract (ofList (l ++ m ++ d :: r)) ⟨utf8Len l⟩
          ⟨utf8Len l + utf8Len m⟩ = ofList m := extract_of_valid l m (d :: r)
      have hrest := ih (l ++ m ++ [d]) [] (ofList m :: acc)
      simp only [beq_self_eq_true, if_true, hnext, hsepNext, hsepEnd, Pos.Raw.unoffsetBy,
        Nat.add_sub_cancel, hpiece]
      simpa [-ofList_append, List.splitOnPPrepend_cons_eq_if, Nat.add_assoc] using hrest
    · have hrest := ih l (m ++ [d]) acc
      have hpos : Pos.Raw.unoffsetBy ⟨utf8Len l + utf8Len m⟩ 0 = ⟨utf8Len l + utf8Len m⟩ := by
        simp [Pos.Raw.unoffsetBy]
      rw [if_neg (by simp [hdc]), hpos, hnext]
      simpa [-ofList_append, List.splitOnPPrepend_cons_eq_if, Nat.add_assoc, hdc] using hrest

/-- Splitting a text at a character splits its characters. -/
theorem splitOn_eq (s : String) (c : Char) :
    s.splitOn (ofList [c]) = (s.toList.splitOn c).map ofList := by
  have hne : (ofList [c] == "") = false := by
    rw [beq_eq_false_iff_ne]
    intro h
    simpa using congrArg String.toList h
  have haux := splitOnAux_eq c [] [] s.toList []
  rw [String.splitOn, hne]
  simpa [List.splitOn_eq_splitOnP] using haux

/-- **Splitting what was joined** gives the texts back. -/
theorem splitOn_intercalate {texts : List String} {c : Char} (hne : texts ≠ [])
    (h : ∀ text ∈ texts, c ∉ text.toList) :
    ((ofList [c]).intercalate texts).splitOn (ofList [c]) = texts := by
  have hfree : ∀ piece ∈ texts.map String.toList, c ∉ piece := by
    intro piece hpiece
    obtain ⟨text, htext, rfl⟩ := List.mem_map.mp hpiece
    exact h text htext
  rw [splitOn_eq, toList_intercalate, toList_ofList,
    List.splitOn_intercalate _ hfree (by simpa using hne), List.map_map]
  simp [Function.comp_def]

/-- Splitting lists that were joined splits each of them. -/
theorem splitOn_intercalate_lists {α : Type*} [BEq α] [LawfulBEq α] (a : α)
    {lists : List (List α)} (hne : lists ≠ []) :
    ([a].intercalate lists).splitOn a = lists.flatMap (List.splitOn a) := by
  induction lists with
  | nil => exact absurd rfl hne
  | cons first rest ih =>
    cases rest with
    | nil => simp
    | cons second rest =>
      rw [List.intercalate_cons_of_ne_nil (by simp), List.append_assoc, List.singleton_append,
        List.splitOn_append_cons_self, ih (by simp)]
      simp

/-- Splitting what was joined splits each of the texts. -/
theorem splitOn_intercalate_texts (c : Char) {texts : List String} (hne : texts ≠ []) :
    ((ofList [c]).intercalate texts).splitOn (ofList [c])
      = texts.flatMap (·.splitOn (ofList [c])) := by
  rw [splitOn_eq, toList_intercalate, toList_ofList,
    splitOn_intercalate_lists c (by simpa using hne), List.map_flatMap, List.flatMap_map]
  simp only [splitOn_eq]

/-- A text is what it is split into. -/
theorem splitOn_inj (c : Char) {s t : String} :
    s.splitOn (ofList [c]) = t.splitOn (ofList [c]) ↔ s = t := by
  refine ⟨fun h => ?_, fun h => by rw [h]⟩
  rw [splitOn_eq, splitOn_eq] at h
  have hchars : s.toList.splitOn c = t.toList.splitOn c :=
    List.map_injective_iff.mpr (fun _ _ => ofList_inj.mp) h
  have hjoin := congrArg [c].intercalate hchars
  rw [List.intercalate_splitOn, List.intercalate_splitOn] at hjoin
  exact String.toList_inj.mp hjoin

/-- **What joining forgets**: only where a text ends that is cut at the character anyway. -/
theorem intercalate_inj (c : Char) {texts texts' : List String} (hne : texts ≠ [])
    (hne' : texts' ≠ []) :
    (ofList [c]).intercalate texts = (ofList [c]).intercalate texts' ↔
      texts.flatMap (·.splitOn (ofList [c])) = texts'.flatMap (·.splitOn (ofList [c])) := by
  rw [← splitOn_intercalate_texts c hne, ← splitOn_intercalate_texts c hne', splitOn_inj]

/-- A text without the character is one piece. -/
theorem splitOn_of_not_mem {s : String} {c : Char} (h : c ∉ s.toList) :
    s.splitOn (ofList [c]) = [s] := by
  have hone := @splitOn_intercalate [s] c (by simp) (by simpa using h)
  simpa using hone

/-- What a text is split into does not have the character. -/
theorem not_mem_of_mem_split {s piece : String} {c : Char} (h : piece ∈ s.splitOn (ofList [c])) :
    c ∉ piece.toList := by
  rw [splitOn_eq] at h
  obtain ⟨chars, hchars, rfl⟩ := List.mem_map.mp h
  rw [toList_ofList]
  exact not_mem_of_mem_splitOn hchars

end

section

variable {α : Type*} [DecidableEq α] {a : α} {l before after : List α}

/-- What stands before and behind the last place of an element. -/
def splitLast (a : α) : List α → Option (List α × List α)
  | [] => none
  | x :: l =>
    match splitLast a l with
    | some (before, after) => some (x :: before, after)
    | none => if x = a then some ([], l) else none

theorem splitLast_eq_none : splitLast a l = none ↔ a ∉ l := by
  induction l with
  | nil => simp [splitLast]
  | cons x l ih =>
    cases h : splitLast a l with
    | some parts =>
      have hmem : a ∈ l := by
        by_contra hnot
        simp [ih.mpr hnot] at h
      simp [splitLast, h, hmem]
    | none => simp [splitLast, h, ih.mp h, eq_comm]

/-- A list is cut where what stands behind does not have the element. -/
theorem splitLast_append (h : a ∉ after) (before : List α) :
    splitLast a (before ++ a :: after) = some (before, after) := by
  induction before with
  | nil => simp [splitLast, splitLast_eq_none.mpr h]
  | cons x before ih => simp [splitLast, ih]

theorem eq_of_splitLast (h : splitLast a l = some (before, after)) :
    l = before ++ a :: after ∧ a ∉ after := by
  induction l generalizing before with
  | nil => cases h
  | cons x l ih =>
    rw [splitLast] at h
    split at h
    · next parts hparts =>
      cases h
      obtain ⟨hl, hafter⟩ := ih hparts
      exact ⟨by rw [hl, List.cons_append], hafter⟩
    · next hnone =>
      split at h
      · next hx =>
        cases h
        exact ⟨by rw [hx, List.nil_append], splitLast_eq_none.mp hnone⟩
      · cases h

end

/-! ## Sorted texts -/

/-- `sorted(names)`. -/
def sorted (names : Finset String) : List String := names.sort

@[simp] theorem mem_sorted {names : Finset String} {name : String} :
    name ∈ sorted names ↔ name ∈ names :=
  Finset.mem_sort _

theorem sorted_nodup {names : Finset String} : (sorted names).Nodup := Finset.sort_nodup _ _

end Joined
