import Mathlib.Algebra.BigOperators.Group.List.Basic
import Mathlib.Algebra.Order.Ring.Int
import Mathlib.Data.List.Chain
import Mathlib.Data.List.Infix

/-!
# Overlapping pieces

A list is cut into blocks from the left.  A block is ended where the next item is too much for it,
and the one behind begins with what is kept of it.

## Main definitions

* `Piece`, `Cuts` — a block with what it repeats, and the blocks of a list.
* `blocks` — the blocks that are cut.

## Main results

* `exists_cuts` — blocks cut a list when the last items are kept.
* `blocks_bounded`, `exists_block` — the sizes of the blocks are those of the short runs of items.
* `blocks_id` — the last block is the list when all is kept.
-/

namespace Overlapping

variable {α : Type*}

/-- A block: what it repeats and what is new in it. -/
@[ext]
structure Piece (α : Type*) where
  repeated : List α
  fresh : List α

/-- The items of a block. -/
def Piece.items (p : Piece α) : List α := p.repeated ++ p.fresh

/-- What a piece may repeat of the one in front of it. -/
def Follows (overlap : ℕ) (p q : Piece α) : Prop :=
  q.repeated <:+ p.items ∧ q.repeated.length ≤ overlap

/-- Pieces have every item once, in order, but for what they repeat of the one in front. -/
structure Cuts (overlap : ℕ) (items : List α) (pieces : List (Piece α)) : Prop where
  fresh_eq : pieces.flatMap Piece.fresh = items
  fresh_ne_nil : ∀ p ∈ pieces, p.fresh ≠ []
  repeated_head : ∀ p ∈ pieces.head?, p.repeated = []
  follows : pieces.IsChain (Follows overlap)

/-- The last items of a list. -/
def lastItems (overlap : ℕ) (l : List α) : List α := l.drop (l.length - overlap)

@[simp]
theorem length_lastItems (overlap : ℕ) (l : List α) :
    (lastItems overlap l).length = min overlap l.length := by
  simp only [lastItems, List.length_drop]
  omega

theorem lastItems_suffix (overlap : ℕ) (l : List α) : lastItems overlap l <:+ l :=
  List.drop_suffix _ l

section

variable (keep : List α → List α) (size : α → ℤ) (maximum : ℤ)

/-- What items take together. -/
def total (l : List α) : ℤ := (l.map size).sum

@[simp]
theorem total_nil : total size ([] : List α) = 0 := rfl

@[simp]
theorem total_append (l m : List α) : total size (l ++ m) = total size l + total size m := by
  simp [total]

@[simp]
theorem total_cons (x : α) (l : List α) : total size (x :: l) = size x + total size l := by
  simp [total]

/-- The blocks of a current block and the items behind it. -/
def blocks : List α → List α → List (List α)
  | current, [] => [current]
  | current, x :: rest =>
    if maximum < total size current + size x ∧ current ≠ [] then
      current :: blocks (keep current ++ [x]) rest
    else blocks (current ++ [x]) rest

/-- The first block goes on from the current one. -/
theorem exists_blocks_cons (current rest : List α) :
    ∃ more bs, blocks keep size maximum current rest = (current ++ more) :: bs := by
  induction rest generalizing current with
  | nil => exact ⟨[], [], by simp [blocks]⟩
  | cons x rest ih =>
    rw [blocks]
    split_ifs
    · exact ⟨[], _, by rw [List.append_nil]⟩
    · obtain ⟨more, bs, h⟩ := ih (current ++ [x])
      exact ⟨x :: more, bs, by simp [h]⟩

/-- The last block is the whole list when nothing is left out of a block that goes on. -/
theorem blocks_id (current rest : List α) :
    ∃ bs, blocks id size maximum current rest = bs ++ [current ++ rest] := by
  induction rest generalizing current with
  | nil => exact ⟨[], by simp [blocks]⟩
  | cons x rest ih =>
    obtain ⟨bs, h⟩ := ih (current ++ [x])
    rw [blocks]
    split_ifs
    · exact ⟨current :: bs, by simp [h]⟩
    · exact ⟨bs, by simp [h]⟩

end

section

variable (overlap : ℕ) (size : α → ℤ) (maximum : ℤ)

/-- **Blocks cut a list** when the last items are kept. -/
theorem exists_cuts (repeated : List α) {fresh : List α} (hfresh : fresh ≠ []) (rest : List α) :
    ∃ fresh' pieces,
      blocks (lastItems overlap) size maximum (repeated ++ fresh) rest =
        (⟨repeated, fresh'⟩ :: pieces).map Piece.items ∧
      (⟨repeated, fresh'⟩ :: pieces).flatMap Piece.fresh = fresh ++ rest ∧
      (∀ p ∈ (⟨repeated, fresh'⟩ : Piece α) :: pieces, p.fresh ≠ []) ∧
      (⟨repeated, fresh'⟩ :: pieces).IsChain (Follows overlap) := by
  induction rest generalizing repeated fresh with
  | nil => exact ⟨fresh, [], by simp [blocks, Piece.items], by simp, by simpa, by simp⟩
  | cons x rest ih =>
    rw [blocks]
    split_ifs with h
    · obtain ⟨fresh', pieces, hblocks, hitems, hne, hchain⟩ :=
        @ih (lastItems overlap (repeated ++ fresh)) [x] (by simp)
      refine ⟨fresh, ⟨_, fresh'⟩ :: pieces, by rw [hblocks]; rfl, ?_, ?_, ?_⟩
      · rw [List.flatMap_cons, hitems]
        rfl
      · intro p hp
        exact (List.mem_cons.mp hp).elim (fun heq => heq ▸ hfresh) (hne p)
      · refine List.isChain_cons_cons.mpr ⟨⟨lastItems_suffix _ _, ?_⟩, hchain⟩
        simp
    · obtain ⟨fresh', pieces, hblocks, hitems, hne, hchain⟩ :=
        @ih repeated (fresh ++ [x]) (by simp)
      exact ⟨fresh', pieces, by rw [List.append_assoc, hblocks], by simp [hitems], hne, hchain⟩

variable {overlap size maximum}

/-- A block is not too large where it is one item or the short runs of items are not. -/
theorem blocks_bounded {done current rest : List α} {bound : ℤ} (hbound : maximum ≤ bound)
    (hoverlap : 1 ≤ overlap) (hcurrent : current <:+ done) (hne : current ≠ [])
    (hruns : ∀ run, run <:+: done ++ rest → 2 ≤ run.length → run.length ≤ overlap + 1 →
      total size run ≤ bound)
    (hsize : total size current ≤ bound ∨ current.length = 1) :
    ∀ block ∈ blocks (lastItems overlap) size maximum current rest,
      total size block ≤ bound ∨ block.length = 1 := by
  induction rest generalizing done current with
  | nil => simpa [blocks] using hsize
  | cons x rest ih =>
    have hlength := List.length_pos_of_ne_nil hne
    have hdone : done ++ x :: rest = (done ++ [x]) ++ rest := by simp
    rw [hdone] at hruns
    rw [blocks]
    split_ifs with h
    · intro block hblock
      obtain rfl | hblock := List.mem_cons.mp hblock
      · exact hsize
      · have hsuffix : lastItems overlap current ++ [x] <:+ done ++ [x] :=
          List.suffix_append_self_iff.mpr ((lastItems_suffix _ _).trans hcurrent)
        refine ih hsuffix (by simp) hruns (.inl (hruns _ ?_ ?_ ?_)) block hblock
        · exact hsuffix.isInfix.trans (List.prefix_append _ _).isInfix
        · simp
          omega
        · simp
    · have hsuffix : current ++ [x] <:+ done ++ [x] := List.suffix_append_self_iff.mpr hcurrent
      refine ih hsuffix (by simp) hruns (.inl ?_)
      have hroom : total size current + size x ≤ maximum := by
        by_contra hlarge
        exact h ⟨not_le.mp hlarge, hne⟩
      simp
      omega

variable (overlap size maximum) in
/-- A short run of items is in one of the blocks. -/
theorem exists_block {done current rest : List α} (hcurrent : current <:+ done)
    (hlength : min (overlap + 1) done.length ≤ current.length) {front back run : List α}
    (hrest : rest = front ++ back) (hrun : run <:+ done ++ front)
    (hshort : run.length ≤ overlap + 1) :
    ∃ block ∈ blocks (lastItems overlap) size maximum current rest, run <:+: block := by
  induction rest generalizing done current front with
  | nil =>
    obtain ⟨rfl, rfl⟩ := List.append_eq_nil_iff.mp hrest.symm
    rw [List.append_nil] at hrun
    refine ⟨current, by simp [blocks], ?_⟩
    exact (List.suffix_of_suffix_length_le hrun hcurrent
      (by have := hrun.length_le; omega)).isInfix
  | cons x rest ih =>
    cases front with
    | nil =>
      rw [List.append_nil] at hrun
      obtain ⟨more, bs, hblocks⟩ :=
        exists_blocks_cons (lastItems overlap) size maximum current (x :: rest)
      refine ⟨current ++ more, by simp [hblocks], ?_⟩
      have hsuffix := List.suffix_of_suffix_length_le hrun hcurrent
        (by have := hrun.length_le; omega)
      exact hsuffix.isInfix.trans (List.prefix_append _ _).isInfix
    | cons y front =>
      obtain ⟨rfl, hrest'⟩ := List.cons_eq_cons.mp hrest
      have hrun' : run <:+ (done ++ [x]) ++ front := by simpa using hrun
      rw [blocks]
      split_ifs with h
      · obtain ⟨block, hblock, hin⟩ := ih
          (List.suffix_append_self_iff.mpr ((lastItems_suffix overlap _).trans hcurrent))
          (by simp; omega) hrest' hrun'
        exact ⟨block, List.mem_cons_of_mem _ hblock, hin⟩
      · exact ih (List.suffix_append_self_iff.mpr hcurrent) (by simp; omega) hrest' hrun'

end

end Overlapping
