import DoxAsdlc.Infrastructure.RepoIngester
import DoxAsdlc.Structures.Overlapping
import DoxAsdlc.Text.Joined

/-!
# What the chunks of a file have

The chunks of a file are its lines in order, and a chunk may repeat lines from the end of the one
in front.  That holds of the chunks that are cut unless no line is to be repeated, where all are;
and a chunk is as large as it may be unless the repeated lines leave no room for the next one.

## Main definitions

* `Rebuilds` — pieces from which a content can be rebuilt are its chunks.
* `Fits` — lines that stand together fit in a chunk.

## Main results

* `rebuilds_iff` — when the content can be rebuilt from its chunks.
-/

namespace DoxAsdlc.Ingestion

open Overlapping

/-! ## Lines -/

/-- `content.split("\n")`. -/
def linesOf (content : String) : List String := (content.toList.splitOn '\n').map String.ofList

theorem linesOf_ne_nil (content : String) : linesOf content ≠ [] := by
  simp [linesOf]

theorem newline_notMem {content line : String} (h : line ∈ linesOf content) :
    '\n' ∉ line.toList := by
  obtain ⟨chars, hchars, rfl⟩ := List.mem_map.mp h
  rw [String.toList_ofList]
  exact Joined.not_mem_of_mem_splitOn hchars

theorem toList_joinLines (lines : List String) :
    (joinLines lines).toList = ['\n'].intercalate (lines.map String.toList) :=
  String.toList_intercalate

theorem joinLines_linesOf (content : String) : joinLines (linesOf content) = content := by
  rw [← String.toList_inj, toList_joinLines, linesOf, List.map_map]
  simp [Function.comp_def, List.intercalate_splitOn]

/-- A line end is counted for the last line too, which has none. -/
theorem length_joinLines {lines : List String} (hne : lines ≠ []) :
    ((joinLines lines).length : ℤ) + 1 = total lineSize lines := by
  rw [← String.length_toList, toList_joinLines]
  induction lines with
  | nil => exact absurd rfl hne
  | cons line lines ih =>
    cases lines with
    | nil => simp [lineSize, String.length_toList]
    | cons next lines =>
      rw [List.map_cons, List.intercalate_cons_of_ne_nil (by simp), total_cons,
        ← ih (by simp)]
      simp [lineSize, String.length_toList]
      omega

theorem total_nonneg (lines : List String) : 0 ≤ total lineSize lines := by
  induction lines with
  | nil => simp
  | cons line lines ih =>
    rw [total_cons, lineSize]
    omega

/-- Lines that stand together in others are no longer than these. -/
theorem length_joinLines_le {run block : List String} (hne : run ≠ []) (h : run <:+: block) :
    (joinLines run).length ≤ (joinLines block).length := by
  obtain ⟨front, back, rfl⟩ := h
  have hwhole : _ = total lineSize (front ++ run ++ back) := length_joinLines (by simp [hne])
  have hrun := length_joinLines hne
  have hfront := total_nonneg front
  have hback := total_nonneg back
  simp only [total_append] at hwhole
  omega

/-! ## The loop -/

variable {overlap : ℤ} {maxChars : ℤ} {content : String}

theorem addLine_current (overlap maxChars : ℤ) (st : Chunks) (line : String) :
    (addLine overlap maxChars st line).current ≠ [] := by
  simp [addLine]

theorem foldl_addLine_current {lines : List String} (hne : lines ≠ []) (st : Chunks) :
    (lines.foldl (addLine overlap maxChars) st).current ≠ [] := by
  -- The current chunk ends with the last line.
  obtain ⟨front, last, rfl⟩ := List.eq_nil_or_concat lines |>.resolve_left hne
  rw [List.concat_eq_append, List.foldl_append]
  exact addLine_current overlap maxChars _ last

theorem addLine_of_full {st : Chunks} {line : String}
    (h : maxChars < st.currentSize + lineSize line ∧ st.current ≠ []) :
    addLine overlap maxChars st line =
      ⟨st.chunks ++ [joinLines st.current], overlapping overlap st.current ++ [line],
        total lineSize (overlapping overlap st.current) + lineSize line⟩ := by
  simp only [addLine, if_pos h, total]

theorem addLine_of_room {st : Chunks} {line : String}
    (h : ¬ (maxChars < st.currentSize + lineSize line ∧ st.current ≠ [])) :
    addLine overlap maxChars st line =
      ⟨st.chunks, st.current ++ [line], st.currentSize + lineSize line⟩ := by
  simp only [addLine, if_neg h]

/-- The loop cuts blocks. -/
theorem foldl_addLine (lines : List String) {st : Chunks}
    (hsize : st.currentSize = total lineSize st.current) :
    (lines.foldl (addLine overlap maxChars) st).chunks ++
        [joinLines (lines.foldl (addLine overlap maxChars) st).current] =
      st.chunks ++
        (blocks (overlapping overlap) lineSize maxChars st.current lines).map joinLines := by
  induction lines generalizing st with
  | nil => rfl
  | cons line lines ih =>
    rw [List.foldl_cons, blocks, ← hsize]
    by_cases h : maxChars < st.currentSize + lineSize line ∧ st.current ≠ []
    · rw [addLine_of_full h, ih (by simp), if_pos h]
      simp
    · rw [addLine_of_room h, ih (by simp [hsize]), if_neg h]

theorem chunkContent_of_le (h : content.length ≤ maxChars) :
    chunkContent overlap content maxChars = [content] :=
  if_pos h

theorem chunkContent_of_lt (h : maxChars < content.length) :
    chunkContent overlap content maxChars =
      (blocks (overlapping overlap) lineSize maxChars [] (linesOf content)).map joinLines := by
  have hloop := @foldl_addLine overlap maxChars (linesOf content) ⟨[], [], 0⟩ rfl
  rw [List.nil_append] at hloop
  rw [chunkContent, if_neg (not_le.mpr h), ← hloop]
  exact if_pos (foldl_addLine_current (linesOf_ne_nil content) _)

/-- Every file has a chunk. -/
theorem chunkContent_ne_nil (overlap : ℤ) (content : String) (maxChars : ℤ) :
    chunkContent overlap content maxChars ≠ [] := by
  by_cases h : content.length ≤ maxChars
  · simp [chunkContent_of_le h]
  · obtain ⟨more, bs, hblocks⟩ :=
      exists_blocks_cons (overlapping overlap) lineSize maxChars [] (linesOf content)
    simp [chunkContent_of_lt (not_le.mp h), hblocks]

/-! ## What can be rebuilt -/

/-- A content can be rebuilt from the pieces that are its chunks, and only a line of its own is a
chunk that is too long. -/
structure Rebuilds (overlap : ℕ) (maxChars : ℤ) (content : String) (chunks : List String)
    (pieces : List (Piece String)) : Prop where
  chunks_eq : chunks = pieces.map fun p => joinLines p.items
  cuts : Cuts overlap (linesOf content) pieces
  bounded : ∀ p ∈ pieces, (joinLines p.items).length ≤ maxChars ∨ p.items.length = 1

/-- Lines that stand together fit in a chunk, up to the next one behind those that are
repeated. -/
def Fits (overlap : ℕ) (maxChars : ℤ) (content : String) : Prop :=
  (linesOf content).length = 1 ∨ content.length ≤ maxChars ∨
    1 ≤ overlap ∧ ∀ run, run <:+: linesOf content → 2 ≤ run.length → run.length ≤ overlap + 1 →
      (joinLines run).length ≤ maxChars

theorem overlapping_zero : overlapping ((0 : ℕ) : ℤ) = id := by
  funext lines
  simp [overlapping]

theorem overlapping_eq {overlap : ℕ} (h : 1 ≤ overlap) :
    overlapping (overlap : ℤ) = lastItems overlap := by
  funext lines
  rw [overlapping, if_pos (by omega), Int.toNat_natCast, lastItems]

/-- A content that is one chunk. -/
theorem rebuilds_singleton (overlap : ℕ)
    (h : content.length ≤ maxChars ∨ (linesOf content).length = 1) :
    Rebuilds overlap maxChars content [content] [⟨[], linesOf content⟩] where
  chunks_eq := by simp [Piece.items, joinLines_linesOf]
  cuts := ⟨by simp, by simp [linesOf_ne_nil], by simp, by simp⟩
  bounded := by simpa [Piece.items, joinLines_linesOf] using h

/-- A chunk of several lines is not too long where a content can be rebuilt. -/
theorem Rebuilds.length_le {overlap : ℕ} {chunks : List String} {pieces : List (Piece String)}
    (h : Rebuilds overlap maxChars content chunks pieces) {block : List String}
    (hblock : joinLines block ∈ chunks) (hlines : 2 ≤ block.length) :
    (joinLines block).length ≤ maxChars := by
  rw [h.chunks_eq] at hblock
  obtain ⟨p, hp, hjoin⟩ := List.mem_map.mp hblock
  obtain hle | hone := h.bounded p hp
  · rwa [← hjoin]
  · -- one line of the content has no line end in it
    exfalso
    have hfresh := List.length_pos_of_ne_nil (h.cuts.fresh_ne_nil p hp)
    obtain ⟨line, hline⟩ := List.length_eq_one_iff.mp hone
    have hmem : line ∈ p.fresh := by
      have hlength : p.repeated.length + p.fresh.length = 1 := by
        rw [← List.length_append]
        exact hone
      have hnil : p.repeated = [] := List.eq_nil_of_length_eq_zero (by omega)
      rw [Piece.items, hnil, List.nil_append] at hline
      simp [hline]
    have hfree : '\n' ∉ line.toList := by
      have hin : line ∈ linesOf content := by
        rw [← h.cuts.fresh_eq]
        exact List.mem_flatMap_of_mem hp hmem
      exact newline_notMem hin
    rw [hline] at hjoin
    rcases block with _ | ⟨first, _ | ⟨second, rest⟩⟩
    · simp at hlines
    · simp at hlines
    · have hchars := congrArg String.toList hjoin
      simp only [toList_joinLines, List.map_cons, List.map_nil, List.intercalate_singleton,
        List.intercalate_cons_cons] at hchars
      exact hfree (by simp [hchars])

/-- A content that fits can be rebuilt. -/
theorem Fits.exists_rebuilds {overlap : ℕ} (h : Fits overlap maxChars content) :
    ∃ pieces,
      Rebuilds overlap maxChars content (chunkContent overlap content maxChars) pieces := by
  by_cases hle : content.length ≤ maxChars
  · exact ⟨_, chunkContent_of_le hle ▸ rebuilds_singleton overlap (.inl hle)⟩
  rw [chunkContent_of_lt (not_le.mp hle)]
  obtain ⟨first, rest, hlines⟩ := List.exists_cons_of_ne_nil (linesOf_ne_nil content)
  have hstart : blocks (overlapping overlap) lineSize maxChars [] (linesOf content) =
      blocks (overlapping overlap) lineSize maxChars [first] rest := by
    rw [hlines, blocks, if_neg (by simp), List.nil_append]
  rw [hstart]
  obtain hone | hle' | ⟨hoverlap, hruns⟩ := h
  · rw [hlines, List.length_cons, Nat.add_eq_right, List.length_eq_zero_iff] at hone
    subst hone
    have hcontent : joinLines [first] = content := hlines ▸ joinLines_linesOf content
    have hsingle : Rebuilds overlap maxChars content [content] [⟨[], linesOf content⟩] :=
      rebuilds_singleton overlap (.inr (by simp [hlines]))
    exact ⟨_, by simpa [blocks, hcontent] using hsingle⟩
  · exact absurd hle' hle
  · rw [overlapping_eq hoverlap]
    obtain ⟨fresh, pieces, hblocks, hfresh, hne, hchain⟩ :=
      exists_cuts overlap lineSize maxChars [] (List.cons_ne_nil first []) rest
    rw [List.nil_append] at hblocks
    refine ⟨⟨[], fresh⟩ :: pieces, ⟨?_, ⟨?_, hne, by simp, hchain⟩, ?_⟩⟩
    · rw [hblocks, List.map_map]
      rfl
    · rw [hfresh, hlines]
      rfl
    · intro p hp
      have hsize : ∀ run, run <:+: [first] ++ rest → 2 ≤ run.length →
          run.length ≤ overlap + 1 → total lineSize run ≤ maxChars + 1 := by
        intro run hrun htwo hshort
        have hne' : run ≠ [] := List.ne_nil_of_length_pos (by omega)
        have hlength := length_joinLines hne'
        have hfits := hruns run (hlines ▸ hrun) htwo hshort
        omega
      obtain hle' | hone := blocks_bounded (by omega) hoverlap
        (List.suffix_rfl : [first] <:+ [first]) (by simp) hsize (.inr rfl) p.items
        (hblocks ▸ List.mem_map_of_mem hp)
      · have hne' : p.items ≠ [] := by simp [Piece.items, hne p hp]
        have hlength := length_joinLines hne'
        exact .inl (by omega)
      · exact .inr hone

/-- A content that can be rebuilt fits. -/
theorem Rebuilds.fits {overlap : ℕ} {pieces : List (Piece String)}
    (h : Rebuilds overlap maxChars content (chunkContent overlap content maxChars) pieces) :
    Fits overlap maxChars content := by
  by_cases hle : content.length ≤ maxChars
  · exact .inr (.inl hle)
  by_cases hone : (linesOf content).length = 1
  · exact .inl hone
  rw [chunkContent_of_lt (not_le.mp hle)] at h
  obtain ⟨first, rest, hlines⟩ := List.exists_cons_of_ne_nil (linesOf_ne_nil content)
  have hstart : blocks (overlapping overlap) lineSize maxChars [] (linesOf content) =
      blocks (overlapping overlap) lineSize maxChars [first] rest := by
    rw [hlines, blocks, if_neg (by simp), List.nil_append]
  have htwo : 2 ≤ (linesOf content).length := by
    have hpos := List.length_pos_of_ne_nil (linesOf_ne_nil content)
    omega
  have hlength {block : List String}
      (hblock : block ∈ blocks (overlapping overlap) lineSize maxChars [first] rest)
      (htwo : 2 ≤ block.length) : (joinLines block).length ≤ maxChars :=
    h.length_le (hstart ▸ List.mem_map_of_mem hblock) htwo
  by_cases hoverlap : 1 ≤ overlap
  · refine .inr (.inr ⟨hoverlap, ?_⟩)
    rintro run ⟨front, back, hrun⟩ htwo' hshort
    rw [overlapping_eq hoverlap] at hlength
    have hne : run ≠ [] := List.ne_nil_of_length_pos (by omega)
    -- the run ends in the first block that has its last line
    obtain ⟨begun, hbegun⟩ : ∃ begun, front ++ run = first :: begun := by
      obtain ⟨a, begun, hbegun⟩ :=
        List.exists_cons_of_ne_nil (List.append_ne_nil_of_right_ne_nil front hne)
      rw [hbegun, hlines] at hrun
      exact ⟨begun, by rw [hbegun, (List.cons_eq_cons.mp hrun).1]⟩
    have hrest : rest = begun ++ back := by
      rw [hbegun, hlines] at hrun
      exact (List.cons_eq_cons.mp hrun).2.symm
    have hend : run <:+ [first] ++ begun := by
      rw [List.singleton_append, ← hbegun]
      exact List.suffix_append front run
    obtain ⟨block, hblock, hin⟩ :=
      exists_block overlap lineSize maxChars List.suffix_rfl (by simp) hrest hend hshort
    have hle' := hlength hblock (htwo'.trans hin.length_le)
    have hpart := length_joinLines_le hne hin
    omega
  · -- without overlap the last chunk is the whole content
    obtain rfl : overlap = 0 := by omega
    rw [overlapping_zero] at hlength
    obtain ⟨bs, hblocks⟩ := blocks_id lineSize maxChars [first] rest
    have hmem : linesOf content ∈ blocks id lineSize maxChars [first] rest := by
      simp [hblocks, hlines]
    have hwhole := hlength hmem htwo
    rw [joinLines_linesOf] at hwhole
    exact absurd hwhole hle

/-- **When a content can be rebuilt from its chunks.** -/
theorem rebuilds_iff (overlap : ℕ) (maxChars : ℤ) (content : String) :
    (∃ pieces, Rebuilds overlap maxChars content (chunkContent overlap content maxChars) pieces) ↔
      Fits overlap maxChars content :=
  ⟨fun ⟨_, h⟩ => h.fits, Fits.exists_rebuilds⟩

/-- A line that was repeated leaves no room for the next one, and all is repeated where nothing is
to be. -/
theorem chunk_too_long :
    chunkContent 1 "aaaaaa\nbbbbbb" 10 = ["aaaaaa", "aaaaaa\nbbbbbb"] ∧
      chunkContent 0 "aaaaaa\nbbbbbb" 10 = ["aaaaaa", "aaaaaa\nbbbbbb"] ∧
      (10 : ℤ) < "aaaaaa\nbbbbbb".length ∧ (linesOf "aaaaaa\nbbbbbb").length = 2 := by
  decide

end DoxAsdlc.Ingestion
