import DoxAsdlc.HitlUi.Diff
import Mathlib.Algebra.GroupWithZero.Nat
import Mathlib.Data.List.Basic

/-!
# What a diff shows

The diff of two texts has the lines of both, numbered, when the changes of the library are made of
whole lines.  Collapsing it shows every changed line; the unchanged lines that are not shown are
counted, but where no context is asked for those in front of a change are counted and shown.

## Main definitions

* `Faithful` — what the library promises of its changes.
* `Reproduces` — the lines of a diff are those of both texts.
* `Displays` — what is shown and counted are the lines of a diff.
* `Countable` — the condition under which it is so.

## Main results

* `display_iff` — the lines of both texts are there, and when they are what is shown and counted.
-/

namespace DoxAsdlc.HitlUi.Diff

/-! ## Whole lines -/

/-- The parts that a text has of changes. -/
def partsOf (missing : LineType) (changes : List Change) : List Text :=
  (changes.filter fun change => change.type ≠ missing).map Change.value

/-- Parts of a text end where its lines end. -/
def Whole (parts : List Text) : Prop :=
  ∀ before part after, parts = before ++ part :: after →
    part = [] ∨ part.getLast? = some '\n' ∨ after.flatten = []

/-- Changes are made of whole lines; those that are no added ones are the old text, and those that
are no removed ones the new text. -/
structure Faithful (oldText newText : Text) (changes : List Change) : Prop where
  old_eq : (partsOf .added changes).flatten = oldText
  new_eq : (partsOf .removed changes).flatten = newText
  old_whole : Whole (partsOf .added changes)
  new_whole : Whole (partsOf .removed changes)

@[simp]
theorem changeLines_nil : changeLines [] = [] := by
  simp [changeLines]

theorem changeLines_append {part : Text} (h : part = [] ∨ part.getLast? = some '\n') (rest : Text) :
    changeLines (part ++ rest) = changeLines part ++ changeLines rest := by
  obtain rfl | hlast := h
  · simp
  · obtain ⟨line, rfl⟩ : ∃ line, part = line ++ ['\n'] :=
      ⟨_, (List.dropLast_append_getLast? _ hlast).symm⟩
    have hne : rest.splitOn '\n' ≠ [] := List.splitOn_ne_nil _ _
    have hpart : (line ++ ['\n']).splitOn '\n' = line.splitOn '\n' ++ [[]] := by
      rw [List.splitOn_append_cons_self, List.splitOn_nil]
    have hwhole : (line ++ ['\n'] ++ rest).splitOn '\n' =
        line.splitOn '\n' ++ rest.splitOn '\n' := by
      rw [List.append_assoc, List.singleton_append, List.splitOn_append_cons_self]
    rw [changeLines, changeLines, changeLines, hpart, hwhole]
    simp only [List.getLast?_append_of_ne_nil _ hne, List.getLast?_concat, if_true,
      List.dropLast_concat, List.dropLast_append_of_ne_nil hne]
    split_ifs <;> rfl

/-- The lines of parts are those of the text. -/
theorem flatMap_changeLines {parts : List Text} (h : Whole parts) :
    parts.flatMap changeLines = changeLines parts.flatten := by
  induction parts with
  | nil => simp
  | cons part parts ih =>
    have hparts : Whole parts := fun before part' after heq =>
      h (part :: before) part' after (by rw [heq]; rfl)
    rw [List.flatMap_cons, List.flatten_cons, ih hparts]
    obtain hnil | hlast | hrest := h [] part parts rfl
    · rw [changeLines_append (.inl hnil)]
    · rw [changeLines_append (.inr hlast)]
    · rw [hrest, changeLines_nil, List.append_nil, List.append_nil]

/-! ## The diff of two texts -/

/-- The lines of changes, with what the changes do to them. -/
def itemsOf (changes : List Change) : List (LineType × Text) :=
  changes.flatMap fun change => (changeLines change.value).map fun line => (change.type, line)

/-- One line is pushed and counted. -/
def pushItem (st : Counter × DiffStats) (item : LineType × Text) : Counter × DiffStats :=
  (st.1.push item.1 item.2, st.2.count item.1)

theorem foldl_pushChange (changes : List Change) (st : Counter × DiffStats) :
    changes.foldl pushChange st = (itemsOf changes).foldl pushItem st := by
  induction changes generalizing st with
  | nil => rfl
  | cons change changes ih =>
    have hitems : itemsOf (change :: changes) =
        (changeLines change.value).map (fun line => (change.type, line)) ++ itemsOf changes :=
      List.flatMap_cons
    rw [List.foldl_cons, ih, hitems, List.foldl_append, List.foldl_map]
    rfl

/-- Counting lines. -/
def countOf (type : LineType) (items : List (LineType × Text)) : ℕ :=
  items.countP fun item => item.1 = type

theorem foldl_pushItem (items : List (LineType × Text)) (st : Counter × DiffStats) :
    items.foldl pushItem st =
      (items.foldl (fun c item => c.push item.1 item.2) st.1,
        ⟨st.2.additions + countOf .added items, st.2.deletions + countOf .removed items,
          st.2.unchanged + countOf .unchanged items⟩) := by
  induction items generalizing st with
  | nil => rfl
  | cons item items ih =>
    obtain ⟨type, content⟩ := item
    rw [List.foldl_cons, ih]
    cases type <;> simp [pushItem, DiffStats.count, countOf] <;> omega

theorem generateLineDiff_eq (diffLines : Text → Text → List Change) (oldText newText : Text) :
    generateLineDiff diffLines oldText newText =
      ⟨numbered 1 1 (itemsOf (diffLines oldText newText)),
        ⟨countOf .added (itemsOf (diffLines oldText newText)),
          countOf .removed (itemsOf (diffLines oldText newText)),
          countOf .unchanged (itemsOf (diffLines oldText newText))⟩⟩ := by
  simp [generateLineDiff, foldl_pushChange, foldl_pushItem, lines_foldl_push]

/-- The lines of one type. -/
def linesOfType (type : LineType) (lines : List DiffLine) : List DiffLine :=
  lines.filter fun line => line.type = type

/-- The lines of a diff are those of the old text and those of the new one, numbered one after the
other, and counted. -/
structure Reproduces (oldText newText : Text) (d : ParsedDiff) : Prop where
  old_lines : (sideOf .added d.lines).map DiffLine.content = changeLines oldText
  new_lines : (sideOf .removed d.lines).map DiffLine.content = changeLines newText
  old_numbers : (sideOf .added d.lines).map DiffLine.oldLineNumber =
    (List.range' 1 (changeLines oldText).length).map some
  new_numbers : (sideOf .removed d.lines).map DiffLine.newLineNumber =
    (List.range' 1 (changeLines newText).length).map some
  stats : d.stats = ⟨(linesOfType .added d.lines).length, (linesOfType .removed d.lines).length,
    (linesOfType .unchanged d.lines).length⟩

/-- The contents of one side are the lines of its changes. -/
theorem content_sideOf (missing : LineType) (changes : List Change) :
    (sideOf missing (numbered 1 1 (itemsOf changes))).map DiffLine.content =
      (partsOf missing changes).flatMap changeLines := by
  have hside : (sideOf missing (numbered 1 1 (itemsOf changes))).map DiffLine.content =
      ((itemsOf changes).filter fun item => item.1 ≠ missing).map Prod.snd := by
    conv_rhs => rw [← map_numbered 1 1 (itemsOf changes)]
    rw [List.filter_map, List.map_map]
    rfl
  rw [hside, itemsOf, partsOf]
  clear hside
  induction changes with
  | nil => rfl
  | cons change changes ih =>
    rw [List.flatMap_cons, List.filter_append, List.map_append, ih]
    by_cases htype : change.type = missing
    · simp [htype, List.filter_map, Function.comp_def]
    · simp [htype, List.filter_map, Function.comp_def]

theorem length_linesOfType (type : LineType) (items : List (LineType × Text)) :
    (linesOfType type (numbered 1 1 items)).length = countOf type items := by
  conv_rhs => rw [← map_numbered 1 1 items]
  rw [countOf, List.countP_map, linesOfType, ← List.countP_eq_length_filter]
  rfl

theorem reproduces {diffLines : Text → Text → List Change} {oldText newText : Text}
    (h : Faithful oldText newText (diffLines oldText newText)) :
    Reproduces oldText newText (generateLineDiff diffLines oldText newText) := by
  rw [generateLineDiff_eq]
  have hold : (sideOf .added (numbered 1 1 (itemsOf (diffLines oldText newText)))).map
      DiffLine.content = changeLines oldText := by
    rw [content_sideOf, flatMap_changeLines h.old_whole, h.old_eq]
  have hnew : (sideOf .removed (numbered 1 1 (itemsOf (diffLines oldText newText)))).map
      DiffLine.content = changeLines newText := by
    rw [content_sideOf, flatMap_changeLines h.new_whole, h.new_eq]
  refine ⟨hold, hnew, ?_, ?_, ?_⟩
  · rw [oldLineNumber_numbered, ← hold, List.length_map]
  · rw [newLineNumber_numbered, ← hnew, List.length_map]
  · simp only [length_linesOfType]

/-! ## What is shown -/

/-- The lines that are shown. -/
def shownLines (shown : List Shown) : List DiffLine :=
  shown.filterMap fun
    | .line line => some line
    | .collapsed _ => none

/-- How many lines are collapsed. -/
def collapsedCount (shown : List Shown) : ℕ :=
  (shown.map fun
    | .line _ => 0
    | .collapsed count => count).sum

@[simp]
theorem shownLines_append (a b : List Shown) :
    shownLines (a ++ b) = shownLines a ++ shownLines b :=
  List.filterMap_append

@[simp]
theorem collapsedCount_append (a b : List Shown) :
    collapsedCount (a ++ b) = collapsedCount a + collapsedCount b := by
  simp [collapsedCount]

@[simp]
theorem shownLines_lines (lines : List DiffLine) : shownLines (lines.map .line) = lines := by
  simp [shownLines, List.filterMap_map]

@[simp]
theorem collapsedCount_lines (lines : List DiffLine) : collapsedCount (lines.map .line) = 0 := by
  simp [collapsedCount, Function.comp_def]

@[simp]
theorem shownLines_collapsed (count : ℕ) : shownLines [.collapsed count] = [] := rfl

@[simp]
theorem collapsedCount_collapsed (count : ℕ) : collapsedCount [.collapsed count] = count := rfl

/-- A line is changed. -/
def changed (line : DiffLine) : Bool := line.type ≠ .unchanged

/-- What is shown are lines of the diff, in order and none twice, with all changed ones, and those
that are not shown are counted. -/
structure Displays (lines : List DiffLine) (shown : List Shown) : Prop where
  changed_eq : (shownLines shown).filter changed = lines.filter changed
  sublist : (shownLines shown).Sublist lines
  count : (shownLines shown).length + collapsedCount shown = lines.length

/-- Context is asked for, or no unchanged line is in front of a changed one. -/
def Countable (lines : List DiffLine) (contextLines : ℕ) : Prop :=
  1 ≤ contextLines ∨ ∀ line ∈ lines.dropWhile changed, changed line = false

/-- What is shown of lines behind unchanged ones. -/
def collapseFrom (contextLines : ℕ) : List DiffLine → List DiffLine → List Shown
  | buffer, [] => flushEnd contextLines buffer
  | buffer, line :: lines =>
    if line.type = .unchanged then collapseFrom contextLines (buffer ++ [line]) lines
    else flush contextLines buffer ++ [.line line] ++ collapseFrom contextLines [] lines

theorem foldl_next (contextLines : ℕ) (lines : List DiffLine) (d : Display) :
    (lines.foldl (Display.next contextLines) d).result ++
        flushEnd contextLines (lines.foldl (Display.next contextLines) d).unchangedBuffer =
      d.result ++ collapseFrom contextLines d.unchangedBuffer lines := by
  induction lines generalizing d with
  | nil => rfl
  | cons line lines ih =>
    rw [List.foldl_cons, ih, collapseFrom, Display.next]
    split_ifs
    · rfl
    · simp

theorem collapseDiff_eq (lines : List DiffLine) (contextLines : ℕ) :
    collapseDiff lines contextLines = collapseFrom contextLines [] lines :=
  foldl_next contextLines lines ⟨[], []⟩

theorem changed_eq_false {line : DiffLine} : changed line = false ↔ line.type = .unchanged := by
  simp [changed]

/-- What is shown in front of a change is shown once. -/
theorem shownLines_flush (contextLines : ℕ) (buffer : List DiffLine) :
    (shownLines (flush contextLines buffer)).Sublist buffer := by
  rw [flush]
  split_ifs with hlong
  · rw [shownLines_append, shownLines_append, shownLines_lines, shownLines_lines,
      shownLines_collapsed, List.append_nil, lastSlice]
    split_ifs with hzero
    · simp [hzero]
    · have hrest : buffer.drop (buffer.length - contextLines) <:+ buffer.drop contextLines := by
        refine ⟨(buffer.drop contextLines).take (buffer.length - contextLines - contextLines), ?_⟩
        have hdrop : buffer.drop (buffer.length - contextLines) =
            (buffer.drop contextLines).drop (buffer.length - contextLines - contextLines) := by
          rw [List.drop_drop]
          congr 1
          omega
        rw [hdrop, List.take_append_drop]
      have happend := (List.Sublist.refl (buffer.take contextLines)).append hrest.sublist
      rwa [List.take_append_drop] at happend
  · rw [shownLines_lines]

theorem shownLines_flushEnd (contextLines : ℕ) (buffer : List DiffLine) :
    (shownLines (flushEnd contextLines buffer)).Sublist buffer := by
  rw [flushEnd]
  split_ifs with hlong
  · rw [shownLines_append, shownLines_lines, shownLines_collapsed, List.append_nil]
    exact List.take_sublist contextLines buffer
  · rw [shownLines_lines]

/-- What is counted in front of a change, and shown too where no context is asked for. -/
theorem count_flush (contextLines : ℕ) (buffer : List DiffLine) :
    (shownLines (flush contextLines buffer)).length +
        collapsedCount (flush contextLines buffer) =
      buffer.length + if contextLines = 0 then buffer.length else 0 := by
  rw [flush]
  split_ifs with hlong hzero hzero
  · simp only [shownLines_append, collapsedCount_append, shownLines_lines, collapsedCount_lines,
      shownLines_collapsed, collapsedCount_collapsed, lastSlice, if_pos hzero]
    simp [hzero]
  · simp only [shownLines_append, collapsedCount_append, shownLines_lines, collapsedCount_lines,
      shownLines_collapsed, collapsedCount_collapsed, lastSlice, if_neg hzero]
    simp
    omega
  · have hempty : buffer.length = 0 := by omega
    simp [hempty]
  · simp

theorem count_flushEnd (contextLines : ℕ) (buffer : List DiffLine) :
    (shownLines (flushEnd contextLines buffer)).length +
      collapsedCount (flushEnd contextLines buffer) = buffer.length := by
  rw [flushEnd]
  split_ifs with hlong
  · simp only [shownLines_append, collapsedCount_append, shownLines_lines, collapsedCount_lines,
      shownLines_collapsed, collapsedCount_collapsed]
    simp
    omega
  · simp

theorem filter_unchanged {buffer : List DiffLine} (h : ∀ line ∈ buffer, changed line = false)
    {lines : List DiffLine} (hlines : lines.Sublist buffer) : lines.filter changed = [] := by
  rw [List.filter_eq_nil_iff]
  intro line hline
  simp [h line (hlines.subset hline)]

/-- Changed lines are shown and no line is shown twice, whatever the context is. -/
theorem shownLines_collapseFrom (contextLines : ℕ) {buffer : List DiffLine}
    (h : ∀ line ∈ buffer, changed line = false) (lines : List DiffLine) :
    (shownLines (collapseFrom contextLines buffer lines)).filter changed = lines.filter changed ∧
      (shownLines (collapseFrom contextLines buffer lines)).Sublist (buffer ++ lines) := by
  induction lines generalizing buffer with
  | nil =>
    have hsublist := shownLines_flushEnd contextLines buffer
    rw [collapseFrom, List.append_nil]
    exact ⟨filter_unchanged h hsublist, hsublist⟩
  | cons line lines ih =>
    rw [collapseFrom]
    split_ifs with hline
    · have hbuffer : ∀ other ∈ buffer ++ [line], changed other = false := by
        intro other hother
        obtain hother | hother := List.mem_append.mp hother
        · exact h other hother
        · rw [List.mem_singleton.mp hother, changed_eq_false]
          exact hline
      obtain ⟨hchanged, hsublist⟩ := ih hbuffer
      refine ⟨?_, by simpa using hsublist⟩
      rw [hchanged, List.filter_cons_of_neg]
      simp [changed_eq_false.mpr hline]
    · obtain ⟨hchanged, hsublist⟩ := ih (List.forall_mem_nil _)
      have hflush := shownLines_flush contextLines buffer
      have htrue : changed line = true := by simp [changed, hline]
      constructor
      · rw [shownLines_append, shownLines_append, List.filter_append, List.filter_append,
          filter_unchanged h hflush, hchanged, List.filter_cons_of_pos htrue]
        simp [shownLines, htrue]
      · rw [shownLines_append, shownLines_append, List.append_assoc]
        exact hflush.append (hsublist.cons_cons line)

/-- The unchanged lines that are counted and shown. -/
def countedTwice (contextLines : ℕ) : ℕ → List DiffLine → ℕ
  | _, [] => 0
  | n, line :: lines =>
    if line.type = .unchanged then countedTwice contextLines (n + 1) lines
    else (if contextLines = 0 then n else 0) + countedTwice contextLines 0 lines

theorem count_collapseFrom (contextLines : ℕ) (buffer lines : List DiffLine) :
    (shownLines (collapseFrom contextLines buffer lines)).length +
        collapsedCount (collapseFrom contextLines buffer lines) =
      buffer.length + lines.length + countedTwice contextLines buffer.length lines := by
  induction lines generalizing buffer with
  | nil => simp [collapseFrom, countedTwice, count_flushEnd]
  | cons line lines ih =>
    rw [collapseFrom, countedTwice]
    split_ifs with hline hzero
    · rw [ih]
      simp
      omega
    · have hflush := count_flush contextLines buffer
      have hrest := ih []
      rw [if_pos hzero] at hflush
      simp only [shownLines_append, collapsedCount_append, List.length_append,
        List.length_cons, List.length_nil] at hrest ⊢
      simp [shownLines, collapsedCount] at hflush hrest ⊢
      omega
    · have hflush := count_flush contextLines buffer
      have hrest := ih []
      rw [if_neg hzero] at hflush
      simp only [shownLines_append, collapsedCount_append, List.length_append,
        List.length_cons, List.length_nil] at hrest ⊢
      simp [shownLines, collapsedCount] at hflush hrest ⊢
      omega

theorem countedTwice_of_pos {contextLines : ℕ} (h : 1 ≤ contextLines) (n : ℕ)
    (lines : List DiffLine) : countedTwice contextLines n lines = 0 := by
  induction lines generalizing n with
  | nil => rfl
  | cons line lines ih =>
    have hne : contextLines ≠ 0 := Nat.pos_iff_ne_zero.mp h
    simp [countedTwice, ih, hne]

/-- Without context nothing is counted twice exactly if no unchanged line is in front of a changed
one. -/
theorem countedTwice_zero (n : ℕ) (lines : List DiffLine) :
    countedTwice 0 n lines = 0 ↔
      n = 0 ∧ (∀ line ∈ lines.dropWhile changed, changed line = false) ∨
        ∀ line ∈ lines, changed line = false := by
  induction lines generalizing n with
  | nil => simp [countedTwice]
  | cons line lines ih =>
    rw [countedTwice]
    split_ifs with hline hzero
    · have hunchanged := changed_eq_false.mpr hline
      rw [ih, List.dropWhile_cons_of_neg (by simp [hunchanged])]
      simp [hunchanged]
    · have htrue : changed line = true := by simp [changed, hline]
      rw [List.dropWhile_cons_of_pos htrue, Nat.add_eq_zero_iff, ih]
      have hall : (∀ other ∈ lines, changed other = false) →
          ∀ other ∈ lines.dropWhile changed, changed other = false :=
        fun h other hother => h other ((List.dropWhile_suffix _).subset hother)
      simp [htrue]
      tauto
    · exact absurd rfl hzero

theorem displays_iff (lines : List DiffLine) (contextLines : ℕ) :
    Displays lines (collapseDiff lines contextLines) ↔ Countable lines contextLines := by
  obtain ⟨hchanged, hsublist⟩ := shownLines_collapseFrom contextLines (List.forall_mem_nil _) lines
  have hcount := count_collapseFrom contextLines [] lines
  have hdisplays : Displays lines (collapseDiff lines contextLines) ↔
      countedTwice contextLines 0 lines = 0 := by
    rw [collapseDiff_eq]
    constructor
    · intro h
      have hlength := h.count
      simp only [List.length_nil] at hcount
      omega
    · intro h
      refine ⟨hchanged, hsublist, ?_⟩
      simp only [List.length_nil, h] at hcount
      omega
  rw [hdisplays, Countable]
  obtain rfl | hpos := Nat.eq_zero_or_pos contextLines
  · rw [countedTwice_zero]
    have hall : (∀ line ∈ lines, changed line = false) →
        ∀ line ∈ lines.dropWhile changed, changed line = false :=
      fun h line hline => h line ((List.dropWhile_suffix _).subset hline)
    simp
    tauto
  · exact iff_of_true (countedTwice_of_pos hpos 0 lines) (.inl hpos)

/-- **What a diff shows.**  The lines of both texts are there when the changes of the library are
whole lines of them; and what is shown and counted are the lines of a diff exactly if context is
asked for or no unchanged line is in front of a changed one. -/
theorem display_iff {diffLines : Text → Text → List Change} {oldText newText : Text}
    (h : Faithful oldText newText (diffLines oldText newText)) :
    Reproduces oldText newText (generateLineDiff diffLines oldText newText) ∧
      ∀ lines contextLines,
        Displays lines (collapseDiff lines contextLines) ↔ Countable lines contextLines :=
  ⟨reproduces h, displays_iff⟩

theorem whole_singleton (part : Text) : Whole [part] := by
  intro before part' after h
  have hafter : after = [] := by
    have hlength := congrArg List.length h
    simp at hlength
    exact List.eq_nil_of_length_eq_zero (by omega)
  simp [hafter]

/-- The changes between two texts that have no line in common. -/
def exampleDiffLines (oldText newText : Text) : List Change :=
  [⟨oldText, false, true⟩, ⟨newText, true, false⟩]

theorem display_example :
    Reproduces "a\nb\n".toList "c\n".toList
        (generateLineDiff exampleDiffLines "a\nb\n".toList "c\n".toList) ∧
      ∀ lines contextLines,
        Displays lines (collapseDiff lines contextLines) ↔ Countable lines contextLines :=
  display_iff ⟨by simp [partsOf, exampleDiffLines, Change.type],
    by simp [partsOf, exampleDiffLines, Change.type], whole_singleton _, whole_singleton _⟩

/-- Without context the unchanged line in front of a change is collapsed and shown. -/
theorem collapsed_and_shown :
    collapseDiff [⟨.unchanged, ['a'], some 1, some 1⟩, ⟨.removed, ['b'], some 2, none⟩] 0 =
      [.collapsed 1, .line ⟨.unchanged, ['a'], some 1, some 1⟩,
        .line ⟨.removed, ['b'], some 2, none⟩] := by
  decide

end DoxAsdlc.HitlUi.Diff
