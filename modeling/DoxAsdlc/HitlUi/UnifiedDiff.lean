import DoxAsdlc.HitlUi.Diff
import Mathlib.Data.List.Basic

/-!
# Reading unified diffs

A unified diff is the hunks of each file behind a header with its names.  It is read line by line,
and a line that begins with three plus or three minus signs is taken for one of the header wherever
it is.  So a hunk is read as it is unless a line of it was added that begins with two plus signs
itself, or one was removed that begins with two minus signs.

## Main definitions

* `Hunk`, `FileDiff` — a well-formed unified diff, with the texts it leads from and to.
* `Hunk.read` — what a hunk is to be read as.
* `applyHunks` — hunks applied to a text.
* `Plain` — the condition on a line of a hunk.

## Main results

* `parseUnifiedDiff_eq` — what is read of a diff.
* `reads_iff_plain` — when it is what the diff says.
-/

namespace DoxAsdlc.HitlUi.Diff

/-! ## Well-formed diffs -/

/-- A number as it is written. -/
structure Numeral where
  digits : Text
  ne_nil : digits ≠ []
  all : ∀ c ∈ digits, isDigit c = true

def Numeral.value (n : Numeral) : ℕ := parseInt n.digits

/-- A text without line ends. -/
def OneLine (text : Text) : Prop := '\n' ∉ text

/-- A line of a hunk, or the note that the line in front of it has no end. -/
inductive BodyLine
  | line (type : LineType) (content : Text)
  | noNewline (note : Text)

/-- How a line of a hunk begins. -/
def mark : LineType → Char
  | .added => '+'
  | .removed => '-'
  | .unchanged => ' '

namespace BodyLine

/-- The line as it is written. -/
def text : BodyLine → Text
  | line type content => mark type :: content
  | noNewline note => '\\' :: note

/-- The line that it is. -/
def item? : BodyLine → Option (LineType × Text)
  | line type content => some (type, content)
  | noNewline _ => none

end BodyLine

/-- Lines without those that a text does not have. -/
def side (missing : LineType) (items : List (LineType × Text)) : List Text :=
  (items.filter fun item => item.1 ≠ missing).map Prod.snd

/-- A number of lines, which is one if none is written. -/
def countValue (count : Option Numeral) : ℕ := count.elim 1 Numeral.value

/-- A hunk, with as many lines of the old and of the new text as its header says. -/
structure Hunk where
  oldStart : Numeral
  oldCount : Option Numeral
  newStart : Numeral
  newCount : Option Numeral
  /-- What is behind the numbers. -/
  heading : Text
  body : List BodyLine
  old_length : (side .added (body.filterMap BodyLine.item?)).length = countValue oldCount
  new_length : (side .removed (body.filterMap BodyLine.item?)).length = countValue newCount
  heading_line : OneLine heading
  body_lines : ∀ line ∈ body, OneLine line.text

namespace Hunk

variable (h : Hunk)

/-- The lines of a hunk. -/
def items : List (LineType × Text) := h.body.filterMap BodyLine.item?

/-- A number of lines as it is written. -/
def countText (count : Option Numeral) : Text := count.elim [] fun n => ',' :: n.digits

/-- The header of a hunk. -/
def header : Text :=
  "@@ -".toList ++ (h.oldStart.digits ++ (countText h.oldCount ++ (" +".toList ++
    (h.newStart.digits ++ (countText h.newCount ++ (" @@".toList ++ h.heading))))))

/-- A hunk as it is written. -/
def lines : List Text := h.header :: h.body.map BodyLine.text

/-- The numbers of a hunk, with lines. -/
def withLines (items : List (LineType × Text)) : UnifiedDiffHunk :=
  ⟨h.oldStart.value, countValue h.oldCount, h.newStart.value, countValue h.newCount,
    numbered h.oldStart.value h.newStart.value items⟩

/-- What a hunk is to be read as. -/
def read : UnifiedDiffHunk := h.withLines h.items

end Hunk

/-- The number of the first line of a hunk, behind `n` lines: where it has none, it is the number
of the line in front. -/
def startOf (n count : ℕ) : ℕ := if count = 0 then n else n + 1

/-- Hunks lead from a text to another, `n` lines of the old one and `m` of the new one being in
front. -/
inductive Leads : ℕ → ℕ → List Text → List Text → List Hunk → Prop
  | nil (n m : ℕ) (rest : List Text) : Leads n m rest rest []
  | cons {n m : ℕ} (gap : List Text) {old new : List Text} {h : Hunk} {hunks : List Hunk}
      (old_start : h.oldStart.value = startOf (n + gap.length) (countValue h.oldCount))
      (new_start : h.newStart.value = startOf (m + gap.length) (countValue h.newCount))
      (rest : Leads (n + gap.length + countValue h.oldCount)
        (m + gap.length + countValue h.newCount) old new hunks) :
      Leads n m (gap ++ side .added h.items ++ old) (gap ++ side .removed h.items ++ new)
        (h :: hunks)

/-- The diff of a file: lines about the file, its names, and hunks from its old lines to its new
ones. -/
structure FileDiff where
  preamble : List Text
  oldPath : Text
  newPath : Text
  hunks : List Hunk
  old : List Text
  new : List Text
  preamble_lines : ∀ line ∈ preamble,
    OneLine line ∧ ∀ c ∈ line.head?, c ∉ ['@', '+', '-', ' ']
  oldPath_line : OneLine oldPath
  newPath_line : OneLine newPath
  leads : Leads 0 0 old new hunks

/-- The diff of a file as it is written. -/
def FileDiff.lines (file : FileDiff) : List Text :=
  file.preamble ++ ["--- ".toList ++ file.oldPath, "+++ ".toList ++ file.newPath] ++
    file.hunks.flatMap Hunk.lines

/-- A diff as it is written; the last line may have an end. -/
def diffText (files : List FileDiff) (ended : Bool) : Text :=
  ['\n'].intercalate (files.flatMap FileDiff.lines ++ if ended then [[]] else [])

/-! ## Applying hunks -/

/-- Hunks are applied to what is behind `n` lines, if their old lines are there. -/
def applyHunks (n : ℕ) (old : List Text) : List UnifiedDiffHunk → Option (List Text)
  | [] => some old
  | hunk :: hunks =>
    let gap := (if hunk.oldLines = 0 then hunk.oldStart else hunk.oldStart - 1) - n
    let behind := old.drop gap
    let oldSide := (sideOf .added hunk.lines).map DiffLine.content
    let newSide := (sideOf .removed hunk.lines).map DiffLine.content
    if oldSide.isPrefixOf behind then
      (applyHunks (n + gap + hunk.oldLines) (behind.drop hunk.oldLines) hunks).map fun new =>
        old.take gap ++ newSide ++ new
    else none

theorem content_sideOf_numbered (missing : LineType) (old new : ℕ)
    (items : List (LineType × Text)) :
    (sideOf missing (numbered old new items)).map DiffLine.content = side missing items := by
  conv_rhs => rw [← map_numbered old new items]
  rw [side, List.filter_map, List.map_map]
  rfl

/-- The hunks of a diff lead from the old lines to the new ones. -/
theorem applyHunks_read {n m : ℕ} {old new : List Text} {hunks : List Hunk}
    (h : Leads n m old new hunks) : applyHunks n old (hunks.map Hunk.read) = some new := by
  induction h with
  | nil => rfl
  | @cons n m gap old new h hunks hold hnew hrest ih =>
    have hlength : (side .added h.items).length = countValue h.oldCount := h.old_length
    have hgap : (if countValue h.oldCount = 0 then h.oldStart.value
        else h.oldStart.value - 1) - n = gap.length := by
      rw [hold, startOf]
      split_ifs <;> omega
    have hbehind : (gap ++ side .added h.items ++ old).drop gap.length =
        side .added h.items ++ old := by
      rw [List.append_assoc, List.drop_left]
    have htake : (gap ++ side .added h.items ++ old).take gap.length = gap := by
      rw [List.append_assoc, List.take_left]
    have hdrop : (side .added h.items ++ old).drop (countValue h.oldCount) = old := by
      rw [← hlength, List.drop_left]
    have hfront : (side .added h.items).isPrefixOf (side .added h.items ++ old) = true := by
      simp
    simp only [List.map_cons, applyHunks, Hunk.read, Hunk.withLines, content_sideOf_numbered,
      hgap, hbehind, htake, hdrop, hfront, if_true]
    rw [ih]
    rfl

/-! ## Reading a header -/

theorem after?_append (front rest : Text) : after? front (front ++ rest) = some rest := by
  simp [after?]

theorem after?_of_head {front line : Text} {c : Char} (hfront : front.head? = some c)
    (hline : line.head? ≠ some c) : after? front line = none := by
  obtain ⟨front, rfl⟩ := List.head?_eq_some_iff.mp hfront
  cases line with
  | nil => rfl
  | cons d line =>
    have hne : c ≠ d := fun heq => hline (by rw [heq, List.head?_cons])
    simp [after?, hne]

theorem digits?_append (n : Numeral) {rest : Text} (h : ∀ c ∈ rest.head?, isDigit c = false) :
    digits? (n.digits ++ rest) = some (n.digits, rest) := by
  have hnone : rest.takeWhile isDigit = [] := by
    cases rest with
    | nil => rfl
    | cons c rest => simp [h c (by simp)]
  have htake : (n.digits ++ rest).takeWhile isDigit = n.digits := by
    rw [List.takeWhile_append_of_pos n.all, hnone, List.append_nil]
  have hdrop : (n.digits ++ rest).dropWhile isDigit = rest := by
    rw [List.dropWhile_append_of_pos n.all]
    cases rest with
    | nil => rfl
    | cons c rest => simp [h c (by simp)]
  rw [digits?, htake, hdrop, if_neg n.ne_nil]

/-- A number of lines is read, with a blank behind it. -/
theorem count?_append (count : Option Numeral) (rest : Text) :
    ∃ digits, count? (Hunk.countText count ++ ' ' :: rest) = (digits, ' ' :: rest) ∧
      parseInt digits = countValue count := by
  cases count with
  | none =>
    refine ⟨['1'], ?_, by decide⟩
    rw [Hunk.countText, Option.elim_none, List.nil_append, count?,
      after?_of_head (c := ',') rfl (by simp)]
    rfl
  | some n =>
    refine ⟨n.digits, ?_, rfl⟩
    have hcomma : Hunk.countText (some n) ++ ' ' :: rest =
        [','] ++ (n.digits ++ ' ' :: rest) := rfl
    rw [hcomma, count?, after?_append, Option.bind_some, digits?_append n (by simp [isDigit])]

theorem isDigit_head_countText (count : Option Numeral) (rest : Text) :
    ∀ c ∈ (Hunk.countText count ++ ' ' :: rest).head?, isDigit c = false := by
  cases count <;> simp [Hunk.countText, isDigit]

/-- The numbers of a header. -/
theorem hunkHeader?_header (h : Hunk) :
    hunkHeader? h.header = some ⟨h.oldStart.value, countValue h.oldCount, h.newStart.value,
      countValue h.newCount, []⟩ := by
  obtain ⟨old, hold, holdValue⟩ := count?_append h.oldCount
    ('+' :: (h.newStart.digits ++ (Hunk.countText h.newCount ++ (" @@".toList ++ h.heading))))
  obtain ⟨new, hnew, hnewValue⟩ := count?_append h.newCount ("@@".toList ++ h.heading)
  have hplus : " +".toList ++
        (h.newStart.digits ++ (Hunk.countText h.newCount ++ (" @@".toList ++ h.heading))) =
      ' ' :: '+' :: (h.newStart.digits ++
        (Hunk.countText h.newCount ++ (" @@".toList ++ h.heading))) := rfl
  have hend : " @@".toList ++ h.heading = ' ' :: ("@@".toList ++ h.heading) := rfl
  rw [hunkHeader?, Hunk.header]
  simp only [after?_append, Option.bind_eq_bind, Option.bind_some, Option.pure_def]
  rw [hplus, digits?_append _ (isDigit_head_countText _ _), Option.bind_some]
  simp only [hold]
  rw [← hplus, after?_append, Option.bind_some, hend,
    digits?_append _ (isDigit_head_countText _ _), Option.bind_some]
  simp only [hnew]
  rw [← hend, after?_append, Option.bind_some, holdValue, hnewValue]
  rfl

theorem hunkHeader?_of_head {line : Text} (h : line.head? ≠ some '@') :
    hunkHeader? line = none := by
  rw [hunkHeader?, after?_of_head (c := '@') rfl h]
  rfl

/-! ## Reading lines -/

/-- A line that is neither taken for one of a file header: an added one whose text begins with two
plus signs, or a removed one with two minus signs. -/
def Plain : LineType × Text → Bool
  | (.added, content) => !"++".toList.isPrefixOf content
  | (.removed, content) => !"--".toList.isPrefixOf content
  | (.unchanged, _) => true

theorem hunkLine?_text (type : LineType) (content : Text) :
    hunkLine? (mark type :: content) =
      if Plain (type, content) then some (type, content) else none := by
  cases type <;> simp [hunkLine?, mark, Plain]

theorem hunkLine?_of_head {line : Text}
    (h : ∀ c ∈ line.head?, c ∉ ['+', '-', ' ']) : hunkLine? line = none := by
  cases line with
  | nil => rfl
  | cons c line =>
    have hc : c ∉ ['+', '-', ' '] := h c (by simp)
    simp only [List.mem_cons, List.not_mem_nil, or_false, not_or] at hc
    simp [hunkLine?, Ne.symm hc.1, Ne.symm hc.2.1, Ne.symm hc.2.2]

/-- A line that is nothing of a hunk is skipped. -/
theorem next_of_none {line : Text} (hheader : hunkHeader? line = none)
    (hline : hunkLine? line = none) (p : Parser) : p.next line = p := by
  rw [Parser.next, hheader]
  simp only [hline]
  cases p.currentHunk <;> rfl

theorem next_of_some {line content : Text} {type : LineType} (hheader : hunkHeader? line = none)
    (hline : hunkLine? line = some (type, content)) (hunks : List UnifiedDiffHunk)
    (hunk : UnifiedDiffHunk) (c : Counter) :
    Parser.next ⟨hunks, some (hunk, c)⟩ line =
      ⟨hunks, some (hunk, c.push type content)⟩ := by
  rw [Parser.next, hheader]
  simp only [hline]

/-- The lines of a hunk are pushed, but for those that are taken for others. -/
theorem foldl_next_body (body : List BodyLine) (hunks : List UnifiedDiffHunk)
    (hunk : UnifiedDiffHunk) (c : Counter) :
    (body.map BodyLine.text).foldl Parser.next ⟨hunks, some (hunk, c)⟩ =
      ⟨hunks, some (hunk, ((body.filterMap BodyLine.item?).filter Plain).foldl
        (fun c item => c.push item.1 item.2) c)⟩ := by
  induction body generalizing c with
  | nil => rfl
  | cons line body ih =>
    rw [List.map_cons, List.foldl_cons]
    cases line with
    | noNewline note =>
      rw [next_of_none (hunkHeader?_of_head (by simp [BodyLine.text]))
        (hunkLine?_of_head (by simp [BodyLine.text])), ih]
      rfl
    | line type content =>
      have hheader : hunkHeader? (mark type :: content) = none :=
        hunkHeader?_of_head (by cases type <;> simp [mark])
      have hitems : (BodyLine.line type content :: body).filterMap BodyLine.item? =
          (type, content) :: body.filterMap BodyLine.item? := rfl
      rw [BodyLine.text, hitems]
      by_cases hplain : Plain (type, content) = true
      · rw [next_of_some hheader ((hunkLine?_text type content).trans (if_pos hplain)), ih,
          List.filter_cons_of_pos hplain]
        rfl
      · rw [next_of_none hheader ((hunkLine?_text type content).trans (if_neg hplain)), ih,
          List.filter_cons_of_neg hplain]

/-- One hunk is read. -/
theorem all_foldl_next_lines (h : Hunk) (p : Parser) :
    (h.lines.foldl Parser.next p).all = p.all ++ [h.withLines (h.items.filter Plain)] := by
  have hnext : p.next h.header = ⟨p.all, some (⟨h.oldStart.value, countValue h.oldCount,
      h.newStart.value, countValue h.newCount, []⟩, ⟨[], h.oldStart.value, h.newStart.value⟩)⟩ := by
    rw [Parser.next, hunkHeader?_header]
  rw [Hunk.lines, List.foldl_cons, hnext, foldl_next_body, Parser.all]
  simp only [lines_foldl_push, List.nil_append]
  rfl

theorem all_foldl_next_hunks (hunks : List Hunk) (p : Parser) :
    ((hunks.flatMap Hunk.lines).foldl Parser.next p).all =
      p.all ++ hunks.map fun h => h.withLines (h.items.filter Plain) := by
  induction hunks generalizing p with
  | nil => simp
  | cons h hunks ih =>
    rw [List.flatMap_cons, List.foldl_append, ih, all_foldl_next_lines]
    simp

theorem foldl_next_preamble {preamble : List Text}
    (h : ∀ line ∈ preamble, ∀ c ∈ line.head?, c ∉ ['@', '+', '-', ' ']) (p : Parser) :
    preamble.foldl Parser.next p = p := by
  induction preamble with
  | nil => rfl
  | cons line preamble ih =>
    have hline := h line List.mem_cons_self
    have hheader : line.head? ≠ some '@' := fun heq => hline '@' (by simp [heq]) (by simp)
    have hskip : ∀ c ∈ line.head?, c ∉ ['+', '-', ' '] :=
      fun c hc hmem => hline c hc (List.mem_cons_of_mem _ hmem)
    rw [List.foldl_cons, next_of_none (hunkHeader?_of_head hheader) (hunkLine?_of_head hskip)]
    exact ih fun other hother => h other (List.mem_cons_of_mem _ hother)

/-- The names of a file are none of its lines. -/
theorem next_path (sign : LineType) (hsign : sign ≠ .unchanged) (path : Text) (p : Parser) :
    p.next (mark sign :: mark sign :: mark sign :: ' ' :: path) = p := by
  refine next_of_none (hunkHeader?_of_head ?_) ?_ p
  · cases sign <;> simp [mark]
  · rw [hunkLine?_text, if_neg]
    cases sign <;> simp_all [Plain, mark]

/-- The hunks of the files are read. -/
theorem all_foldl_next_files (files : List FileDiff) (p : Parser) :
    ((files.flatMap FileDiff.lines).foldl Parser.next p).all =
      p.all ++ (files.flatMap FileDiff.hunks).map fun h => h.withLines (h.items.filter Plain) := by
  induction files generalizing p with
  | nil => simp
  | cons file files ih =>
    have hpreamble := foldl_next_preamble fun line hline => (file.preamble_lines line hline).2
    have hold : p.next ("--- ".toList ++ file.oldPath) = p :=
      next_path .removed (by decide) file.oldPath p
    have hnew : p.next ("+++ ".toList ++ file.newPath) = p :=
      next_path .added (by decide) file.newPath p
    rw [List.flatMap_cons, List.foldl_append, ih, FileDiff.lines, List.foldl_append,
      List.foldl_append, hpreamble, List.foldl_cons, hold, List.foldl_cons, hnew,
      List.foldl_nil, all_foldl_next_hunks]
    simp

/-! ## Reading a diff -/

theorem oneLine_digits (n : Numeral) : OneLine n.digits := by
  intro hmem
  exact absurd (n.all _ hmem) (by decide)

theorem oneLine_countText (count : Option Numeral) : OneLine (Hunk.countText count) := by
  cases count with
  | none => simp [OneLine, Hunk.countText]
  | some n => simpa [OneLine, Hunk.countText] using oneLine_digits n

theorem oneLine_of_mem_lines {h : Hunk} {line : Text} (hline : line ∈ h.lines) : OneLine line := by
  obtain rfl | hbody := List.mem_cons.mp hline
  · have hold := oneLine_digits h.oldStart
    have hnew := oneLine_digits h.newStart
    have holdCount := oneLine_countText h.oldCount
    have hnewCount := oneLine_countText h.newCount
    have hheading := h.heading_line
    simp only [OneLine] at *
    simp [Hunk.header, hold, hnew, holdCount, hnewCount, hheading]
  · obtain ⟨bodyLine, hmem, rfl⟩ := List.mem_map.mp hbody
    exact h.body_lines bodyLine hmem

theorem oneLine_of_mem_file {file : FileDiff} {line : Text} (hline : line ∈ file.lines) :
    OneLine line := by
  simp only [FileDiff.lines, List.mem_append, List.mem_cons, List.not_mem_nil, or_false,
    List.mem_flatMap] at hline
  obtain (hline | rfl | rfl) | ⟨h, -, hline⟩ := hline
  · exact (file.preamble_lines line hline).1
  · have hpath := file.oldPath_line
    simp only [OneLine] at *
    simp [hpath]
  · have hpath := file.newPath_line
    simp only [OneLine] at *
    simp [hpath]
  · exact oneLine_of_mem_lines hline

/-- The lines of a diff, and an empty one behind them if the last one has an end. -/
theorem foldl_next_splitOn (files : List FileDiff) (ended : Bool) (p : Parser) :
    ((diffText files ended).splitOn '\n').foldl Parser.next p =
      (files.flatMap FileDiff.lines).foldl Parser.next p := by
  have hempty (p : Parser) : p.next [] = p := next_of_none rfl rfl p
  have hlines : ∀ line ∈ files.flatMap FileDiff.lines ++ (if ended then [[]] else []),
      '\n' ∉ line := by
    intro line hline
    obtain hline | hline := List.mem_append.mp hline
    · obtain ⟨file, -, hline⟩ := List.mem_flatMap.mp hline
      exact oneLine_of_mem_file hline
    · cases ended <;> simp_all
  by_cases hne : files.flatMap FileDiff.lines ++ (if ended then [[]] else []) = []
  · obtain ⟨hnil, -⟩ := List.append_eq_nil_iff.mp hne
    rw [diffText, hne, hnil, List.intercalate_nil, List.splitOn_nil, List.foldl_cons, hempty]
  · rw [diffText, List.splitOn_intercalate _ hlines hne, List.foldl_append]
    cases ended <;> simp [hempty]

/-- **What is read of a diff**: its hunks, without the lines that are taken for others. -/
theorem parseUnifiedDiff_eq (files : List FileDiff) (ended : Bool) :
    parseUnifiedDiff (diffText files ended) =
      (files.flatMap FileDiff.hunks).map fun h => h.withLines (h.items.filter Plain) := by
  rw [parseUnifiedDiff, foldl_next_splitOn, all_foldl_next_files]
  rfl

/-- The hunks that are read of a diff are those it has: with the numbers of their headers, as many
lines of each side, and every line with its kind, its text and its numbers, so that applied to the
old lines of each file they give the new ones. -/
structure Reads (files : List FileDiff) (hunks : List UnifiedDiffHunk) : Prop where
  hunks_eq : hunks = (files.flatMap FileDiff.hunks).map Hunk.read
  lengths : ∀ hunk ∈ hunks, (sideOf .added hunk.lines).length = hunk.oldLines ∧
    (sideOf .removed hunk.lines).length = hunk.newLines
  applied : ∀ file ∈ files, applyHunks 0 file.old (file.hunks.map Hunk.read) = some file.new

theorem reads_read (files : List FileDiff) :
    Reads files ((files.flatMap FileDiff.hunks).map Hunk.read) where
  hunks_eq := rfl
  lengths := by
    intro hunk hhunk
    obtain ⟨h, -, rfl⟩ := List.mem_map.mp hhunk
    have hside (missing : LineType) : (sideOf missing h.read.lines).length =
        (side missing h.items).length := by
      rw [← content_sideOf_numbered missing h.oldStart.value h.newStart.value, List.length_map]
      rfl
    exact ⟨(hside _).trans h.old_length, (hside _).trans h.new_length⟩
  applied := fun file _ => applyHunks_read file.leads

/-- A hunk is read as it is exactly if all its lines are plain. -/
theorem withLines_eq_read_iff (h : Hunk) :
    h.withLines (h.items.filter Plain) = h.read ↔ ∀ item ∈ h.items, Plain item = true := by
  rw [← List.filter_eq_self]
  constructor
  · intro heq
    have hitems := congrArg
      (fun hunk => hunk.lines.map fun line => (line.type, line.content)) heq
    simpa only [Hunk.withLines, Hunk.read, map_numbered] using hitems
  · intro heq
    rw [heq, Hunk.read]

/-- **When a diff is read as what it says**: exactly if no line was added that begins with two plus
signs and none removed that begins with two minus signs. -/
theorem reads_iff_plain (files : List FileDiff) (ended : Bool) :
    Reads files (parseUnifiedDiff (diffText files ended)) ↔
      ∀ file ∈ files, ∀ h ∈ file.hunks, ∀ item ∈ h.items, Plain item = true := by
  have hall : (∀ file ∈ files, ∀ h ∈ file.hunks, ∀ item ∈ h.items, Plain item = true) ↔
      ∀ h ∈ files.flatMap FileDiff.hunks, h.withLines (h.items.filter Plain) = h.read := by
    simp only [withLines_eq_read_iff, List.forall_mem_flatMap]
  rw [hall, ← List.map_inj_left, ← parseUnifiedDiff_eq files ended]
  constructor
  · exact fun h => h.hunks_eq
  · intro heq
    rw [heq]
    exact reads_read files

/-- A comment is taken out in front of a query. -/
def exampleHunk : Hunk where
  oldStart := ⟨['1'], by simp, by simp [isDigit]⟩
  oldCount := some ⟨['2'], by simp, by simp [isDigit]⟩
  newStart := ⟨['1'], by simp, by simp [isDigit]⟩
  newCount := none
  heading := []
  body := [.line .removed "-- old".toList, .line .unchanged "SELECT 1".toList]
  old_length := rfl
  new_length := rfl
  heading_line := by simp [OneLine]
  body_lines := by simp [OneLine, BodyLine.text, mark]

def exampleFile : FileDiff where
  preamble := []
  oldPath := "a/q.sql".toList
  newPath := "b/q.sql".toList
  hunks := [exampleHunk]
  old := [] ++ side .added exampleHunk.items ++ []
  new := [] ++ side .removed exampleHunk.items ++ []
  preamble_lines := by simp
  oldPath_line := by simp [OneLine]
  newPath_line := by simp [OneLine]
  leads := .cons [] rfl rfl (.nil _ _ [])

/-- The comment is dropped, and the hunk has one line of the old text where its header says two. -/
theorem removed_comment_dropped :
    diffText [exampleFile] true =
        "--- a/q.sql\n+++ b/q.sql\n@@ -1,2 +1 @@\n--- old\n SELECT 1\n".toList ∧
      parseUnifiedDiff (diffText [exampleFile] true) =
        [⟨1, 2, 1, 1, [⟨.unchanged, "SELECT 1".toList, some 1, some 1⟩]⟩] := by
  decide

end DoxAsdlc.HitlUi.Diff
