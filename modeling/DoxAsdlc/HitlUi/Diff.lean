import Mathlib.Data.List.TakeWhile

/-!
# Diffs as they are shown

A diff is made from two texts with a library, or read from a unified diff, and shown with its
unchanged lines collapsed.

`diffLines` is the function of the library; numbers are read as they are written, of whatever
size.

## Main definitions

* `DiffLine`, `Counter` — a line of a diff, and the lines so far with the next line numbers.
* `generateLineDiff` — the diff of two texts.
* `parseUnifiedDiff` — the hunks of a unified diff.
* `collapseDiff` — what is shown of a diff.
-/

namespace DoxAsdlc.HitlUi.Diff

/-- A text, or one line of it. -/
abbrev Text := List Char

inductive LineType
  | added | removed | unchanged
  deriving DecidableEq

structure DiffLine where
  type : LineType
  content : Text
  oldLineNumber : Option ℕ
  newLineNumber : Option ℕ
  deriving DecidableEq

structure DiffStats where
  additions : ℕ
  deletions : ℕ
  unchanged : ℕ
  deriving DecidableEq

structure ParsedDiff where
  lines : List DiffLine
  stats : DiffStats
  deriving DecidableEq

/-! ## Lines with their numbers -/

/-- The lines so far, and the numbers that the next ones get. -/
structure Counter where
  lines : List DiffLine
  oldLineNumber : ℕ
  newLineNumber : ℕ

/-- A line is pushed; `lineNumber++` is the number before it is counted on. -/
def Counter.push (c : Counter) (type : LineType) (content : Text) : Counter :=
  match type with
  | .added =>
    { c with
      lines := c.lines ++ [⟨.added, content, none, some c.newLineNumber⟩]
      newLineNumber := c.newLineNumber + 1 }
  | .removed =>
    { c with
      lines := c.lines ++ [⟨.removed, content, some c.oldLineNumber, none⟩]
      oldLineNumber := c.oldLineNumber + 1 }
  | .unchanged =>
    { lines := c.lines ++ [⟨.unchanged, content, some c.oldLineNumber, some c.newLineNumber⟩]
      oldLineNumber := c.oldLineNumber + 1
      newLineNumber := c.newLineNumber + 1 }

/-! ## The diff of two texts -/

/-- A change of the library. -/
structure Change where
  value : Text
  added : Bool
  removed : Bool

/-- What a change does to its lines. -/
def Change.type (change : Change) : LineType :=
  if change.added then .added else if change.removed then .removed else .unchanged

/-- `value.split('\n')` without an empty last line. -/
def changeLines (value : Text) : List Text :=
  let lines := value.splitOn '\n'
  if lines.getLast? = some [] then lines.dropLast else lines

/-- A line is counted. -/
def DiffStats.count (stats : DiffStats) : LineType → DiffStats
  | .added => { stats with additions := stats.additions + 1 }
  | .removed => { stats with deletions := stats.deletions + 1 }
  | .unchanged => { stats with unchanged := stats.unchanged + 1 }

/-- One turn of the loop over the changes. -/
def pushChange (st : Counter × DiffStats) (change : Change) : Counter × DiffStats :=
  (changeLines change.value).foldl
    (fun st line => (st.1.push change.type line, st.2.count change.type)) st

def generateLineDiff (diffLines : Text → Text → List Change) (oldText newText : Text) :
    ParsedDiff :=
  let st := (diffLines oldText newText).foldl pushChange (⟨[], 1, 1⟩, ⟨0, 0, 0⟩)
  ⟨st.1.lines, st.2⟩

/-! ## Unified diffs -/

structure UnifiedDiffHunk where
  oldStart : ℕ
  oldLines : ℕ
  newStart : ℕ
  newLines : ℕ
  lines : List DiffLine
  deriving DecidableEq

/-- `\d`. -/
def isDigit (c : Char) : Bool := '0' ≤ c && c ≤ '9'

/-- `parseInt(digits, 10)`. -/
def parseInt (digits : Text) : ℕ := digits.foldl (fun n c => 10 * n + (c.toNat - 48)) 0

/-- `(\d+)` at the begin of a line, and what is behind. -/
def digits? (line : Text) : Option (Text × Text) :=
  let digits := line.takeWhile isDigit
  if digits = [] then none else some (digits, line.dropWhile isDigit)

/-- A text at the begin of a line, and what is behind. -/
def after? (front line : Text) : Option Text :=
  if front.isPrefixOf line then some (line.drop front.length) else none

/-- `(?:,(\d+))?`; a group that is not there is `1`. -/
def count? (line : Text) : Text × Text :=
  match (after? [','] line).bind digits? with
  | some count => count
  | none => (['1'], line)

/-- `hunkHeaderRegex`, with the numbers in it. -/
def hunkHeader? (line : Text) : Option UnifiedDiffHunk := do
  let line ← after? "@@ -".toList line
  let (oldStart, line) ← digits? line
  let (oldLines, line) := count? line
  let line ← after? " +".toList line
  let (newStart, line) ← digits? line
  let (newLines, line) := count? line
  let _ ← after? " @@".toList line
  pure ⟨parseInt oldStart, parseInt oldLines, parseInt newStart, parseInt newLines, []⟩

/-- What the line of a hunk is, if it is one. -/
def hunkLine? (line : Text) : Option (LineType × Text) :=
  if "+".toList.isPrefixOf line && !"+++".toList.isPrefixOf line then some (.added, line.drop 1)
  else if "-".toList.isPrefixOf line && !"---".toList.isPrefixOf line then
    some (.removed, line.drop 1)
  else if " ".toList.isPrefixOf line then some (.unchanged, line.drop 1)
  else none

/-- The hunks so far, and the one that is read with its lines. -/
structure Parser where
  hunks : List UnifiedDiffHunk
  currentHunk : Option (UnifiedDiffHunk × Counter)

/-- The hunks, with the one that is read. -/
def Parser.all (p : Parser) : List UnifiedDiffHunk :=
  match p.currentHunk with
  | none => p.hunks
  | some (hunk, counter) => p.hunks ++ [{ hunk with lines := counter.lines }]

/-- One turn of the loop over the lines. -/
def Parser.next (p : Parser) (line : Text) : Parser :=
  match hunkHeader? line with
  | some hunk => ⟨p.all, some (hunk, ⟨[], hunk.oldStart, hunk.newStart⟩)⟩
  | none =>
    match p.currentHunk with
    | none => p
    | some (hunk, counter) =>
      match hunkLine? line with
      | none => p
      | some (type, content) => ⟨p.hunks, some (hunk, counter.push type content)⟩

def parseUnifiedDiff (diffString : Text) : List UnifiedDiffHunk :=
  ((diffString.splitOn '\n').foldl Parser.next ⟨[], none⟩).all

/-! ## What is shown -/

/-- What is shown of a diff: a line, or how many are collapsed. -/
inductive Shown
  | line (line : DiffLine)
  | collapsed (count : ℕ)
  deriving DecidableEq

/-- `lines.slice(-n)`; from zero on nothing is cut off. -/
def lastSlice (n : ℕ) (lines : List DiffLine) : List DiffLine :=
  if n = 0 then lines else lines.drop (lines.length - n)

/-- The unchanged lines in front of a change. -/
def flush (contextLines : ℕ) (buffer : List DiffLine) : List Shown :=
  if contextLines * 2 < buffer.length then
    (buffer.take contextLines).map .line ++ [.collapsed (buffer.length - contextLines * 2)] ++
      (lastSlice contextLines buffer).map .line
  else buffer.map .line

/-- The unchanged lines at the end. -/
def flushEnd (contextLines : ℕ) (buffer : List DiffLine) : List Shown :=
  if contextLines < buffer.length then
    (buffer.take contextLines).map .line ++
      if contextLines < buffer.length then [.collapsed (buffer.length - contextLines)] else []
  else buffer.map .line

/-- What is shown so far, and the unchanged lines since. -/
structure Display where
  result : List Shown
  unchangedBuffer : List DiffLine

/-- One turn of the loop over the lines. -/
def Display.next (contextLines : ℕ) (d : Display) (line : DiffLine) : Display :=
  if line.type = .unchanged then { d with unchangedBuffer := d.unchangedBuffer ++ [line] }
  else ⟨d.result ++ flush contextLines d.unchangedBuffer ++ [.line line], []⟩

def collapseDiff (lines : List DiffLine) (contextLines : ℕ) : List Shown :=
  let d := lines.foldl (Display.next contextLines) ⟨[], []⟩
  d.result ++ flushEnd contextLines d.unchangedBuffer

/-! ## Lines that are pushed -/

/-- Lines with their numbers. -/
def numbered (old new : ℕ) : List (LineType × Text) → List DiffLine
  | [] => []
  | (.added, content) :: items => ⟨.added, content, none, some new⟩ :: numbered old (new + 1) items
  | (.removed, content) :: items =>
    ⟨.removed, content, some old, none⟩ :: numbered (old + 1) new items
  | (.unchanged, content) :: items =>
    ⟨.unchanged, content, some old, some new⟩ :: numbered (old + 1) (new + 1) items

theorem lines_foldl_push (items : List (LineType × Text)) (c : Counter) :
    (items.foldl (fun c item => c.push item.1 item.2) c).lines =
      c.lines ++ numbered c.oldLineNumber c.newLineNumber items := by
  induction items generalizing c with
  | nil => simp [numbered]
  | cons item items ih =>
    obtain ⟨type, content⟩ := item
    rw [List.foldl_cons, ih]
    cases type <;> simp [Counter.push, numbered]

/-- Nothing is left out or changed. -/
theorem map_numbered (old new : ℕ) (items : List (LineType × Text)) :
    (numbered old new items).map (fun line => (line.type, line.content)) = items := by
  induction items generalizing old new with
  | nil => rfl
  | cons item items ih =>
    obtain ⟨type, content⟩ := item
    cases type <;> simp [numbered, ih]

/-- The lines that a text has of a diff: the old one has none that is added, and the new one none
that is removed. -/
def sideOf (missing : LineType) (lines : List DiffLine) : List DiffLine :=
  lines.filter fun line => line.type ≠ missing

/-- The lines of the old text are numbered one after the other. -/
theorem oldLineNumber_numbered (old new : ℕ) (items : List (LineType × Text)) :
    (sideOf .added (numbered old new items)).map DiffLine.oldLineNumber =
      (List.range' old (sideOf .added (numbered old new items)).length).map some := by
  induction items generalizing old new with
  | nil => rfl
  | cons item items ih =>
    obtain ⟨type, content⟩ := item
    cases type with
    | added => exact ih old (new + 1)
    | removed => simpa [numbered, sideOf, List.range'_succ] using ih (old + 1) new
    | unchanged => simpa [numbered, sideOf, List.range'_succ] using ih (old + 1) (new + 1)

/-- And so are those of the new text. -/
theorem newLineNumber_numbered (old new : ℕ) (items : List (LineType × Text)) :
    (sideOf .removed (numbered old new items)).map DiffLine.newLineNumber =
      (List.range' new (sideOf .removed (numbered old new items)).length).map some := by
  induction items generalizing old new with
  | nil => rfl
  | cons item items ih =>
    obtain ⟨type, content⟩ := item
    cases type with
    | added => simpa [numbered, sideOf, List.range'_succ] using ih old (new + 1)
    | removed => exact ih (old + 1) new
    | unchanged => simpa [numbered, sideOf, List.range'_succ] using ih (old + 1) (new + 1)

end DoxAsdlc.HitlUi.Diff
