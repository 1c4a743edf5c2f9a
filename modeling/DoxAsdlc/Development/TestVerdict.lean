import DoxAsdlc.Development.TestReadings
import Mathlib.Data.List.Dedup

/-!
# The verdict on a test run

What pytest prints with `-v` is a list of lines, some of which report a test: its node id, with
the classes and the parameter of the test, then a status.  The runner reads its results out of
the text, and judges the run by them alone.

## Main definitions

* `Report`, `Line`, `Output` — the output of pytest.
* `Output.Judged` — there is one result for each test, and a run counts as passed only if the
  return code was 0 and a test was reported passed.

## Main results

* `Output.judged_iff` — when the verdict is right.
-/

namespace DoxAsdlc.Development

open Backtracking Matcher
open Rlm (isSpace)

variable (cls : CharClasses)

/-! ## The output of pytest -/

/-- The node id of a test.  A path with `::` in it could not be told from a class. -/
structure TestId where
  path : List Char
  classes : List (List Char)
  function : List Char
  parameter : Option (List Char)
  path_ne : path ≠ []
  path_line : '\n' ∉ path
  path_free : ¬ [':', ':'] <:+: path
  classes_word : ∀ c ∈ classes, IsWord cls c
  function_word : IsWord cls function
  parameter_line : ∀ p ∈ parameter, '\n' ∉ p
  deriving DecidableEq

/-- What pytest says of a test. -/
inductive Status where
  | passed | failed | error | skipped | xfail | xpass
  deriving DecidableEq

/-- The word for it. -/
def Status.text : Status → List Char
  | .passed => "PASSED".toList
  | .failed => "FAILED".toList
  | .error => "ERROR".toList
  | .skipped => "SKIPPED".toList
  | .xfail => "XFAIL".toList
  | .xpass => "XPASS".toList

/-- A report, with what stands behind the status.  A test whose teardown fails has two. -/
structure Report where
  test : TestId cls
  status : Status
  note : List Char
  note_line : '\n' ∉ note

/-- A line of the output. -/
inductive Line where
  | report (r : Report cls)
  | other (text : List Char) (line : '\n' ∉ text)

/-- A run of pytest: what it returns and what it prints. -/
structure Output where
  returncode : ℤ
  lines : List (Line cls)
  stderr : String

variable {cls}

/-- The classes, each with its separator. -/
def TestId.segments (t : TestId cls) : List Char := t.classes.flatMap fun c => ':' :: ':' :: c

/-- The node id, as it is printed. -/
def TestId.text (t : TestId cls) : List Char :=
  t.path ++ (t.segments ++ ':' :: ':' :: (t.function ++
    match t.parameter with
    | none => []
    | some p => '[' :: p ++ [']']))

def Report.text (r : Report cls) : List Char := r.test.text ++ ' ' :: (r.status.text ++ r.note)

/-- A report without a parameter, of a status that the pattern knows. -/
def Report.Plain (r : Report cls) : Prop := r.test.parameter = none ∧ r.status.text ∈ statuses

instance (r : Report cls) : Decidable r.Plain := inferInstanceAs (Decidable (_ ∧ _))

/-- The name of the test and whether it passed. -/
def Report.outcome (r : Report cls) : List Char × Bool := (r.test.function, r.status = .passed)

def Line.text : Line cls → List Char
  | .report r => r.text
  | .other text _ => text

def Line.report? : Line cls → Option (Report cls)
  | .report r => some r
  | .other _ _ => none

/-- The lines, as they are printed. -/
def printed (lines : List (Line cls)) : List Char := lines.flatMap fun l => l.text ++ ['\n']

theorem printed_cons (l : Line cls) (lines : List (Line cls)) :
    printed (l :: lines) = l.text ++ '\n' :: printed lines := by
  simp [printed]

namespace Output

/-- The reports. -/
def reports (o : Output cls) : List (Report cls) := o.lines.filterMap Line.report?

/-- The tests that are reported. -/
def tests (o : Output cls) : List (TestId cls) := (o.reports.map (·.test)).dedup

/-- A test is reported passed if all its reports say so. -/
def passed (o : Output cls) (t : TestId cls) : Bool :=
  o.reports.all fun r => r.test ≠ t || r.status = .passed

/-- The tests' names and whether they are reported passed. -/
def outcomes (o : Output cls) : List (List Char × Bool) :=
  o.tests.map fun t => (t.function, o.passed t)

/-- What the run of the command comes to. -/
def completed (o : Output cls) : ProcessResult :=
  .completed o.returncode (String.ofList (printed o.lines)) o.stderr

/-- `run_tests` returns one result for each reported test, which says whether it passed, and all
count as passed only if the return code was 0 and a test was reported passed. -/
def Judged (o : Output cls) (runner : TestRunner) (request : TestRunner.Request) : Prop :=
  ∃ result, runner.runTests cls (fun _ _ _ => o.completed) request = .ok result ∧
    result.results.map (fun r => (r.testId, r.passed))
      = o.outcomes.map (fun outcome => (String.ofList outcome.1, outcome.2)) ∧
    (result.allPassed = true → o.returncode = 0 ∧ ∃ r ∈ o.reports, r.status = .passed)

/-- A test did not pass, or the run was one in which tests passed. -/
def Decided (o : Output cls) : Prop :=
  (∃ r ∈ o.reports, r.status ≠ .passed) ∨ (o.returncode = 0 ∧ o.reports ≠ [])

end Output

/-- No result is read in a line that is not a plain report. -/
def Inert : List (Line cls) → Prop
  | [] => True
  | l :: lines =>
    ((∀ r ∈ l.report?, ¬ r.Plain) →
      ∀ name status after, ¬ Reads cls (printed (l :: lines)) name status after) ∧
    Inert lines

/-! ## What is read in a report -/

theorem ne_colon_of_word {c : Char} (h : cls.word c = true) : c ≠ ':' := by
  rintro rfl
  simp [word_colon] at h

theorem Tells.head {rest name status after : List Char} (h : Tells cls rest name status after) :
    ∃ x w, rest = ':' :: ':' :: x :: w ∧ cls.word x = true := by
  obtain ⟨blanks, -, -, rfl⟩ := h.shape
  obtain ⟨hne, hword⟩ := h.word
  cases name with
  | nil => exact absurd rfl hne
  | cons x name => exact ⟨x, _, rfl, hword x List.mem_cons_self⟩

/-- A begin of the line that tells nothing. -/
theorem TellsFirst.prepend {pre tail name status after : List Char} (hline : '\n' ∉ pre)
    (hsilent : ∀ u v, pre = u ++ v → v ≠ [] →
      ∀ name status after, ¬ Tells cls (v ++ tail) name status after)
    (h : TellsFirst cls tail name status after) :
    TellsFirst cls (pre ++ tail) name status after := by
  induction pre with
  | nil => exact h
  | cons x pre ih =>
    have hx : x ≠ '\n' := fun h => hline (h ▸ List.mem_cons_self)
    have hpre : '\n' ∉ pre := fun h => hline (List.mem_cons_of_mem _ h)
    refine .later hx (hsilent [] (x :: pre) rfl (by simp)) (ih hpre ?_)
    intro u v huv
    exact hsilent (x :: u) v (by rw [huv, List.cons_append])

/-- A path tells nothing: where `::` begins at its end, a colon comes behind it. -/
theorem silent_path {path tail : List Char} (hfree : ¬ [':', ':'] <:+: path)
    (htail : [':', ':'] <+: tail) (u v : List Char) (huv : path = u ++ v) (hv : v ≠ [])
    (name status after : List Char) : ¬ Tells cls (v ++ tail) name status after := by
  intro htells
  obtain ⟨x, w, hrest, hx⟩ := htells.head
  obtain ⟨z, rfl⟩ := htail
  rcases v with _ | ⟨c, _ | ⟨d, v⟩⟩
  · exact hv rfl
  · simp at hrest
    exact ne_colon_of_word hx hrest.2.1.symm
  · simp at hrest
    obtain ⟨rfl, rfl, -⟩ := hrest
    exact hfree ⟨u, v, by simp [huv]⟩

/-- A class tells nothing: a colon comes behind it and no blank. -/
theorem silent_segment {c tail : List Char} (hc : IsWord cls c) (htail : [':', ':'] <+: tail)
    (u v : List Char) (huv : ':' :: ':' :: c = u ++ v) (hv : v ≠ [])
    (name status after : List Char) : ¬ Tells cls (v ++ tail) name status after := by
  intro htells
  obtain ⟨z, rfl⟩ := htail
  obtain ⟨x, w, hrest, hx⟩ := htells.head
  rcases u with _ | ⟨a, _ | ⟨b, u⟩⟩
  · obtain rfl : ':' :: ':' :: c = v := huv
    obtain ⟨r, hr, -, hblanks, -⟩ := htells.parts
    obtain rfl : c ++ ([':', ':'] ++ z) = r := by simpa using hr
    have hdrop := (@takeWhile_of_run cls.word c (':' :: ':' :: z) hc.2
      (by simp [word_colon])).2
    simp only [List.cons_append, List.nil_append] at hblanks
    rw [hdrop] at hblanks
    exact hblanks (List.takeWhile_cons_of_neg (by decide))
  · obtain ⟨-, rfl⟩ : ':' = a ∧ ':' :: c = v := by simpa using huv
    obtain ⟨y, hy⟩ := List.exists_cons_of_ne_nil hc.1
    obtain ⟨c', rfl⟩ := hy
    simp at hrest
    exact ne_colon_of_word (hc.2 y List.mem_cons_self) hrest.1
  · obtain ⟨-, -, rfl⟩ : ':' = a ∧ ':' = b ∧ c = u ++ v := by simpa using huv
    obtain ⟨y, v', rfl⟩ := List.exists_cons_of_ne_nil hv
    simp at hrest
    exact ne_colon_of_word (hc.2 y (by simp)) hrest.1

theorem tellsFirst_segments {classes : List (List Char)} {tail name status after : List Char}
    (hwords : ∀ c ∈ classes, IsWord cls c) (htail : [':', ':'] <+: tail)
    (h : TellsFirst cls tail name status after) :
    TellsFirst cls (classes.flatMap (fun c => ':' :: ':' :: c) ++ tail) name status after := by
  induction classes with
  | nil => exact h
  | cons c classes ih =>
    obtain ⟨hc, hclasses⟩ := List.forall_mem_cons.mp hwords
    rw [List.flatMap_cons, List.append_assoc]
    have hline : '\n' ∉ ':' :: ':' :: c := by
      intro hmem
      have hword : cls.word '\n' = true := hc.2 _ (by simpa using hmem)
      simp [@word_of_isSpace cls '\n' (by decide)] at hword
    refine (ih hclasses).prepend hline (silent_segment hc ?_)
    cases classes with
    | nil => exact htail
    | cons d classes => simp

/-- In a plain report the test and its status are read. -/
theorem Report.reads {r : Report cls} (hr : r.Plain) (more : List Char) :
    Reads cls (r.text ++ more) r.test.function r.status.text (r.note ++ more) := by
  obtain ⟨hparameter, hlisted⟩ := hr
  have htells : Tells cls (':' :: ':' :: (r.test.function ++ ([' '] ++ (r.status.text ++
      (r.note ++ more))))) r.test.function r.status.text (r.note ++ more) :=
    ⟨r.test.function_word, hlisted, [' '], by simp, List.forall_mem_singleton.mpr rfl, rfl⟩
  have hsegments := tellsFirst_segments r.test.classes_word (by simp) (.here htells)
  obtain ⟨x, path, hpath⟩ := List.exists_cons_of_ne_nil r.test.path_ne
  have hline := r.test.path_line
  have hfree := r.test.path_free
  rw [hpath] at hline hfree
  have hx : x ≠ '\n' := fun h => hline (h ▸ List.mem_cons_self)
  refine ⟨x, _, ?_, hx, hsegments.prepend (fun h => hline (List.mem_cons_of_mem x h))
    (silent_path (fun h => hfree (h.trans (List.suffix_cons x path).isInfix)) ?_)⟩
  · simp [Report.text, TestId.text, TestId.segments, hparameter, hpath]
  · cases hclasses : r.test.classes with
    | nil => simp
    | cons c classes => simp

/-- In a line without `::` nothing is read. -/
theorem not_reads_of_free {l : List Char} (hline : '\n' ∉ l) (hfree : ¬ [':', ':'] <:+: l)
    (more name status after : List Char) :
    ¬ Reads cls (l ++ '\n' :: more) name status after := by
  have hfirst : ∀ l : List Char, '\n' ∉ l → ¬ [':', ':'] <:+: l →
      ¬ TellsFirst cls (l ++ '\n' :: more) name status after := by
    intro l
    induction l with
    | nil =>
      intro _ _ h
      cases h with
      | here htells =>
        obtain ⟨x, w, hrest, -⟩ := htells.head
        simp at hrest
      | later hx => exact hx rfl
    | cons x l ih =>
      intro hline hfree h
      cases h with
      | here htells =>
        obtain ⟨y, w, hrest, -⟩ := htells.head
        cases l with
        | nil => simp at hrest
        | cons z l =>
          simp at hrest
          exact hfree ⟨[], l, by simp [hrest]⟩
      | later _ _ h =>
        exact ih (fun h => hline (List.mem_cons_of_mem x h))
          (fun h => hfree (h.trans (List.suffix_cons x l).isInfix)) h
  rintro ⟨x, rest, htext, hx, h⟩
  cases l with
  | nil =>
    simp at htext
    exact hx htext.1.symm
  | cons y l =>
    simp at htext
    obtain ⟨rfl, rfl⟩ := htext
    exact hfirst l (fun h => hline (List.mem_cons_of_mem y h))
      (fun h => hfree (h.trans (List.suffix_cons y l).isInfix)) h

/-! ## What is read in the output -/

theorem nextLine_append {l : List Char} (hline : '\n' ∉ l) (more : List Char) :
    nextLine (l ++ '\n' :: more) = more := by
  induction l with
  | nil => simp [nextLine]
  | cons x l ih =>
    have hx : x ≠ '\n' := fun h => hline (h ▸ List.mem_cons_self)
    rw [List.cons_append, nextLine, if_neg hx, ih fun h => hline (List.mem_cons_of_mem x h)]

theorem not_mem_of_isWord {w : List Char} (h : IsWord cls w) : '\n' ∉ w := by
  intro hmem
  have hword := h.2 _ hmem
  simp [@word_of_isSpace cls '\n' (by decide)] at hword

theorem Line.not_mem_text (l : Line cls) : '\n' ∉ l.text := by
  cases l with
  | other text line => exact line
  | report r =>
    have hstatus : ∀ s : Status, '\n' ∉ s.text := by
      intro s
      cases s <;> decide
    have hsegments : '\n' ∉ r.test.segments := by
      intro hmem
      obtain ⟨c, hc, hmem⟩ := List.mem_flatMap.mp hmem
      exact not_mem_of_isWord (r.test.classes_word c hc) (by simpa using hmem)
    have hfunction := not_mem_of_isWord r.test.function_word
    have hparameter := r.test.parameter_line
    cases hp : r.test.parameter with
    | none => simp [text, Report.text, TestId.text, r.test.path_line, hsegments, hfunction, hp,
        hstatus r.status, r.note_line]
    | some p => simp [text, Report.text, TestId.text, r.test.path_line, hsegments, hfunction, hp,
        hstatus r.status, r.note_line, hparameter p hp]

theorem status_beq (s : Status) : (s.text == "PASSED".toList) = decide (s = .passed) := by
  cases s <;> decide

/-- **Where no other line is read, the plain reports are told.** -/
theorem told_printed {lines : List (Line cls)} (h : Inert lines) :
    Told cls (printed lines)
      (((lines.filterMap Line.report?).filter (·.Plain)).map Report.outcome) := by
  induction lines with
  | nil => exact .nil
  | cons l lines ih =>
    obtain ⟨hline, hlines⟩ := h
    have hnext := nextLine_append l.not_mem_text (printed lines)
    by_cases hplain : ∃ r ∈ l.report?, r.Plain
    · obtain ⟨r, hr, hplain⟩ := hplain
      obtain rfl : l = .report r := by
        cases l with
        | report r' => exact congrArg _ (Option.some.inj hr)
        | other text line => cases hr
      have htold := Told.reads (r.reads hplain ('\n' :: printed lines))
        (nextLine_append r.note_line (printed lines) ▸ ih hlines)
      rw [status_beq] at htold
      simpa [printed_cons, Line.report?, hplain, Report.outcome, Line.text] using htold
    · have hsilent := hline fun r hr hplain' => hplain ⟨r, hr, hplain'⟩
      have htold := Told.silent (by simp [printed_cons]) hsilent
        (by rw [printed_cons, hnext]; exact ih hlines)
      cases l with
      | other text line =>
        rw [List.filterMap_cons_none rfl]
        exact htold
      | report r =>
        have hr : ¬ r.Plain := fun h => hplain ⟨r, rfl, h⟩
        simpa [Line.report?, hr] using htold

namespace Output

/-- Where each test is reported once, the tests are the reports. -/
theorem outcomes_eq {o : Output cls} (h : (o.reports.map (·.test)).Nodup) :
    o.outcomes = o.reports.map Report.outcome := by
  rw [outcomes, tests, h.dedup, List.map_map]
  refine List.map_congr_left fun r hr => ?_
  have hpassed : o.passed r.test = decide (r.status = .passed) := by
    by_cases hr' : r.status = .passed
    · have hall : ∀ r' ∈ o.reports, r'.test = r.test → r'.status = .passed :=
        fun r' hr'' ht => List.inj_on_of_nodup_map h hr'' hr ht ▸ hr'
      simpa [passed, hr', ← imp_iff_not_or] using hall
    · simpa [passed, hr'] using ⟨r, hr, rfl, hr'⟩
  simp [Report.outcome, hpassed]

/-- Where no other line is read and each test is reported once, what is told is right if all
reports are plain. -/
theorem told_iff_plain {o : Output cls} (hinert : Inert o.lines)
    (h : (o.reports.map (·.test)).Nodup) :
    Told cls (printed o.lines) o.outcomes ↔ ∀ r ∈ o.reports, r.Plain := by
  have htold := told_printed hinert
  rw [told_iff] at htold ⊢
  rw [htold, outcomes_eq h, ← reports]
  constructor
  · intro heq
    have hlength := congrArg List.length heq
    simp only [List.length_map] at hlength
    simpa using List.length_filter_eq_length_iff.mp hlength
  · intro hplain
    rw [List.filter_eq_self.mpr (by simpa using hplain)]

theorem results_eq (text : List Char) :
    (TestRunner.parseTestResults cls text).map (fun r => (r.testId, r.passed))
      = (outcomesFrom cls (start text)).map fun outcome => (String.ofList outcome.1, outcome.2) := by
  simp [TestRunner.parseTestResults, outcomesFrom]

/-- The run counts as passed if all its tests passed. -/
theorem allPassed_iff (text : List Char) (suiteId : String) {outcomes : List (List Char × Bool)}
    (h : outcomesFrom cls (start text) = outcomes) :
    (TestRunner.parseOutput cls (String.ofList text) suiteId).allPassed = true ↔
      ∀ outcome ∈ outcomes, outcome.2 = true := by
  subst h
  rw [outcomesFrom, List.forall_mem_map]
  simp [TestRunResult.allPassed, TestRunner.parseOutput, TestRunner.parseTestResults,
    List.countP_eq_zero]

/-- All tests passed if all reports say so. -/
theorem outcomes_all (o : Output cls) :
    (∀ outcome ∈ o.outcomes, outcome.2 = true) ↔ ∀ r ∈ o.reports, r.status = .passed := by
  simp only [outcomes, tests, passed, List.mem_map, List.mem_dedup]
  constructor
  · intro h r hr
    have hall := List.all_eq_true.mp (h _ ⟨r.test, ⟨r, hr, rfl⟩, rfl⟩) r hr
    simpa using hall
  · intro h outcome ⟨t, _, houtcome⟩
    subst houtcome
    simpa using fun r hr => Or.inr (h r hr)

/-- **When the verdict on a run is right.** -/
theorem judged_iff (o : Output cls) (runner : TestRunner) (request : TestRunner.Request)
    (hcode : o.returncode = 0 ∨ o.returncode = 1) :
    (o.Judged runner request ↔ Told cls (printed o.lines) o.outcomes ∧ o.Decided) ∧
    (Inert o.lines → (o.reports.map (·.test)).Nodup →
      (Told cls (printed o.lines) o.outcomes ↔ ∀ r ∈ o.reports, r.Plain)) := by
  refine ⟨?_, told_iff_plain⟩
  have hrun : runner.runTests cls (fun _ _ _ => o.completed) request
      = .ok (TestRunner.parseOutput cls (String.ofList (printed o.lines))
          ((given request.suiteId).getD request.testPath)) := by
    have hlow : ¬ o.returncode ≥ 2 := by omega
    simp [TestRunner.runTests, completed, hlow]
  have hofList : Function.Injective
      fun outcome : List Char × Bool => (String.ofList outcome.1, outcome.2) := by
    intro a b hab
    obtain ⟨hname, hpassed⟩ := Prod.ext_iff.mp hab
    exact Prod.ext (String.ofList_inj.mp hname) hpassed
  have hresults : ∀ result, runner.runTests cls (fun _ _ _ => o.completed) request = .ok result →
      (result.results.map (fun r => (r.testId, r.passed))
        = o.outcomes.map (fun outcome => (String.ofList outcome.1, outcome.2)) ↔
        Told cls (printed o.lines) o.outcomes) := by
    intro result hresult
    obtain rfl := Except.ok.inj (hrun.symm.trans hresult)
    rw [told_iff, ← (List.map_injective_iff.mpr hofList).eq_iff, ← results_eq]
    simp [TestRunner.parseOutput]
  constructor
  · intro ⟨result, hresult, hsame, hpassed⟩
    have htold := (hresults result hresult).mp hsame
    refine ⟨htold, ?_⟩
    by_cases hall : ∀ r ∈ o.reports, r.status = .passed
    · obtain rfl := Except.ok.inj (hrun.symm.trans hresult)
      obtain ⟨hzero, r, hr, -⟩ := hpassed ((allPassed_iff _ _ (told_iff.mp htold)).mpr
        (o.outcomes_all.mpr hall))
      exact .inr ⟨hzero, List.ne_nil_of_mem hr⟩
    · exact .inl (by simpa using hall)
  · intro ⟨htold, hdecided⟩
    refine ⟨_, hrun, (hresults _ hrun).mpr htold, fun hpassed => ?_⟩
    have hall := o.outcomes_all.mp ((allPassed_iff _ _ (told_iff.mp htold)).mp hpassed)
    rcases hdecided with ⟨r, hr, hnot⟩ | ⟨hzero, hne⟩
    · exact absurd (hall r hr) hnot
    · obtain ⟨r, hr⟩ := List.exists_mem_of_ne_nil _ hne
      exact ⟨hzero, r, hr, hall r hr⟩

end Output

/-! ## Two runs -/

/-- The classes, of what is in ASCII. -/
def asciiClasses : CharClasses where
  alnum c := c.toNat < 128 && c.isAlphanum
  decimal c := if c.isDigit then some (c.toNat - 48) else none
  alnum_ascii c h := by simp [h]
  alnum_space c h := by
    have hval : c.val.toNat = c.toNat := rfl
    simp only [isSpace, Bool.or_eq_true, Bool.and_eq_true, decide_eq_true_eq, beq_iff_eq] at h
    have halpha : c.isAlpha = (decide (65 ≤ c.val ∧ c.val ≤ 90) ||
        (decide (97 ≤ c.val) && decide (c.val ≤ 122))) := rfl
    simp [Char.isAlphanum, halpha, Char.isDigit, UInt32.le_iff_toNat_le, hval]
    omega

/-- `test_a` of a file, perhaps with a parameter. -/
def testA (parameter : Option (List Char)) (h : ∀ p ∈ parameter, '\n' ∉ p) :
    TestId asciiClasses where
  path := "t.py".toList
  classes := []
  function := "test_a".toList
  parameter := parameter
  path_ne := by decide
  path_line := by decide
  path_free := by decide
  classes_word := by simp
  function_word := ⟨by decide, List.all_eq_true.mp (by decide)⟩
  parameter_line := h

/-- The report that it passed. -/
def testAPassed : Report asciiClasses :=
  ⟨testA none (by simp), .passed, " [100%]".toList, by decide⟩

/-- A run with a header, in which the one test passes. -/
def onePassed : Output asciiClasses where
  returncode := 0
  lines := [.other "collected 1 item".toList (by decide), .report testAPassed]
  stderr := ""

/-- A run in which a test fails for its parameter. -/
def parameterFailed : Output asciiClasses where
  returncode := 1
  lines := [.report ⟨testA (some "1".toList) (by decide), .failed, " [100%]".toList, by decide⟩]
  stderr := ""

namespace Output

theorem judged_onePassed : onePassed.Judged ⟨300, "."⟩ { testPath := "t.py" } := by
  have hplain : testAPassed.Plain := ⟨rfl, List.mem_map_of_mem List.mem_cons_self⟩
  have hreports : onePassed.reports = [testAPassed] := rfl
  have hline : '\n' ∉ "collected 1 item".toList := by decide
  have hfree : ¬ [':', ':'] <:+: "collected 1 item".toList := by decide +kernel
  have hinert : Inert onePassed.lines := by
    refine ⟨fun _ name status after => ?_, fun hnot => absurd hplain (hnot _ rfl), trivial⟩
    rw [printed_cons]
    exact not_reads_of_free hline hfree _ name status after
  have hjudged := judged_iff onePassed ⟨300, "."⟩ { testPath := "t.py" } (.inl rfl)
  refine hjudged.1.mpr ⟨(hjudged.2 hinert (by simp [hreports])).mpr (by simp [hreports, hplain]),
    .inr ⟨rfl, by simp [hreports]⟩⟩

theorem not_judged_parameterFailed :
    ¬ parameterFailed.Judged ⟨300, "."⟩ { testPath := "t.py" } := by
  intro ⟨result, hrun, hsame, _⟩
  have hnone : (TestRunner.parseTestResults asciiClasses (printed parameterFailed.lines)).length
      = 0 := by decide +kernel
  have hone : parameterFailed.outcomes.length = 1 := rfl
  have hlength := congrArg List.length hsame
  obtain rfl := Except.ok.inj hrun
  simp only [List.length_map, TestRunner.parseOutput, String.toList_ofList] at hlength
  omega

end Output

end DoxAsdlc.Development
