import DoxAsdlc.Development.HandOver
import Mathlib.Data.List.TakeWhile

/-!
# Which tests cover which criteria

The criteria are numbered.  A test is listed under a criterion where its reference, in upper case,
has the number of the criterion behind `AC-`, with three digits at least or as it is.  More may
stand behind the number, and in front of the `AC-`.

## Main definitions

* `Mention` — an `AC-` in a text, with the digits behind it.
* `Names` — the criteria that a test names.
* `Faithful` — the coverage has the tests that name a criterion.
* `Plain` — the test suites of which it has.

## Main results

* `listedTests_eq` — the tests that are listed.
* `faithful_iff` — when the coverage is right.
-/

namespace DoxAsdlc.Development.UTest

open Rlm (Json)

/-! ## References -/

/-- A character of words. -/
def isWord (c : Char) : Bool := c.isAlphanum || c = '_'

/-- A place in a text where `AC-` stands, with the digits behind it. -/
structure Mention (text : String) where
  before : List Char
  digits : List Char
  after : List Char
  split : text.toList = before ++ ("AC-".toList ++ (digits ++ after))
  isDigit : ∀ c ∈ digits, c.isDigit
  stop : ∀ c ∈ after.head?, ¬ c.isDigit

namespace Mention

variable {text : String} (m : Mention text)

/-- It stands between characters that are not of words. -/
def Whole : Prop := (∀ c ∈ m.before.getLast?, ¬ isWord c) ∧ ∀ c ∈ m.after.head?, ¬ isWord c

/-- It is the identifier of a criterion, with any number of zeros in front. -/
def Identifies (number : ℕ) : Prop :=
  m.digits ≠ [] ∧ Nat.ofDigitChars 10 m.digits 0 = number ∧ m.Whole

/-- Its digits begin with the number of a criterion, with three digits at least or as it is. -/
def Begins (number : ℕ) : Prop :=
  (pad3 number).toList <+: m.digits ∨ (toString number).toList <+: m.digits

end Mention

section

variable (S : Setting)

/-- The reference of a test in upper case, if it is a text. -/
def reference (tc : TestCase) : Option String :=
  match tc.requirementRef with
  | .str ref => some (S.upper ref)
  | _ => none

/-- A test names a criterion. -/
def Names (tc : TestCase) (number : ℕ) : Prop :=
  ∃ text ∈ reference S tc, ∃ m : Mention text, m.Identifies number

/-- The number of a criterion is behind an `AC-` of a test. -/
def Shows (tc : TestCase) (number : ℕ) : Prop :=
  ∃ text ∈ reference S tc, ∃ m : Mention text, m.Begins number

/-- Each criterion has the tests that name it. -/
def Faithful (suite : TestSuite) (acceptanceCriteria : List String) : Prop :=
  ∃ coverage, calculateCriteriaCoverage S suite acceptanceCriteria = .ok (.obj coverage) ∧
    coverage.length = acceptanceCriteria.length ∧
    ∀ i < acceptanceCriteria.length, ∃ ids,
      coverage[i]? = some ("AC-" ++ pad3 (i + 1), .arr ids) ∧
      ∀ id, id ∈ ids ↔ ∃ tc ∈ suite.testCases, tc.id = id ∧ Names S tc (i + 1)

/-- References are texts.  A test that has the number of a criterion in front of more, or behind
more, names the criterion elsewhere.  One that names it with other zeros in front has its number
elsewhere as it is, or with three digits. -/
structure Plain (suite : TestSuite) (acceptanceCriteria : List String) : Prop where
  texts : acceptanceCriteria ≠ [] → ∀ tc ∈ suite.testCases, (reference S tc).isSome
  cut : ∀ i < acceptanceCriteria.length, ∀ tc ∈ suite.testCases, ∀ text ∈ reference S tc,
    ∀ m : Mention text, m.Begins (i + 1) → ¬ m.Identifies (i + 1) →
      ∃ other ∈ suite.testCases, other.id = tc.id ∧ Names S other (i + 1)
  zeros : ∀ i < acceptanceCriteria.length, ∀ tc ∈ suite.testCases, ∀ text ∈ reference S tc,
    ∀ m : Mention text, m.Identifies (i + 1) → ¬ m.Begins (i + 1) →
      ∃ other ∈ suite.testCases, other.id = tc.id ∧ Shows S other (i + 1)

end

/-! ## Numbers in texts -/

theorem isDigit_toString {number : ℕ} {c : Char} (h : c ∈ (toString number).toList) :
    c.isDigit := by
  rw [Nat.toString_eq_repr, Nat.toList_repr] at h
  exact Nat.isDigit_of_mem_toDigits (by omega) (by omega) h

theorem isDigit_pad3 {number : ℕ} {c : Char} (h : c ∈ (pad3 number).toList) : c.isDigit := by
  simp only [pad3, String.toList_append, String.toList_ofList, List.mem_append,
    List.mem_replicate] at h
  cases h with
  | inl hzero => exact hzero.2 ▸ rfl
  | inr hdigit => exact isDigit_toString hdigit

/-- Digits behind an `AC-` are the beginning of all digits behind it. -/
theorem contains_iff {digits text : String} (hdigits : ∀ c ∈ digits.toList, c.isDigit) :
    contains ("AC-" ++ digits) text = true ↔ ∃ m : Mention text, digits.toList <+: m.digits := by
  have hwithin : contains ("AC-" ++ digits) text = true ↔
      "AC-".toList ++ digits.toList <:+: text.toList := by
    simp [contains]
  rw [hwithin]
  constructor
  · intro h
    obtain ⟨before, after, htext⟩ := h
    have hsplit : text.toList = before ++ ("AC-".toList ++
        (digits.toList ++ after.takeWhile Char.isDigit ++ after.dropWhile Char.isDigit)) := by
      simp [← htext]
    refine ⟨⟨before, _, _, hsplit, ?_, ?_⟩, List.prefix_append _ _⟩
    · intro c hc
      cases List.mem_append.mp hc with
      | inl hfront => exact hdigits c hfront
      | inr hrest => exact List.mem_takeWhile_imp hrest
    · intro c hc
      have hstop := List.head?_dropWhile_not Char.isDigit after
      rw [Option.mem_def.mp hc] at hstop
      simpa using hstop
  · intro h
    obtain ⟨m, rest, hrest⟩ := h
    exact ⟨m.before, rest ++ m.after, by simp [m.split, ← hrest]⟩

/-! ## The tests that are listed -/

variable {S : Setting} {suite : TestSuite} {acceptanceCriteria : List String} {number : ℕ}

/-- The reference of a test is read if it is a text. -/
theorem upper_eq_ok {tc : TestCase} {r : Json × String} :
    (do return (tc.id, ← tc.requirementRef.onText "upper" S.upper) : Except Error (Json × String))
        = .ok r ↔ r.1 = tc.id ∧ reference S tc = some r.2 := by
  rw [reference]
  cases tc.requirementRef with
  | str ref =>
    simp only [Rlm.Json.onText, ok_bind, Option.some.injEq]
    exact ⟨fun h => by cases h; exact ⟨rfl, rfl⟩, fun h => by rw [h.2, ← h.1]; rfl⟩
  | _ =>
    simp only [Rlm.Json.onText, reduceCtorEq, and_false, iff_false]
    exact fun h => nomatch h

/-- The tests can be listed if the references are texts. -/
theorem listedTests_ok :
    (∃ ids, listedTests S suite number = .ok ids) ↔
      ∀ tc ∈ suite.testCases, (reference S tc).isSome := by
  have hrefs : (∃ ids, listedTests S suite number = .ok ids) ↔
      ∃ refs, suite.testCases.mapM (fun tc => do
        return (tc.id, ← tc.requirementRef.onText "upper" S.upper)) = Except.ok refs := by
    constructor
    · intro ⟨ids, hids⟩
      obtain ⟨refs, hrefs, -⟩ := bind_eq_ok.mp hids
      exact ⟨refs, hrefs⟩
    · intro ⟨refs, hrefs⟩
      exact ⟨_, by rw [listedTests, hrefs]; rfl⟩
  rw [hrefs, mapM_ok]
  refine forall₂_congr fun tc _ => ?_
  simp only [upper_eq_ok, Option.isSome_iff_exists]
  exact ⟨fun ⟨r, hr⟩ => ⟨r.2, hr.2⟩, fun ⟨text, htext⟩ => ⟨(tc.id, text), rfl, htext⟩⟩

/-- **The tests that are listed** are those with the number of the criterion behind an `AC-`. -/
theorem mem_listedTests {ids : List Json} (h : listedTests S suite number = .ok ids) (id : Json) :
    id ∈ ids ↔ ∃ tc ∈ suite.testCases, tc.id = id ∧ Shows S tc number := by
  obtain ⟨refs, hrefs, hids⟩ := bind_eq_ok.mp h
  have hshown : ∀ text, (contains ("AC-" ++ pad3 number) text ||
      contains ("AC-" ++ toString number) text) = true ↔ ∃ m : Mention text, m.Begins number := by
    intro text
    rw [Bool.or_eq_true, contains_iff fun c => isDigit_pad3, contains_iff fun c => isDigit_toString,
      ← exists_or]
    rfl
  have heach := forall₂_of_mapM hrefs
  cases hids
  simp only [List.mem_map, List.mem_filter, hshown]
  constructor
  · intro ⟨r, ⟨hr, m, hm⟩, hid⟩
    obtain ⟨tc, htc, hread⟩ := exists_of_forall₂ heach.flip hr
    obtain ⟨hself, hreference⟩ := upper_eq_ok.mp hread
    exact ⟨tc, htc, hself ▸ hid, r.2, hreference, m, hm⟩
  · intro ⟨tc, htc, hid, text, htext, m, hm⟩
    obtain ⟨r, hr, hread⟩ := exists_of_forall₂ heach htc
    obtain ⟨hself, hreference⟩ := upper_eq_ok.mp hread
    obtain rfl : text = r.2 := Option.some.inj (htext.symm.trans hreference)
    exact ⟨r, ⟨hr, m, hm⟩, hself.trans hid⟩

/-! ## When the coverage is right -/

/-- What is listed under a criterion. -/
theorem listing_eq_ok {i : ℕ} {listing : String × Json} :
    (do return ("AC-" ++ pad3 (i + 1), .arr (← listedTests S suite (i + 1))) :
        Except Error (String × Json)) = .ok listing ↔
      ∃ ids, listedTests S suite (i + 1) = .ok ids ∧
        ("AC-" ++ pad3 (i + 1), .arr ids) = listing := by
  rw [bind_eq_ok]
  refine exists_congr fun ids => and_congr_right fun _ => ?_
  exact ⟨fun h => by cases h; rfl, fun h => by rw [← h]; rfl⟩

theorem coverage_eq_ok {coverage : Json} :
    calculateCriteriaCoverage S suite acceptanceCriteria = .ok coverage ↔
      ∃ listings, (List.range acceptanceCriteria.length).mapM (fun i => do
          return ("AC-" ++ pad3 (i + 1), Rlm.Json.arr (← listedTests S suite (i + 1))))
        = Except.ok listings ∧ .obj listings = coverage := by
  rw [calculateCriteriaCoverage, bind_eq_ok]
  refine exists_congr fun listings => and_congr_right fun _ => ?_
  exact ⟨fun h => by cases h; rfl, fun h => by rw [← h]; rfl⟩

/-- The coverage is made if the references are texts, or if there are no criteria. -/
theorem coverage_ok :
    (∃ coverage, calculateCriteriaCoverage S suite acceptanceCriteria = .ok (.obj coverage)) ↔
      (acceptanceCriteria ≠ [] → ∀ tc ∈ suite.testCases, (reference S tc).isSome) := by
  have hmade : (∃ coverage, calculateCriteriaCoverage S suite acceptanceCriteria
      = .ok (.obj coverage)) ↔ ∀ i ∈ List.range acceptanceCriteria.length,
        ∀ tc ∈ suite.testCases, (reference S tc).isSome := by
    simp only [coverage_eq_ok, Rlm.Json.obj.injEq, exists_eq_right, mapM_ok, listing_eq_ok]
    refine forall₂_congr fun i _ => ?_
    rw [← @listedTests_ok S suite (i + 1)]
    exact ⟨fun ⟨_, ids, hids, _⟩ => ⟨ids, hids⟩, fun ⟨ids, hids⟩ => ⟨_, ids, hids, rfl⟩⟩
  rw [hmade]
  constructor
  · intro h hne
    exact h 0 (List.mem_range.mpr (List.length_pos_iff.mpr hne))
  · intro h i hi
    have hpos : 0 < acceptanceCriteria.length := by
      have hlt := List.mem_range.mp hi
      omega
    exact h (List.length_pos_iff.mp hpos)

/-- What is listed under each criterion. -/
theorem coverage_get {coverage : List (String × Json)}
    (h : calculateCriteriaCoverage S suite acceptanceCriteria = .ok (.obj coverage)) :
    coverage.length = acceptanceCriteria.length ∧ ∀ i < acceptanceCriteria.length, ∃ ids,
      coverage[i]? = some ("AC-" ++ pad3 (i + 1), .arr ids) ∧
        listedTests S suite (i + 1) = .ok ids := by
  obtain ⟨listings, hlistings, heq⟩ := coverage_eq_ok.mp h
  cases heq
  have heach := forall₂_of_mapM hlistings
  have hlength : coverage.length = acceptanceCriteria.length := by
    simpa using heach.length_eq.symm
  refine ⟨hlength, fun i hi => ?_⟩
  have hlisting := heach.get (by simpa using hi) (hlength.symm ▸ hi)
  obtain ⟨ids, hids, hi'⟩ := listing_eq_ok.mp hlisting
  simp only [List.get_eq_getElem, List.getElem_range] at hids hi'
  exact ⟨ids, by rw [hi', List.getElem?_eq_getElem], hids⟩

/-- **The coverage**: it has the tests that name a criterion exactly for plain references. -/
theorem faithful_iff (S : Setting) (suite : TestSuite) (acceptanceCriteria : List String) :
    Faithful S suite acceptanceCriteria ↔ Plain S suite acceptanceCriteria := by
  have hkept : ∀ {coverage}, calculateCriteriaCoverage S suite acceptanceCriteria
      = .ok (.obj coverage) → ∀ i < acceptanceCriteria.length, ∀ ids,
        coverage[i]? = some ("AC-" ++ pad3 (i + 1), .arr ids) → ∀ id, id ∈ ids ↔
          ∃ tc ∈ suite.testCases, tc.id = id ∧ Shows S tc (i + 1) := by
    intro coverage hcoverage i hi ids hids
    obtain ⟨ids', hids', hlisted⟩ := (coverage_get hcoverage).2 i hi
    have heq : ids' = ids := by simpa [hids'] using hids
    exact heq ▸ mem_listedTests hlisted
  constructor
  · intro ⟨coverage, hcoverage, _, hnamed⟩
    refine ⟨coverage_ok.mp ⟨coverage, hcoverage⟩, ?_, ?_⟩
    · intro i hi tc htc text htext m hm _
      obtain ⟨ids, hids, hid⟩ := hnamed i hi
      have hshown : tc.id ∈ ids :=
        (hkept hcoverage i hi ids hids tc.id).mpr ⟨tc, htc, rfl, text, htext, m, hm⟩
      exact (hid tc.id).mp hshown
    · intro i hi tc htc text htext m hm _
      obtain ⟨ids, hids, hid⟩ := hnamed i hi
      have hlisted : tc.id ∈ ids := (hid tc.id).mpr ⟨tc, htc, rfl, text, htext, m, hm⟩
      exact (hkept hcoverage i hi ids hids tc.id).mp hlisted
  · intro h
    obtain ⟨coverage, hcoverage⟩ := coverage_ok.mpr h.texts
    have hget := coverage_get hcoverage
    refine ⟨coverage, hcoverage, hget.1, fun i hi => ?_⟩
    obtain ⟨ids, hids, hlisted⟩ := hget.2 i hi
    refine ⟨ids, hids, fun id => ?_⟩
    rw [mem_listedTests hlisted]
    constructor
    · intro ⟨tc, htc, hid, text, htext, m, hm⟩
      by_cases hnames : m.Identifies (i + 1)
      · exact ⟨tc, htc, hid, text, htext, m, hnames⟩
      · obtain ⟨other, hother, hsame, hnamed⟩ := h.cut i hi tc htc text htext m hm hnames
        exact ⟨other, hother, hsame.trans hid, hnamed⟩
    · intro ⟨tc, htc, hid, text, htext, m, hm⟩
      by_cases hshows : m.Begins (i + 1)
      · exact ⟨tc, htc, hid, text, htext, m, hshows⟩
      · obtain ⟨other, hother, hsame, hshown⟩ := h.zeros i hi tc htc text htext m hm hshows
        exact ⟨other, hother, hsame.trans hid, hshown⟩

/-- A suite with a test of the twelfth criterion. -/
def suiteOfTwelfth : TestSuite where
  taskId := .str "t"
  testCases := [{
    id := .str "TC-001", name := .str "", description := .str "", testType := .unit
    code := .str "", requirementRef := .str "AC-12", metadata := .obj [] }]
  setupCode := .str ""
  teardownCode := .str ""
  fixtures := .arr []

/-- The digits in its reference are all that stands behind the `AC-`. -/
theorem digits_twelfth (m : Mention "AC-12") : m.digits = ['1', '2'] := by
  obtain ⟨before, digits, after, hsplit, -, hstop⟩ := m
  cases before with
  | nil =>
    have hrest : ['1', '2'] = digits ++ after := by simpa using hsplit
    rcases digits with _ | ⟨c, _ | ⟨d, digits⟩⟩
    · rw [List.nil_append] at hrest
      exact absurd rfl (hstop '1' (by simp [← hrest]))
    · simp only [List.cons_append, List.nil_append, List.cons.injEq] at hrest
      exact absurd rfl (hstop '2' (by simp [← hrest.2]))
    · simp only [List.cons_append, List.cons.injEq, List.nil_eq, List.append_eq_nil_iff] at hrest
      obtain ⟨rfl, rfl, rfl, -⟩ := hrest
      rfl
  | cons c before =>
    have hrest : ['C', '-', '1', '2'] = before ++ 'A' :: 'C' :: '-' :: (digits ++ after) := by
      have htext : ['A', 'C', '-', '1', '2'] =
          c :: before ++ (['A', 'C', '-'] ++ (digits ++ after)) := hsplit
      simpa using (List.cons.inj htext).2
    have hfront : 'A' ∈ ['C', '-', '1', '2'] := by
      rw [hrest]
      simp
    exact absurd hfront (by decide)

/-- It is listed under the first criterion. -/
theorem not_faithful_twelfth : ¬ Faithful demo suiteOfTwelfth ["returns one"] := by
  intro ⟨coverage, hcoverage, _, hnamed⟩
  have hlisted : calculateCriteriaCoverage demo suiteOfTwelfth ["returns one"]
      = .ok (.obj [("AC-001", .arr [.str "TC-001"])]) := rfl
  obtain rfl : [("AC-001", Json.arr [.str "TC-001"])] = coverage := by
    simpa [hlisted] using hcoverage
  obtain ⟨ids, hids, hid⟩ := hnamed 0 (by decide)
  obtain rfl : [.str "TC-001"] = ids := by simpa using (Prod.mk.inj (Option.some.inj hids)).2
  obtain ⟨tc, htc, -, text, htext, m, hm⟩ := (hid (.str "TC-001")).mp List.mem_cons_self
  obtain rfl := List.mem_singleton.mp htc
  obtain rfl : "AC-12" = text := Option.some.inj htext
  have hnumber := hm.2.1
  rw [digits_twelfth] at hnumber
  exact absurd hnumber (by decide)

end DoxAsdlc.Development.UTest
