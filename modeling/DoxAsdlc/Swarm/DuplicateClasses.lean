import DoxAsdlc.Structures.KeyedJoin
import DoxAsdlc.Swarm.Deduplication
import Mathlib.Data.Int.ConditionallyCompleteOrder

/-!
# Findings that fall into classes of duplicates

Being duplicates is neither transitive nor kept by merging, so that what the first-match fold of
`_detect_duplicates` returns may depend on the order in which it takes the findings.  It does not
when the findings fall into classes: the fold then joins the lines and the severities of each
class, whatever the order.

## Main definitions

* `Classed` — the findings fall into classes of duplicates.
* `StandsFor` — an entry stands for the class of a finding.
* `Extent` — the lines and the severity of a finding.

## Main results

* `tracks_detectDuplicates` — the fold joins the findings by class.
-/

namespace DoxAsdlc.Swarm

open KeyedJoin

variable (config : SwarmConfig) (textSimilarity : Similarity)

/-- What `_is_duplicate` asks of two findings apart from their lines: the same file, compatible
categories and similar titles. -/
def isAkin (f1 f2 : ReviewFinding) : Bool :=
  f1.filePath == f2.filePath
    && (f1.category == "" || f2.category == "" ||
        rootCategory f1.category == rootCategory f2.category)
    && config.duplicateSimilarityThreshold ≤ textSimilarity f1.title f2.title

/-- The findings fall into classes of duplicates: to be a duplicate is an equivalence among them,
and a finding that is akin to one finding of a class and overlaps another is of the class. -/
structure Classed (findings : List ReviewFinding) : Prop where
  placed : ∀ f ∈ findings, Placed f
  refl : ∀ f ∈ findings, isDuplicate config textSimilarity f f = true
  symm : ∀ f ∈ findings, ∀ g ∈ findings, isDuplicate config textSimilarity f g = true →
    isDuplicate config textSimilarity g f = true
  trans : ∀ f ∈ findings, ∀ g ∈ findings, ∀ h ∈ findings,
    isDuplicate config textSimilarity f g = true →
      isDuplicate config textSimilarity g h = true → isDuplicate config textSimilarity f h = true
  across : ∀ f ∈ findings, ∀ g ∈ findings, ∀ h ∈ findings,
    isDuplicate config textSimilarity g h = true → isAkin config textSimilarity f g = true →
      linesOverlap f.lineStart f.lineEnd h.lineStart h.lineEnd = true →
        isDuplicate config textSimilarity f g = true

variable {config textSimilarity} {f g x y a : ReviewFinding}

theorem isDuplicate_iff :
    isDuplicate config textSimilarity f g = true ↔
      isAkin config textSimilarity f g = true ∧
        linesOverlap f.lineStart f.lineEnd g.lineStart g.lineEnd = true := by
  simp only [isDuplicate, isAkin, Bool.and_eq_true]
  tauto

/-- The finding on the right enters by its file, its category and its title. -/
theorem isAkin_congr (hfile : x.filePath = a.filePath) (hcategory : x.category = a.category)
    (htitle : x.title = a.title) :
    isAkin config textSimilarity f x = isAkin config textSimilarity f a := by
  simp only [isAkin, hfile, hcategory, htitle]

/-! ## Lines -/

/-- The lines of a finding. -/
def ReviewFinding.lines (f : ReviewFinding) : Set ℤ := Set.Icc f.lineStart f.lastLine

theorem Placed.le_lastLine (h : Placed f) : f.lineStart ≤ f.lastLine := by
  unfold ReviewFinding.lastLine
  cases hend : f.lineEnd with
  | none => exact le_rfl
  | some last => exact h.2 last hend

theorem linesOverlap_eq_true :
    linesOverlap f.lineStart f.lineEnd g.lineStart g.lineEnd = true ↔
      g.lineStart ≤ f.lastLine ∧ f.lineStart ≤ g.lastLine := by
  simp [linesOverlap, ReviewFinding.lastLine]

/-- Ranges overlap when they have a line in common. -/
theorem linesOverlap_iff (hf : Placed f) (hg : Placed g) :
    linesOverlap f.lineStart f.lineEnd g.lineStart g.lineEnd = true ↔
      ∃ n, n ∈ f.lines ∧ n ∈ g.lines := by
  have hlast := hf.le_lastLine
  have hlast' := hg.le_lastLine
  rw [linesOverlap_eq_true]
  simp only [ReviewFinding.lines, Set.mem_Icc]
  constructor
  · intro h
    exact ⟨max f.lineStart g.lineStart, by omega, by omega⟩
  · rintro ⟨n, hn, hn'⟩
    omega

/-- Last lines from one on are merged to the later one. -/
theorem mergedEnd_eq_merge {end1 end2 : Option ℤ} (h1 : ∀ e, end1 = some e → 1 ≤ e)
    (h2 : ∀ e, end2 = some e → 1 ≤ e) : mergedEnd end1 end2 = Option.merge max end1 end2 := by
  have hzero : ∀ e : ℤ, 1 ≤ e → e ≠ 0 ∧ max e 0 = e ∧ max 0 e = e := by
    intro e he
    omega
  cases end1 with
  | none =>
    cases end2 with
    | none => rfl
    | some e' => simp [mergedEnd, hzero e' (h2 e' rfl)]
  | some e =>
    have he := hzero e (h1 e rfl)
    cases end2 with
    | none => simp [mergedEnd, he]
    | some e' => simp [mergedEnd, he]

/-- Of ranges that overlap, one without a last line is a line that the other goes around. -/
theorem getD_merge {start1 start2 : ℤ} {end1 end2 : Option ℤ} (h : start2 ≤ end1.getD start1)
    (h' : start1 ≤ end2.getD start2) :
    (Option.merge max end1 end2).getD (min start1 start2)
      = max (end1.getD start1) (end2.getD start2) := by
  cases end1 with
  | none =>
    cases end2 with
    | none =>
      simp only [Option.getD_none, Option.merge] at h h' ⊢
      omega
    | some e' =>
      simp only [Option.getD_none, Option.getD_some, Option.merge] at h h' ⊢
      omega
  | some e =>
    cases end2 with
    | none =>
      simp only [Option.getD_none, Option.getD_some, Option.merge] at h h' ⊢
      omega
    | some e' => rfl

theorem Placed.one_le_lineEnd (h : Placed f) : ∀ e, f.lineEnd = some e → 1 ≤ e :=
  fun e he => h.1.trans (h.2 e he)

/-- Merging placed findings that overlap joins their lines. -/
theorem mergeFindings_lines (hf : Placed f) (hg : Placed g)
    (hover : linesOverlap f.lineStart f.lineEnd g.lineStart g.lineEnd = true) :
    (mergeFindings f g).lineStart = min f.lineStart g.lineStart ∧
      (mergeFindings f g).lineEnd = Option.merge max f.lineEnd g.lineEnd ∧
      (mergeFindings f g).lastLine = max f.lastLine g.lastLine := by
  obtain ⟨hle, hle'⟩ := linesOverlap_eq_true.mp hover
  have hstart := hf.1
  have hstart' := hg.1
  have hmin : mergedStart f.lineStart g.lineStart = min f.lineStart g.lineStart :=
    if_neg (by omega)
  have hend := mergedEnd_eq_merge hf.one_le_lineEnd hg.one_le_lineEnd
  rw [ReviewFinding.lastLine, lines_mergeFindings.1, lines_mergeFindings.2, hmin, hend]
  exact ⟨rfl, rfl, getD_merge hle hle'⟩

/-- The lines of a merge are those of its findings. -/
theorem mem_lines_mergeFindings (hf : Placed f) (hg : Placed g)
    (hover : linesOverlap f.lineStart f.lineEnd g.lineStart g.lineEnd = true) (n : ℤ) :
    n ∈ (mergeFindings f g).lines ↔ n ∈ f.lines ∨ n ∈ g.lines := by
  obtain ⟨hstart, -, hlast⟩ := mergeFindings_lines hf hg hover
  obtain ⟨hle, hle'⟩ := linesOverlap_eq_true.mp hover
  have hrange := hf.le_lastLine
  have hrange' := hg.le_lastLine
  simp only [ReviewFinding.lines, Set.mem_Icc, hstart, hlast]
  omega

theorem Placed.merge (hf : Placed f) (hg : Placed g)
    (hover : linesOverlap f.lineStart f.lineEnd g.lineStart g.lineEnd = true) :
    Placed (mergeFindings f g) := by
  obtain ⟨hstart, hend, -⟩ := mergeFindings_lines hf hg hover
  have hone := hf.1
  have hone' := hg.1
  refine ⟨by omega, fun last hlast => ?_⟩
  rw [hend] at hlast
  rw [hstart]
  have hf2 := hf.2
  have hg2 := hg.2
  cases hend1 : f.lineEnd with
  | none =>
    cases hend2 : g.lineEnd with
    | none => simp [hend1, hend2, Option.merge] at hlast
    | some e' =>
      simp only [hend1, hend2, Option.merge, Option.some.injEq] at hlast
      have := hg2 e' hend2
      omega
  | some e =>
    have := hf2 e hend1
    cases hend2 : g.lineEnd with
    | none =>
      simp only [hend1, hend2, Option.merge, Option.some.injEq] at hlast
      omega
    | some e' =>
      simp only [hend1, hend2, Option.merge, Option.some.injEq] at hlast
      omega

/-! ## Classes -/

/-- An entry stands for the class of a finding: it has the file, the category and the title of the
finding and its lines, and lines of other findings of the class only. -/
structure StandsFor (findings : List ReviewFinding) (config : SwarmConfig)
    (textSimilarity : Similarity) (x a : ReviewFinding) : Prop where
  mem : a ∈ findings
  placed : Placed x
  filePath : x.filePath = a.filePath
  category : x.category = a.category
  title : x.title = a.title
  covers : ∀ n ∈ a.lines, n ∈ x.lines
  covered : ∀ n ∈ x.lines, ∃ b ∈ findings, isDuplicate config textSimilarity a b = true ∧ n ∈ b.lines

variable {findings : List ReviewFinding}

theorem Classed.standsFor_self (hC : Classed config textSimilarity findings) (ha : a ∈ findings) :
    StandsFor findings config textSimilarity a a :=
  ⟨ha, hC.placed a ha, rfl, rfl, rfl, fun _ hn => hn, fun _ hn => ⟨a, ha, hC.refl a ha, hn⟩⟩

/-- **The duplicates of an entry** are the class that it stands for. -/
theorem StandsFor.isDuplicate_iff (h : StandsFor findings config textSimilarity x a)
    (hC : Classed config textSimilarity findings) (hf : f ∈ findings) :
    isDuplicate config textSimilarity f x = true ↔ isDuplicate config textSimilarity f a = true := by
  have hplaced := hC.placed f hf
  rw [Swarm.isDuplicate_iff, isAkin_congr h.filePath h.category h.title,
    linesOverlap_iff hplaced h.placed]
  constructor
  · -- a line of the entry is a line of the class
    intro ⟨hakin, n, hn, hnx⟩
    obtain ⟨b, hb, hdup, hnb⟩ := h.covered n hnx
    exact hC.across f hf a h.mem b hb hdup hakin
      ((linesOverlap_iff hplaced (hC.placed b hb)).mpr ⟨n, hn, hnb⟩)
  · intro hdup
    obtain ⟨hakin, hover⟩ := Swarm.isDuplicate_iff.mp hdup
    obtain ⟨n, hn, hna⟩ := (linesOverlap_iff hplaced (hC.placed a h.mem)).mp hover
    exact ⟨hakin, n, hn, h.covers n hna⟩

/-- The findings that duplicate an entry. -/
def duplicatesOf (config : SwarmConfig) (textSimilarity : Similarity)
    (findings : List ReviewFinding) (x : ReviewFinding) : List ReviewFinding :=
  findings.filter fun f => isDuplicate config textSimilarity f x

theorem StandsFor.duplicatesOf_eq (h : StandsFor findings config textSimilarity x a)
    (hC : Classed config textSimilarity findings) :
    duplicatesOf config textSimilarity findings x
      = duplicatesOf config textSimilarity findings a :=
  List.filter_congr fun _ hf => Bool.eq_iff_iff.mpr (h.isDuplicate_iff hC hf)

/-- Duplicates have the same duplicates. -/
theorem Classed.duplicatesOf_eq (hC : Classed config textSimilarity findings) (hf : f ∈ findings)
    (ha : a ∈ findings) (hdup : isDuplicate config textSimilarity f a = true) :
    duplicatesOf config textSimilarity findings f
      = duplicatesOf config textSimilarity findings a := by
  refine List.filter_congr fun g hg => Bool.eq_iff_iff.mpr ⟨fun h => ?_, fun h => ?_⟩
  · exact hC.trans g hg f hf a ha h hdup
  · exact hC.trans g hg a ha f hf h (hC.symm f hf a ha hdup)

/-- A merge takes its file, category and title from one of its findings. -/
theorem mergeFindings_base (f g : ReviewFinding) :
    ∃ base, (base = f ∨ base = g) ∧ (mergeFindings f g).filePath = base.filePath ∧
      (mergeFindings f g).category = base.category ∧ (mergeFindings f g).title = base.title := by
  by_cases h : severityOrder f.severity ≤ severityOrder g.severity
  · refine ⟨f, Or.inl rfl, ?_⟩
    simp [mergeFindings, h, combine]
  · refine ⟨g, Or.inr rfl, ?_⟩
    simp [mergeFindings, h, combine]

/-- **An entry goes on standing for its class** when a finding of the class is merged into it. -/
theorem StandsFor.merge (h : StandsFor findings config textSimilarity x a)
    (hC : Classed config textSimilarity findings) (hf : f ∈ findings)
    (hdup : isDuplicate config textSimilarity f x = true) :
    ∃ a', StandsFor findings config textSimilarity (mergeFindings x f) a' ∧
      duplicatesOf config textSimilarity findings a'
        = duplicatesOf config textSimilarity findings a := by
  have hplaced := hC.placed f hf
  have hfa := (h.isDuplicate_iff hC hf).mp hdup
  have haf := hC.symm f hf a h.mem hfa
  have hover : linesOverlap x.lineStart x.lineEnd f.lineStart f.lineEnd = true := by
    obtain ⟨n, hn, hnx⟩ := (linesOverlap_iff hplaced h.placed).mp (Swarm.isDuplicate_iff.mp hdup).2
    exact (linesOverlap_iff h.placed hplaced).mpr ⟨n, hnx, hn⟩
  have hlines := mem_lines_mergeFindings h.placed hplaced hover
  obtain ⟨base, hbase, hfile, hcategory, htitle⟩ := mergeFindings_base x f
  rcases hbase with rfl | rfl
  · -- the entry stays with its finding
    refine ⟨a, ⟨h.mem, h.placed.merge hplaced hover, hfile.trans h.filePath,
      hcategory.trans h.category, htitle.trans h.title, fun n hn => ?_, fun n hn => ?_⟩, rfl⟩
    · exact (hlines n).mpr (Or.inl (h.covers n hn))
    · rcases (hlines n).mp hn with hn | hn
      · exact h.covered n hn
      · exact ⟨f, hf, haf, hn⟩
  · -- the finding that is merged is the more severe one
    refine ⟨base, ⟨hf, h.placed.merge hplaced hover, hfile, hcategory, htitle, fun n hn => ?_,
      fun n hn => ?_⟩, hC.duplicatesOf_eq hf h.mem hfa⟩
    · exact (hlines n).mpr (Or.inr hn)
    · rcases (hlines n).mp hn with hn | hn
      · obtain ⟨b, hb, hab, hnb⟩ := h.covered n hn
        exact ⟨b, hb, hC.trans base hf a h.mem b hb hfa hab, hnb⟩
      · exact ⟨base, hf, hC.refl base hf, hn⟩

/-! ## Extents -/

theorem severityOrder_injective : Function.Injective severityOrder := by
  intro s t h
  cases s <;> cases t <;> first | rfl | cases h

/-- Severities, the most severe first. -/
instance : LinearOrder Severity := LinearOrder.lift' severityOrder severityOrder_injective

/-- Lines and severities are joined: the first line goes down, the last one up, and the more severe
of two severities stays. -/
abbrev Extent := ℤᵒᵈ × WithBot ℤ × Severityᵒᵈ

/-- The last line of a range; less than any line if it has none. -/
def lastOf : Option ℤ → WithBot ℤ
  | none => ⊥
  | some e => e

/-- The lines and the severity of a finding. -/
def extent (f : ReviewFinding) : Extent :=
  (OrderDual.toDual f.lineStart, lastOf f.lineEnd, OrderDual.toDual f.severity)

theorem lastOf_merge (end1 end2 : Option ℤ) :
    lastOf (Option.merge max end1 end2) = lastOf end1 ⊔ lastOf end2 := by
  cases end1 <;> cases end2 <;> simp [Option.merge, lastOf]

theorem severity_mergeFindings_eq (f g : ReviewFinding) :
    (mergeFindings f g).severity = min f.severity g.severity := by
  by_cases h : severityOrder f.severity ≤ severityOrder g.severity
  · have hle : f.severity ≤ g.severity := h
    simp [mergeFindings, h, combine, hle]
  · have hle : g.severity ≤ f.severity := (not_le.mp h).le
    simp [mergeFindings, h, combine, hle]

/-- Merging joins extents. -/
theorem extent_mergeFindings (hf : Placed f) (hg : Placed g)
    (hover : linesOverlap f.lineStart f.lineEnd g.lineStart g.lineEnd = true) :
    extent (mergeFindings f g) = extent f ⊔ extent g := by
  obtain ⟨hstart, hend, -⟩ := mergeFindings_lines hf hg hover
  rw [extent, hstart, hend, lastOf_merge, severity_mergeFindings_eq]
  rfl

/-! ## The fold -/

/-- What tells the class of an entry: its file and the findings that duplicate it. -/
def classKey (config : SwarmConfig) (textSimilarity : Similarity) (findings : List ReviewFinding)
    (x : ReviewFinding) : String × List ReviewFinding :=
  (x.filePath, duplicatesOf config textSimilarity findings x)

/-- An entry by its class. -/
def entry (config : SwarmConfig) (textSimilarity : Similarity) (findings : List ReviewFinding)
    (x : ReviewFinding) : (String × List ReviewFinding) × Extent :=
  (classKey config textSimilarity findings x, extent x)

/-- The unique findings stand for the classes of the findings that were taken, and have their
joined extents. -/
structure Tracks (config : SwarmConfig) (textSimilarity : Similarity)
    (findings taken unique : List ReviewFinding) : Prop where
  standsFor : ∀ x ∈ unique, ∃ a, StandsFor findings config textSimilarity x a
  joins : Joins (unique.map (entry config textSimilarity findings))
    (taken.map (entry config textSimilarity findings))

/-- A finding that duplicates an entry has its class. -/
theorem StandsFor.classKey_eq (h : StandsFor findings config textSimilarity x a)
    (hC : Classed config textSimilarity findings) (hf : f ∈ findings)
    (hdup : isDuplicate config textSimilarity f x = true) :
    classKey config textSimilarity findings f = classKey config textSimilarity findings x := by
  have hfile : f.filePath = x.filePath := (isDuplicate_spec hdup).1
  rw [classKey, classKey, hfile, h.duplicatesOf_eq hC,
    hC.duplicatesOf_eq hf h.mem ((h.isDuplicate_iff hC hf).mp hdup)]

/-- **One round** joins a finding to its class. -/
theorem Tracks.detectRound (hC : Classed config textSimilarity findings)
    {taken unique : List ReviewFinding} {removed : ℕ}
    (h : Tracks config textSimilarity findings taken unique) (hf : f ∈ findings) :
    Tracks config textSimilarity findings (taken ++ [f])
      (Swarm.detectRound config textSimilarity (unique, removed) f).1 := by
  rw [Swarm.detectRound]
  cases habsorb : absorb config textSimilarity f unique with
  | none =>
    have hnot := not_isDuplicate_of_absorb habsorb
    refine ⟨fun x hx => ?_, ?_⟩
    · rcases List.mem_append.mp hx with hx | hx
      · exact h.standsFor x hx
      · rw [List.mem_singleton.mp hx]
        exact ⟨f, hC.standsFor_self hf⟩
    · -- the class of the finding is a new one
      rw [List.map_append, List.map_append]
      refine h.joins.append fun hmem => ?_
      rw [List.map_map] at hmem
      obtain ⟨x, hx, hkey⟩ := List.mem_map.mp hmem
      have hself : f ∈ duplicatesOf config textSimilarity findings f :=
        List.mem_filter.mpr ⟨hf, hC.refl f hf⟩
      have hdups : duplicatesOf config textSimilarity findings x
          = duplicatesOf config textSimilarity findings f := congrArg Prod.snd hkey
      rw [← hdups, duplicatesOf, List.mem_filter, hnot x hx] at hself
      exact Bool.false_ne_true hself.2
  | some unique' =>
    obtain ⟨before, x, after, rfl, hdup, rfl⟩ := absorb_eq_some habsorb
    obtain ⟨a, hx⟩ := h.standsFor x (by simp)
    obtain ⟨a', hx', hclass⟩ := hx.merge hC hf hdup
    have hplaced := hC.placed f hf
    have hover : linesOverlap x.lineStart x.lineEnd f.lineStart f.lineEnd = true := by
      have hspec := isDuplicate_spec hdup
      exact linesOverlap_eq_true.mpr ⟨hspec.2.2, hspec.2.1⟩
    have hkey : classKey config textSimilarity findings (mergeFindings x f)
        = classKey config textSimilarity findings x := by
      rw [classKey, classKey, hx'.duplicatesOf_eq hC, hclass, hx.duplicatesOf_eq hC,
        filePath_mergeFindings (isDuplicate_spec hdup).1]
    refine ⟨fun y hy => ?_, ?_⟩
    · rcases List.mem_append.mp hy with hy | hy
      · exact h.standsFor y (List.mem_append_left _ hy)
      rcases List.mem_cons.mp hy with rfl | hy
      · exact ⟨a', hx'⟩
      · exact h.standsFor y (List.mem_append_right _ (List.mem_cons_of_mem _ hy))
    · have hjoins := h.joins
      rw [List.map_append, List.map_cons] at hjoins ⊢
      rw [List.map_append, List.map_singleton]
      rw [entry, hkey, extent_mergeFindings hx.placed hplaced hover]
      rw [entry, hx.classKey_eq hC hf hdup]
      exact hjoins.absorb

/-- **The fold joins the findings by class.** -/
theorem tracks_detectDuplicates (hC : Classed config textSimilarity findings)
    {taken : List ReviewFinding} (htaken : ∀ f ∈ taken, f ∈ findings) :
    Tracks config textSimilarity findings taken
      (detectDuplicates config textSimilarity taken).1 := by
  induction taken using List.reverseRecOn with
  | nil => exact ⟨by simp [detectDuplicates], Joins.nil⟩
  | append_singleton taken f ih =>
    rw [detectDuplicates_append_singleton]
    exact (ih fun g hg => htaken g (List.mem_append_left _ hg)).detectRound hC
      (htaken f (by simp))

end DoxAsdlc.Swarm
