import DoxAsdlc.Swarm.Aggregator

/-!
# Conservation of findings

Every finding of a reviewer that succeeded is counted once, as unique or as a duplicate, and
is represented in the report.  The fold keeps that each finding taken so far is represented
by a unique one: a merge keeps what its first finding represents, and represents its second.

## Main definitions

* `Placed` — a finding whose lines are a range from line one on.
* `Represents` — a finding stands for another.
-/

namespace DoxAsdlc.Swarm

/-- The last line of a finding. -/
def ReviewFinding.lastLine (f : ReviewFinding) : ℤ := f.lineEnd.getD f.lineStart

/-- The lines of the finding are a range, from line one on. -/
def Placed (f : ReviewFinding) : Prop :=
  1 ≤ f.lineStart ∧ ∀ last, f.lineEnd = some last → f.lineStart ≤ last

/-- `g` stands for `f`: it is about the same file, at least as severe and as certain, names
the reviewers of `f`, and its lines cover those of `f`. -/
structure Represents (g f : ReviewFinding) : Prop where
  filePath : g.filePath = f.filePath
  severity : severityOrder g.severity ≤ severityOrder f.severity
  confidence : f.confidence ≤ g.confidence
  reviewers : ∀ r ∈ f.reviewers, r ∈ g.reviewers
  lineStart : g.lineStart ≤ f.lineStart
  lastLine : f.lastLine ≤ g.lastLine

theorem Represents.refl (f : ReviewFinding) : Represents f f :=
  ⟨rfl, le_rfl, le_rfl, fun _ hr => hr, le_rfl, le_rfl⟩

variable {config : SwarmConfig} {textSimilarity : Similarity}

/-! ## What a merge keeps -/

section

variable {f1 f2 : ReviewFinding}

theorem severity_combine {base other : ReviewFinding} {start : ℤ} {last : Option ℤ} :
    (combine base other start last).severity = base.severity := rfl

theorem filePath_combine {base other : ReviewFinding} {start : ℤ} {last : Option ℤ} :
    (combine base other start last).filePath = base.filePath := rfl

theorem mem_reviewers_combine {base other : ReviewFinding} {start : ℤ} {last : Option ℤ}
    {r : String} :
    r ∈ (combine base other start last).reviewers ↔ r ∈ base.reviewers ∨ r ∈ other.reviewers := by
  have hjoined : (combine base other start last).reviewers
      = (base.reviewers ++ other.reviewers).dedup.insertionSort (· ≤ ·) := by
    refine splitNames_joinNames ?_ ?_
    · obtain ⟨name, hname⟩ := List.exists_mem_of_ne_nil _ (splitNames_ne_nil base.reviewerType)
      exact List.ne_nil_of_mem ((List.mem_insertionSort _).mpr
        (List.mem_dedup.mpr (List.mem_append_left _ hname)))
    · intro name hname
      rcases List.mem_append.mp (List.mem_dedup.mp ((List.mem_insertionSort _).mp hname)) with
        hbase | hother
      · exact ⟨_, hbase⟩
      · exact ⟨_, hother⟩
  rw [hjoined, List.mem_insertionSort, List.mem_dedup, List.mem_append]

theorem mem_reviewers_mergeFindings {r : String} :
    r ∈ (mergeFindings f1 f2).reviewers ↔ r ∈ f1.reviewers ∨ r ∈ f2.reviewers := by
  unfold mergeFindings
  split
  · exact mem_reviewers_combine
  · rw [mem_reviewers_combine, or_comm]

theorem severity_mergeFindings :
    severityOrder (mergeFindings f1 f2).severity
      = min (severityOrder f1.severity) (severityOrder f2.severity) := by
  unfold mergeFindings
  split
  case isTrue h => rw [severity_combine, min_eq_left h]
  case isFalse h => rw [severity_combine, min_eq_right (not_le.mp h).le]

theorem confidence_mergeFindings :
    (mergeFindings f1 f2).confidence = max f1.confidence f2.confidence := by
  unfold mergeFindings
  split
  · rfl
  · exact max_comm _ _

theorem filePath_mergeFindings (h : f2.filePath = f1.filePath) :
    (mergeFindings f1 f2).filePath = f1.filePath := by
  unfold mergeFindings
  split
  · rw [filePath_combine]
  · rw [filePath_combine, h]

theorem lines_mergeFindings :
    (mergeFindings f1 f2).lineStart = mergedStart f1.lineStart f2.lineStart ∧
      (mergeFindings f1 f2).lineEnd = mergedEnd f1.lineEnd f2.lineEnd := by
  unfold mergeFindings
  split
  · exact ⟨rfl, rfl⟩
  · exact ⟨rfl, rfl⟩

/-- What a duplicate shares with the finding it duplicates. -/
theorem isDuplicate_spec (h : isDuplicate config textSimilarity f2 f1 = true) :
    f2.filePath = f1.filePath ∧ f1.lineStart ≤ f2.lastLine ∧ f2.lineStart ≤ f1.lastLine := by
  simp only [isDuplicate, linesOverlap, Bool.and_eq_true, beq_iff_eq, Bool.not_eq_true',
    Bool.or_eq_false_iff, decide_eq_false_iff_not, not_lt] at h
  obtain ⟨⟨⟨hfile, hlines⟩, -⟩, -⟩ := h
  exact ⟨hfile, hlines.1, hlines.2⟩

end

/-! ## Merged lines -/

section

variable {start1 start2 e : ℤ} {end1 end2 : Option ℤ}

variable (start2) in
theorem mergedStart_left (h : start1 ≠ 0) :
    mergedStart start1 start2 ≠ 0 ∧ mergedStart start1 start2 ≤ start1 := by
  unfold mergedStart
  split_ifs <;> omega

variable (start1) in
theorem mergedStart_right (h : 1 ≤ start2) :
    mergedStart start1 start2 ≠ 0 ∧ mergedStart start1 start2 ≤ start2 := by
  unfold mergedStart
  split_ifs <;> omega

theorem mergedStart_self (h : start1 ≠ 0) : mergedStart start1 start1 = start1 := by
  rw [mergedStart, min_self, if_neg h]

variable (end2) in
theorem mergedEnd_left (h : 1 ≤ e) : ∃ last, mergedEnd (some e) end2 = some last ∧ e ≤ last := by
  refine ⟨max e (end2.getD 0), ?_, le_max_left _ _⟩
  rw [mergedEnd, if_pos (Or.inl (by simp only [Option.getD_some]; omega))]
  rfl

variable (end1) in
theorem mergedEnd_right (h : 1 ≤ e) : ∃ last, mergedEnd end1 (some e) = some last ∧ e ≤ last := by
  refine ⟨max (end1.getD 0) e, ?_, le_max_right _ _⟩
  rw [mergedEnd, if_pos (Or.inr (by simp only [Option.getD_some]; omega))]
  rfl

end

section

variable {f1 f2 : ReviewFinding}

/-- A merge covers the lines that one of its two findings covers, when these overlap: if the
finding has no last line of its own, the other one's range goes around its first. -/
theorem lines_cover {a b : ℤ} {start1 start2 : ℤ} {end1 end2 : Option ℤ} (ha : 1 ≤ a) (hab : a ≤ b)
    (hstart : start1 ≤ a) (hlast : b ≤ end1.getD start1) (hover : start1 ≤ end2.getD start2)
    (hover' : start2 ≤ end1.getD start1) :
    (∃ e, (end1 = some e ∨ end2 = some e) ∧ 1 ≤ e ∧ b ≤ e) ∨
      (end1 = none ∧ end2 = none ∧ start1 = start2 ∧ b = start1) := by
  cases end1 with
  | some e => exact Or.inl ⟨e, Or.inl rfl, by simp at hlast; omega, hlast⟩
  | none =>
    simp only [Option.getD_none] at hlast hover'
    cases end2 with
    | some e =>
      simp only [Option.getD_some] at hover
      exact Or.inl ⟨e, Or.inr rfl, by omega, by omega⟩
    | none =>
      simp only [Option.getD_none] at hover
      exact Or.inr ⟨rfl, rfl, by omega, by omega⟩

/-- The last line of a merge, from what `lines_cover` says. -/
theorem le_lastLine_mergeFindings {b : ℤ} (hb : 1 ≤ b)
    (h : (∃ e, (f1.lineEnd = some e ∨ f2.lineEnd = some e) ∧ 1 ≤ e ∧ b ≤ e) ∨
      (f1.lineEnd = none ∧ f2.lineEnd = none ∧ f1.lineStart = f2.lineStart ∧ b = f1.lineStart)) :
    b ≤ (mergeFindings f1 f2).lastLine := by
  rw [ReviewFinding.lastLine, lines_mergeFindings.1, lines_mergeFindings.2]
  rcases h with ⟨e, hend | hend, he, hbe⟩ | ⟨hend1, hend2, hsame, rfl⟩
  · obtain ⟨last, hmerged, hle⟩ := mergedEnd_left f2.lineEnd he
    rw [hend, hmerged]
    exact hbe.trans hle
  · obtain ⟨last, hmerged, hle⟩ := mergedEnd_right f1.lineEnd he
    rw [hend, hmerged]
    exact hbe.trans hle
  · rw [hend1, hend2, ← hsame, mergedStart_self (by omega)]
    exact le_rfl

/-- A merge represents what its first finding represents. -/
theorem Represents.merge_left {f : ReviewFinding} (h : Represents f1 f) (hf : Placed f)
    (hne : f1.lineStart ≠ 0) (hdup : isDuplicate config textSimilarity f2 f1 = true) :
    Represents (mergeFindings f1 f2) f ∧ (mergeFindings f1 f2).lineStart ≠ 0 := by
  obtain ⟨hfile, hover, hover'⟩ := isDuplicate_spec hdup
  obtain ⟨hstart, hle⟩ := mergedStart_left f2.lineStart hne
  have hrange : f.lineStart ≤ f.lastLine := by
    unfold ReviewFinding.lastLine
    cases hend : f.lineEnd with
    | none => exact le_rfl
    | some last => exact hf.2 last hend
  have hlast := lines_cover hf.1 hrange h.lineStart h.lastLine hover hover'
  refine ⟨⟨?_, ?_, ?_, ?_, ?_, ?_⟩, lines_mergeFindings.1 ▸ hstart⟩
  · rw [filePath_mergeFindings hfile, h.filePath]
  · rw [severity_mergeFindings]
    exact (min_le_left _ _).trans h.severity
  · rw [confidence_mergeFindings]
    exact h.confidence.trans (le_max_left _ _)
  · exact fun r hr => mem_reviewers_mergeFindings.mpr (Or.inl (h.reviewers r hr))
  · rw [lines_mergeFindings.1]
    exact hle.trans h.lineStart
  · exact le_lastLine_mergeFindings (hf.1.trans hrange) hlast

/-- A merge represents its second finding. -/
theorem represents_mergeFindings_right (hf : Placed f2)
    (hdup : isDuplicate config textSimilarity f2 f1 = true) :
    Represents (mergeFindings f1 f2) f2 ∧ (mergeFindings f1 f2).lineStart ≠ 0 := by
  obtain ⟨hfile, hover, hover'⟩ := isDuplicate_spec hdup
  obtain ⟨hstart, hle⟩ := mergedStart_right f1.lineStart hf.1
  have hrange : f2.lineStart ≤ f2.lastLine := by
    unfold ReviewFinding.lastLine
    cases hend : f2.lineEnd with
    | none => exact le_rfl
    | some last => exact hf.2 last hend
  have hlast : (∃ e, (f1.lineEnd = some e ∨ f2.lineEnd = some e) ∧ 1 ≤ e ∧ f2.lastLine ≤ e) ∨
      (f1.lineEnd = none ∧ f2.lineEnd = none ∧ f1.lineStart = f2.lineStart ∧
        f2.lastLine = f1.lineStart) := by
    rcases lines_cover hf.1 hrange le_rfl le_rfl hover' hover with
      ⟨e, hend, he⟩ | ⟨hend2, hend1, hsame, hb⟩
    · exact Or.inl ⟨e, hend.symm, he⟩
    · exact Or.inr ⟨hend1, hend2, hsame.symm, hb.trans hsame⟩
  refine ⟨⟨?_, ?_, ?_, ?_, ?_, ?_⟩, lines_mergeFindings.1 ▸ hstart⟩
  · rw [filePath_mergeFindings hfile, hfile]
  · rw [severity_mergeFindings]
    exact min_le_right _ _
  · rw [confidence_mergeFindings]
    exact le_max_right _ _
  · exact fun r hr => mem_reviewers_mergeFindings.mpr (Or.inr hr)
  · rw [lines_mergeFindings.1]
    exact hle
  · exact le_lastLine_mergeFindings (hf.1.trans hrange) hlast

end

/-! ## The fold -/

/-- A finding that is absorbed is merged into one that it duplicates; the others stay. -/
theorem absorb_eq_some {x : ReviewFinding} {us us' : List ReviewFinding}
    (h : absorb config textSimilarity x us = some us') :
    ∃ before u after, us = before ++ u :: after ∧ isDuplicate config textSimilarity x u = true ∧
      us' = before ++ mergeFindings u x :: after := by
  induction us generalizing us' with
  | nil => cases h
  | cons u us ih =>
    rw [absorb] at h
    split at h
    case isTrue hdup =>
      obtain rfl := Option.some.inj h
      exact ⟨[], u, us, rfl, hdup, rfl⟩
    case isFalse =>
      obtain ⟨us₁, hus₁, rfl⟩ := Option.map_eq_some_iff.mp h
      obtain ⟨before, v, after, rfl, hdup, rfl⟩ := ih hus₁
      exact ⟨u :: before, v, after, rfl, hdup, rfl⟩

/-- What the fold has of the findings that it has taken: each is counted, and each that is
placed is represented. -/
def Conserved (taken : List ReviewFinding) (acc : List ReviewFinding × ℕ) : Prop :=
  acc.1.length + acc.2 = taken.length ∧
    ∀ f ∈ taken, Placed f → ∃ g ∈ acc.1, Represents g f ∧ g.lineStart ≠ 0

theorem Conserved.detectRound {taken : List ReviewFinding} {acc : List ReviewFinding × ℕ}
    (h : Conserved taken acc) (x : ReviewFinding) :
    Conserved (taken ++ [x]) (Swarm.detectRound config textSimilarity acc x) := by
  obtain ⟨hcount, hrepresented⟩ := h
  unfold Swarm.detectRound
  cases habsorb : absorb config textSimilarity x acc.1 with
  | some us' =>
    obtain ⟨before, u, after, hus, hdup, rfl⟩ := absorb_eq_some habsorb
    rw [hus] at hcount hrepresented
    refine ⟨by simp at hcount ⊢; omega, ?_⟩
    intro f hf hplaced
    rcases List.mem_append.mp hf with hf | hf
    · obtain ⟨g, hg, hgf, hne⟩ := hrepresented f hf hplaced
      rcases List.mem_append.mp hg with hbefore | hg
      · exact ⟨g, List.mem_append_left _ hbefore, hgf, hne⟩
      rcases List.mem_cons.mp hg with rfl | hafter
      · obtain ⟨hmerged, hne'⟩ := hgf.merge_left hplaced hne hdup
        exact ⟨_, List.mem_append_right _ List.mem_cons_self, hmerged, hne'⟩
      · exact ⟨g, List.mem_append_right _ (List.mem_cons_of_mem _ hafter), hgf, hne⟩
    · obtain rfl := List.mem_singleton.mp hf
      obtain ⟨hmerged, hne⟩ := represents_mergeFindings_right hplaced hdup
      exact ⟨_, List.mem_append_right _ List.mem_cons_self, hmerged, hne⟩
  | none =>
    refine ⟨by simp; omega, ?_⟩
    intro f hf hplaced
    rcases List.mem_append.mp hf with hf | hf
    · obtain ⟨g, hg, hgf⟩ := hrepresented f hf hplaced
      exact ⟨g, List.mem_append_left _ hg, hgf⟩
    · obtain rfl := List.mem_singleton.mp hf
      have hne : f.lineStart ≠ 0 := by
        have := hplaced.1
        omega
      exact ⟨f, List.mem_append_right _ (List.mem_singleton_self f), Represents.refl f, hne⟩

variable (config textSimilarity) in
theorem conserved_detectDuplicates (findings : List ReviewFinding) :
    Conserved findings (detectDuplicates config textSimilarity findings) := by
  have hloop : ∀ (rest taken : List ReviewFinding) (acc : List ReviewFinding × ℕ),
      Conserved taken acc →
      Conserved (taken ++ rest) (rest.foldl (Swarm.detectRound config textSimilarity) acc) := by
    intro rest
    induction rest with
    | nil =>
      intro taken acc h
      rwa [List.append_nil]
    | cons x rest ih =>
      intro taken acc h
      rw [List.append_cons]
      exact ih _ _ (h.detectRound x)
  exact hloop findings [] ([], 0) ⟨rfl, by simp⟩

/-! ## The report -/

/-- The lists of the five severities hold together what the whole list holds. -/
theorem bySeverity_perm (unique : List ReviewFinding) :
    ([Severity.critical, .high, .medium, .low, .info].flatMap fun severity =>
      unique.filter fun f => f.severity = severity).Perm unique := by
  rw [List.perm_iff_count]
  intro f
  have hcount : ∀ severity, (unique.filter fun f => f.severity = severity).count f
      = if f.severity = severity then unique.count f else 0 := by
    intro severity
    split
    case isTrue h => exact List.count_filter (by simpa using h)
    case isFalse h =>
      refine List.count_eq_zero_of_not_mem fun hmem => h ?_
      simpa using (List.mem_filter.mp hmem).2
  simp only [List.flatMap_cons, List.flatMap_nil, List.count_append, hcount]
  cases f.severity <;> simp

variable (config textSimilarity) in
/-- **Conservation of findings.**  The unique findings and the duplicates that were removed
are together as many as the findings of the reviewers that succeeded; each list of the report
holds the unique findings of its severity, and together they hold all of them; and every
placed finding of a reviewer that succeeded is represented in the report. -/
theorem findings_conserved (session : SwarmSession)
    (results : AList fun _ : String => ReviewerResult) (now : Time) :
    let report := aggregate config textSimilarity session results now
    let unique := (detectDuplicates config textSimilarity (successfulFindings results)).1
    report.totalFindings + report.duplicatesRemoved = (successfulFindings results).length ∧
      report.findings.Perm unique ∧ report.totalFindings = unique.length ∧
      (∀ severity, ∀ f, f ∈ report.bucket severity ↔ f ∈ unique ∧ f.severity = severity) ∧
      ∀ f ∈ successfulFindings results, Placed f → ∃ g ∈ report.findings, Represents g f := by
  intro report unique
  obtain ⟨hcount, hrepresented⟩ :=
    conserved_detectDuplicates config textSimilarity (successfulFindings results)
  let sorted := unique.insertionSort fun f g => severityOrder f.severity ≤ severityOrder g.severity
  have hsorted : sorted.Perm unique := List.perm_insertionSort _ unique
  have htotal : report.totalFindings = unique.length := hsorted.length_eq
  have hbucket : ∀ severity, report.bucket severity = sorted.filter fun f => f.severity = severity := by
    intro severity
    cases severity <;> rfl
  have hfindings : report.findings.Perm unique := by
    have hall : report.findings = [Severity.critical, .high, .medium, .low, .info].flatMap
        fun severity => sorted.filter fun f => f.severity = severity :=
      congrArg (fun lists => List.flatMap lists _) (funext hbucket)
    rw [hall]
    exact (bySeverity_perm sorted).trans hsorted
  refine ⟨?_, hfindings, htotal, ?_, ?_⟩
  · rw [htotal]
    exact hcount
  · intro severity f
    rw [hbucket, List.mem_filter, hsorted.mem_iff, decide_eq_true_eq]
  · intro f hf hplaced
    obtain ⟨g, hg, hgf, -⟩ := hrepresented f hf hplaced
    exact ⟨g, hfindings.mem_iff.mpr hg, hgf⟩

end DoxAsdlc.Swarm
