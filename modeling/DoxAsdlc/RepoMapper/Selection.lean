import DoxAsdlc.RepoMapper.ContextBuilder
import DoxAsdlc.RepoMapper.Serialization

/-!
# What the context builder selects

Only target files have the highest score, so they come first, in the order in which they were
added.  The selection is a greedy one: what is taken fits the budget, a target is left out only if
the targets before it leave too little room, and of the other files the most relevant are taken
first.

## Main definitions

* `Chosen` — what is promised of the targets and the other files that are chosen.

## Main results

* `scoreFileRelevance_lt` — a file that is no target scores less than a target.
* `selectRelevantFiles_chosen` — the promise is kept.
-/

namespace DoxAsdlc.RepoMapper

/-! ## Scores -/

theorem float_le_of_dyadic {x : ℚ} (n : ℕ) (k : ℤ) (hx : x ≤ n * 2 ^ k) (hn : n < 2 ^ 53)
    (hk : -1074 ≤ k) : float x ≤ n * 2 ^ k := by
  have h := Binary64.round_mono hx
  rwa [Binary64.round_dyadic hn hk] at h

theorem le_float_of_dyadic {x : ℚ} (n : ℕ) (k : ℤ) (hx : n * 2 ^ k ≤ x) (hn : n < 2 ^ 53)
    (hk : -1074 ≤ k) : n * 2 ^ k ≤ float x := by
  have h := Binary64.round_mono hx
  rwa [Binary64.round_dyadic hn hk] at h

theorem float_nonneg {x : ℚ} (hx : 0 ≤ x) : 0 ≤ float x := by
  simpa using @le_float_of_dyadic x 0 0 (by simpa using hx) (by norm_num) (by norm_num)

/-- Numbers up to fifteen sixteenths stay so when they are rounded. -/
theorem float_le {x : ℚ} (hx : x ≤ 15 / 16) : float x ≤ 15 / 16 := by
  have h := @float_le_of_dyadic x 15 (-4) (by norm_num; linarith) (by norm_num) (by norm_num)
  norm_num at h
  linarith

namespace SymbolExtractor

variable {u : UnicodeTables}

theorem partScore_le (term symbolName : String) : partScore term symbolName ≤ 15 / 16 :=
  (min_le_right _ _).trans (float_le (by norm_num))

theorem scoreRelevance_le (symbol : SymbolInfo) (symbolNames : List String) :
    scoreRelevance u symbol symbolNames ≤ 1 := by
  simp only [scoreRelevance]
  split
  · exact le_rfl
  · split
    · next term _ =>
      have h := partScore_le term (u.lower symbol.name)
      linarith
    · split <;> norm_num

end SymbolExtractor

namespace ContextBuilder

variable {env : Encoding} {b : ContextBuilder} {parsed : MappedFile}
  {targetFiles symbolNames : List String} {tokenBudget : ℤ}

theorem foldl_max_le {A : Type*} {f : A → ℚ} {l : List A} {start bound : ℚ} (hstart : start ≤ bound)
    (hf : ∀ a ∈ l, f a ≤ bound) : l.foldl (fun m a => max m (f a)) start ≤ bound := by
  induction l generalizing start with
  | nil => exact hstart
  | cons a l ih =>
    apply ih
    · exact max_le hstart (hf a List.mem_cons_self)
    · intro a' ha'
      exact hf a' (List.mem_cons_of_mem a ha')

theorem symbolScore_le : symbolScore env parsed symbolNames ≤ 15 / 16 := by
  rw [symbolScore]
  split
  · apply foldl_max_le (by norm_num)
    intro symbol _
    apply float_le
    have hfactor : float 0.8 ≤ 15 / 16 := float_le (by norm_num)
    have hfactor' : 0 ≤ float 0.8 := float_nonneg (by norm_num)
    have hscore := @SymbolExtractor.scoreRelevance_le env.unicode symbol symbolNames
    nlinarith
  · norm_num

theorem scoreFileRelevance_of_target (htarget : parsed.path ∈ targetFiles) :
    b.scoreFileRelevance env parsed targetFiles symbolNames = 1 := by
  rw [scoreFileRelevance, if_pos htarget]

/-- A file that is no target scores less than a target. -/
theorem scoreFileRelevance_lt (htarget : parsed.path ∉ targetFiles) :
    b.scoreFileRelevance env parsed targetFiles symbolNames < 1 := by
  have hsymbols := @symbolScore_le env parsed symbolNames
  have hexports : float 0.2 ≤ 15 / 16 := float_le (by norm_num)
  have hdependency : float 0.4 ≤ 15 / 16 := float_le (by norm_num)
  have hle : b.scoreFileRelevance env parsed targetFiles symbolNames ≤ 15 / 16 := by
    simp only [scoreFileRelevance, if_neg htarget]
    split_ifs <;> simp [hsymbols, hexports, hdependency]
  linarith

/-! ## The loop is a greedy selection -/

/-- A file is looked for: it is a target, or relevant enough. -/
def wanted (env : Encoding) (b : ContextBuilder) (targetFiles symbolNames : List String)
    (parsed : MappedFile) : Bool :=
  parsed.path ∈ targetFiles ||
    float 0.3 < b.scoreFileRelevance env parsed targetFiles symbolNames

theorem selectLoop_eq {used : ℕ} {l : List FileScore} :
    selectLoop targetFiles tokenBudget used l =
      (Greedy.select FileScore.tokenCount
        (fun file => file.filePath ∈ targetFiles || float 0.3 < file.score)
        tokenBudget used l).map FileScore.filePath := by
  induction l generalizing used with
  | nil => rfl
  | cons file rest ih =>
    by_cases htarget : file.filePath ∈ targetFiles
    · by_cases hroom : (used + file.tokenCount : ℤ) ≤ tokenBudget
      · simp [selectLoop, Greedy.select, htarget, hroom, ih]
      · simp [selectLoop, Greedy.select, htarget, hroom, ih]
    · by_cases hroom : float 0.3 < file.score ∧ (used + file.tokenCount : ℤ) ≤ tokenBudget
      · simp [selectLoop, Greedy.select, htarget, hroom, ih]
      · simp [selectLoop, Greedy.select, htarget, hroom, ih]

/-- The files in the order in which they are looked at. -/
def rankedFiles (env : Encoding) (b : ContextBuilder) (targetFiles symbolNames : List String) :
    List MappedFile :=
  Greedy.ranked (b.scoreFileRelevance env · targetFiles symbolNames) b.parsedFiles.rows

theorem selectFiles_eq : b.selectFiles env targetFiles symbolNames tokenBudget =
    (Greedy.select (countParsedFile env) (wanted env b targetFiles symbolNames) tokenBudget 0
      (rankedFiles env b targetFiles symbolNames)).map MappedFile.filePath := by
  rw [selectFiles, selectLoop_eq, Greedy.ranked_map, Greedy.select_map, List.map_map]
  rfl

/-! ## What is chosen -/

/-- What is promised of the targets and of the other files that are chosen: no file twice, the
budget kept, a target left out only where the targets before it leave too little room, and of the
other files the most relevant first. -/
structure Chosen (files : List MappedFile) (tokens : MappedFile → ℕ) (score : MappedFile → ℚ)
    (targetFiles : List String) (tokenBudget : ℤ) (targets others : List MappedFile) : Prop where
  nodup : ((targets ++ others).map MappedFile.filePath).Nodup
  isTarget : ∀ f ∈ targets, f ∈ files ∧ f.path ∈ targetFiles
  notTarget : ∀ f ∈ others, f ∈ files ∧ f.path ∉ targetFiles
  fits : (Greedy.total tokens (targets ++ others) : ℤ) ≤ tokenBudget
  omitted : ∀ before f after, files = before ++ f :: after → f.path ∈ targetFiles → f ∉ targets →
    tokenBudget < Greedy.total tokens (targets.filter (· ∈ before)) + tokens f
  descending : others.Pairwise fun f f' => score f' ≤ score f
  skipped : ∀ f ∈ files, f.path ∉ targetFiles → float 0.3 < score f → f ∉ others →
    tokenBudget < Greedy.total tokens targets +
      Greedy.total tokens (others.filter fun f' => score f ≤ score f') + tokens f

/-- The files that are no targets, in the order in which they are looked at. -/
def rankedOthers (env : Encoding) (b : ContextBuilder) (targetFiles symbolNames : List String) :
    List MappedFile :=
  (rankedFiles env b targetFiles symbolNames).filter fun f => !(f.path ∈ targetFiles)

/-- The targets come first. -/
theorem rankedFiles_eq : rankedFiles env b targetFiles symbolNames =
    b.parsedFiles.rows.filter (·.path ∈ targetFiles) ++
      rankedOthers env b targetFiles symbolNames := by
  apply @Greedy.ranked_eq_append _ _ _ _ _ _ 1
  · intro f _ hf
    exact scoreFileRelevance_of_target (by simpa using hf)
  · intro f _ hf
    exact scoreFileRelevance_lt (by simpa using hf)

theorem mem_rankedOthers {f : MappedFile} :
    f ∈ rankedOthers env b targetFiles symbolNames ↔
      f ∈ b.parsedFiles.rows ∧ f.path ∉ targetFiles := by
  simp [rankedOthers, rankedFiles, Greedy.ranked_perm.mem_iff]

theorem rankedOthers_pairwise : (rankedOthers env b targetFiles symbolNames).Pairwise fun f f' =>
    b.scoreFileRelevance env f' targetFiles symbolNames ≤
      b.scoreFileRelevance env f targetFiles symbolNames :=
  Greedy.ranked_pairwise.sublist List.filter_sublist

section

variable (env b targetFiles symbolNames tokenBudget)

/-- The targets that are chosen. -/
def chosenTargets : List MappedFile :=
  Greedy.select (countParsedFile env) (wanted env b targetFiles symbolNames) tokenBudget 0
    (b.parsedFiles.rows.filter (·.path ∈ targetFiles))

/-- The other files that are chosen. -/
def chosenOthers : List MappedFile :=
  Greedy.select (countParsedFile env) (wanted env b targetFiles symbolNames) tokenBudget
    (Greedy.total (countParsedFile env)
      (chosenTargets env b targetFiles symbolNames tokenBudget))
    (rankedOthers env b targetFiles symbolNames)

end

theorem select_rankedFiles :
    Greedy.select (countParsedFile env) (wanted env b targetFiles symbolNames) tokenBudget 0
        (rankedFiles env b targetFiles symbolNames) =
      chosenTargets env b targetFiles symbolNames tokenBudget ++
        chosenOthers env b targetFiles symbolNames tokenBudget := by
  rw [rankedFiles_eq, Greedy.select_append, Nat.zero_add]
  rfl

/-- A target is left out only if the targets before it leave too little room. -/
theorem omitted_target {before after : List MappedFile} {f : MappedFile}
    (hfiles : b.parsedFiles.rows = before ++ f :: after) (htarget : f.path ∈ targetFiles)
    (hout : f ∉ chosenTargets env b targetFiles symbolNames tokenBudget) :
    tokenBudget < Greedy.total (countParsedFile env)
      ((chosenTargets env b targetFiles symbolNames tokenBudget).filter (· ∈ before)) +
        countParsedFile env f := by
  have hsplit : b.parsedFiles.rows.filter (·.path ∈ targetFiles) =
      before.filter (·.path ∈ targetFiles) ++ f :: after.filter (·.path ∈ targetFiles) := by
    simp [hfiles, htarget]
  have hnodup := b.parsedFiles.nodup_rows
  rw [hfiles, List.nodup_append] at hnodup
  have hchosen := hout
  rw [chosenTargets, hsplit] at hchosen ⊢
  have hroom := Greedy.no_room (by simp [wanted, htarget]) hchosen
  -- What is chosen of the files before is what is chosen before.
  rw [Greedy.select_append, Greedy.filter_append_eq_left]
  · simpa using hroom
  · intro f' hf'
    simpa using (List.mem_filter.mp (Greedy.select_sublist.subset hf')).1
  · intro f' hf'
    have hmem := Greedy.select_sublist.subset hf'
    have hafter : f' ∈ f :: after := by
      cases List.mem_cons.mp hmem with
      | inl hhead => exact hhead ▸ List.mem_cons_self
      | inr htail => exact List.mem_cons_of_mem _ (List.mem_filter.mp htail).1
    simpa using fun hbefore => hnodup.2.2 f' hbefore f' hafter rfl

/-- A file that is relevant enough is left out only if the targets and the files that are as
relevant leave too little room. -/
theorem skipped_other {f : MappedFile} (hf : f ∈ rankedOthers env b targetFiles symbolNames)
    (hscore : float 0.3 < b.scoreFileRelevance env f targetFiles symbolNames)
    (hout : f ∉ chosenOthers env b targetFiles symbolNames tokenBudget) :
    tokenBudget < Greedy.total (countParsedFile env)
        (chosenTargets env b targetFiles symbolNames tokenBudget) +
      Greedy.total (countParsedFile env)
        ((chosenOthers env b targetFiles symbolNames tokenBudget).filter fun f' =>
          b.scoreFileRelevance env f targetFiles symbolNames ≤
            b.scoreFileRelevance env f' targetFiles symbolNames) + countParsedFile env f := by
  obtain ⟨before, after, hsplit⟩ := List.append_of_mem hf
  have hpairs := @rankedOthers_pairwise env b targetFiles symbolNames
  rw [hsplit, List.pairwise_append] at hpairs
  have hchosen := hout
  rw [chosenOthers, hsplit] at hchosen
  have hroom := Greedy.no_room (by simp [wanted, hscore]) hchosen
  rw [chosenOthers, hsplit, Greedy.select_append, List.filter_append, Greedy.total_append]
  rw [List.filter_eq_self.mpr]
  · push_cast
    omega
  · intro f' hf'
    have hbefore := Greedy.select_sublist.subset hf'
    simpa using hpairs.2.2 f' hbefore f List.mem_cons_self

/-- The files that are chosen. -/
theorem chosen (hbudget : 0 ≤ tokenBudget) :
    Chosen b.parsedFiles.rows (countParsedFile env)
      (b.scoreFileRelevance env · targetFiles symbolNames) targetFiles tokenBudget
      (chosenTargets env b targetFiles symbolNames tokenBudget)
      (chosenOthers env b targetFiles symbolNames tokenBudget) where
  nodup := by
    have hranked : ((rankedFiles env b targetFiles symbolNames).map MappedFile.filePath).Nodup :=
      (Greedy.ranked_perm.map _).nodup_iff.mpr b.parsedFiles.nodup
    rw [← select_rankedFiles]
    exact hranked.sublist (Greedy.select_sublist.map _)
  isTarget f hf := by simpa using Greedy.select_sublist.subset hf
  notTarget f hf := mem_rankedOthers.mp (Greedy.select_sublist.subset hf)
  fits := by
    rw [← select_rankedFiles]
    simpa using @Greedy.cost_select_le _ _ _ _ 0 _ (by simpa using hbudget)
  omitted before f after hfiles htarget hout := omitted_target hfiles htarget hout
  descending := rankedOthers_pairwise.sublist Greedy.select_sublist
  skipped f hf htarget hscore hout :=
    skipped_other (mem_rankedOthers.mpr ⟨hf, htarget⟩) hscore hout

/-- The selection keeps the promise, in whatever order the names are listed; where the budget is
negative nothing is selected. -/
theorem selectRelevantFiles_chosen (env : Encoding) (b : ContextBuilder)
    (order : Finset String → List String) (targetFiles : List String) (taskDescription : String)
    (tokenBudget : ℤ) :
    (tokenBudget < 0 →
      b.selectRelevantFiles env order targetFiles taskDescription tokenBudget = []) ∧
    (0 ≤ tokenBudget → ∃ targets others,
      b.selectRelevantFiles env order targetFiles taskDescription tokenBudget =
        (targets ++ others).map MappedFile.filePath ∧
      Chosen b.parsedFiles.rows (countParsedFile env)
        (b.scoreFileRelevance env · targetFiles
          (order (SymbolExtractor.extractSymbolNames env.unicode taskDescription)))
        targetFiles tokenBudget targets others) := by
  constructor
  · intro hbudget
    rw [selectRelevantFiles, selectFiles_eq, Greedy.select_eq_nil hbudget, List.map_nil]
  · intro hbudget
    refine ⟨_, _, ?_, chosen hbudget⟩
    rw [selectRelevantFiles, selectFiles_eq, select_rankedFiles]

/-- Texts of ASCII characters, one token a character. -/
def asciiEncoding : Encoding where
  unicode := ⟨fun c => c.isAlphanum || c == '_', String.toLower⟩
  encode := String.length
  iteration := DependencyGraph.inOrder

/-- A builder with one file. -/
def oneMapped : ContextBuilder := ({} : ContextBuilder).addParsedFile
  { path := "order.py", rawContent := "def order(): ..." }

/-- Nothing is little enough for a negative budget. -/
theorem not_chosen_negative : ¬ ∃ targets others,
    oneMapped.selectRelevantFiles asciiEncoding (fun names => names.sort) ["order.py"] "" (-1) =
      (targets ++ others).map MappedFile.filePath ∧
    Chosen oneMapped.parsedFiles.rows (countParsedFile asciiEncoding)
      (oneMapped.scoreFileRelevance asciiEncoding · ["order.py"] []) ["order.py"] (-1) targets
      others := by
  intro h
  obtain ⟨targets, others, _, hchosen⟩ := h
  have hfits := hchosen.fits
  omega

end ContextBuilder

end DoxAsdlc.RepoMapper
