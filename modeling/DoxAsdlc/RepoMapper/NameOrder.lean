import DoxAsdlc.RepoMapper.Selection

/-!
# Whether the order of the extracted names matters

The extracted names are a set, listed in some order, and of the names that are a part of a symbol
the first one decides its score.  The scores and the selection are the same for all orders exactly
where no such name counts for more than the file counts for in every order: by an export, by a
target that depends on it, or by a symbol of its own whose every name counts for as much.

## Main definitions

* `Listing`, `OrderIndependent` — the orders, and what is promised of them.
* `Sure` — what a file counts for in every order.

## Main results

* `orderIndependent_iff` — when the promise is kept.
-/

namespace DoxAsdlc.RepoMapper

/-- An order in which sets of names are listed. -/
def Listing :=
  { order : Finset String → List String // ∀ s, (order s).Nodup ∧ ∀ x, x ∈ order s ↔ x ∈ s }

/-! ## The score of a symbol -/

namespace SymbolExtractor

variable {u : UnicodeTables} {names : Finset String} {listed : List String} {name : String}
  {symbol : SymbolInfo} {v : ℚ}

/-- A name is the name of a symbol. -/
def Exact (u : UnicodeTables) (names : Finset String) (symbol : SymbolInfo) : Prop :=
  ∃ name ∈ names, u.lower name = u.lower symbol.name

/-- A name is a part of the name of a symbol. -/
def Part (u : UnicodeTables) (name : String) (symbol : SymbolInfo) : Prop :=
  contains (u.lower name) (u.lower symbol.name) = true

/-- The name of a symbol is a part of a name. -/
def Within (u : UnicodeTables) (name : String) (symbol : SymbolInfo) : Prop :=
  contains (u.lower symbol.name) (u.lower name) = true

/-- What the score of a symbol counts for in its file. -/
def counted (score : ℚ) : ℚ := floatMul score (float 0.8)

/-- What a symbol counts for by a name that is a part of it. -/
def weight (u : UnicodeTables) (name : String) (symbol : SymbolInfo) : ℚ :=
  counted (partScore (u.lower name) (u.lower symbol.name))

/-- A symbol counts for a number at least, in whatever order the names are listed. -/
def SureSymbol (u : UnicodeTables) (names : Finset String) (symbol : SymbolInfo) (v : ℚ) : Prop :=
  Exact u names symbol ∧ v ≤ counted 1 ∨
  (¬ Exact u names symbol ∧ (∃ name ∈ names, Part u name symbol) ∧
    ∀ name ∈ names, Part u name symbol → v ≤ weight u name symbol) ∨
  (¬ Exact u names symbol ∧ (∀ name ∈ names, ¬ Part u name symbol) ∧
    (∃ name ∈ names, Within u name symbol) ∧ v ≤ counted 0.5)

theorem counted_mono {x y : ℚ} (h : x ≤ y) : counted x ≤ counted y := by
  apply Binary64.round_mono
  have hfactor : 0 ≤ float 0.8 := float_nonneg (by norm_num)
  gcongr

@[simp] theorem counted_zero : counted 0 = 0 := by
  simp [counted, floatMul, Binary64.round]

theorem partScore_nonneg (term symbolName : String) : 0 ≤ partScore term symbolName := by
  have h₁ : 0 ≤ float 0.7 := float_nonneg (by norm_num)
  have h₂ : 0 ≤ float ((term.length : ℚ) / symbolName.length) := float_nonneg (by positivity)
  apply le_min
  · exact float_nonneg (mul_nonneg h₁ h₂)
  · exact float_nonneg (by norm_num)

theorem weight_nonneg : 0 ≤ weight u name symbol := by
  rw [weight, ← counted_zero]
  exact counted_mono (partScore_nonneg _ _)

/-- A longer name counts for more. -/
theorem weight_mono {name' : String} (h : (u.lower name).length ≤ (u.lower name').length) :
    weight u name symbol ≤ weight u name' symbol := by
  apply counted_mono
  apply min_le_min_right
  apply Binary64.round_mono
  have hfactor : 0 ≤ float 0.7 := float_nonneg (by norm_num)
  have hquotient : float (((u.lower name).length : ℚ) / (u.lower symbol.name).length) ≤
      float (((u.lower name').length : ℚ) / (u.lower symbol.name).length) := by
    apply Binary64.round_mono
    gcongr
  gcongr

/-- What the score of a symbol comes from. -/
theorem scoreRelevance_cases (hlisted : ∀ x, x ∈ listed ↔ x ∈ names) :
    Exact u names symbol ∧ scoreRelevance u symbol listed = 1 ∨
    (¬ Exact u names symbol ∧ ∃ name ∈ names, Part u name symbol ∧
      listed.find? (fun x => contains (u.lower x) (u.lower symbol.name)) = some name ∧
      scoreRelevance u symbol listed = partScore (u.lower name) (u.lower symbol.name)) ∨
    (¬ Exact u names symbol ∧ (∀ name ∈ names, ¬ Part u name symbol) ∧
      (∃ name ∈ names, Within u name symbol) ∧ scoreRelevance u symbol listed = 0.5) ∨
    (¬ Exact u names symbol ∧ (∀ name ∈ names, ¬ Part u name symbol) ∧
      (∀ name ∈ names, ¬ Within u name symbol) ∧ scoreRelevance u symbol listed = 0) := by
  have hexact : u.lower symbol.name ∈ listed.map u.lower ↔ Exact u names symbol := by
    simp [Exact, hlisted]
  have hwithin : (listed.map u.lower).any (contains (u.lower symbol.name)) = true ↔
      ∃ name ∈ names, Within u name symbol := by
    simp [Within, hlisted]
  simp only [scoreRelevance]
  by_cases h : Exact u names symbol
  · exact .inl ⟨h, if_pos (hexact.mpr h)⟩
  rw [if_neg (mt hexact.mp h), List.find?_map]
  right
  cases hterm : listed.find? ((contains · (u.lower symbol.name)) ∘ u.lower) with
  | some name =>
    left
    have hpart : Part u name symbol := by simpa [Part] using List.find?_some hterm
    exact ⟨h, name, (hlisted name).mp (List.mem_of_find?_eq_some hterm), hpart, hterm, rfl⟩
  | none =>
    right
    have hnone : ∀ name ∈ names, ¬ Part u name symbol := by
      intro name hname
      simpa [Part] using List.find?_eq_none.mp hterm name ((hlisted name).mpr hname)
    by_cases hw : ∃ name ∈ names, Within u name symbol
    · exact .inl ⟨h, hnone, hw, by simp [hwithin.mpr hw]⟩
    · refine .inr ⟨h, hnone, by simpa using hw, ?_⟩
      have hw' := mt hwithin.mp hw
      simp [hw']

theorem sureSymbol_of_exact (h : Exact u names symbol) :
    SureSymbol u names symbol v ↔ v ≤ counted 1 := by
  simp [SureSymbol, h]

theorem sureSymbol_of_part (h : ¬ Exact u names symbol) (hname : name ∈ names)
    (hpart : Part u name symbol) : SureSymbol u names symbol v ↔
      ∀ name ∈ names, Part u name symbol → v ≤ weight u name symbol := by
  have hsome : ∃ name ∈ names, Part u name symbol := ⟨name, hname, hpart⟩
  have hnone : ¬ ∀ name ∈ names, ¬ Part u name symbol := fun hnone => hnone name hname hpart
  simp only [SureSymbol, h, hsome, hnone, false_and, true_and, not_false_eq_true, and_false,
    false_or, or_false]

theorem sureSymbol_of_no_part (h : ¬ Exact u names symbol)
    (hnone : ∀ name ∈ names, ¬ Part u name symbol) : SureSymbol u names symbol v ↔
      (∃ name ∈ names, Within u name symbol) ∧ v ≤ counted 0.5 := by
  have hsome : ¬ ∃ name ∈ names, Part u name symbol :=
    fun ⟨name, hname, hpart⟩ => hnone name hname hpart
  simp only [SureSymbol, h, hsome, false_and, true_and, not_false_eq_true, and_false, false_or]
  exact and_iff_right hnone

/-- What a symbol is sure to count for, it counts for. -/
theorem SureSymbol.le (h : SureSymbol u names symbol v)
    (hlisted : ∀ x, x ∈ listed ↔ x ∈ names) : v ≤ counted (scoreRelevance u symbol listed) := by
  rcases @scoreRelevance_cases u names listed symbol hlisted with
    ⟨hexact, hscore⟩ | ⟨hexact, name, hname, hpart, _, hscore⟩ | ⟨hexact, hnone, _, hscore⟩ |
      ⟨hexact, hnone, hwithin, _⟩
  · rw [hscore]
    exact (sureSymbol_of_exact hexact).mp h
  · rw [hscore]
    exact (sureSymbol_of_part hexact hname hpart).mp h name hname hpart
  · rw [hscore]
    exact ((sureSymbol_of_no_part hexact hnone).mp h).2
  · obtain ⟨name, hname, hw⟩ := ((sureSymbol_of_no_part hexact hnone).mp h).1
    exact absurd hw (hwithin name hname)

/-- Of the names that are a part of a symbol, the first one is the shortest. -/
def ShortestFirst (u : UnicodeTables) (listed : List String) : Prop :=
  listed.Pairwise fun name name' => (u.lower name).length ≤ (u.lower name').length

theorem find?_of_pairwise {A : Type*} {r : A → A → Prop} {p : A → Bool} {l : List A} {a b : A}
    (h : l.Pairwise r) (hfind : l.find? p = some a) (hb : b ∈ l) (hp : p b = true) :
    b = a ∨ r a b := by
  obtain ⟨_, before, after, rfl, hbefore⟩ := List.find?_eq_some_iff_append.mp hfind
  rcases List.mem_append.mp hb with hmem | hmem
  · exact absurd hp (by simpa using hbefore b hmem)
  · rcases List.mem_cons.mp hmem with heq | hafter
    · exact .inl heq
    · exact .inr ((List.pairwise_cons.mp (List.pairwise_append.mp h).2.1).1 b hafter)

/-- Where the shortest names come first, a symbol is sure to count for what it counts for. -/
theorem sureSymbol_of_le (hlisted : ∀ x, x ∈ listed ↔ x ∈ names) (hshort : ShortestFirst u listed)
    (hv : v ≤ counted (scoreRelevance u symbol listed)) :
    SureSymbol u names symbol v ∨ v ≤ 0 := by
  rcases @scoreRelevance_cases u names listed symbol hlisted with
    ⟨hexact, hscore⟩ | ⟨hexact, name, hname, hpart, hfind, hscore⟩ |
      ⟨hexact, hnone, hwithin, hscore⟩ | ⟨_, _, _, hscore⟩
  · exact .inl ((sureSymbol_of_exact hexact).mpr (hscore ▸ hv))
  · refine .inl ((sureSymbol_of_part hexact hname hpart).mpr fun name' hname' hpart' => ?_)
    rw [hscore] at hv
    apply hv.trans
    rcases find?_of_pairwise hshort hfind ((hlisted name').mpr hname') hpart' with rfl | hlength
    · exact le_rfl
    · exact weight_mono hlength
  · exact .inl ((sureSymbol_of_no_part hexact hnone).mpr ⟨hwithin, hscore ▸ hv⟩)
  · right
    simpa [hscore] using hv

end SymbolExtractor

/-! ## The score of a file -/

namespace ContextBuilder

open SymbolExtractor

variable {env : Encoding} {b : ContextBuilder} {parsed : MappedFile} {names : Finset String}
  {listed listed' targetFiles : List String} {v : ℚ}

/-- A file counts for a number at least, in whatever order the names are listed: a symbol does,
or the file has an export with a name as a part, or a target depends on it. -/
def Sure (env : Encoding) (b : ContextBuilder) (targetFiles : List String)
    (names : Finset String) (parsed : MappedFile) (v : ℚ) : Prop :=
  (∃ symbol ∈ parsed.symbols, SureSymbol env.unicode names symbol v) ∨
  ((∃ export_ ∈ parsed.exports, ∃ name ∈ names,
    contains (env.unicode.lower name) (env.unicode.lower export_) = true) ∧ v ≤ float 0.2) ∨
  (b.dependencyOfTarget env parsed targetFiles = true ∧ v ≤ float 0.4)

theorem le_foldl_max {A : Type*} {f : A → ℚ} {l : List A} {start : ℚ} :
    v ≤ l.foldl (fun m a => max m (f a)) start ↔ v ≤ start ∨ ∃ a ∈ l, v ≤ f a := by
  induction l generalizing start with
  | nil => simp
  | cons a l ih => simp [ih, or_assoc]

theorem le_symbolScore : v ≤ symbolScore env parsed listed ↔
    v ≤ 0 ∨ ∃ symbol ∈ parsed.symbols, v ≤ counted (scoreRelevance env.unicode symbol listed) := by
  by_cases hlisted : listed = []
  · subst hlisted
    simp [symbolScore, scoreRelevance]
  · rw [symbolScore, if_pos hlisted]
    exact le_foldl_max

theorem exportsName_iff (hlisted : ∀ x, x ∈ listed ↔ x ∈ names) :
    exportsName env parsed listed = true ↔ ∃ export_ ∈ parsed.exports, ∃ name ∈ names,
      contains (env.unicode.lower name) (env.unicode.lower export_) = true := by
  simp [exportsName, hlisted]

/-- What the score of a file that is no target comes from. -/
theorem le_scoreFileRelevance (hlisted : ∀ x, x ∈ listed ↔ x ∈ names)
    (htarget : parsed.path ∉ targetFiles) :
    v ≤ b.scoreFileRelevance env parsed targetFiles listed ↔
      v ≤ 0 ∨ (∃ symbol ∈ parsed.symbols, v ≤ counted (scoreRelevance env.unicode symbol listed)) ∨
      ((∃ export_ ∈ parsed.exports, ∃ name ∈ names,
        contains (env.unicode.lower name) (env.unicode.lower export_) = true) ∧ v ≤ float 0.2) ∨
      (b.dependencyOfTarget env parsed targetFiles = true ∧ v ≤ float 0.4) := by
  rw [← exportsName_iff hlisted]
  simp only [scoreFileRelevance, if_neg htarget]
  have hsymbols := @le_symbolScore env parsed listed v
  split_ifs with hexports hdependency hdependency
  all_goals simp [hsymbols, hexports, hdependency, or_assoc]

/-- What a file is sure to count for, it counts for. -/
theorem Sure.le (h : b.Sure env targetFiles names parsed v)
    (hlisted : ∀ x, x ∈ listed ↔ x ∈ names) (htarget : parsed.path ∉ targetFiles) :
    v ≤ b.scoreFileRelevance env parsed targetFiles listed := by
  apply (le_scoreFileRelevance hlisted htarget).mpr
  right
  rcases h with ⟨symbol, hsymbol, hsure⟩ | hexports | hdependency
  · exact .inl ⟨symbol, hsymbol, hsure.le hlisted⟩
  · exact .inr (.inl hexports)
  · exact .inr (.inr hdependency)

/-- No name that is a part of a symbol counts for more than its file is sure to count for. -/
def NoneDecides (env : Encoding) (b : ContextBuilder) (targetFiles : List String)
    (names : Finset String) : Prop :=
  ∀ parsed ∈ b.parsedFiles.rows, parsed.path ∉ targetFiles → ∀ symbol ∈ parsed.symbols,
    ¬ Exact env.unicode names symbol → ∀ name ∈ names, Part env.unicode name symbol →
      b.Sure env targetFiles names parsed (weight env.unicode name symbol)

theorem NoneDecides.score_le (h : b.NoneDecides env targetFiles names)
    (hlisted : ∀ x, x ∈ listed ↔ x ∈ names) (hlisted' : ∀ x, x ∈ listed' ↔ x ∈ names)
    (hparsed : parsed ∈ b.parsedFiles.rows) :
    b.scoreFileRelevance env parsed targetFiles listed ≤
      b.scoreFileRelevance env parsed targetFiles listed' := by
  by_cases htarget : parsed.path ∈ targetFiles
  · rw [scoreFileRelevance_of_target htarget, scoreFileRelevance_of_target htarget]
  have hself := (le_scoreFileRelevance (b := b) (v := b.scoreFileRelevance env parsed targetFiles
    listed) hlisted htarget).mp le_rfl
  rcases hself with hzero | ⟨symbol, hsymbol, hscore⟩ | hrest
  · exact (le_scoreFileRelevance hlisted' htarget).mpr (.inl hzero)
  · have hcontributes : (∃ symbol ∈ parsed.symbols, b.scoreFileRelevance env parsed targetFiles
        listed ≤ counted (scoreRelevance env.unicode symbol listed')) →
        b.scoreFileRelevance env parsed targetFiles listed ≤
          b.scoreFileRelevance env parsed targetFiles listed' :=
      fun hsymbols => (le_scoreFileRelevance hlisted' htarget).mpr (.inr (.inl hsymbols))
    rcases @scoreRelevance_cases env.unicode names listed symbol hlisted with
      ⟨hexact, hown⟩ | ⟨hexact, name, hname, hpart, _, hown⟩ | ⟨hexact, hnone, hwithin, hown⟩ |
        ⟨_, _, _, hown⟩
    · have hsure := (sureSymbol_of_exact (v := counted 1) hexact).mpr le_rfl
      exact hcontributes ⟨symbol, hsymbol, (hown ▸ hscore).trans (hsure.le hlisted')⟩
    · have hsure := h parsed hparsed htarget symbol hsymbol hexact name hname hpart
      exact (hown ▸ hscore).trans (hsure.le hlisted' htarget)
    · have hsure := (sureSymbol_of_no_part (v := counted 0.5) hexact hnone).mpr
        ⟨hwithin, le_rfl⟩
      exact hcontributes ⟨symbol, hsymbol, (hown ▸ hscore).trans (hsure.le hlisted')⟩
    · rw [hown, counted_zero] at hscore
      exact (le_scoreFileRelevance hlisted' htarget).mpr (.inl hscore)
  · exact (le_scoreFileRelevance hlisted' htarget).mpr (.inr (.inr hrest))

/-! ## The orders -/

/-- The scores and the selection are the same in all orders of the extracted names. -/
def OrderIndependent (env : Encoding) (b : ContextBuilder) (targetFiles : List String)
    (taskDescription : String) : Prop :=
  ∀ order order' : Listing,
    b.getRelevanceScores env order.val targetFiles taskDescription =
      b.getRelevanceScores env order'.val targetFiles taskDescription ∧
    ∀ tokenBudget, b.selectRelevantFiles env order.val targetFiles taskDescription tokenBudget =
      b.selectRelevantFiles env order'.val targetFiles taskDescription tokenBudget

theorem selectFiles_congr {tokenBudget : ℤ}
    (h : ∀ parsed ∈ b.parsedFiles.rows, b.scoreFileRelevance env parsed targetFiles listed =
      b.scoreFileRelevance env parsed targetFiles listed') :
    b.selectFiles env targetFiles listed tokenBudget =
      b.selectFiles env targetFiles listed' tokenBudget := by
  simp only [selectFiles]
  rw [List.map_congr_left]
  intro parsed hparsed
  rw [h parsed hparsed]

/-- The names in any order that lists these names so. -/
theorem exists_listing (hnodup : listed.Nodup) (hlisted : ∀ x, x ∈ listed ↔ x ∈ names) :
    ∃ order : Listing, order.val names = listed := by
  refine ⟨⟨fun s => if s = names then listed else s.sort, fun s => ?_⟩, if_pos rfl⟩
  by_cases hs : s = names
  · subst hs
    simp [hnodup, hlisted]
  · simp [hs]

/-- The names with the shortest first. -/
def shortestFirst (u : UnicodeTables) (names : Finset String) : List String :=
  (Joined.sorted names).mergeSort fun name name' => (u.lower name).length ≤ (u.lower name').length

theorem mem_shortestFirst {u : UnicodeTables} {x : String} :
    x ∈ shortestFirst u names ↔ x ∈ names := by
  simp [shortestFirst]

theorem shortestFirst_nodup {u : UnicodeTables} : (shortestFirst u names).Nodup :=
  (List.mergeSort_perm _ _).nodup_iff.mpr Joined.sorted_nodup

theorem shortestFirst_pairwise {u : UnicodeTables} :
    ShortestFirst u (shortestFirst u names) := by
  have h := @List.pairwise_mergeSort String
    (fun name name' => decide ((u.lower name).length ≤ (u.lower name').length))
    (fun _ _ _ hab hbc => by simp at hab hbc ⊢; exact hab.trans hbc)
    (fun _ _ => by simp [le_total]) (Joined.sorted names)
  simpa [ShortestFirst, shortestFirst] using h

/-- Where the scores are the same in all orders, none of the names decides. -/
theorem noneDecides_of_scores
    (h : ∀ listed listed' : List String, listed.Nodup → listed'.Nodup →
      (∀ x, x ∈ listed ↔ x ∈ names) → (∀ x, x ∈ listed' ↔ x ∈ names) →
      ∀ parsed ∈ b.parsedFiles.rows, b.scoreFileRelevance env parsed targetFiles listed =
        b.scoreFileRelevance env parsed targetFiles listed') :
    b.NoneDecides env targetFiles names := by
  intro parsed hparsed htarget symbol hsymbol hexact name hname hpart
  -- One order has the name first, the other one the shortest names.
  have hmem : ∀ x, x ∈ name :: (names.erase name).sort ↔ x ∈ names := by
    intro x
    by_cases hx : x = name
    · simp [hx, hname]
    · simp [hx]
  have hnodup : (name :: (names.erase name).sort).Nodup := by
    simp
  have hfirst : weight env.unicode name symbol ≤
      b.scoreFileRelevance env parsed targetFiles (name :: (names.erase name).sort) := by
    apply (le_scoreFileRelevance hmem htarget).mpr
    refine .inr (.inl ⟨symbol, hsymbol, ?_⟩)
    rcases @scoreRelevance_cases env.unicode names _ symbol hmem with
      ⟨h, _⟩ | ⟨_, name', _, _, hfind, hscore⟩ | ⟨_, hnone, _⟩ | ⟨_, hnone, _⟩
    · exact absurd h hexact
    · have hhead : contains (env.unicode.lower name) (env.unicode.lower symbol.name) = true := hpart
      simp only [List.find?_cons, hhead, Option.some.injEq] at hfind
      rw [hscore, ← hfind]
      exact le_rfl
    · exact absurd hpart (hnone name hname)
    · exact absurd hpart (hnone name hname)
  rw [h _ _ hnodup shortestFirst_nodup hmem (fun _ => mem_shortestFirst) parsed hparsed] at hfirst
  -- What counts for nothing counts for no more than the name.
  have hown : weight env.unicode name symbol ≤ 0 →
      b.Sure env targetFiles names parsed (weight env.unicode name symbol) := by
    intro hzero
    refine .inl ⟨symbol, hsymbol, (sureSymbol_of_part hexact hname hpart).mpr fun _ _ _ => ?_⟩
    exact hzero.trans weight_nonneg
  rcases (le_scoreFileRelevance (fun _ => mem_shortestFirst) htarget).mp hfirst with
    hzero | ⟨symbol', hsymbol', hscore⟩ | hrest
  · exact hown hzero
  · rcases sureSymbol_of_le (fun _ => mem_shortestFirst) shortestFirst_pairwise hscore with
      hsure | hzero
    · exact .inl ⟨symbol', hsymbol', hsure⟩
    · exact hown hzero
  · exact .inr hrest

/-- The scores and the selection do not depend on the order of the names exactly where no name
counts for more than its file is sure to count for. -/
theorem orderIndependent_iff (env : Encoding) (b : ContextBuilder) (targetFiles : List String)
    (taskDescription : String) :
    b.OrderIndependent env targetFiles taskDescription ↔
      b.NoneDecides env targetFiles
        (extractSymbolNames env.unicode taskDescription) := by
  constructor
  · intro h
    apply noneDecides_of_scores
    intro listed listed' hnodup hnodup' hlisted hlisted' parsed hparsed
    obtain ⟨order, rfl⟩ := exists_listing hnodup hlisted
    obtain ⟨order', rfl⟩ := exists_listing hnodup' hlisted'
    have hscores := List.map_inj_left.mp (h order order').1 parsed hparsed
    exact (Prod.mk.inj hscores).2
  · intro h order order'
    have hscores : ∀ parsed ∈ b.parsedFiles.rows,
        b.scoreFileRelevance env parsed targetFiles
            (order.val (extractSymbolNames env.unicode taskDescription)) =
          b.scoreFileRelevance env parsed targetFiles
            (order'.val (extractSymbolNames env.unicode taskDescription)) := by
      intro parsed hparsed
      have hle := h.score_le (order.property _).2 (order'.property _).2 hparsed
      have hge := h.score_le (order'.property _).2 (order.property _).2 hparsed
      exact le_antisymm hle hge
    constructor
    · apply List.map_congr_left
      intro parsed hparsed
      rw [hscores parsed hparsed]
    · intro tokenBudget
      exact selectFiles_congr hscores

/-- A file whose one symbol has two names of the description as parts. -/
def processOrder : ContextBuilder := ({} : ContextBuilder).addParsedFile
  { path := "order.py", rawContent := "def process_order(): ..."
    symbols := [⟨"process_order", .function, "order.py", 1, 1, none, none, []⟩] }

/-- In one order the file is selected, in the other one it is not. -/
theorem not_orderIndependent :
    ¬ processOrder.OrderIndependent asciiEncoding [] "process() order()" := by
  intro h
  have hnames : extractSymbolNames asciiEncoding.unicode "process() order()" =
      {"process", "order"} := by decide +kernel
  obtain ⟨order, horder⟩ := @exists_listing {"process", "order"} ["process", "order"]
    (by decide) (by simp)
  obtain ⟨order', horder'⟩ := @exists_listing {"process", "order"} ["order", "process"]
    (by decide) (by simp [or_comm])
  have hselected := (h order order').2 100
  rw [selectRelevantFiles, selectRelevantFiles, hnames, horder, horder'] at hselected
  have hfirst : processOrder.selectFiles asciiEncoding [] ["process", "order"] 100 =
      ["order.py"] := by decide +kernel
  have hsecond : processOrder.selectFiles asciiEncoding [] ["order", "process"] 100 = [] := by
    decide +kernel
  simp [hfirst, hsecond] at hselected

end ContextBuilder

end DoxAsdlc.RepoMapper
