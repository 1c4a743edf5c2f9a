import DoxAsdlc.Knowledge.Stores

/-!
# Whether the two knowledge stores mean the same

The two stores after the same operations, asked for the same query with the same filters.  In
memory a filter is a value that stands in the metadata; Elasticsearch is asked for strings, for one
of several, and for dates in a range, and answers with ten hits at most.

## Main definitions

* `Op`, `Both` — operations, and the two stores.
* `OneMeaning` — what is promised of a search.
* `Carries`, `Sees` — what a filter asks of the metadata in the one store and in the other.

## Main results

* `oneMeaning_iff` — when the promise is kept.
-/

namespace DoxAsdlc.Knowledge

/-! ## Operations on both stores -/

inductive Op where
  | index (document : Document)
  | delete (docId : String)

/-- The id that an operation is about. -/
def Op.docId : Op → String
  | index document => document.docId
  | delete docId => docId

/-- An id that can be used. -/
def Op.Valid (op : Op) : Prop := op.docId ≠ "" ∧ op.docId.length ≤ 512

instance (op : Op) : Decidable op.Valid := inferInstanceAs (Decidable (_ ∧ _))

/-- The store in memory, and that in Elasticsearch. -/
structure Both where
  mock : MockAnthologyStore := {}
  elastic : ElasticsearchStore := {}

variable (env : Env)

/-- An operation on both. -/
def Both.step (b : Both) : Op → Both
  | .index document => {
      mock := b.mock.indexDocument env document
      elastic := (b.elastic.indexDocument env document).2 }
  | .delete docId => {
      mock := (b.mock.delete docId).2
      elastic := (b.elastic.delete docId).2 }

/-- The stores after a sequence of operations. -/
def Both.after (ops : List Op) : Both := ops.foldl (Both.step env) {}

/-! ## The promise -/

/-- The documents that pass the filters in memory. -/
def mockAdmitted (filters : Filters) (s : MockAnthologyStore) : List String :=
  (s.documents.entries.filter fun e => MockAnthologyStore.passes filters e.2.metadata).map Prod.fst

/-- The documents that the clauses admit in Elasticsearch. -/
def elasticAdmitted (filters : Filters) (s : ElasticsearchStore) : List String :=
  (s.sources.entries.filter fun e =>
    (buildFilter filters).all (Clause.admits env e.2.metadata)).map Prod.fst

/-- As many results as there may be, each for another one of the admitted documents. -/
structure Answers (results : List SearchResult) (admitted : List String) (topK : ℕ) : Prop where
  length : results.length = min topK admitted.length
  distinct : (results.map SearchResult.docId).Nodup
  admitted : ∀ r ∈ results, r.docId ∈ admitted

/-- What is promised of a search in both stores. -/
structure OneMeaning (b : Both) (query : String) (topK : ℕ) (filters : Filters) : Prop where
  same : ∀ docId, docId ∈ mockAdmitted filters b.mock ↔
    docId ∈ elasticAdmitted env filters b.elastic
  inMemory : ∃ results, b.mock.search env query topK filters = .ok results ∧
    Answers results (mockAdmitted filters b.mock) topK
  inElastic : ∃ results, b.elastic.search env query topK filters = .ok results ∧
    Answers results (elasticAdmitted env filters b.elastic) topK

/-! ## What filters ask of the metadata -/

/-- Under each key of the filters stands an equal value. -/
def Carries (filters : Filters) (metadata : Metadata) : Prop :=
  ∀ f ∈ filters, ∃ value found, f.2 = .one (some value) ∧ metadata.lookup f.1 = some found ∧
    found.same value = true

/-- The value that was given last for a key. -/
def lastValue (key : String) : Filters → Option FilterValue
  | [] => none
  | f :: filters => (lastValue key filters).or (if f.1 = key then some f.2 else none)

/-- A key that is not for dates. -/
def Ordinary (key : String) : Prop := key ≠ "date_from" ∧ key ≠ "date_to"

instance (key : String) : Decidable (Ordinary key) := inferInstanceAs (Decidable (_ ∧ _))

/-- The string is the value of a filter, or one of its values. -/
def IsOneOf (s : String) : FilterValue → Prop
  | .one value => ∃ v, value = some v ∧ s = env.token v
  | .many values => ∃ v, some v ∈ values ∧ s = env.token v

/-- Under each key that is not for dates, with `file_types` read as `file_type`, stands a string of
the keyword subfield that is the value or one of the values; and where there are dates, the document
was indexed between them. -/
structure Sees (filters : Filters) (metadata : Metadata) : Prop where
  strings : ∀ f ∈ filters, Ordinary f.1 → ∃ s, metadata.lookup (filterKey f.1) = some (.str s) ∧
    env.keyword (filterKey f.1) s = true ∧ IsOneOf env s f.2
  dates : (lastValue "date_from" filters ≠ none ∨ lastValue "date_to" filters ≠ none) →
    ∃ found t, metadata.lookup "indexed_at" = some found ∧ env.dateOf found = some t ∧
      (∀ bound, lastValue "date_from" filters = some (.one (some bound)) → env.lower bound ≤ t) ∧
      ∀ bound, lastValue "date_to" filters = some (.one (some bound)) → t ≤ env.upper bound

/-- Elasticsearch can read the values: none of them is `None` but for a bound, and no bound is a
list. -/
structure Readable (filters : Filters) : Prop where
  values : ∀ f ∈ filters, Ordinary f.1 → ∀ value, f.2 = .one value → value ≠ none
  lists : ∀ f ∈ filters, Ordinary f.1 → ∀ values, f.2 = .many values → none ∉ values
  bounds : ∀ values, lastValue "date_from" filters ≠ some (.many values) ∧
    lastValue "date_to" filters ≠ some (.many values)

section

variable {env} {filters : Filters} {metadata : Metadata}

theorem passes_iff : MockAnthologyStore.passes filters metadata = true ↔
    Carries filters metadata := by
  simp only [MockAnthologyStore.passes, List.all_eq_true, Carries]
  apply forall₂_congr
  intro f _
  obtain ⟨key, value⟩ := f
  cases value with
  | one value =>
    cases value with
    | none => simp [MockAnthologyStore.hasValue]
    | some value => simp [MockAnthologyStore.hasValue, Option.any_eq_true]
  | many values => simp [MockAnthologyStore.hasValue]

/-- The clause of a filter that is not for dates. -/
def clauseOf (f : String × FilterValue) : Option Clause :=
  if Ordinary f.1 then
    match f.2 with
    | .one value => some (.term (filterKey f.1) value)
    | .many values => some (.terms (filterKey f.1) values)
  else none

/-- What the loop of `_build_filter` comes to. -/
theorem foldl_buildStep (b : Building) : filters.foldl buildStep b = {
    clauses := b.clauses ++ filters.filterMap clauseOf
    gte := (lastValue "date_from" filters).or b.gte
    lte := (lastValue "date_to" filters).or b.lte } := by
  induction filters generalizing b with
  | nil => simp [lastValue]
  | cons f filters ih =>
    rw [List.foldl_cons, ih]
    by_cases hfrom : f.1 = "date_from"
    · simp [buildStep, hfrom, clauseOf, Ordinary, lastValue]
    · by_cases hto : f.1 = "date_to"
      · simp [buildStep, hto, clauseOf, Ordinary, lastValue]
      · cases hvalue : f.2 <;>
          simp [buildStep, hfrom, hto, hvalue, clauseOf, Ordinary, lastValue]

/-- The clauses of the filters. -/
theorem mem_buildFilter {clause : Clause} : clause ∈ buildFilter filters ↔
    (∃ f ∈ filters, clauseOf f = some clause) ∨
      ((lastValue "date_from" filters ≠ none ∨ lastValue "date_to" filters ≠ none) ∧
        clause = .range (lastValue "date_from" filters) (lastValue "date_to" filters)) := by
  have hbuild : buildFilter filters = filters.filterMap clauseOf ++
      (if (lastValue "date_from" filters).isSome || (lastValue "date_to" filters).isSome then
        [.range (lastValue "date_from" filters) (lastValue "date_to" filters)] else []) := by
    simp [buildFilter, foldl_buildStep]
  rw [hbuild, List.mem_append, List.mem_filterMap]
  apply or_congr_right
  split
  · rename_i h
    have hsome : lastValue "date_from" filters ≠ none ∨ lastValue "date_to" filters ≠ none := by
      simpa [Option.isSome_iff_ne_none] using h
    simp [hsome]
  · rename_i h
    have hnone : ¬ (lastValue "date_from" filters ≠ none ∨ lastValue "date_to" filters ≠ none) := by
      simpa [Option.isSome_iff_ne_none] using h
    simp [hnone]

theorem keywordOf_eq_some {key s : String} : keywordOf env metadata key = some s ↔
    metadata.lookup key = some (.str s) ∧ env.keyword key s = true := by
  rw [keywordOf]
  cases hfound : metadata.lookup key with
  | none => simp
  | some found =>
    cases found with
    | str t =>
      by_cases hk : env.keyword key t = true
      · simp only [if_pos hk, Option.some.injEq, Scalar.str.injEq]
        exact ⟨fun h => ⟨h, h ▸ hk⟩, fun h => h.1⟩
      · simp only [if_neg hk, Option.some.injEq, Scalar.str.injEq]
        refine iff_of_false (by simp) ?_
        rintro ⟨rfl, hs⟩
        exact hk hs
    | _ => simp

/-- What a clause of a filter that is not for dates admits. -/
theorem admits_clauseOf {f : String × FilterValue} (hf : Ordinary f.1) {clause : Clause}
    (hclause : clauseOf f = some clause) : clause.admits env metadata = true ↔
      ∃ s, metadata.lookup (filterKey f.1) = some (.str s) ∧
        env.keyword (filterKey f.1) s = true ∧ IsOneOf env s f.2 := by
  obtain ⟨key, value⟩ := f
  cases value with
  | one value =>
    have hterm : clause = .term (filterKey key) value := by
      simpa [clauseOf, hf, eq_comm] using hclause
    simp [hterm, Clause.admits, IsOneOf, Option.any_eq_true, keywordOf_eq_some, and_assoc]
  | many values =>
    have hterms : clause = .terms (filterKey key) values := by
      simpa [clauseOf, hf, eq_comm] using hclause
    simp only [hterms, Clause.admits, IsOneOf, Option.any_eq_true, keywordOf_eq_some,
      List.any_eq_true, beq_iff_eq, and_assoc]
    constructor
    · rintro ⟨s, hs, hk, value, hvalue, v, rfl, hv⟩
      exact ⟨s, hs, hk, v, hvalue, hv⟩
    · rintro ⟨s, hs, hk, v, hvalue, hv⟩
      exact ⟨s, hs, hk, some v, hvalue, v, rfl, hv⟩

theorem boundary_eq_some {read : Scalar → Time} {value : Option FilterValue} {t : Time} :
    boundary read value = some t ↔ ∃ bound, value = some (.one (some bound)) ∧ read bound = t := by
  match value with
  | none => simp [boundary]
  | some (.one none) => simp [boundary]
  | some (.one (some bound)) => simp [boundary]
  | some (.many values) => simp [boundary]

/-- **What the clauses admit.** -/
theorem admits_iff : (buildFilter filters).all (Clause.admits env metadata) = true ↔
    Sees env filters metadata := by
  rw [List.all_eq_true]
  constructor
  · intro h
    constructor
    · intro f hf hordinary
      cases hclause : clauseOf f with
      | none =>
        obtain ⟨key, value⟩ := f
        cases value <;> simp [clauseOf, hordinary] at hclause
      | some clause =>
        exact (admits_clauseOf hordinary hclause).mp
          (h clause (mem_buildFilter.mpr (.inl ⟨f, hf, hclause⟩)))
    · intro hdates
      have hrange := h _ (mem_buildFilter.mpr (.inr ⟨hdates, rfl⟩))
      simp only [Clause.admits, Option.any_eq_true, Option.bind_eq_some_iff, Bool.and_eq_true,
        Option.all_eq_true, boundary_eq_some, decide_eq_true_eq] at hrange
      obtain ⟨t, ⟨found, hfound, ht⟩, hlower, hupper⟩ := hrange
      refine ⟨found, t, hfound, ht, ?_, ?_⟩
      · intro bound hbound
        exact hlower _ ⟨bound, hbound, rfl⟩
      · intro bound hbound
        exact hupper _ ⟨bound, hbound, rfl⟩
  · intro h clause hclause
    rcases mem_buildFilter.mp hclause with ⟨f, hf, hclause⟩ | ⟨hdates, rfl⟩
    · have hordinary : Ordinary f.1 := by
        by_contra hnot
        simp [clauseOf, hnot] at hclause
      exact (admits_clauseOf hordinary hclause).mpr (h.strings f hf hordinary)
    · obtain ⟨found, t, hfound, ht, hlower, hupper⟩ := h.dates hdates
      simp only [Clause.admits, Option.any_eq_true, Option.bind_eq_some_iff, Bool.and_eq_true,
        Option.all_eq_true, boundary_eq_some, decide_eq_true_eq]
      refine ⟨t, ⟨found, hfound, ht⟩, ?_, ?_⟩
      · rintro _ ⟨bound, hbound, rfl⟩
        exact hlower bound hbound
      · rintro _ ⟨bound, hbound, rfl⟩
        exact hupper bound hbound

/-- **When the clauses can be parsed.** -/
theorem wellFormed_iff : (buildFilter filters).all Clause.wellFormed = true ↔ Readable filters := by
  rw [List.all_eq_true]
  constructor
  · intro h
    refine ⟨?_, ?_, ?_⟩
    · rintro ⟨key, value⟩ hf hordinary value rfl
      have hterm := h (.term (filterKey key) value)
        (mem_buildFilter.mpr (.inl ⟨_, hf, by simp [clauseOf, hordinary]⟩))
      exact Option.isSome_iff_ne_none.mp hterm
    · rintro ⟨key, value⟩ hf hordinary values rfl hnone
      have hterms := h (.terms (filterKey key) values)
        (mem_buildFilter.mpr (.inl ⟨_, hf, by simp [clauseOf, hordinary]⟩))
      have hsome := List.all_eq_true.mp hterms none hnone
      cases hsome
    · intro values
      constructor
      · intro hfrom
        have hrange := h _ (mem_buildFilter.mpr (.inr ⟨.inl (by simp [hfrom]), rfl⟩))
        simp [Clause.wellFormed, hfrom] at hrange
      · intro hto
        have hrange := h _ (mem_buildFilter.mpr (.inr ⟨.inr (by simp [hto]), rfl⟩))
        simp [Clause.wellFormed, hto] at hrange
  · intro h clause hclause
    rcases mem_buildFilter.mp hclause with ⟨⟨key, value⟩, hf, hclause⟩ | ⟨-, rfl⟩
    · have hordinary : Ordinary key := by
        by_contra hnot
        simp [clauseOf, hnot] at hclause
      cases value with
      | one value =>
        have hterm : clause = .term (filterKey key) value := by
          simpa [clauseOf, hordinary, eq_comm] using hclause
        rw [hterm]
        exact Option.isSome_iff_ne_none.mpr (h.values _ hf hordinary value rfl)
      | many values =>
        have hterms : clause = .terms (filterKey key) values := by
          simpa [clauseOf, hordinary, eq_comm] using hclause
        rw [hterms]
        apply List.all_eq_true.mpr
        intro value hvalue
        apply Option.isSome_iff_ne_none.mpr
        rintro rfl
        exact h.lists _ hf hordinary values rfl hvalue
    · simp only [Clause.wellFormed, List.all_cons, List.all_nil, Bool.and_true, Bool.and_eq_true]
      constructor
      · split
        · rename_i values hfrom
          exact absurd hfrom (h.bounds values).1
        · rfl
      · split
        · rename_i values hto
          exact absurd hto (h.bounds values).2
        · rfl

end

/-! ## The stores hold the same -/

/-- The stores hold the same documents, under their ids. -/
structure Agree (b : Both) : Prop where
  embeddings : b.mock.embeddings
    = b.mock.documents.map fun document => env.generateEmbedding document.content
  sources : b.elastic.sources = b.mock.documents.map (ElasticsearchStore.body env)
  ids : ∀ e ∈ b.mock.documents.entries, e.2.docId = e.1

section

variable {env} {b : Both}

theorem Agree.step (h : Agree env b) {op : Op} (hop : op.Valid) : Agree env (b.step env op) := by
  have hvalid : ElasticsearchStore.validateDocId op.docId = .ok () := by
    obtain ⟨hne, hlength⟩ := hop
    simp [ElasticsearchStore.validateDocId, hne, hlength]
  cases op with
  | index document =>
    have hvalid : ElasticsearchStore.validateDocId document.docId = .ok () := hvalid
    refine ⟨?_, ?_, ?_⟩
    · simp [Both.step, MockAnthologyStore.indexDocument, OrderedDict.map_set, h.embeddings]
    · simp [Both.step, MockAnthologyStore.indexDocument, ElasticsearchStore.indexDocument, hvalid,
        OrderedDict.map_set, h.sources]
    · exact OrderedDict.forall_set h.ids rfl
  | delete docId =>
    have hvalid : ElasticsearchStore.validateDocId docId = .ok () := hvalid
    have hsource : b.elastic.sources.get? docId
        = (b.mock.documents.get? docId).map (ElasticsearchStore.body env) := by
      rw [h.sources, OrderedDict.get?_map]
    cases hfound : b.mock.documents.get? docId with
    | none =>
      have hsame : b.step env (.delete docId) = b := by
        simp [Both.step, MockAnthologyStore.delete, ElasticsearchStore.delete, hvalid, hsource,
          hfound]
      rw [hsame]
      exact h
    | some document =>
      refine ⟨?_, ?_, ?_⟩
      · simp [Both.step, MockAnthologyStore.delete, hfound, OrderedDict.map_erase, h.embeddings]
      · simp [Both.step, MockAnthologyStore.delete, ElasticsearchStore.delete, hvalid, hfound,
          OrderedDict.map_erase, h.sources]
      · simp only [Both.step, MockAnthologyStore.delete, hfound]
        exact OrderedDict.forall_erase h.ids

/-- After operations with valid ids both stores hold the same. -/
theorem agree_after {ops : List Op} (hvalid : ∀ op ∈ ops, op.Valid) :
    Agree env (Both.after env ops) := by
  have hrun : ∀ b, Agree env b → Agree env (ops.foldl (Both.step env) b) := by
    induction ops with
    | nil => exact fun b h => h
    | cons op ops ih =>
      intro b h
      exact ih (fun op hop => hvalid op (List.mem_cons_of_mem _ hop)) _
        (h.step (hvalid op List.mem_cons_self))
  exact hrun {} ⟨rfl, rfl, fun e he => by cases he⟩

/-! ## Searches -/

theorem byScore_perm {A : Type} (l : List (A × ℚ)) : (byScore l).Perm l := List.mergeSort_perm _ _

/-- The best of scored documents. -/
theorem answers_take {A : Type} {l : List (A × ℚ)} {result : A × ℚ → SearchResult}
    (id : A × ℚ → String) (hresult : ∀ x ∈ l, (result x).docId = id x) {admitted : List String}
    (hadmitted : l.map id = admitted) (hnodup : admitted.Nodup) (k : ℕ) :
    Answers (((byScore l).take k).map result) admitted k := by
  have hmem {x : A × ℚ} (hx : x ∈ (byScore l).take k) : x ∈ l :=
    (byScore_perm l).mem_iff.mp (List.mem_of_mem_take hx)
  have hids : (((byScore l).take k).map result).map SearchResult.docId
      = ((byScore l).take k).map id := by
    rw [List.map_map]
    exact List.map_congr_left fun x hx => hresult x (hmem hx)
  refine ⟨?_, ?_, ?_⟩
  · have hlength : l.length = admitted.length := by rw [← hadmitted, List.length_map]
    rw [List.length_map, List.length_take, (byScore_perm l).length_eq, hlength]
  · rw [hids]
    have hperm : ((byScore l).map id).Nodup :=
      (((byScore_perm l).map id).nodup_iff).mpr (hadmitted ▸ hnodup)
    exact hperm.sublist ((List.take_sublist _ _).map id)
  · intro r hr
    obtain ⟨x, hx, rfl⟩ := List.mem_map.mp hr
    rw [hresult x (hmem hx), ← hadmitted]
    exact List.mem_map_of_mem (hmem hx)

/-- The answers to a smaller request. -/
theorem answers_iff {results : List SearchResult} {admitted : List String} {k topK : ℕ}
    (h : Answers results admitted k) :
    Answers results admitted topK ↔ min k admitted.length = min topK admitted.length := by
  constructor
  · intro h'
    rw [← h.length, h'.length]
  · intro hk
    exact ⟨h.length.trans hk, h.distinct, h.admitted⟩

theorem nodup_mockAdmitted (filters : Filters) (s : MockAnthologyStore) :
    (mockAdmitted filters s).Nodup := s.documents.nodup.sublist (List.filter_sublist.map _)

theorem nodup_elasticAdmitted (filters : Filters) (s : ElasticsearchStore) :
    (elasticAdmitted env filters s).Nodup := s.sources.nodup.sublist (List.filter_sublist.map _)

/-- The documents in memory that pass the filters, with their scores. -/
def mockScored (env : Env) (query : String) (filters : Filters) (s : MockAnthologyStore) :
    List (String × ℚ) :=
  (s.documents.entries.filter fun e => MockAnthologyStore.passes filters e.2.metadata).map fun e =>
    (e.1, env.cosineSimilarity (env.generateEmbedding query) (env.generateEmbedding e.2.content))

/-- The loop over the embeddings. -/
theorem Agree.scores (h : Agree env b) (query : String) (filters : Filters) :
    ∃ scores, b.mock.embeddings.entries.mapM
        (b.mock.scored env filters (env.generateEmbedding query)) = .ok scores ∧
      scores.filterMap id = mockScored env query filters b.mock := by
  refine ⟨b.mock.documents.entries.map fun e =>
    if MockAnthologyStore.passes filters e.2.metadata then
      some (e.1, env.cosineSimilarity (env.generateEmbedding query)
        (env.generateEmbedding e.2.content))
    else none, ?_, ?_⟩
  · rw [h.embeddings, OrderedDict.map, List.mapM_map]
    apply mapM_eq_map
    intro e he
    have hdocument : b.mock.document e.1 = .ok e.2 := by
      simp [MockAnthologyStore.document, b.mock.documents.get?_of_mem he]
    simp only [Function.comp_apply, MockAnthologyStore.scored, hdocument, Bind.bind, Except.bind]
    split <;> rfl
  · rw [mockScored, List.filterMap_map, ← List.filterMap_eq_map, List.filterMap_filter]
    apply List.filterMap_congr
    intro e _
    simp only [Function.comp_apply, id_eq]

/-- The result that is built for a scored document. -/
def resultOf (s : MockAnthologyStore) (e : String × ℚ) : SearchResult where
  docId := e.1
  content := ((s.documents.get? e.1).map Document.content).getD ""
  score := e.2
  metadata := ((s.documents.get? e.1).map Document.metadata).getD []

theorem found_eq {query : String} {filters : Filters} {e : String × ℚ}
    (he : e ∈ mockScored env query filters b.mock) : b.mock.found e = .ok (resultOf b.mock e) := by
  obtain ⟨e', he', rfl⟩ := List.mem_map.mp he
  have hfound := b.mock.documents.get?_of_mem (List.mem_filter.mp he').1
  simp [MockAnthologyStore.found, MockAnthologyStore.document, hfound, resultOf, Bind.bind,
    Except.bind, pure, Except.pure]

/-- **A search in memory.** -/
theorem Agree.search_mock (h : Agree env b) (query : String) (topK : ℕ) (filters : Filters) :
    ∃ results, b.mock.search env query topK filters = .ok results ∧
      Answers results (mockAdmitted filters b.mock) topK := by
  cases hentries : b.mock.documents.entries.isEmpty with
  | true =>
    have hnil : b.mock.documents.entries = [] := List.isEmpty_iff.mp hentries
    refine ⟨[], by simp [MockAnthologyStore.search, hentries], ?_⟩
    constructor <;> simp [mockAdmitted, hnil]
  | false =>
    obtain ⟨scores, hscores, hscored⟩ := h.scores query filters
    refine ⟨((byScore (mockScored env query filters b.mock)).take topK).map (resultOf b.mock),
      ?_, ?_⟩
    · simp only [MockAnthologyStore.search, hentries, Bool.false_eq_true, if_false, hscores,
        Bind.bind, Except.bind, hscored]
      apply mapM_eq_map
      intro e he
      exact found_eq ((byScore_perm _).mem_iff.mp (List.mem_of_mem_take he))
    · apply answers_take Prod.fst (fun _ _ => rfl) _ (nodup_mockAdmitted filters b.mock)
      rw [mockScored, mockAdmitted, List.map_map]
      rfl

/-- **A search in Elasticsearch.** -/
theorem Agree.search_elastic (h : Agree env b) (query : String) {topK : ℕ} (hpos : 1 ≤ topK)
    (hcandidates : topK ≤ env.numCandidates) {filters : Filters} (hreadable : Readable filters) :
    ∃ results, b.elastic.search env query topK filters = .ok results ∧
      Answers results (elasticAdmitted env filters b.elastic) (min defaultSize topK) := by
  have hparsed : ¬ (topK = 0 ∨ env.numCandidates < topK ∨
      (buildFilter filters).all Clause.wellFormed = false) := by
    have hwell := wellFormed_iff.mpr hreadable
    rw [hwell]
    simp
    omega
  refine ⟨_, by rw [ElasticsearchStore.search, knnSearch, if_neg hparsed], ?_⟩
  rw [List.take_take]
  apply answers_take (fun hit => hit.1.docId) (fun _ _ => rfl) _
    (nodup_elasticAdmitted filters b.elastic)
  have hids : ∀ e ∈ b.elastic.sources.entries, e.2.docId = e.1 := by
    rw [h.sources]
    intro e he
    obtain ⟨e', he', rfl⟩ := List.mem_map.mp he
    exact h.ids e' he'
  rw [List.map_map, elasticAdmitted, OrderedDict.values, List.filter_map, List.map_map]
  apply List.map_congr_left
  intro e he
  exact hids e (List.mem_filter.mp he).1

end

/-! ## When the promise is kept -/

section

variable {env} {b : Both} {filters : Filters}

theorem mem_mockAdmitted {docId : String} : docId ∈ mockAdmitted filters b.mock ↔
    ∃ document, (docId, document) ∈ b.mock.documents.entries ∧
      Carries filters document.metadata := by
  simp [mockAdmitted, passes_iff]

theorem Agree.mem_elasticAdmitted (h : Agree env b) {docId : String} :
    docId ∈ elasticAdmitted env filters b.elastic ↔
      ∃ document, (docId, document) ∈ b.mock.documents.entries ∧
        Sees env filters document.metadata := by
  simp only [elasticAdmitted, h.sources, OrderedDict.map, List.mem_map, List.mem_filter,
    admits_iff, Prod.exists]
  constructor
  · rintro ⟨docId', source, ⟨⟨docId'', document, hmem, heq⟩, hsees⟩, rfl⟩
    cases heq
    exact ⟨document, hmem, hsees⟩
  · rintro ⟨document, hmem, hsees⟩
    exact ⟨docId, ElasticsearchStore.body env document, ⟨⟨docId, document, hmem, rfl⟩, hsees⟩, rfl⟩

/-- The same documents are admitted when the filters ask the same of each. -/
theorem Agree.same_iff (h : Agree env b) :
    (∀ docId, docId ∈ mockAdmitted filters b.mock ↔
      docId ∈ elasticAdmitted env filters b.elastic) ↔
      ∀ document ∈ b.mock.documents.values,
        Carries filters document.metadata ↔ Sees env filters document.metadata := by
  have hunique {docId : String} {d d' : Document} (hd : (docId, d) ∈ b.mock.documents.entries)
      (hd' : (docId, d') ∈ b.mock.documents.entries) : d' = d :=
    Option.some.inj ((b.mock.documents.get?_of_mem hd').symm.trans
      (b.mock.documents.get?_of_mem hd))
  constructor
  · intro hsame document hdocument
    obtain ⟨⟨docId, document⟩, hmem, rfl⟩ := List.mem_map.mp hdocument
    constructor
    · intro hcarries
      obtain ⟨d, hd, hsees⟩ := h.mem_elasticAdmitted.mp
        ((hsame docId).mp (mem_mockAdmitted.mpr ⟨document, hmem, hcarries⟩))
      exact hunique hmem hd ▸ hsees
    · intro hsees
      obtain ⟨d, hd, hcarries⟩ := mem_mockAdmitted.mp
        ((hsame docId).mpr (h.mem_elasticAdmitted.mpr ⟨document, hmem, hsees⟩))
      exact hunique hmem hd ▸ hcarries
  · intro halike docId
    rw [mem_mockAdmitted, h.mem_elasticAdmitted]
    apply exists_congr
    intro document
    apply and_congr_right
    intro hmem
    exact halike document (List.mem_map.mpr ⟨_, hmem, rfl⟩)

/-- A search that succeeds has been parsed. -/
theorem readable_of_search {query : String} {topK : ℕ} {results : List SearchResult}
    (h : b.elastic.search env query topK filters = .ok results) : Readable filters := by
  apply wellFormed_iff.mp
  by_contra hnot
  have hmalformed : (buildFilter filters).all Clause.wellFormed = false := by simpa using hnot
  simp [ElasticsearchStore.search, knnSearch, hmalformed] at h

end

/-- What the documents, the filters and the number of results have to be like: Elasticsearch can
read the filters; they ask the same of every document in both stores; and no more results are
wanted, or found, than a response holds. -/
structure Clear (b : Both) (topK : ℕ) (filters : Filters) : Prop where
  readable : Readable filters
  alike : ∀ document ∈ b.mock.documents.values,
    Carries filters document.metadata ↔ Sees env filters document.metadata
  few : topK ≤ defaultSize ∨ (b.mock.documents.values.filter fun document =>
    MockAnthologyStore.passes filters document.metadata).length ≤ defaultSize

/-- **When the two stores mean the same.** -/
theorem oneMeaning_iff (env : Env) (ops : List Op) (query : String) (topK : ℕ) (filters : Filters)
    (hvalid : ∀ op ∈ ops, op.Valid) (hpos : 1 ≤ topK) (hcandidates : topK ≤ env.numCandidates) :
    OneMeaning env (Both.after env ops) query topK filters ↔
      Clear env (Both.after env ops) topK filters := by
  have h : Agree env (Both.after env ops) := agree_after hvalid
  generalize Both.after env ops = b at h ⊢
  have hcount : (b.mock.documents.values.filter fun document =>
      MockAnthologyStore.passes filters document.metadata).length
        = (mockAdmitted filters b.mock).length := by
    simp [OrderedDict.values, mockAdmitted, List.filter_map, Function.comp_def]
  have hlength (hsame : ∀ docId, docId ∈ mockAdmitted filters b.mock ↔
      docId ∈ elasticAdmitted env filters b.elastic) :
      (elasticAdmitted env filters b.elastic).length = (mockAdmitted filters b.mock).length :=
    ((List.perm_ext_iff_of_nodup (nodup_elasticAdmitted filters b.elastic)
      (nodup_mockAdmitted filters b.mock)).mpr fun docId => (hsame docId).symm).length_eq
  constructor
  · intro hone
    obtain ⟨results, hsearch, hanswers⟩ := hone.inElastic
    have hreadable := readable_of_search hsearch
    refine ⟨hreadable, h.same_iff.mp hone.same, ?_⟩
    obtain ⟨results', hsearch', hanswers'⟩ := h.search_elastic query hpos hcandidates hreadable
    rw [hsearch] at hsearch'
    cases hsearch'
    have hmin := (answers_iff hanswers').mp hanswers
    rw [hlength hone.same] at hmin
    rw [hcount]
    omega
  · intro hclear
    have hsame := h.same_iff.mpr hclear.alike
    refine ⟨hsame, h.search_mock query topK filters, ?_⟩
    obtain ⟨results, hsearch, hanswers⟩ := h.search_elastic query hpos hcandidates hclear.readable
    refine ⟨results, hsearch, (answers_iff hanswers).mpr ?_⟩
    have hfew := hclear.few
    rw [hcount] at hfew
    rw [hlength hsame]
    omega

/-! ## Filters for strings -/

/-- A single string under a key of its own, which the keyword subfield holds. -/
def Plain (f : String × FilterValue) : Prop :=
  Ordinary f.1 ∧ f.1 ≠ "file_types" ∧
    ∃ s, f.2 = .one (some (.str s)) ∧ env.keyword f.1 s = true

theorem lastValue_eq_none {key : String} {filters : Filters} (h : ∀ f ∈ filters, f.1 ≠ key) :
    lastValue key filters = none := by
  induction filters with
  | nil => rfl
  | cons f filters ih =>
    have hf : f.1 ≠ key := h f List.mem_cons_self
    simp [lastValue, hf, ih fun f hf => h f (List.mem_cons_of_mem _ hf)]

theorem same_str {found : Scalar} {s : String} : found.same (.str s) = true ↔ found = .str s := by
  cases found <;> simp [Scalar.same, Scalar.number]

/-- **Filters for strings ask the same in both stores.** -/
theorem alike_of_plain {filters : Filters} (hplain : ∀ f ∈ filters, Plain env f)
    (metadata : Metadata) : Carries filters metadata ↔ Sees env filters metadata := by
  constructor
  · intro h
    constructor
    · intro f hf _
      obtain ⟨-, hkey, s, hs, hkeyword⟩ := hplain f hf
      obtain ⟨value, found, hvalue, hfound, hsame⟩ := h f hf
      rw [hs] at hvalue
      cases hvalue
      rw [same_str.mp hsame] at hfound
      refine ⟨s, ?_, ?_, ?_⟩
      · rwa [filterKey, if_neg hkey]
      · rwa [filterKey, if_neg hkey]
      · rw [hs]
        exact ⟨_, rfl, rfl⟩
    · have hfrom := lastValue_eq_none fun f hf => (hplain f hf).1.1
      have hto := lastValue_eq_none fun f hf => (hplain f hf).1.2
      rintro (hdate | hdate)
      · exact absurd hfrom hdate
      · exact absurd hto hdate
  · intro h f hf
    obtain ⟨hordinary, hkey, s, hs, -⟩ := hplain f hf
    obtain ⟨t, hfound, -, hone⟩ := h.strings f hf hordinary
    rw [filterKey, if_neg hkey] at hfound
    rw [hs] at hone
    obtain ⟨v, hv, rfl⟩ := hone
    cases hv
    exact ⟨.str s, _, hs, hfound, same_str.mpr rfl⟩

/-- Embeddings of one number, and keyword subfields for all strings. -/
def exampleEnv : Env where
  generateEmbedding := fun text => [text.length]
  cosineSimilarity := fun _ _ => 1
  embed := fun text => [text.length]
  similarity := fun _ _ => 1
  keyword := fun _ _ => true
  render := fun _ => ""
  dateOf := fun _ => none
  lower := fun _ => 0
  upper := fun _ => 0
  numCandidates := 100

/-- A document about a file of a type. -/
def fileDocument (docId fileType : String) : Document where
  docId := docId
  content := "hello"
  metadata := [("file_type", .str fileType)]

/-- A search for files of one type means the same in both stores. -/
theorem oneMeaning_fileType : OneMeaning exampleEnv
    (Both.after exampleEnv [.index (fileDocument "a" ".py"), .index (fileDocument "b" ".md"),
      .index (fileDocument "c" ".py"), .delete "a"])
    "greeting" 5 [("file_type", .one (some (.str ".py")))] := by
  have hplain : ∀ f ∈ [("file_type", FilterValue.one (some (.str ".py")))], Plain exampleEnv f := by
    intro f hf
    obtain rfl := List.mem_singleton.mp hf
    exact ⟨by decide, by decide, ".py", rfl, rfl⟩
  apply (oneMeaning_iff exampleEnv _ "greeting" 5 _ (by decide) (by decide) (by decide)).mpr
  refine ⟨⟨?_, ?_, ?_⟩, fun document _ => alike_of_plain exampleEnv hplain _, .inl (by decide)⟩
  · intro f hf _ value hvalue
    obtain rfl := List.mem_singleton.mp hf
    cases hvalue
    simp
  · intro f hf _ values hvalues
    obtain rfl := List.mem_singleton.mp hf
    cases hvalues
  · intro values
    simp [lastValue]

/-- **Two meanings**: the types of files are a list of values for Elasticsearch, and a key that no
document has in memory. -/
theorem not_oneMeaning_fileTypes : ¬ OneMeaning exampleEnv
    (Both.after exampleEnv [.index (fileDocument "a" ".py")]) "greeting" 5
    [("file_types", .many [some (.str ".py")])] := by
  intro h
  have hsame := h.same "a"
  revert hsame
  decide

end DoxAsdlc.Knowledge
