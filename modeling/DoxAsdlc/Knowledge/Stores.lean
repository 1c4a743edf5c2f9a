import DoxAsdlc.Core.Exceptions
import DoxAsdlc.Structures.OrderedDict
import Mathlib.Algebra.Order.Ring.Rat

/-!
# Two knowledge stores

Documents with metadata are kept in memory, for tests, or in Elasticsearch.  Both are searched for
the documents nearest to a query that pass the filters, each in a way of its own: in memory a filter
is a value that the metadata must have; for Elasticsearch filters become clauses of a query.

The stores are those of one tenant, and a search sees every operation before it.

## Main definitions

* `Document`, `FilterValue`, `SearchResult` — the data.
* `MockAnthologyStore` — the store in memory, and its operations.
* `Clause`, `knnSearch` — what Elasticsearch makes of a query.
* `ElasticsearchStore`, `buildFilter` — the store in Elasticsearch, and its operations.
-/

namespace DoxAsdlc.Knowledge

/-! ## Documents and filters -/

/-- `MetadataValue`. -/
inductive Scalar where
  | str (s : String)
  | int (n : ℤ)
  | float (x : ℚ)
  | bool (b : Bool)
  deriving DecidableEq, Repr

/-- A value as a number. -/
def Scalar.number : Scalar → Option ℚ
  | .str _ => none
  | .int n => some n
  | .float x => some x
  | .bool b => some (if b then 1 else 0)

/-- `a == b`, where numbers and truth values are compared as numbers. -/
def Scalar.same : Scalar → Scalar → Bool
  | .str s, .str t => s == t
  | a, b => match a.number, b.number with
    | some x, some y => x == y
    | _, _ => false

abbrev Metadata := List (String × Scalar)

/-- The value of a filter: a single one, which may be `None`, or a list. -/
inductive FilterValue where
  | one (value : Option Scalar)
  | many (values : List (Option Scalar))
  deriving DecidableEq, Repr

abbrev Filters := List (String × FilterValue)

abbrev Embedding := List ℚ

structure Document where
  docId : String
  content : String
  metadata : Metadata := []
  embedding : Option Embedding := none
  deriving DecidableEq, Repr

structure SearchResult where
  docId : String
  content : String
  score : ℚ
  metadata : Metadata := []
  source : Option String := none
  deriving DecidableEq, Repr

/-- Embeddings and their similarity in the two stores, and how Elasticsearch reads values. -/
structure Env where
  generateEmbedding : String → Embedding
  cosineSimilarity : Embedding → Embedding → ℚ
  /-- `EmbeddingService.embed`. -/
  embed : String → Embedding
  /-- The similarity of the index. -/
  similarity : Embedding → Embedding → ℚ
  /-- A string is in the keyword subfield of its field. -/
  keyword : String → String → Bool
  /-- A number or a truth value as it is compared with a string. -/
  render : Scalar → String
  /-- The instant that a value stands for in a date field. -/
  dateOf : Scalar → Option Time
  /-- The instants that the bounds of a range stand for. -/
  lower : Scalar → Time
  upper : Scalar → Time
  numCandidates : ℕ

/-- Results in the order of their scores, equal ones as they come. -/
def byScore {A : Type} (l : List (A × ℚ)) : List (A × ℚ) := l.mergeSort fun a b => b.2 ≤ a.2

variable (env : Env)

/-! ## The store in memory -/

structure MockAnthologyStore where
  documents : OrderedDict String Document := .empty
  embeddings : OrderedDict String Embedding := .empty

namespace MockAnthologyStore

/-- `index_document`. -/
def indexDocument (document : Document) (s : MockAnthologyStore) : MockAnthologyStore where
  documents := s.documents.set document.docId document
  embeddings := s.embeddings.set document.docId (env.generateEmbedding document.content)

/-- `delete`. -/
def delete (docId : String) (s : MockAnthologyStore) : Bool × MockAnthologyStore :=
  match s.documents.get? docId with
  | some _ =>
    (true, { documents := s.documents.erase docId, embeddings := s.embeddings.erase docId })
  | none => (false, s)

/-- `doc.metadata[key] == value`. -/
def hasValue (metadata : Metadata) (key : String) : FilterValue → Bool
  | .one (some value) => (metadata.lookup key).any fun found => found.same value
  | _ => false

/-- The loop over the filters. -/
def passes (filters : Filters) (metadata : Metadata) : Bool :=
  filters.all fun f => hasValue metadata f.1 f.2

/-- `documents[doc_id]`. -/
def document (s : MockAnthologyStore) (docId : String) : Except Error Document :=
  match s.documents.get? docId with
  | some doc => .ok doc
  | none => .error ⟨.keyError, "'" ++ docId ++ "'", []⟩

/-- The score of a document, if it passes the filters. -/
def scored (filters : Filters) (queryEmbedding : Embedding) (s : MockAnthologyStore)
    (e : String × Embedding) : Except Error (Option (String × ℚ)) := do
  let doc ← s.document e.1
  if passes filters doc.metadata then
    return some (e.1, env.cosineSimilarity queryEmbedding e.2)
  else
    return none

/-- The result for a scored document. -/
def found (s : MockAnthologyStore) (e : String × ℚ) : Except Error SearchResult := do
  let doc ← s.document e.1
  return { docId := e.1, content := doc.content, score := e.2, metadata := doc.metadata }

/-- `search`. -/
def search (query : String) (topK : ℕ) (filters : Filters) (s : MockAnthologyStore) :
    Except Error (List SearchResult) :=
  if s.documents.entries.isEmpty then .ok []
  else do
    let queryEmbedding := env.generateEmbedding query
    let scores ← s.embeddings.entries.mapM (s.scored env filters queryEmbedding)
    ((byScore (scores.filterMap id)).take topK).mapM s.found

end MockAnthologyStore

/-! ## Queries to Elasticsearch -/

/-- A clause of a filter.  The field of `term` and `terms` is `metadata.{key}.keyword`, and that of
`range` is `metadata.indexed_at`. -/
inductive Clause where
  | term (key : String) (value : Option Scalar)
  | terms (key : String) (values : List (Option Scalar))
  | range (gte lte : Option FilterValue)
  deriving DecidableEq

/-- A value as it is looked up in a keyword field. -/
def Env.token : Scalar → String
  | .str s => s
  | value => env.render value

/-- The string in a keyword subfield. -/
def keywordOf (metadata : Metadata) (key : String) : Option String :=
  match metadata.lookup key with
  | some (.str s) => if env.keyword key s then some s else none
  | _ => none

/-- The instant of a bound, if there is one. -/
def boundary (read : Scalar → Time) : Option FilterValue → Option Time
  | some (.one (some value)) => some (read value)
  | _ => none

namespace Clause

/-- A clause that can be parsed: no value is `None`, and no bound is a list. -/
def wellFormed : Clause → Bool
  | term _ value => value.isSome
  | terms _ values => values.all Option.isSome
  | range gte lte => [gte, lte].all fun bound => match bound with
    | some (.many _) => false
    | _ => true

/-- The clause admits a document. -/
def admits (metadata : Metadata) : Clause → Bool
  | term key value => (keywordOf env metadata key).any fun s => value.any fun v => s == env.token v
  | terms key values => (keywordOf env metadata key).any fun s =>
    values.any fun value => value.any fun v => s == env.token v
  | range gte lte => ((metadata.lookup "indexed_at").bind env.dateOf).any fun t =>
    ((boundary env.lower gte).all fun bound => bound ≤ t) &&
      (boundary env.upper lte).all fun bound => t ≤ bound

end Clause

/-- What is stored of a document. -/
structure Source where
  docId : String
  content : String
  embedding : Embedding
  metadata : Metadata
  deriving DecidableEq

/-- The hits that a response holds when no size is asked for. -/
def defaultSize : ℕ := 10

/-- A search for the `k` nearest documents that all clauses admit. -/
def knnSearch (k : ℕ) (clauses : List Clause) (query : Embedding) (sources : List Source) :
    Except Error (List (Source × ℚ)) :=
  if k = 0 ∨ env.numCandidates < k ∨ clauses.all Clause.wellFormed = false then
    .error ⟨.exception, "ApiError", []⟩
  else
    let admitted := sources.filter fun source => clauses.all (Clause.admits env source.metadata)
    let scored := admitted.map fun source => (source, env.similarity query source.embedding)
    .ok (((byScore scored).take k).take defaultSize)

/-! ## The store in Elasticsearch -/

/-- `FILTER_KEY_MAP.get(key, key)`. -/
def filterKey (key : String) : String := if key = "file_types" then "file_type" else key

/-- What the loop of `_build_filter` collects. -/
structure Building where
  clauses : List Clause := []
  gte : Option FilterValue := none
  lte : Option FilterValue := none

/-- One turn of the loop. -/
def buildStep (b : Building) (f : String × FilterValue) : Building :=
  if f.1 = "date_from" then { b with gte := some f.2 }
  else if f.1 = "date_to" then { b with lte := some f.2 }
  else
    match f.2 with
    | .one value => { b with clauses := b.clauses ++ [.term (filterKey f.1) value] }
    | .many values => { b with clauses := b.clauses ++ [.terms (filterKey f.1) values] }

/-- `_build_filter`. -/
def buildFilter (filters : Filters) : List Clause :=
  let b := filters.foldl buildStep {}
  b.clauses ++ (if b.gte.isSome || b.lte.isSome then [.range b.gte b.lte] else [])

structure ElasticsearchStore where
  sources : OrderedDict String Source := .empty

namespace ElasticsearchStore

/-- `_validate_doc_id`. -/
def validateDocId (docId : String) : Except Error Unit :=
  if docId = "" ∨ 512 < docId.length then
    .error ⟨.valueError, "Invalid doc_id: must be non-empty string with max 512 chars", []⟩
  else .ok ()

/-- The body that is indexed. -/
def body (document : Document) : Source where
  docId := document.docId
  content := document.content
  embedding := document.embedding.getD (env.embed document.content)
  metadata := document.metadata

/-- `index_document`. -/
def indexDocument (document : Document) (s : ElasticsearchStore) :
    Except Error String × ElasticsearchStore :=
  match validateDocId document.docId with
  | .error e => (.error e, s)
  | .ok _ => (.ok document.docId, ⟨s.sources.set document.docId (body env document)⟩)

/-- `delete`. -/
def delete (docId : String) (s : ElasticsearchStore) : Except Error Bool × ElasticsearchStore :=
  match validateDocId docId with
  | .error e => (.error e, s)
  | .ok _ =>
    match s.sources.get? docId with
    | some _ => (.ok true, ⟨s.sources.erase docId⟩)
    | none => (.ok false, s)

/-- The result for a hit. -/
def hit (h : Source × ℚ) : SearchResult where
  docId := h.1.docId
  content := h.1.content
  score := h.2
  metadata := h.1.metadata
  source := some "elasticsearch"

/-- `search`. -/
def search (query : String) (topK : ℕ) (filters : Filters) (s : ElasticsearchStore) :
    Except Error (List SearchResult) :=
  match knnSearch env topK (buildFilter filters) (env.embed query) s.sources.values with
  | .ok hits => .ok (hits.map hit)
  | .error e => .error ⟨.exception, "Search failed: " ++ e.str, []⟩

end ElasticsearchStore
end DoxAsdlc.Knowledge
