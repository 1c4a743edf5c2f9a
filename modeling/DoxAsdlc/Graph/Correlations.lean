import DoxAsdlc.Graph.RedisGraphStore
import DoxAsdlc.Interaction.Run

/-!
# The correlation API

The routes keep correlations in the graph store, or in a list when there is no store.  A
create request is refused when its two ideas are one; a delete request finds its correlation
by the id in the list, and by the two ideas and the type in the store.

The list returns a correlation as it was created.  The store returns it from either of its
ideas with that idea as the source, so that the two agree as long as no correlation is
created, and no longer.

## Main definitions

* `CorrelationRequest` — create and delete requests, with what they draw at random.
* `createCorrelation`, `getIdeaCorrelations`, `deleteCorrelation` — over the store.
* `mockStep`, `mockCorrelations` — over the list.
* `Agree` — both return the same correlations for every idea.
-/

namespace DoxAsdlc.Graph

open Interaction Redis

/-- The types of correlation. -/
inductive CorrelationType where
  | similar | related | contradicts
  deriving DecidableEq, Repr

namespace CorrelationType

def value : CorrelationType → String
  | similar => "similar"
  | related => "related"
  | contradicts => "contradicts"

/-- `CorrelationType(value)`. -/
def ofValue (s : String) : Option CorrelationType :=
  [similar, related, contradicts].find? (·.value == s)

end CorrelationType

/-- A correlation between two ideas. -/
structure IdeaCorrelation where
  id : String
  sourceIdeaId : String
  targetIdeaId : String
  correlationType : CorrelationType
  createdBy : String
  notes : Option String
  createdAt : Time
  deriving DecidableEq, Repr

/-- What a correlation is compared by. -/
def IdeaCorrelation.identity (c : IdeaCorrelation) : String × String × String × CorrelationType :=
  (c.id, c.sourceIdeaId, c.targetIdeaId, c.correlationType)

/-- An answer that is not a success. -/
structure HTTPException where
  statusCode : ℕ
  detail : String
  deriving DecidableEq, Repr

/-- `datetime.isoformat` and `datetime.fromisoformat`. -/
structure IsoFormat where
  isoformat : Time → String
  fromisoformat : String → Option Time

/-- Requests; `correlationId` is drawn, and `now` is read, by the create route. -/
inductive CorrelationRequest where
  | create (sourceIdeaId targetIdeaId : String) (correlationType : CorrelationType)
      (notes : Option String) (correlationId : String) (now : Time)
  | delete (correlationId sourceIdeaId targetIdeaId : String) (correlationType : CorrelationType)
  deriving DecidableEq, Repr

def selfCorrelation : HTTPException := ⟨400, "Cannot correlate idea with itself"⟩
def correlationNotFound : HTTPException := ⟨404, "Correlation not found"⟩
def internalServerError : HTTPException := ⟨500, "Internal server error"⟩

variable (codec : JsonCodec) (iso : IsoFormat)

/-! ## Over the store -/

/-- The properties that an edge is created with. -/
def edgeProperties (correlationId : String) (notes : Option String) (now : Time) :
    Properties codec.Tree where
  entries := [⟨"id", .text correlationId⟩, ⟨"notes", .text (notes.getD "")⟩,
    ⟨"created_by", .text "anonymous"⟩, ⟨"created_at", .text (iso.isoformat now)⟩]
  nodupKeys := by simp [List.NodupKeys, List.keys]

/-- `create_correlation`. -/
def createCorrelation (sourceIdeaId targetIdeaId : String) (correlationType : CorrelationType)
    (notes : Option String) (correlationId : String) (now : Time) (s : Store) :
    Except HTTPException IdeaCorrelation × Store :=
  if sourceIdeaId = targetIdeaId then (.error selfCorrelation, s)
  else
    (.ok ⟨correlationId, sourceIdeaId, targetIdeaId, correlationType, "anonymous", notes, now⟩,
      addEdge codec sourceIdeaId targetIdeaId correlationType.value
        (edgeProperties codec iso correlationId notes now) s)

/-- `delete_correlation`. -/
def deleteCorrelation (correlationId sourceIdeaId targetIdeaId : String)
    (correlationType : CorrelationType) (s : Store) : Except HTTPException String × Store :=
  let (removed, s) := removeEdge sourceIdeaId targetIdeaId correlationType.value s
  (if removed then .ok correlationId else .error correlationNotFound, s)

/-- A value of an edge where the model wants a text, or the default where there is none. -/
def textOr (default : String) : Option (Value codec.Tree) → Option String
  | none => some default
  | some (.text s) => some s
  | some _ => none

/-- `edge.get("notes")`. -/
def notesOf : Option (Value codec.Tree) → Option (Option String)
  | none => some none
  | some (.text s) => some (some s)
  | some _ => none

/-- The time an edge was created at; a value that counts as false is no time. -/
def createdAtOf (now : Time) : Option (Value codec.Tree) → Option Time
  | none => some now
  | some (.text "") => some now
  | some (.text s) => iso.fromisoformat s
  | some (.tree t) => if codec.isEmpty t then some now else none
  | some (.other _) => none

/-- `IdeaCorrelation(…)` for an edge; nothing where the model refuses a value. -/
def ofEdge (freshId : String) (now : Time) (edge : Dict codec.Tree) : Option IdeaCorrelation := do
  let id ← textOr codec freshId (edge "id")
  let sourceIdeaId ← textOr codec "" (edge "source")
  let targetIdeaId ← textOr codec "" (edge "target")
  let correlationType ← (textOr codec "" (edge "edge_type")).bind CorrelationType.ofValue
  let createdBy ← textOr codec "unknown" (edge "created_by")
  let notes ← notesOf codec (edge "notes")
  let createdAt ← createdAtOf codec iso now (edge "created_at")
  return { id, sourceIdeaId, targetIdeaId, correlationType, createdBy, notes, createdAt }

variable (order : IterationOrder String) (freshIds : ℕ → String) (now : Time)

/-- `get_idea_correlations`; an edge that has no id gets a fresh one. -/
def getIdeaCorrelations (ideaId : String) (s : Store) :
    Except HTTPException (List IdeaCorrelation) :=
  match (getEdges codec order ideaId none s).zipIdx.mapM
      fun e => ofEdge codec iso (freshIds e.2) now e.1 with
  | some correlations => .ok correlations
  | none => .error internalServerError

/-- What a request does to the store. -/
def graphStep (s : Store) : CorrelationRequest → Store
  | .create source target ty notes correlationId now =>
    (createCorrelation codec iso source target ty notes correlationId now s).2
  | .delete correlationId source target ty => (deleteCorrelation correlationId source target ty s).2

/-! ## Over the list -/

/-- What a request does to `MOCK_CORRELATIONS`. -/
def mockStep (mock : List IdeaCorrelation) : CorrelationRequest → List IdeaCorrelation
  | .create source target ty notes correlationId now =>
    if source = target then mock
    else mock ++ [⟨correlationId, source, target, ty, "anonymous", notes, now⟩]
  | .delete correlationId _ _ _ => mock.filter (·.id ≠ correlationId)

/-- `get_idea_correlations` without a store. -/
def mockCorrelations (ideaId : String) (mock : List IdeaCorrelation) : List IdeaCorrelation :=
  mock.filter fun c => c.sourceIdeaId = ideaId ∨ c.targetIdeaId = ideaId

/-! ## Side by side -/

/-- The store and the list that take the same requests. -/
def bothStep (both : Store × List IdeaCorrelation) (request : CorrelationRequest) :
    Store × List IdeaCorrelation :=
  (graphStep codec iso both.1 request, mockStep both.2 request)

/-- For every idea, both return the same correlations. -/
def Agree (both : Store × List IdeaCorrelation) : Prop :=
  ∀ (order : IterationOrder String) (freshIds : ℕ → String) (now : Time) (ideaId : String),
    ∃ correlations, getIdeaCorrelations codec iso order freshIds now ideaId both.1
        = .ok correlations ∧
      ∀ identity, identity ∈ correlations.map IdeaCorrelation.identity ↔
        identity ∈ (mockCorrelations ideaId both.2).map IdeaCorrelation.identity

/-- The request creates nothing: its two ideas are one. -/
def CreatesNothing : CorrelationRequest → Prop
  | .create source target _ _ _ _ => source = target
  | .delete _ _ _ _ => True

section

variable {codec iso}

/-- A list read element by element holds what its elements are read as. -/
theorem exists_of_mapM_eq_some {α β : Type} {f : α → Option β} {as : List α} {bs : List β}
    (h : as.mapM f = some bs) {b : β} (hb : b ∈ bs) : ∃ a ∈ as, f a = some b := by
  induction as generalizing bs with
  | nil =>
    obtain rfl : [] = bs := by simpa using h
    cases hb
  | cons a as ih =>
    rw [List.mapM_cons] at h
    obtain ⟨b₀, hb₀, h⟩ := Option.bind_eq_some_iff.mp h
    obtain ⟨bs₀, hbs₀, h⟩ := Option.bind_eq_some_iff.mp h
    obtain rfl : b₀ :: bs₀ = bs := Option.some.inj h
    rcases List.mem_cons.mp hb with rfl | hb
    · exact ⟨a, List.mem_cons_self, hb₀⟩
    · obtain ⟨a', ha', hread⟩ := ih hbs₀ hb
      exact ⟨a', List.mem_cons_of_mem a ha', hread⟩

/-- What is read of an edge starts at the idea asked about, when no stored hash says
otherwise. -/
theorem sourceIdeaId_of_mem {order : IterationOrder String} {freshIds : ℕ → String} {now : Time}
    {ideaId : String} {s : Store} {correlations : List IdeaCorrelation}
    (hsource : ∀ key h, s.edges.lookup key = some h → h "source" = none)
    (h : getIdeaCorrelations codec iso order freshIds now ideaId s = .ok correlations)
    {c : IdeaCorrelation} (hc : c ∈ correlations) : c.sourceIdeaId = ideaId := by
  unfold getIdeaCorrelations at h
  split at h
  case h_2 => cases h
  case h_1 found hfound =>
    obtain rfl : found = correlations := Except.ok.inj h
    obtain ⟨⟨edge, i⟩, hmem, hread⟩ := exists_of_mapM_eq_some hfound hc
    have hedge : edge ∈ getEdges codec order ideaId none s := (List.mem_zipIdx' hmem).2 ▸
      List.getElem_mem _
    obtain ⟨neighborId, ty, props, rfl, hprops⟩ := exists_of_mem_getEdges hedge
    have hnone : props "source" = none := by
      obtain rfl | ⟨key, stored, hlookup, rfl⟩ := hprops
      · rfl
      · simp [JsonCodec.read, hsource key stored hlookup]
    have hfield : edgeDict codec ideaId neighborId ty props "source" = some (.text ideaId) := by
      simp [edgeDict, Hash.overlay_apply, hnone]
    unfold ofEdge at hread
    obtain ⟨id, -, hread⟩ := Option.bind_eq_some_iff.mp hread
    obtain ⟨source, htext, hread⟩ := Option.bind_eq_some_iff.mp hread
    obtain rfl : ideaId = source := by simpa [hfield, textOr] using htext
    obtain ⟨_, -, hread⟩ := Option.bind_eq_some_iff.mp hread
    obtain ⟨_, -, hread⟩ := Option.bind_eq_some_iff.mp hread
    obtain ⟨_, -, hread⟩ := Option.bind_eq_some_iff.mp hread
    obtain ⟨_, -, hread⟩ := Option.bind_eq_some_iff.mp hread
    obtain ⟨_, -, hread⟩ := Option.bind_eq_some_iff.mp hread
    rw [← Option.some.inj hread]

/-- Requests that create nothing leave the store and the list empty. -/
theorem bothStep_empty {request : CorrelationRequest} (h : CreatesNothing request) :
    bothStep codec iso (Store.empty, []) request = (Store.empty, []) := by
  cases request with
  | create source target ty notes correlationId now =>
    obtain rfl : source = target := h
    simp [bothStep, graphStep, createCorrelation, mockStep]
  | delete correlationId source target ty =>
    simp [bothStep, graphStep, deleteCorrelation, removeEdge, mockStep, Store.empty]

theorem agree_empty : Agree codec iso (Store.empty, []) := by
  intro order freshIds now ideaId
  have hneighbors : getNeighbors order ideaId none Store.empty = [] := by
    have hkeys : neighborKeys order ideaId Store.empty = [] := Keyspace.matching_empty order _
    rw [List.eq_nil_iff_forall_not_mem]
    intro m hm
    simp [getNeighbors, given, hkeys] at hm
  refine ⟨[], ?_, by simp [mockCorrelations]⟩
  rw [getIdeaCorrelations, getEdges, hneighbors]
  rfl

/-- A created correlation is in the list as created, and comes from the store the other way
round when it is asked for by its target. -/
theorem not_agree_create {source target : String} (hne : source ≠ target)
    (ty : CorrelationType) (notes : Option String) (correlationId : String) (now : Time) :
    ¬ Agree codec iso (bothStep codec iso (Store.empty, [])
      (.create source target ty notes correlationId now)) := by
  intro hagree
  let s := addEdge codec source target ty.value
    (edgeProperties codec iso correlationId notes now) Store.empty
  have hgraph : (bothStep codec iso (Store.empty, [])
      (.create source target ty notes correlationId now)).1 = s := by
    simp [bothStep, graphStep, createCorrelation, hne, s]
  have hmock : mockCorrelations target (bothStep codec iso (Store.empty, [])
      (.create source target ty notes correlationId now)).2
        = [⟨correlationId, source, target, ty, "anonymous", notes, now⟩] := by
    simp [bothStep, mockStep, hne, mockCorrelations]
  obtain ⟨correlations, hok, hsame⟩ := hagree .asAnswered (fun _ => "") now target
  rw [hgraph] at hok
  rw [hmock] at hsame
  -- the stored properties name no source
  have hsource : ∀ key h, s.edges.lookup key = some h → h "source" = none := by
    intro key h hlookup
    have hedges : s.edges = Keyspace.modify ∅ (edgeKey source target ty.value)
        (hset · (codec.mapping (edgeProperties codec iso correlationId notes now))) := rfl
    rw [hedges, Keyspace.lookup_modify] at hlookup
    split at hlookup
    case isTrue =>
      obtain rfl := Option.some.inj hlookup
      simp [JsonCodec.mapping, edgeProperties, AList.lookup, Hash.overlay_apply]
    case isFalse => simp at hlookup
  obtain ⟨c, hc, hidentity⟩ := List.mem_map.mp
    ((hsame (correlationId, source, target, ty)).mpr (by simp [IdeaCorrelation.identity]))
  have hfirst : c.sourceIdeaId = source := congrArg (·.2.1) hidentity
  exact hne (hfirst.symm.trans (sourceIdeaId_of_mem hsource hok hc))

end

/-- **The store against the list over runs.**  The API over the graph store returns the
correlations that it returns over the list, for every idea and after every request, exactly
when no request creates a correlation. -/
theorem agree_iff_createsNothing (requests : List CorrelationRequest) :
    Along (bothStep codec iso) (Agree codec iso) (fun _ _ _ => True) (Store.empty, []) requests
      ↔ ∀ request ∈ requests, CreatesNothing request := by
  have heach : Each (bothStep codec iso) (fun _ request => CreatesNothing request)
      (Store.empty, []) requests ↔ ∀ request ∈ requests, CreatesNothing request :=
    each_iff_forall requests
  rw [← heach]
  refine along_iff_each (I := fun both => both = (Store.empty, [])) ?_ ?_ rfl agree_empty requests
  · intro both request hempty _ hnothing
    subst hempty
    exact bothStep_empty hnothing
  · intro both request hempty _
    subst hempty
    constructor
    · intro ⟨_, hagree⟩
      cases request with
      | create source target ty notes correlationId now =>
        by_contra hne
        exact not_agree_create hne ty notes correlationId now hagree
      | delete correlationId source target ty => trivial
    · intro hnothing
      refine ⟨trivial, ?_⟩
      rw [bothStep_empty hnothing]
      exact agree_empty

/-- The text of one time. -/
def epochOnly : IsoFormat where
  isoformat := fun _ => "1970-01-01T00:00:00+00:00"
  fromisoformat := fun s => if s = "1970-01-01T00:00:00+00:00" then some 0 else none

/-- "a" is linked to "b"; asked for "b", the store says that "b" is linked to "a". -/
theorem created_returned_reversed :
    let both := run (bothStep plainTexts epochOnly) (Store.empty, [])
      [.create "a" "b" .similar none "corr-1" 0]
    (getIdeaCorrelations plainTexts epochOnly .asAnswered (fun _ => "") 0 "b" both.1).map
        (·.map IdeaCorrelation.identity) = .ok [("corr-1", "b", "a", .similar)] ∧
      (mockCorrelations "b" both.2).map IdeaCorrelation.identity
        = [("corr-1", "a", "b", .similar)] ∧
      ¬ Agree plainTexts epochOnly both :=
  ⟨by decide, by decide, not_agree_create (by decide) .similar none "corr-1" 0⟩

end DoxAsdlc.Graph
