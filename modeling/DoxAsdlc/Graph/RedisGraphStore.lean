import DoxAsdlc.Core.Exceptions
import DoxAsdlc.Redis.Keyspace
import Mathlib.Data.List.Dedup

/-!
# The Redis graph store

A node is a hash, an edge is an entry in the neighbour sets of both its ends and, when it
has properties, a hash under a key that holds the two ends and the type, joined by colons.
Keys are found again by pattern, and taken apart at the colons.

A hash that exists has a field, so `HGETALL` answers with an empty dict exactly when the
key is not stored.  The texts of lists and dicts are those of the `json` module.

## Main definitions

* `Value`, `JsonCodec` — property values and their texts.
* `Store` — the stored keys.
* `addNode`, `addEdge`, `removeEdge`, `deleteNode` — the writes.
* `getNeighbors`, `getEdges`, `getGraph` — the reads.
-/

namespace DoxAsdlc.Graph

open Redis

/-! ## Values -/

/-- `json.dumps` and `json.loads` on lists and dicts, their `str`, and which are empty. -/
structure JsonCodec where
  Tree : Type
  dumps : Tree → String
  loads : String → Option Tree
  str : Tree → String
  isEmpty : Tree → Bool

/-- The value of a property: a text, a list or dict, or another value, by its `str`. -/
inductive Value (Tree : Type) where
  | text (s : String)
  | tree (t : Tree)
  | other (str : String)
  deriving DecidableEq, Repr

/-- A dict of properties, as a caller passes it. -/
abbrev Properties (Tree : Type) := AList fun _ : String => Value Tree

/-- A dict of values, by its keys. -/
abbrev Dict (Tree : Type) := Hash fun _ : String => Value Tree

/-- The fields of a stored hash. -/
abbrev PropertyHash := Hash fun _ : String => String

namespace JsonCodec

variable (codec : JsonCodec)

/-- `str(value)`. -/
def strOf : Value codec.Tree → String
  | .text s => s
  | .tree t => codec.str t
  | .other s => s

/-- `_serialize_value`. -/
def serializeValue : Value codec.Tree → String
  | .tree t => codec.dumps t
  | .text s => s
  | .other s => s

/-- `_deserialize_value`. -/
def deserializeValue (value : String) : Value codec.Tree :=
  if value.toList.head? = some '[' ∨ value.toList.head? = some '{' then
    match codec.loads value with
    | some t => .tree t
    | none => .text value
  else .text value

/-- The mapping that is written for a dict. -/
def mapping (properties : Properties codec.Tree) : PropertyHash :=
  fun k => (properties.lookup k).map codec.serializeValue

/-- The dict that is read from a hash. -/
def read (props : PropertyHash) : Dict codec.Tree :=
  fun k => (props k).map codec.deserializeValue

end JsonCodec

/-- A codec for runs whose texts are no lists and no dicts. -/
def plainTexts : JsonCodec := ⟨Empty, nofun, fun _ => none, nofun, nofun⟩

/-! ## Keys -/

def nodeKey (nodeId : String) : String := "GRAPH:NODE:" ++ nodeId

def edgeKey (fromId toId edgeType : String) : String :=
  "GRAPH:EDGE:" ++ fromId ++ ":" ++ toId ++ ":" ++ edgeType

def neighborsKey (nodeId edgeType : String) : String :=
  "GRAPH:NEIGHBORS:" ++ nodeId ++ ":" ++ edgeType

/-- `key.split(":")[-1]`. -/
def lastPart (key : String) : String :=
  String.ofList ((key.toList.splitOn ':').getLastD [])

/-- What is stored under the keys of the graph. -/
structure Store where
  nodes : Keyspace PropertyHash
  edges : Keyspace PropertyHash
  neighbors : Keyspace (MemberSet String)
  allNodes : MemberSet String

/-- The store before anything was written. -/
def Store.empty : Store := ⟨∅, ∅, ∅, .empty⟩

variable (codec : JsonCodec)

/-! ## Writes -/

/-- `HSET` with no mapping is refused by the client. -/
def dataError : Error := ⟨.redisError, "'hset' with no key value pairs", []⟩

/-- `add_node`. -/
def addNode (nodeId : String) (properties : Properties codec.Tree) (s : Store) :
    Except Error Store :=
  if properties.keys = [] then throw dataError
  else pure { s with
    nodes := s.nodes.modify (nodeKey nodeId) (hset · (codec.mapping properties))
    allNodes := s.allNodes.sadd nodeId }

/-- `add_edge`; no properties are an empty dict. -/
def addEdge (fromId toId edgeType : String) (properties : Properties codec.Tree) (s : Store) :
    Store :=
  { s with
    neighbors := (s.neighbors.sadd (neighborsKey fromId edgeType) toId).sadd
      (neighborsKey toId edgeType) fromId
    edges := if properties.keys = [] then s.edges
      else s.edges.modify (edgeKey fromId toId edgeType) (hset · (codec.mapping properties)) }

/-- `remove_edge`; the answer is whether the edge existed. -/
def removeEdge (fromId toId edgeType : String) (s : Store) : Bool × Store :=
  (decide (toId ∈ s.neighbors.smembers (neighborsKey fromId edgeType)),
    { s with
      neighbors := (s.neighbors.srem (neighborsKey fromId edgeType) toId).srem
        (neighborsKey toId edgeType) fromId
      edges := (s.edges.erase (edgeKey fromId toId edgeType)).erase
        (edgeKey toId fromId edgeType) })

/-! ## Reads -/

variable (order : IterationOrder String)

/-- The neighbour sets of a node, of all types. -/
def neighborKeys (nodeId : String) (s : Store) : List String :=
  s.neighbors.matching order ("GRAPH:NEIGHBORS:" ++ nodeId ++ ":" ++ "*")

/-- An edge type that `if edge_type` lets through. -/
def given : Option String → Option String
  | some "" => none
  | edgeType => edgeType

/-- `get_neighbors`. -/
def getNeighbors (nodeId : String) (edgeType : Option String) (s : Store) : List String :=
  match given edgeType with
  | some ty => order.list (s.neighbors.smembers (neighborsKey nodeId ty)).members
  | none => order.list ((neighborKeys order nodeId s).flatMap fun key =>
    order.list (s.neighbors.smembers key).members).dedup

/-- The dict of an edge: what its properties hold is written over the rest. -/
def edgeDict (source target edgeType : String) (props : Dict codec.Tree) : Dict codec.Tree :=
  (((Hash.field "source" (.text source)).overlay (Hash.field "target" (.text target))).overlay
    (Hash.field "edge_type" (.text edgeType))).overlay props

/-- The edges of one type between a node and a neighbour; an edge without properties is
still an edge. -/
def typedEdges (nodeId neighborId edgeType : String) (s : Store) : List (Dict codec.Tree) :=
  match s.edges.lookup (edgeKey nodeId neighborId edgeType) with
  | some props => [edgeDict codec nodeId neighborId edgeType (codec.read props)]
  | none =>
    match s.edges.lookup (edgeKey neighborId nodeId edgeType) with
    | some props => [edgeDict codec nodeId neighborId edgeType (codec.read props)]
    | none => [edgeDict codec nodeId neighborId edgeType .empty]

/-- The edges with properties that are stored in one direction, as edges between a node
and a neighbour. -/
def storedEdges (nodeId neighborId fromId toId : String) (s : Store) : List (Dict codec.Tree) :=
  (s.edges.matching order ("GRAPH:EDGE:" ++ fromId ++ ":" ++ toId ++ ":" ++ "*")).map fun key =>
    edgeDict codec nodeId neighborId (lastPart key)
      (codec.read ((s.edges.lookup key).getD .empty))

/-- The edges of all types between a node and a neighbour: the second direction is looked at
when there are none in the first. -/
def untypedEdges (nodeId neighborId : String) (s : Store) : List (Dict codec.Tree) :=
  match storedEdges codec order nodeId neighborId nodeId neighborId s with
  | [] => storedEdges codec order nodeId neighborId neighborId nodeId s
  | found => found

/-- `get_edges`. -/
def getEdges (nodeId : String) (edgeType : Option String) (s : Store) : List (Dict codec.Tree) :=
  (getNeighbors order nodeId edgeType s).flatMap fun neighborId =>
    match given edgeType with
    | some ty => typedEdges codec nodeId neighborId ty s
    | none => untypedEdges codec order nodeId neighborId s

/-- Every edge that is returned starts at the node asked about, and its properties are those
of a stored hash. -/
theorem exists_of_mem_getEdges {codec : JsonCodec} {order : IterationOrder String}
    {nodeId : String} {edgeType : Option String} {s : Store} {edge : Dict codec.Tree}
    (h : edge ∈ getEdges codec order nodeId edgeType s) :
    ∃ neighborId ty props, edge = edgeDict codec nodeId neighborId ty props ∧
      (props = .empty ∨ ∃ key h, s.edges.lookup key = some h ∧ props = codec.read h) := by
  have hstored : ∀ neighborId fromId toId,
      edge ∈ storedEdges codec order nodeId neighborId fromId toId s →
      ∃ neighborId ty props, edge = edgeDict codec nodeId neighborId ty props ∧
        (props = .empty ∨ ∃ key h, s.edges.lookup key = some h ∧ props = codec.read h) := by
    intro neighborId fromId toId hedge
    obtain ⟨key, hkey, rfl⟩ := List.mem_map.mp hedge
    obtain ⟨stored, hlookup⟩ := Option.isSome_iff_exists.mp
      (AList.lookup_isSome.mpr (Keyspace.mem_matching.mp hkey).1)
    exact ⟨neighborId, _, _, rfl, Or.inr ⟨key, stored, hlookup, by rw [hlookup]; rfl⟩⟩
  obtain ⟨neighborId, -, hedge⟩ := List.mem_flatMap.mp h
  cases hgiven : given edgeType with
  | some ty =>
    simp only [hgiven, typedEdges] at hedge
    split at hedge
    case h_1 props hlookup =>
      exact ⟨_, _, _, List.mem_singleton.mp hedge, Or.inr ⟨_, props, hlookup, rfl⟩⟩
    case h_2 =>
      split at hedge
      case h_1 props hlookup =>
        exact ⟨_, _, _, List.mem_singleton.mp hedge, Or.inr ⟨_, props, hlookup, rfl⟩⟩
      case h_2 => exact ⟨_, _, _, List.mem_singleton.mp hedge, Or.inl rfl⟩
  | none =>
    simp only [hgiven, untypedEdges] at hedge
    split at hedge
    case h_1 => exact hstored _ _ _ hedge
    case h_2 => exact hstored _ _ _ hedge

/-- `f"{edge[field]}"`; the fields that are read are always there. -/
def fieldText (edge : Dict codec.Tree) (field : String) : String :=
  (edge field).elim "" codec.strOf

/-- `edge[field] in node_ids`. -/
def fieldIn (edge : Dict codec.Tree) (field : String) (nodeIds : List String) : Bool :=
  match edge field with
  | some (.text s) => decide (s ∈ nodeIds)
  | _ => false

/-- The text that an edge is known by, from one of its ends to the other. -/
def seenKey (edge : Dict codec.Tree) (fromField toField : String) : String :=
  fieldText codec edge fromField ++ ":" ++ fieldText codec edge toField ++ ":"
    ++ fieldText codec edge "edge_type"

/-- One round of the loop of `get_graph`: the edges so far, and the set of those seen. -/
def collect (nodeIds : List String) (acc : List (Dict codec.Tree) × List String)
    (edge : Dict codec.Tree) : List (Dict codec.Tree) × List String :=
  if seenKey codec edge "source" "target" ∉ acc.2 ∧ seenKey codec edge "target" "source" ∉ acc.2
      ∧ fieldIn codec edge "source" nodeIds ∧ fieldIn codec edge "target" nodeIds then
    (acc.1 ++ [edge], seenKey codec edge "source" "target" :: acc.2)
  else acc

/-- `get_graph`. -/
def getGraph (nodeIds : Option (List String)) (s : Store) :
    List (Dict codec.Tree) × List (Dict codec.Tree) :=
  let ids := nodeIds.getD (order.list s.allNodes.members)
  (ids.filterMap fun nodeId => (s.nodes.lookup (nodeKey nodeId)).map fun props =>
      (Hash.field "id" (.text nodeId)).overlay (codec.read props),
    (ids.foldl (fun acc nodeId =>
      (getEdges codec order nodeId none s).foldl (collect codec ids) acc) ([], [])).1)

/-! ## Deletion -/

/-- One round of the loop of `delete_node` over the neighbour sets of the node. -/
def dropNeighborKey (nodeId : String) (neighbors : List String)
    (sets : Keyspace (MemberSet String)) (key : String) : Keyspace (MemberSet String) :=
  (neighbors.foldl (fun sets neighbor =>
    sets.srem (neighborsKey neighbor (lastPart key)) nodeId) sets).erase key

/-- `delete_node`. -/
def deleteNode (nodeId : String) (s : Store) : Store :=
  { nodes := s.nodes.erase (nodeKey nodeId)
    edges := (s.edges.matching order ("GRAPH:EDGE:" ++ nodeId ++ ":" ++ "*")
        ++ s.edges.matching order ("GRAPH:EDGE:" ++ "*" ++ (":" ++ nodeId ++ ":") ++ "*")).foldl
      (fun edges key => edges.erase key) s.edges
    neighbors := (neighborKeys order nodeId s).foldl
      (dropNeighborKey nodeId (getNeighbors order nodeId none s)) s.neighbors
    allNodes := s.allNodes.srem nodeId }

end DoxAsdlc.Graph
