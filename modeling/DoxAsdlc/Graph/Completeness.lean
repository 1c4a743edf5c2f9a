import DoxAsdlc.Graph.Reads
import DoxAsdlc.Interaction.Run

/-!
# Completeness of the graph store

The writes of the store against the same writes on an undirected property graph.  A write
keeps the two together when its names have no separator and no special character in the wrong
place, when the ends of an edge are nodes, when an edge comes with properties, and when it
comes in the direction in which its two ends have hashes already.

## Main definitions

* `GraphOp` — the writes.
* `Store.apply`, `applyToGraph` — on the store, and on the graph.
* `Sound` — the writes that the store follows.
* `OtherNodesKept` — a deletion removes one node.
-/

namespace DoxAsdlc.Graph

open Interaction Redis

/-- The writes of the graph store. -/
inductive GraphOp (Tree : Type) where
  | addNode (nodeId : String) (properties : Properties Tree)
  | addEdge (fromId toId edgeType : String) (properties : Properties Tree)
  | removeEdge (fromId toId edgeType : String)
  | deleteNode (nodeId : String)

variable (codec : JsonCodec) (order : IterationOrder String)

/-- A write on the store; one that raises leaves it as it is. -/
def Store.apply (s : Store) : GraphOp codec.Tree → Store
  | .addNode nodeId properties =>
    match addNode codec nodeId properties s with
    | .ok s' => s'
    | .error _ => s
  | .addEdge fromId toId edgeType properties => addEdge codec fromId toId edgeType properties s
  | .removeEdge fromId toId edgeType => (removeEdge fromId toId edgeType s).2
  | .deleteNode nodeId => deleteNode order nodeId s

variable {codec}

/-- A dict of properties, as it is read. -/
def asDict (properties : Properties codec.Tree) : Dict codec.Tree :=
  fun name => properties.lookup name

/-- The same write on a graph: an edge that is added again gets the new properties over those
it has. -/
def applyToGraph (g : PropertyGraph String String (Dict codec.Tree)) :
    GraphOp codec.Tree → PropertyGraph String String (Dict codec.Tree)
  | .addNode _ _ => g
  | .addEdge fromId toId edgeType properties =>
    g.modify s(fromId, toId) edgeType (hset · (asDict properties))
  | .removeEdge fromId toId edgeType => g.modify s(fromId, toId) edgeType fun _ => none
  | .deleteNode nodeId => g.deleteNode nodeId

variable (codec) in
/-- The value comes back from the store as it was written. -/
def Survives (v : Value codec.Tree) : Prop :=
  codec.deserializeValue (codec.serializeValue v) = v

/-- The writes that the store follows. -/
def Sound (s : Store) : GraphOp codec.Tree → Prop
  | .addNode nodeId _ => GlobFree nodeId
  | .addEdge fromId toId edgeType properties =>
    (ColonFree fromId ∧ ColonFree toId ∧ ColonFree edgeType) ∧
    (fromId ∈ s.allNodes ∧ toId ∈ s.allNodes) ∧
    (∀ name v, properties.lookup name = some v → name ∉ reserved ∧ Survives codec v) ∧
    if properties.keys = [] then
      edgeKey fromId toId edgeType ∈ s.edges ∨ edgeKey toId fromId edgeType ∈ s.edges
    else fromId = toId ∨ ∀ ty, edgeKey toId fromId ty ∉ s.edges
  | .removeEdge _ _ _ => True
  | .deleteNode nodeId =>
    GlobFree nodeId ∧ ∀ a b ty, edgeKey a b ty ∈ s.edges → nodeId ≠ a ++ ":" ++ b

/-- A deletion removes its node and leaves every other as it was. -/
def OtherNodesKept (s : Store) (op : GraphOp codec.Tree) (s' : Store) : Prop :=
  ∀ nodeId, op = .deleteNode nodeId →
    nodeId ∉ s'.allNodes ∧ s'.nodes.lookup (nodeKey nodeId) = none ∧
    ∀ m ≠ nodeId, (m ∈ s'.allNodes ↔ m ∈ s.allNodes) ∧
      s'.nodes.lookup (nodeKey m) = s.nodes.lookup (nodeKey m)

theorem otherNodesKept (s : Store) (op : GraphOp codec.Tree) :
    OtherNodesKept s op (s.apply codec order op) := by
  rintro nodeId rfl
  refine ⟨by simp [Store.apply, deleteNode], by simp [Store.apply, deleteNode], ?_⟩
  intro m hm
  refine ⟨by simp [Store.apply, deleteNode, hm], ?_⟩
  exact AList.lookup_erase_ne (mt nodeKey_inj.mp hm)

/-! ## The mapping of a dict -/

/-- A mapping whose values survive is read as the dict it was written for. -/
theorem read_mapping {properties : Properties codec.Tree}
    (h : ∀ name v, properties.lookup name = some v → Survives codec v) :
    codec.read (codec.mapping properties) = asDict properties := by
  ext name : 1
  simp only [JsonCodec.read, JsonCodec.mapping, asDict]
  cases hv : properties.lookup name with
  | none => rfl
  | some v => exact congrArg some (h name v hv)

/-- What is written over a hash is written over the dict that is read from it. -/
theorem read_overlay (h m : PropertyHash) :
    codec.read (h.overlay m) = (codec.read h).overlay (codec.read m) := by
  ext name : 1
  simp only [JsonCodec.read, Hash.overlay_apply]
  cases m name with
  | none => rfl
  | some v => rfl

@[simp] theorem read_empty : codec.read .empty = .empty := rfl

theorem asDict_of_nil {properties : Properties codec.Tree} (h : properties.keys = [])
    (name : String) : asDict properties name = none := by
  rw [asDict, AList.lookup_eq_none, AList.mem_keys, h]
  exact List.not_mem_nil

namespace Represents

variable {s : Store} {g : PropertyGraph String String (Dict codec.Tree)}

/-- The graph is a function of the hashes: an edge has the properties of its hash. -/
theorem edge_eq (h : Represents s g) (a b ty : String)
    (hback : edgeKey b a ty ∈ s.edges → edgeKey a b ty ∈ s.edges) :
    g s(a, b) ty = (s.edges.lookup (edgeKey a b ty)).map codec.read := by
  cases hlookup : s.edges.lookup (edgeKey a b ty) with
  | some props => exact h.stored a b ty props hlookup
  | none =>
    have hnot : edgeKey a b ty ∉ s.edges := AList.lookup_eq_none.mp hlookup
    rw [Option.map_none, ← Option.not_isSome_iff_eq_none]
    intro hedge
    rcases h.found a b ty hedge with hkey | hkey
    · exact hnot hkey
    · exact hnot (hback hkey)

theorem addNode (h : Represents s g) {nodeId : String} (properties : Properties codec.Tree)
    (hfree : GlobFree nodeId) : Represents (s.apply codec order (.addNode nodeId properties)) g := by
  by_cases hempty : properties.keys = []
  · have hrefused : Graph.addNode codec nodeId properties s = .error dataError := if_pos hempty
    rw [Store.apply, hrefused]
    exact h
  · rw [Store.apply, Graph.addNode, if_neg hempty]
    exact { h with
      globFree := by
        intro n hn
        rcases MemberSet.mem_sadd.mp hn with rfl | hn
        · exact hfree
        · exact h.globFree n hn
      named := fun e ty hedge => ⟨(h.named e ty hedge).1, fun n hn =>
        ⟨((h.named e ty hedge).2 n hn).1,
          MemberSet.mem_sadd.mpr (Or.inr ((h.named e ty hedge).2 n hn).2)⟩⟩ }

section

variable {fromId toId edgeType : String} {properties : Properties codec.Tree}

/-- After an edge is added, the edges are that one and those there were. -/
theorem isSome_addEdge {e : Sym2 String} {ty : String} :
    (applyToGraph g (.addEdge fromId toId edgeType properties) e ty).isSome ↔
      (e = s(fromId, toId) ∧ ty = edgeType) ∨ (g e ty).isSome := by
  by_cases hsame : e = s(fromId, toId) ∧ ty = edgeType
  · obtain ⟨rfl, rfl⟩ := hsame
    simp [applyToGraph, PropertyGraph.modify_self, hset]
  · rw [applyToGraph, PropertyGraph.modify_of_ne _ _ hsame, or_iff_right hsame]

/-- Properties that are not there change nothing of an edge that is. -/
theorem addEdge_of_nil (hempty : properties.keys = []) (hedge : (g s(fromId, toId) edgeType).isSome) :
    applyToGraph g (.addEdge fromId toId edgeType properties) = g := by
  funext e ty
  by_cases hsame : e = s(fromId, toId) ∧ ty = edgeType
  · obtain ⟨rfl, rfl⟩ := hsame
    rw [applyToGraph, PropertyGraph.modify_self, hset_eq_self_iff]
    refine ⟨hedge, ?_⟩
    intro name v hv
    rw [asDict_of_nil hempty name] at hv
    cases hv
  · rw [applyToGraph, PropertyGraph.modify_of_ne _ _ hsame]

variable (properties) in
/-- The neighbour sets and the names, after an edge is added. -/
theorem neighbors_addEdge (h : Represents s g) (hfrom : ColonFree fromId) (hto : ColonFree toId)
    (hty : ColonFree edgeType) (n m ty : String) :
    m ∈ (Graph.addEdge codec fromId toId edgeType properties s).neighbors.smembers
        (neighborsKey n ty) ↔
      (applyToGraph g (.addEdge fromId toId edgeType properties) s(n, m) ty).isSome := by
  simp only [Graph.addEdge, Keyspace.mem_smembers_sadd, neighborsKey_inj hfrom hty,
    neighborsKey_inj hto hty, h.neighbors, isSome_addEdge, Sym2.eq_iff]
  constructor
  · rintro (⟨⟨rfl, rfl⟩, rfl⟩ | ⟨⟨rfl, rfl⟩, rfl⟩ | hedge)
    · exact Or.inl ⟨Or.inr ⟨rfl, rfl⟩, rfl⟩
    · exact Or.inl ⟨Or.inl ⟨rfl, rfl⟩, rfl⟩
    · exact Or.inr hedge
  · rintro (⟨⟨rfl, rfl⟩ | ⟨rfl, rfl⟩, rfl⟩ | hedge)
    · exact Or.inr (Or.inl ⟨⟨rfl, rfl⟩, rfl⟩)
    · exact Or.inl ⟨⟨rfl, rfl⟩, rfl⟩
    · exact Or.inr (Or.inr hedge)

variable (properties) in
theorem neighborShape_addEdge (h : Represents s g) (hfrom : ColonFree fromId)
    (hto : ColonFree toId) (hty : ColonFree edgeType) :
    ∀ k ∈ (Graph.addEdge codec fromId toId edgeType properties s).neighbors,
      ∃ n ty, k = neighborsKey n ty ∧ ColonFree n ∧ ColonFree ty := by
  intro k hk
  rcases Keyspace.mem_sadd.mp hk with rfl | hk
  · exact ⟨toId, edgeType, rfl, hto, hty⟩
  rcases Keyspace.mem_sadd.mp hk with rfl | hk
  · exact ⟨fromId, edgeType, rfl, hfrom, hty⟩
  · exact h.neighborShape k hk

variable (properties) in
theorem named_addEdge (h : Represents s g) (hfrom : ColonFree fromId) (hto : ColonFree toId)
    (hty : ColonFree edgeType) (hnodes : fromId ∈ s.allNodes ∧ toId ∈ s.allNodes)
    (e : Sym2 String) (ty : String)
    (hedge : (applyToGraph g (.addEdge fromId toId edgeType properties) e ty).isSome) :
    ColonFree ty ∧ ∀ n ∈ e, ColonFree n ∧ n ∈ s.allNodes := by
  rcases isSome_addEdge.mp hedge with ⟨rfl, rfl⟩ | hedge
  · refine ⟨hty, ?_⟩
    intro n hn
    rcases Sym2.mem_iff.mp hn with rfl | rfl
    · exact ⟨hfrom, hnodes.1⟩
    · exact ⟨hto, hnodes.2⟩
  · exact h.named e ty hedge

/-- The hashes after an edge with properties is added: its own one and those there were. -/
theorem mem_edges_addEdge (hfrom : ColonFree fromId) (hto : ColonFree toId)
    (hty : ColonFree edgeType) (hempty : properties.keys ≠ []) {a b ty : String} :
    edgeKey a b ty ∈ (Graph.addEdge codec fromId toId edgeType properties s).edges ↔
      (a = fromId ∧ b = toId ∧ ty = edgeType) ∨ edgeKey a b ty ∈ s.edges := by
  simp only [Graph.addEdge, if_neg hempty, Keyspace.mem_modify, ne_eq, edgeKey_inj hfrom hto hty]
  by_cases hsame : a = fromId ∧ b = toId ∧ ty = edgeType
  · simp [hsame, hset]
  · simp [hsame]

/-- An edge that has a hash after an edge was added has the properties of the hash.  Hashes the
other way are there only for an edge from a node to itself. -/
theorem stored_addEdge (h : Represents s g) (hfrom : ColonFree fromId) (hto : ColonFree toId)
    (hty : ColonFree edgeType) (hempty : properties.keys ≠ [])
    (hvalues : ∀ name v, properties.lookup name = some v → Survives codec v)
    (hback : ∀ {ty}, edgeKey toId fromId ty ∈ s.edges → toId = fromId) (a b ty : String)
    (props : PropertyHash)
    (hprops : (Graph.addEdge codec fromId toId edgeType properties s).edges.lookup
      (edgeKey a b ty) = some props) :
    applyToGraph g (.addEdge fromId toId edgeType properties) s(a, b) ty
      = some (codec.read props) := by
  simp only [Graph.addEdge, if_neg hempty, Keyspace.lookup_modify, edgeKey_inj hfrom hto hty]
    at hprops
  split at hprops
  case isTrue hsame =>
    obtain ⟨rfl, rfl, rfl⟩ := hsame
    obtain rfl := Option.some.inj hprops
    have hold := h.edge_eq a b ty fun hkey => by
      have hself := hback hkey
      rw [hself] at hkey ⊢
      exact hkey
    rw [applyToGraph, PropertyGraph.modify_self, hold, ← read_mapping hvalues, read_overlay]
    cases s.edges.lookup (edgeKey a b ty) with
    | none => rfl
    | some old => rfl
  case isFalse hdiffers =>
    have hold := h.stored a b ty props hprops
    have hne : ¬ (s(a, b) = s(fromId, toId) ∧ ty = edgeType) := by
      rintro ⟨hends, rfl⟩
      rcases Sym2.eq_iff.mp hends with ⟨rfl, rfl⟩ | ⟨rfl, rfl⟩
      · exact hdiffers ⟨rfl, rfl, rfl⟩
      · have hkey : edgeKey a b ty ∈ s.edges := AList.lookup_isSome.mp (by rw [hprops]; rfl)
        obtain rfl := hback hkey
        exact hdiffers ⟨rfl, rfl, rfl⟩
    rw [applyToGraph, PropertyGraph.modify_of_ne _ _ hne, hold]

/-- A reserved field is no property of an edge after one without such properties was added. -/
theorem unreserved_addEdge (h : Represents s g)
    (hnames : ∀ name v, properties.lookup name = some v → name ∉ reserved) (e : Sym2 String)
    (ty : String) (props : Dict codec.Tree)
    (hprops : applyToGraph g (.addEdge fromId toId edgeType properties) e ty = some props)
    (f : String) (hf : f ∈ reserved) : props f = none := by
  by_cases hsame : e = s(fromId, toId) ∧ ty = edgeType
  · obtain ⟨rfl, rfl⟩ := hsame
    rw [applyToGraph, PropertyGraph.modify_self] at hprops
    obtain rfl := Option.some.inj hprops
    have hnew : asDict properties f = none := by
      rw [← Option.not_isSome_iff_eq_none]
      intro hsome
      obtain ⟨v, hv⟩ := Option.isSome_iff_exists.mp hsome
      exact hnames f v hv hf
    rw [Hash.overlay_of_none hnew]
    cases hold : g s(fromId, toId) ty with
    | none => rfl
    | some old => exact h.unreserved _ _ old hold f hf
  · rw [applyToGraph, PropertyGraph.modify_of_ne _ _ hsame] at hprops
    exact h.unreserved e ty props hprops f hf

theorem addEdge (h : Represents s g)
    (hsound : Sound s (.addEdge fromId toId edgeType properties)) :
    Represents (s.apply codec order (.addEdge fromId toId edgeType properties))
      (applyToGraph g (.addEdge fromId toId edgeType properties)) := by
  obtain ⟨⟨hfrom, hto, hty⟩, hnodes, hvalues, hway⟩ := hsound
  change Represents (Graph.addEdge codec fromId toId edgeType properties s) _
  have hnamed := h.named_addEdge properties hfrom hto hty hnodes
  have hneighbors := h.neighbors_addEdge properties hfrom hto hty
  have hshape := h.neighborShape_addEdge properties hfrom hto hty
  by_cases hempty : properties.keys = []
  · -- an edge that is there, and whose hash is left alone
    rw [if_pos hempty] at hway
    have hedge : (g s(fromId, toId) edgeType).isSome := by
      rcases hway with hkey | hkey
      · exact h.isSome_of_mem hkey
      · rw [Sym2.eq_swap]
        exact h.isSome_of_mem hkey
    have hsame := addEdge_of_nil hempty hedge
    have hedges : (Graph.addEdge codec fromId toId edgeType properties s).edges = s.edges :=
      if_pos hempty
    rw [hsame] at hneighbors hnamed ⊢
    exact {
      neighborShape := hshape
      edgeShape := by rw [hedges]; exact h.edgeShape
      globFree := h.globFree
      named := hnamed
      neighbors := hneighbors
      stored := by rw [hedges]; exact h.stored
      found := by rw [hedges]; exact h.found
      oneWay := by rw [hedges]; exact h.oneWay
      unreserved := h.unreserved }
  · rw [if_neg hempty] at hway
    have hmem : ∀ {a b ty}, edgeKey a b ty ∈ (Graph.addEdge codec fromId toId edgeType
        properties s).edges ↔ (a = fromId ∧ b = toId ∧ ty = edgeType) ∨
          edgeKey a b ty ∈ s.edges := mem_edges_addEdge hfrom hto hty hempty
    -- hashes the other way are there only for an edge from a node to itself
    have hback : ∀ {ty}, edgeKey toId fromId ty ∈ s.edges → toId = fromId := by
      intro ty hkey
      rcases hway with hself | hnone
      · exact hself.symm
      · exact absurd hkey (hnone ty)
    exact {
      neighborShape := hshape
      edgeShape := by
        intro k hk
        simp only [Graph.addEdge, if_neg hempty, Keyspace.mem_modify] at hk
        rcases hk with ⟨rfl, -⟩ | ⟨-, hk⟩
        · exact ⟨fromId, toId, edgeType, rfl, hfrom, hto, hty⟩
        · exact h.edgeShape k hk
      globFree := h.globFree
      named := hnamed
      neighbors := hneighbors
      stored := h.stored_addEdge hfrom hto hty hempty (fun name v hv => (hvalues name v hv).2) hback
      found := by
        intro a b ty hedge
        rw [hmem, hmem]
        rcases isSome_addEdge.mp hedge with ⟨hends, rfl⟩ | hedge
        · rcases Sym2.eq_iff.mp hends with ⟨rfl, rfl⟩ | ⟨rfl, rfl⟩
          · exact Or.inl (Or.inl ⟨rfl, rfl, rfl⟩)
          · exact Or.inr (Or.inl ⟨rfl, rfl, rfl⟩)
        · exact (h.found a b ty hedge).imp Or.inr Or.inr
      oneWay := by
        intro a b t u hforth hkey
        rcases hmem.mp hforth with ⟨rfl, rfl, rfl⟩ | hold
        · rcases hmem.mp hkey with ⟨hsame, -, -⟩ | hkey
          · exact hsame.symm
          · exact (hback hkey).symm
        · rcases hmem.mp hkey with ⟨rfl, rfl, rfl⟩ | hkey
          · exact hback hold
          · exact h.oneWay a b t u hold hkey
      unreserved := h.unreserved_addEdge fun name v hv => (hvalues name v hv).1 }

end

/-- After an edge is removed, the edges are the others. -/
theorem isSome_removeEdge {fromId toId edgeType : String} {e : Sym2 String} {ty : String} :
    (applyToGraph g (.removeEdge fromId toId edgeType) e ty).isSome ↔
      ¬ (e = s(fromId, toId) ∧ ty = edgeType) ∧ (g e ty).isSome := by
  by_cases hsame : e = s(fromId, toId) ∧ ty = edgeType
  · obtain ⟨rfl, rfl⟩ := hsame
    simp [applyToGraph, PropertyGraph.modify_self]
  · rw [applyToGraph, PropertyGraph.modify_of_ne _ _ hsame, and_iff_right hsame]

section

variable {fromId toId edgeType : String}

/-- The hashes that are left after an edge is removed are those of the other edges. -/
theorem lookup_edges_removeEdge (h : Represents s g) {a b ty : String} {props : PropertyHash} :
    (Graph.removeEdge fromId toId edgeType s).2.edges.lookup (edgeKey a b ty) = some props ↔
      s.edges.lookup (edgeKey a b ty) = some props ∧
        ¬ (s(a, b) = s(fromId, toId) ∧ ty = edgeType) := by
  simp only [Graph.removeEdge, Keyspace.lookup_erase_eq_some]
  constructor
  · rintro ⟨hback, hforth, hprops⟩
    refine ⟨hprops, ?_⟩
    rintro ⟨hends, rfl⟩
    rcases Sym2.eq_iff.mp hends with ⟨rfl, rfl⟩ | ⟨rfl, rfl⟩
    · exact hforth rfl
    · exact hback rfl
  · rintro ⟨hprops, hother⟩
    obtain ⟨ha, hb, hty⟩ := h.names (AList.lookup_isSome.mp (by rw [hprops]; rfl))
    refine ⟨?_, ?_, hprops⟩
    · intro hkey
      obtain ⟨rfl, rfl, rfl⟩ := (edgeKey_inj ha hb hty).mp hkey.symm
      exact hother ⟨Sym2.eq_swap, rfl⟩
    · intro hkey
      obtain ⟨rfl, rfl, rfl⟩ := (edgeKey_inj ha hb hty).mp hkey.symm
      exact hother ⟨rfl, rfl⟩

theorem mem_edges_removeEdge (h : Represents s g) {a b ty : String} :
    edgeKey a b ty ∈ (Graph.removeEdge fromId toId edgeType s).2.edges ↔
      edgeKey a b ty ∈ s.edges ∧ ¬ (s(a, b) = s(fromId, toId) ∧ ty = edgeType) := by
  simp only [← AList.lookup_isSome, Option.isSome_iff_exists, h.lookup_edges_removeEdge,
    exists_and_right]

/-- The neighbour sets, after an edge is removed. -/
theorem neighbors_removeEdge (h : Represents s g) (n m ty : String) :
    m ∈ (Graph.removeEdge fromId toId edgeType s).2.neighbors.smembers (neighborsKey n ty) ↔
      (applyToGraph g (.removeEdge fromId toId edgeType) s(n, m) ty).isSome := by
  simp only [Graph.removeEdge, Keyspace.mem_smembers_srem, h.neighbors, isSome_removeEdge]
  constructor
  · rintro ⟨⟨hedge, hforth⟩, hback⟩
    refine ⟨?_, hedge⟩
    rintro ⟨hends, rfl⟩
    rcases Sym2.eq_iff.mp hends with ⟨rfl, rfl⟩ | ⟨rfl, rfl⟩
    · exact hforth ⟨rfl, rfl⟩
    · exact hback ⟨rfl, rfl⟩
  · rintro ⟨hother, hedge⟩
    obtain ⟨hty, hends⟩ := h.named _ _ hedge
    have hn := (hends n (Sym2.mem_mk_left n m)).1
    refine ⟨⟨hedge, ?_⟩, ?_⟩
    · rintro ⟨hkey, rfl⟩
      obtain ⟨rfl, rfl⟩ := (neighborsKey_inj hn hty).mp hkey.symm
      exact hother ⟨rfl, rfl⟩
    · rintro ⟨hkey, rfl⟩
      obtain ⟨rfl, rfl⟩ := (neighborsKey_inj hn hty).mp hkey.symm
      exact hother ⟨Sym2.eq_swap, rfl⟩

end

theorem removeEdge (h : Represents s g) (fromId toId edgeType : String) :
    Represents (s.apply codec order (.removeEdge fromId toId edgeType))
      (applyToGraph g (.removeEdge fromId toId edgeType)) := by
  change Represents (Graph.removeEdge fromId toId edgeType s).2 _
  exact {
    neighborShape := fun k hk =>
      h.neighborShape k (Keyspace.mem_of_mem_srem (Keyspace.mem_of_mem_srem hk))
    edgeShape := fun k hk =>
      h.edgeShape k (AList.mem_erase.mp (AList.mem_erase.mp hk).2).2
    globFree := h.globFree
    named := fun e ty hedge => h.named e ty (isSome_removeEdge.mp hedge).2
    neighbors := h.neighbors_removeEdge
    stored := by
      intro a b ty props hprops
      obtain ⟨hprops, hother⟩ := h.lookup_edges_removeEdge.mp hprops
      rw [applyToGraph, PropertyGraph.modify_of_ne _ _ hother]
      exact h.stored a b ty props hprops
    found := by
      intro a b ty hedge
      obtain ⟨hother, hedge⟩ := isSome_removeEdge.mp hedge
      rw [h.mem_edges_removeEdge, h.mem_edges_removeEdge, Sym2.eq_swap (a := b)]
      exact (h.found a b ty hedge).imp (fun hkey => ⟨hkey, hother⟩) fun hkey => ⟨hkey, hother⟩
    oneWay := fun a b t u hforth hback =>
      h.oneWay a b t u (h.mem_edges_removeEdge.mp hforth).1 (h.mem_edges_removeEdge.mp hback).1
    unreserved := by
      intro e ty props hprops
      have hother := (isSome_removeEdge.mp (by rw [hprops]; rfl)).1
      rw [applyToGraph, PropertyGraph.modify_of_ne _ _ hother] at hprops
      exact h.unreserved e ty props hprops }

/-- One round of the loop over the neighbour sets of a node: its set of one type goes, and the
node goes from the sets of that type. -/
theorem mem_dropNeighborKey {nodeId : String} {neighbors : List String}
    {sets : Keyspace (MemberSet String)} {key k x : String} :
    x ∈ (dropNeighborKey nodeId neighbors sets key).smembers k ↔ x ∈ sets.smembers k ∧
      ¬ (k = key ∨ (x = nodeId ∧ ∃ m ∈ neighbors, k = neighborsKey m (lastPart key))) := by
  have hloop : x ∈ (neighbors.foldl (fun sets neighbor =>
        sets.srem (neighborsKey neighbor (lastPart key)) nodeId) sets).smembers k ↔
      x ∈ sets.smembers k ∧
        ∀ m ∈ neighbors, ¬ (k = neighborsKey m (lastPart key) ∧ x = nodeId) :=
    Keyspace.mem_smembers_foldl (fun m k x => k = neighborsKey m (lastPart key) ∧ x = nodeId)
      (by simp) neighbors sets k x
  rw [dropNeighborKey, Keyspace.mem_smembers_erase, hloop]
  constructor
  · rintro ⟨⟨hmem, hkept⟩, hkey⟩
    refine ⟨hmem, ?_⟩
    rintro (rfl | ⟨rfl, m, hm, rfl⟩)
    · exact hkey rfl
    · exact hkept m hm ⟨rfl, rfl⟩
  · rintro ⟨hmem, hkept⟩
    refine ⟨⟨hmem, ?_⟩, fun hkey => hkept (Or.inl hkey)⟩
    rintro m hm ⟨rfl, rfl⟩
    exact hkept (Or.inr ⟨rfl, m, hm, rfl⟩)

theorem neighbors_deleteNode (h : Represents s g) {nodeId : String} (hfree : GlobFree nodeId)
    (n m ty : String) :
    m ∈ (Graph.deleteNode order nodeId s).neighbors.smembers (neighborsKey n ty) ↔
      (g.deleteNode nodeId s(n, m) ty).isSome := by
  have hloop : m ∈ (Graph.deleteNode order nodeId s).neighbors.smembers (neighborsKey n ty) ↔
      m ∈ s.neighbors.smembers (neighborsKey n ty) ∧
        ∀ key ∈ neighborKeys order nodeId s, ¬ (neighborsKey n ty = key ∨ (m = nodeId ∧
          ∃ neighbor ∈ getNeighbors order nodeId none s,
            neighborsKey n ty = neighborsKey neighbor (lastPart key))) :=
    Keyspace.mem_smembers_foldl (fun key k x => k = key ∨ (x = nodeId ∧
        ∃ neighbor ∈ getNeighbors order nodeId none s, k = neighborsKey neighbor (lastPart key)))
      (fun _ _ _ _ => mem_dropNeighborKey) _ s.neighbors _ m
  rw [hloop, h.neighbors, PropertyGraph.isSome_deleteNode, and_comm]
  refine and_congr_left fun hedge => ?_
  obtain ⟨hty, hends⟩ := h.named _ _ hedge
  have hn : ColonFree n := (hends n (Sym2.mem_mk_left n m)).1
  rw [Sym2.mem_iff, not_or]
  constructor
  · intro hkept
    constructor
    · -- the set of the node itself
      rintro rfl
      refine hkept (neighborsKey nodeId ty) ?_ (Or.inl rfl)
      exact Keyspace.mem_matching.mpr ⟨Keyspace.mem_of_mem_smembers
        ((h.neighbors nodeId m ty).mpr hedge), (matches_neighborsKey hfree hn hty).mpr rfl⟩
    · -- its entry in the set of a neighbour
      rintro rfl
      have hback : (g s(nodeId, n) ty).isSome := by rwa [Sym2.eq_swap]
      have hnode : ColonFree nodeId := (hends nodeId (Sym2.mem_mk_right n nodeId)).1
      refine hkept (neighborsKey nodeId ty) ?_ (Or.inr ⟨rfl, n, ?_, ?_⟩)
      · exact Keyspace.mem_matching.mpr ⟨Keyspace.mem_of_mem_smembers
          ((h.neighbors nodeId n ty).mpr hback), (matches_neighborsKey hfree hnode hty).mpr rfl⟩
      · exact (h.mem_getNeighbors hfree).mpr ⟨ty, by simp [Selects, given], hback⟩
      · rw [lastPart_neighborsKey hty]
  · rintro ⟨hnotN, hnotM⟩ key hkey
    obtain ⟨hmem, hmatches⟩ := Keyspace.mem_matching.mp hkey
    obtain ⟨n', ty', rfl, hn', hty'⟩ := h.neighborShape key hmem
    obtain rfl := (matches_neighborsKey hfree hn' hty').mp hmatches
    rintro (hsame | ⟨rfl, -⟩)
    · exact hnotN ((neighborsKey_inj hn' hty').mp hsame).1.symm
    · exact hnotM rfl

/-- The hashes that are left by a deletion are those of the edges that do not touch the node. -/
theorem lookup_deleteNode (h : Represents s g) {nodeId : String} (hfree : GlobFree nodeId)
    (hjoined : ∀ a b ty, edgeKey a b ty ∈ s.edges → nodeId ≠ a ++ ":" ++ b) (a b ty : String)
    (props : PropertyHash) :
    (Graph.deleteNode order nodeId s).edges.lookup (edgeKey a b ty) = some props ↔
      s.edges.lookup (edgeKey a b ty) = some props ∧ nodeId ∉ s(a, b) := by
  rw [Graph.deleteNode, Keyspace.lookup_foldl_erase, Sym2.mem_iff]
  have hdeleted : edgeKey a b ty ∈ s.edges → ((edgeKey a b ty ∈
      s.edges.matching order ("GRAPH:EDGE:" ++ nodeId ++ ":" ++ "*")
        ++ s.edges.matching order ("GRAPH:EDGE:" ++ "*" ++ (":" ++ nodeId ++ ":") ++ "*")) ↔
      nodeId = a ∨ nodeId = b) := by
    intro hkey
    obtain ⟨ha, hb, hty⟩ := h.names hkey
    rw [List.mem_append, Keyspace.mem_matching, Keyspace.mem_matching, and_iff_right hkey,
      and_iff_right hkey, matches_edgeKey_from hfree ha hb hty, matches_edgeKey_to hfree ha hb hty,
      or_iff_left (hjoined a b ty hkey)]
  constructor
  · intro hprops
    split at hprops
    case isTrue => cases hprops
    case isFalse hkept =>
      have hkey : edgeKey a b ty ∈ s.edges := AList.lookup_isSome.mp (by rw [hprops]; rfl)
      exact ⟨hprops, mt (hdeleted hkey).mpr hkept⟩
  · rintro ⟨hprops, hother⟩
    have hkey : edgeKey a b ty ∈ s.edges := AList.lookup_isSome.mp (by rw [hprops]; rfl)
    rw [if_neg (mt (hdeleted hkey).mp hother), hprops]

theorem deleteNode (h : Represents s g) {nodeId : String}
    (hsound : Sound s (.deleteNode nodeId : GraphOp codec.Tree)) :
    Represents (s.apply codec order (.deleteNode nodeId)) (applyToGraph g (.deleteNode nodeId)) := by
  obtain ⟨hfree, hjoined⟩ := hsound
  change Represents (Graph.deleteNode order nodeId s) (g.deleteNode nodeId)
  have hlookup := fun a b ty props => h.lookup_deleteNode order hfree hjoined a b ty props
  have hmem : ∀ {a b ty}, edgeKey a b ty ∈ (Graph.deleteNode order nodeId s).edges ↔
      edgeKey a b ty ∈ s.edges ∧ nodeId ∉ s(a, b) := by
    intro a b ty
    simp only [← AList.lookup_isSome, Option.isSome_iff_exists, hlookup, exists_and_right]
  have hlast : ∀ k, k ∈ (Graph.deleteNode order nodeId s).edges → k ∈ s.edges :=
    fun k hk => Keyspace.mem_of_mem_foldl (fun _ _ _ hk => (AList.mem_erase.mp hk).2) hk
  exact {
    neighborShape := by
      intro k hk
      refine h.neighborShape k (Keyspace.mem_of_mem_foldl ?_ hk)
      intro sets key k hk
      exact Keyspace.mem_of_mem_foldl (fun _ _ _ hk => Keyspace.mem_of_mem_srem hk)
        (AList.mem_erase.mp hk).2
    edgeShape := fun k hk => h.edgeShape k (hlast k hk)
    globFree := fun n hn => h.globFree n (MemberSet.mem_srem.mp hn).2
    named := by
      intro e ty hedge
      obtain ⟨hother, hedge⟩ := PropertyGraph.isSome_deleteNode.mp hedge
      refine ⟨(h.named e ty hedge).1, fun n hn => ?_⟩
      obtain ⟨hcolon, hnode⟩ := (h.named e ty hedge).2 n hn
      exact ⟨hcolon, MemberSet.mem_srem.mpr ⟨fun hsame => hother (hsame ▸ hn), hnode⟩⟩
    neighbors := h.neighbors_deleteNode order hfree
    stored := by
      intro a b ty props hprops
      obtain ⟨hprops, hother⟩ := (hlookup a b ty props).mp hprops
      exact PropertyGraph.deleteNode_eq_some.mpr ⟨hother, h.stored a b ty props hprops⟩
    found := by
      intro a b ty hedge
      obtain ⟨hother, hedge⟩ := PropertyGraph.isSome_deleteNode.mp hedge
      have hother' : nodeId ∉ s(b, a) := by rwa [Sym2.eq_swap]
      rw [hmem, hmem]
      exact (h.found a b ty hedge).imp (fun hkey => ⟨hkey, hother⟩) fun hkey => ⟨hkey, hother'⟩
    oneWay := fun a b t u hforth hback =>
      h.oneWay a b t u (hmem.mp hforth).1 (hmem.mp hback).1
    unreserved := fun e ty props hprops =>
      h.unreserved e ty props (PropertyGraph.deleteNode_eq_some.mp hprops).2 }

/-- A sound write keeps the store and the graph together. -/
theorem apply (h : Represents s g) {op : GraphOp codec.Tree} (hsound : Sound s op) :
    Represents (s.apply codec order op) (applyToGraph g op) := by
  cases op with
  | addNode nodeId properties => exact h.addNode order properties hsound
  | addEdge fromId toId edgeType properties => exact h.addEdge order hsound
  | removeEdge fromId toId edgeType => exact h.removeEdge order fromId toId edgeType
  | deleteNode nodeId => exact h.deleteNode order hsound

variable (codec) in
/-- Nothing is stored of no edges. -/
theorem empty : Represents Store.empty (.empty : PropertyGraph String String (Dict codec.Tree)) where
  neighborShape k hk := absurd hk (AList.notMem_empty k)
  edgeShape k hk := absurd hk (AList.notMem_empty k)
  globFree n hn := absurd hn (MemberSet.not_mem_empty n)
  named _ _ hedge := absurd hedge (by simp)
  neighbors n m ty := by simp [Store.empty]
  stored _ _ _ _ hprops := by simp [Store.empty] at hprops
  found _ _ _ hedge := absurd hedge (by simp)
  oneWay _ _ _ _ hforth _ := absurd hforth (AList.notMem_empty _)
  unreserved _ _ _ hprops := absurd hprops (by simp)

end Represents

/-- The store and the graph that take the same writes. -/
def bothApply (both : Store × PropertyGraph String String (Dict codec.Tree))
    (op : GraphOp codec.Tree) : Store × PropertyGraph String String (Dict codec.Tree) :=
  (both.1.apply codec order op, applyToGraph both.2 op)

variable (codec) in
/-- **Completeness over runs.**  After any writes each of which is sound where it is made,
every read answers with the edges that were added and not removed or deleted with a node, each
once and with its latest properties, neighbours are neighbours of each other, and a deletion
leaves every other node as it was. -/
theorem complete_of_sound (ops : List (GraphOp codec.Tree))
    (hsound : Each (bothApply order) (fun both op => Sound both.1 op)
      (Store.empty, PropertyGraph.empty) ops) :
    Along (bothApply order) (fun both => Complete both.1 both.2)
      (fun both op both' => OtherNodesKept both.1 op both'.1)
      (Store.empty, PropertyGraph.empty) ops := by
  refine along_of_each (I := fun both => Represents both.1 both.2) ?_ ?_ ?_
    (Represents.empty codec) hsound
  · intro both op h hop
    exact h.apply order hop
  · intro both h
    exact h.complete
  · intro both op _ _
    exact otherNodesKept order both.1 op

/-- A dict with one note. -/
def note : Properties plainTexts.Tree := AList.insert "notes" (.text "seen") ∅

/-- Nothing was written yet. -/
def start : Store × PropertyGraph String String (Dict plainTexts.Tree) :=
  (Store.empty, PropertyGraph.empty)

/-- Two nodes with an edge between them, then the edge removed. -/
theorem complete_of_sound_two_nodes :
    Along (bothApply .asAnswered) (fun both => Complete both.1 both.2)
      (fun both op both' => OtherNodesKept both.1 op both'.1) start
      [.addNode "a" note, .addNode "b" note, .addEdge "a" "b" "similar" note,
        .removeEdge "b" "a" "similar"] := by
  have hnode : ∀ n, GlobFree n → ∀ s : Store, Sound s (.addNode n note : GraphOp plainTexts.Tree) :=
    fun _ hn _ => hn
  have hvalues : ∀ name v, note.lookup name = some v → name ∉ reserved ∧ Survives plainTexts v := by
    intro name v hv
    by_cases hname : name = "notes"
    · subst hname
      rw [note, AList.lookup_insert] at hv
      obtain rfl := Option.some.inj hv
      exact ⟨by decide, rfl⟩
    · rw [note, AList.lookup_insert_ne hname, AList.lookup_empty] at hv
      cases hv
  refine complete_of_sound plainTexts .asAnswered _ ⟨hnode "a" (by decide) _,
    hnode "b" (by decide) _, ⟨by decide, by decide, hvalues, ?_⟩, trivial, trivial⟩
  rw [if_neg (by decide)]
  exact Or.inr fun ty => AList.notMem_empty _

/-- An edge without properties makes its ends neighbours, and is in no list of edges. -/
theorem edge_without_properties_lost :
    let both := run (bothApply .asAnswered) start
      [.addNode "a" note, .addNode "b" note, .addEdge "a" "b" "similar" ∅]
    getNeighbors .asAnswered "a" none both.1 = ["b"] ∧
      (getEdges plainTexts .asAnswered "a" none both.1).length = 0 ∧
      (getGraph plainTexts .asAnswered none both.1).2.length = 0 ∧
      ¬ Complete both.1 both.2 := by
  refine ⟨by decide, by decide, by decide, ?_⟩
  intro hcomplete
  obtain ⟨listed, -, hmem, hedges⟩ := hcomplete.edges .asAnswered "a" none (by decide)
  have hlisted : ("b", "similar") ∈ listed :=
    (hmem "b" "similar").mpr ⟨by simp [Selects, given], by decide⟩
  have hnone : (getEdges plainTexts .asAnswered "a" none (run (bothApply .asAnswered) start
      [.addNode "a" note, .addNode "b" note, .addEdge "a" "b" "similar" ∅]).1).length = 0 := by
    decide
  rw [hedges, List.length_map, List.length_eq_zero_iff] at hnone
  rw [hnone] at hlisted
  cases hlisted

end DoxAsdlc.Graph
