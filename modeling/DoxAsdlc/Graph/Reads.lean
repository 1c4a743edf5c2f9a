import DoxAsdlc.Graph.RedisGraphStore
import DoxAsdlc.Structures.PropertyGraph

/-!
# What the graph store answers with

A key is a prefix and names joined by colons.  Where the names hold no colon, a key
determines them, the last part of a key is its type, and a pattern made of names without
special characters finds the keys of these names.

The store represents an undirected property graph: the neighbour sets hold the ends of its
edges, and each edge has its properties in one hash, under a key of one of its two
directions.  Where a store represents a graph, every read answers with what is in the graph.

## Main definitions

* `ColonFree` — a name without colons.
* `Represents` — the store and the graph that is kept in it.
* `Complete` — every read answers with the edges of a graph, each once.
-/

namespace DoxAsdlc.Graph

open Redis

/-- A name that can be told from what it is joined with. -/
def ColonFree (name : String) : Prop := ':' ∉ name.toList

instance (name : String) : Decidable (ColonFree name) :=
  inferInstanceAs (Decidable (':' ∉ name.toList))

/-- Two ways to split at a colon: the first part of the one is that of the other, or has the
colon of the other in it. -/
theorem split_cases {x y a b : List Char} (hx : ':' ∉ x) (h : x ++ ':' :: y = a ++ ':' :: b) :
    (a = x ∧ b = y) ∨ ∃ a', a = x ++ ':' :: a' ∧ y = a' ++ ':' :: b := by
  rcases List.append_eq_append_iff.mp h with ⟨c, rfl, hc⟩ | ⟨c, rfl, hc⟩
  · cases c with
    | nil => exact Or.inl ⟨by simp, (List.cons.inj hc).2.symm⟩
    | cons d c =>
      obtain ⟨rfl, hy⟩ := List.cons.inj hc
      exact Or.inr ⟨c, rfl, hy⟩
  · cases c with
    | nil => exact Or.inl ⟨by simp, (List.cons.inj hc).2⟩
    | cons d c =>
      obtain ⟨rfl, -⟩ := List.cons.inj hc
      exact absurd (by simp) hx

/-- A text with one colon splits in one way. -/
theorem split_unique {x y a b : List Char} (hx : ':' ∉ x) (hy : ':' ∉ y)
    (h : x ++ ':' :: y = a ++ ':' :: b) : a = x ∧ b = y := by
  rcases split_cases hx h with hsame | ⟨a', -, rfl⟩
  · exact hsame
  · exact absurd (by simp) hy

section

variable {n ty a b : String}

theorem toList_separator : ":".toList = [':'] := rfl

theorem toList_joined (front : String) :
    (front ++ n ++ ":" ++ ty).toList = front.toList ++ (n.toList ++ ':' :: ty.toList) := by
  simp only [String.toList_append, List.append_assoc, toList_separator, List.singleton_append]

theorem toList_neighborsKey :
    (neighborsKey n ty).toList = "GRAPH:NEIGHBORS:".toList ++ (n.toList ++ ':' :: ty.toList) :=
  toList_joined _

theorem toList_edgeKey :
    (edgeKey a b ty).toList
      = "GRAPH:EDGE:".toList ++ (a.toList ++ ':' :: (b.toList ++ ':' :: ty.toList)) := by
  rw [edgeKey, toList_joined, String.toList_append, String.toList_append]
  generalize "GRAPH:EDGE:".toList = front
  simp [toList_separator]

theorem nodeKey_inj {n m : String} : nodeKey n = nodeKey m ↔ n = m := String.append_right_inj _

theorem neighborsKey_inj {n' ty' : String} (hn : ColonFree n) (hty : ColonFree ty) :
    neighborsKey n' ty' = neighborsKey n ty ↔ n' = n ∧ ty' = ty := by
  constructor
  · intro h
    have hlist := congrArg String.toList h
    rw [toList_neighborsKey, toList_neighborsKey, List.append_cancel_left_eq] at hlist
    obtain ⟨hfst, hsnd⟩ := split_unique hn hty hlist.symm
    exact ⟨String.toList_inj.mp hfst, String.toList_inj.mp hsnd⟩
  · rintro ⟨rfl, rfl⟩
    rfl

theorem edgeKey_inj {a' b' ty' : String} (ha : ColonFree a) (hb : ColonFree b)
    (hty : ColonFree ty) : edgeKey a' b' ty' = edgeKey a b ty ↔ a' = a ∧ b' = b ∧ ty' = ty := by
  constructor
  · intro h
    have hlist := congrArg String.toList h
    rw [toList_edgeKey, toList_edgeKey, List.append_cancel_left_eq] at hlist
    rcases split_cases ha hlist.symm with ⟨hfst, hrest⟩ | ⟨c, -, hrest⟩
    · obtain ⟨hsnd, hlast⟩ := split_unique hb hty hrest.symm
      exact ⟨String.toList_inj.mp hfst, String.toList_inj.mp hsnd, String.toList_inj.mp hlast⟩
    · obtain ⟨-, hlast⟩ := split_unique hb hty hrest
      exact absurd (hlast ▸ by simp) hty
  · rintro ⟨rfl, rfl, rfl⟩
    rfl

/-! ## The last part -/

theorem lastPart_eq {key : String} (front : List Char) (h : key.toList = front ++ ':' :: ty.toList)
    (hty : ColonFree ty) : lastPart key = ty := by
  rw [lastPart, h, List.splitOn_append_cons_self, List.splitOn_eq_singleton hty]
  simp

theorem lastPart_neighborsKey (hty : ColonFree ty) : lastPart (neighborsKey n ty) = ty :=
  lastPart_eq _ (by rw [toList_neighborsKey, ← List.append_assoc]) hty

theorem lastPart_edgeKey (hty : ColonFree ty) : lastPart (edgeKey a b ty) = ty :=
  lastPart_eq ("GRAPH:EDGE:".toList ++ (a.toList ++ ':' :: b.toList))
    (by rw [toList_edgeKey]; simp) hty

/-! ## Patterns -/

theorem globFree_separator : GlobFree ":" := by decide

/-- The neighbour sets of a node are found by its name. -/
theorem matches_neighborsKey {m : String} (hm : GlobFree m) (hn : ColonFree n)
    (hty : ColonFree ty) :
    globMatches ("GRAPH:NEIGHBORS:" ++ m ++ ":" ++ "*") (neighborsKey n ty) ↔ m = n := by
  have hfront : GlobFree ("GRAPH:NEIGHBORS:" ++ m ++ ":") :=
    (GlobFree.append (by decide) hm).append globFree_separator
  rw [globMatches_front hfront]
  simp only [toList_neighborsKey, String.toList_append, List.append_assoc, toList_separator,
    List.singleton_append, List.append_cancel_left_eq]
  constructor
  · rintro ⟨rest, h⟩
    exact String.toList_inj.mp (split_unique hn hty h).1
  · rintro rfl
    exact ⟨ty.toList, rfl⟩

/-- The hashes of the edges from one node to another are found by their names. -/
theorem matches_edgeKey {c d : String} (hc : GlobFree c) (hd : GlobFree d) (ha : ColonFree a)
    (hb : ColonFree b) (hty : ColonFree ty) :
    globMatches ("GRAPH:EDGE:" ++ c ++ ":" ++ d ++ ":" ++ "*") (edgeKey a b ty)
      ↔ c = a ∧ d = b := by
  have hfront : GlobFree ("GRAPH:EDGE:" ++ c ++ ":" ++ d ++ ":") :=
    ((((GlobFree.append (by decide) hc).append globFree_separator).append hd).append
      globFree_separator)
  rw [globMatches_front hfront]
  simp only [toList_edgeKey, String.toList_append, List.append_assoc, toList_separator,
    List.singleton_append, List.append_cancel_left_eq]
  constructor
  · rintro ⟨rest, h⟩
    rcases split_cases ha h with ⟨hfst, hrest⟩ | ⟨x, -, hrest⟩
    · exact ⟨String.toList_inj.mp hfst, String.toList_inj.mp (split_unique hb hty hrest.symm).1⟩
    · obtain ⟨-, hlast⟩ := split_unique hb hty hrest
      exact absurd (hlast ▸ by simp) hty
  · rintro ⟨rfl, rfl⟩
    exact ⟨ty.toList, rfl⟩

/-- The pattern for the edges that begin at a node also finds those between two nodes whose
names, joined, are the name of the node. -/
theorem matches_edgeKey_from {m : String} (hm : GlobFree m) (ha : ColonFree a)
    (hb : ColonFree b) (hty : ColonFree ty) :
    globMatches ("GRAPH:EDGE:" ++ m ++ ":" ++ "*") (edgeKey a b ty)
      ↔ m = a ∨ m = a ++ ":" ++ b := by
  have hfront : GlobFree ("GRAPH:EDGE:" ++ m ++ ":") :=
    (GlobFree.append (by decide) hm).append globFree_separator
  rw [globMatches_front hfront]
  simp only [toList_edgeKey, String.toList_append, List.append_assoc, toList_separator,
    List.singleton_append, List.append_cancel_left_eq]
  constructor
  · rintro ⟨rest, h⟩
    rcases split_cases ha h with ⟨hfst, -⟩ | ⟨x, hfst, hrest⟩
    · exact Or.inl (String.toList_inj.mp hfst)
    · obtain ⟨rfl, -⟩ := split_unique hb hty hrest
      right
      rw [← String.toList_inj, hfst]
      simp
  · rintro (rfl | rfl)
    · exact ⟨b.toList ++ ':' :: ty.toList, rfl⟩
    · exact ⟨ty.toList, by simp⟩

/-- The edges that end at a node are found by its name between two stars. -/
theorem matches_edgeKey_to {m : String} (hm : GlobFree m) (ha : ColonFree a)
    (hb : ColonFree b) (hty : ColonFree ty) :
    globMatches ("GRAPH:EDGE:" ++ "*" ++ (":" ++ m ++ ":") ++ "*") (edgeKey a b ty) ↔ m = b := by
  have hmiddle : GlobFree (":" ++ m ++ ":") :=
    (globFree_separator.append hm).append globFree_separator
  rw [globMatches_between (by decide) hmiddle]
  simp only [toList_edgeKey, String.toList_append, List.append_assoc, toList_separator,
    List.singleton_append, List.append_cancel_left_eq]
  constructor
  · rintro ⟨between, rest, h⟩
    have hsplit : a.toList ++ ':' :: (b.toList ++ ':' :: ty.toList)
        = between ++ ':' :: (m.toList ++ ':' :: rest) := h
    rcases split_cases ha hsplit with ⟨-, hrest⟩ | ⟨x, -, hrest⟩
    · exact String.toList_inj.mp (split_unique hb hty hrest.symm).1
    · obtain ⟨-, hlast⟩ := split_unique hb hty hrest
      exact absurd (hlast ▸ by simp) hty
  · rintro rfl
    exact ⟨a.toList, ty.toList, rfl⟩

end

end DoxAsdlc.Graph

/-! ## What the graph store answers with -/

namespace DoxAsdlc.Graph

open Redis

variable {codec : JsonCodec}

/-- The fields that a returned edge has besides its properties. -/
def reserved : List String := ["source", "target", "edge_type"]

/-- The types that a read is about. -/
def Selects (edgeType : Option String) (ty : String) : Prop :=
  ∀ t, given edgeType = some t → ty = t

/-- The dict of an edge of the graph, listed from one end to the other. -/
def dictOf (g : PropertyGraph String String (Dict codec.Tree)) (a b ty : String) :
    Dict codec.Tree :=
  edgeDict codec a b ty ((g s(a, b) ty).getD .empty)

/-- A store and the graph that is kept in it. -/
structure Represents (s : Store) (g : PropertyGraph String String (Dict codec.Tree)) : Prop where
  neighborShape : ∀ k ∈ s.neighbors, ∃ n ty, k = neighborsKey n ty ∧ ColonFree n ∧ ColonFree ty
  edgeShape : ∀ k ∈ s.edges, ∃ a b ty, k = edgeKey a b ty ∧
    ColonFree a ∧ ColonFree b ∧ ColonFree ty
  globFree : ∀ n ∈ s.allNodes, GlobFree n
  named : ∀ e ty, (g e ty).isSome → ColonFree ty ∧ ∀ n ∈ e, ColonFree n ∧ n ∈ s.allNodes
  neighbors : ∀ n m ty, m ∈ s.neighbors.smembers (neighborsKey n ty) ↔ (g s(n, m) ty).isSome
  /-- A stored hash holds the properties of its edge. -/
  stored : ∀ a b ty h, s.edges.lookup (edgeKey a b ty) = some h →
    g s(a, b) ty = some (codec.read h)
  /-- Every edge has a hash in one direction. -/
  found : ∀ a b ty, (g s(a, b) ty).isSome → edgeKey a b ty ∈ s.edges ∨ edgeKey b a ty ∈ s.edges
  /-- Between two nodes, hashes are stored in one direction. -/
  oneWay : ∀ a b t u, edgeKey a b t ∈ s.edges → edgeKey b a u ∈ s.edges → a = b
  unreserved : ∀ e ty p, g e ty = some p → ∀ f ∈ reserved, p f = none

/-- Every read of a store answers with the edges of a graph, each once and with its
properties; and to be a neighbour goes both ways. -/
structure Complete (s : Store) (g : PropertyGraph String String (Dict codec.Tree)) : Prop where
  neighbors : ∀ order n edgeType m, GlobFree n →
    (m ∈ getNeighbors order n edgeType s ↔ g.Neighbor (Selects edgeType) n m)
  symmetric : ∀ order n m edgeType, GlobFree n → GlobFree m →
    (m ∈ getNeighbors order n edgeType s ↔ n ∈ getNeighbors order m edgeType s)
  edges : ∀ order n edgeType, GlobFree n → ∃ listed : List (String × String),
    listed.Nodup ∧
    (∀ m ty, (m, ty) ∈ listed ↔ Selects edgeType ty ∧ (g s(n, m) ty).isSome) ∧
    getEdges codec order n edgeType s = listed.map fun e => dictOf g n e.1 e.2
  graph : ∀ order nodeIds, (∀ ids, nodeIds = some ids → ∀ n ∈ ids, GlobFree n) →
    ∃ listed : List (String × String × String),
      (listed.map PropertyGraph.undirected).Nodup ∧
      (∀ e ty, (e, ty) ∈ listed.map PropertyGraph.undirected ↔
        (g e ty).isSome ∧ ∀ ids, nodeIds = some ids → ∀ n ∈ e, n ∈ ids) ∧
      (getGraph codec order nodeIds s).2 = listed.map fun e => dictOf g e.1 e.2.1 e.2.2

namespace Represents

variable {s : Store} {g : PropertyGraph String String (Dict codec.Tree)}

/-- The names in the key of a stored hash. -/
theorem names (h : Represents s g) {a b ty : String} (hkey : edgeKey a b ty ∈ s.edges) :
    ColonFree a ∧ ColonFree b ∧ ColonFree ty := by
  obtain ⟨a', b', ty', heq, ha, hb, hty⟩ := h.edgeShape _ hkey
  obtain ⟨rfl, rfl, rfl⟩ := (edgeKey_inj ha hb hty).mp heq
  exact ⟨ha, hb, hty⟩

/-- A stored hash belongs to an edge. -/
theorem isSome_of_mem (h : Represents s g) {a b ty : String} (hkey : edgeKey a b ty ∈ s.edges) :
    (g s(a, b) ty).isSome := by
  obtain ⟨props, hprops⟩ := Option.isSome_iff_exists.mp (AList.lookup_isSome.mpr hkey)
  rw [h.stored a b ty props hprops]
  rfl

/-- The properties of an edge, from the hash of one direction. -/
theorem getD_eq (h : Represents s g) {a b ty : String} {props : PropertyHash}
    (hprops : s.edges.lookup (edgeKey a b ty) = some props) :
    (g s(a, b) ty).getD .empty = codec.read props := by
  rw [h.stored a b ty props hprops]
  rfl

/-! ## Neighbours -/

theorem mem_getNeighbors (h : Represents s g) {order : IterationOrder String} {n m : String}
    {edgeType : Option String} (hn : GlobFree n) :
    m ∈ getNeighbors order n edgeType s ↔ g.Neighbor (Selects edgeType) n m := by
  unfold getNeighbors PropertyGraph.Neighbor Selects
  cases hgiven : given edgeType with
  | some t => simp [h.neighbors]
  | none =>
    simp only [IterationOrder.mem_list, List.mem_dedup, List.mem_flatMap, MemberSet.mem_members,
      neighborKeys, Keyspace.mem_matching, reduceCtorEq, false_implies, implies_true, true_and]
    constructor
    · rintro ⟨key, ⟨hkey, hmatches⟩, hm⟩
      obtain ⟨n', ty, rfl, hn', hty⟩ := h.neighborShape key hkey
      obtain rfl := (matches_neighborsKey hn hn' hty).mp hmatches
      exact ⟨ty, (h.neighbors _ _ _).mp hm⟩
    · rintro ⟨ty, hedge⟩
      obtain ⟨hty, hends⟩ := h.named _ _ hedge
      have hm := (h.neighbors n m ty).mpr hedge
      exact ⟨neighborsKey n ty, ⟨Keyspace.mem_of_mem_smembers hm,
        (matches_neighborsKey hn (hends n (Sym2.mem_mk_left n m)).1 hty).mpr rfl⟩, hm⟩

theorem nodup_getNeighbors {order : IterationOrder String} {n : String}
    {edgeType : Option String} : (getNeighbors order n edgeType s).Nodup := by
  unfold getNeighbors
  split
  · exact order.nodup_list (MemberSet.nodup _)
  · exact order.nodup_list (List.nodup_dedup _)

/-! ## Edges -/

/-- The hashes of one direction, as edges from a node to a neighbour. -/
theorem storedEdges_eq (h : Represents s g) (order : IterationOrder String) {n m a b : String}
    (ha : GlobFree a) (hb : GlobFree b) (hends : s(a, b) = s(n, m)) :
    ∃ types : List String, types.Nodup ∧ (∀ ty, ty ∈ types ↔ edgeKey a b ty ∈ s.edges) ∧
      storedEdges codec order n m a b s = types.map (dictOf g n m) := by
  let keys := s.edges.matching order ("GRAPH:EDGE:" ++ a ++ ":" ++ b ++ ":" ++ "*")
  have hkeys : ∀ key ∈ keys, ∃ ty, key = edgeKey a b ty ∧ ColonFree ty ∧ key ∈ s.edges := by
    intro key hkey
    obtain ⟨hmem, hmatches⟩ := Keyspace.mem_matching.mp hkey
    obtain ⟨a', b', ty, rfl, ha', hb', hty⟩ := h.edgeShape key hmem
    obtain ⟨rfl, rfl⟩ := (matches_edgeKey ha hb ha' hb' hty).mp hmatches
    exact ⟨ty, rfl, hty, hmem⟩
  refine ⟨keys.map lastPart, ?_, ?_, ?_⟩
  · refine (Keyspace.nodup_matching _ _ _).map_on ?_
    intro key hkey key' hkey' hlast
    obtain ⟨ty, rfl, hty, -⟩ := hkeys key hkey
    obtain ⟨ty', rfl, hty', -⟩ := hkeys key' hkey'
    rw [lastPart_edgeKey hty, lastPart_edgeKey hty'] at hlast
    rw [hlast]
  · intro ty
    constructor
    · intro hty
      obtain ⟨key, hkey, rfl⟩ := List.mem_map.mp hty
      obtain ⟨ty, rfl, hty, hmem⟩ := hkeys key hkey
      rwa [lastPart_edgeKey hty]
    · intro hmem
      obtain ⟨ha', hb', hty⟩ := h.names hmem
      have hmatches := (matches_edgeKey ha hb ha' hb' hty).mpr ⟨rfl, rfl⟩
      exact List.mem_map.mpr ⟨edgeKey a b ty, Keyspace.mem_matching.mpr ⟨hmem, hmatches⟩,
        lastPart_edgeKey hty⟩
  · rw [storedEdges, List.map_map]
    refine List.map_congr_left ?_
    intro key hkey
    obtain ⟨ty, rfl, hty, hmem⟩ := hkeys key hkey
    obtain ⟨props, hprops⟩ := Option.isSome_iff_exists.mp (AList.lookup_isSome.mpr hmem)
    rw [Function.comp_apply, lastPart_edgeKey hty, dictOf, ← hends, h.getD_eq hprops, hprops]
    rfl

/-- The edges of all types between a node and a neighbour. -/
theorem untypedEdges_eq (h : Represents s g) (order : IterationOrder String) {n m : String}
    (hn : GlobFree n) (hm : GlobFree m) :
    ∃ types : List String, types.Nodup ∧ (∀ ty, ty ∈ types ↔ (g s(n, m) ty).isSome) ∧
      untypedEdges codec order n m s = types.map (dictOf g n m) := by
  obtain ⟨forth, hforth, hmemForth, heqForth⟩ :=
    h.storedEdges_eq order hn hm (rfl : s(n, m) = s(n, m))
  obtain ⟨back, hback, hmemBack, heqBack⟩ :=
    h.storedEdges_eq order hm hn (Sym2.eq_swap : s(m, n) = s(n, m))
  have hedge : ∀ ty, (g s(n, m) ty).isSome ↔
      edgeKey n m ty ∈ s.edges ∨ edgeKey m n ty ∈ s.edges := by
    intro ty
    refine ⟨h.found n m ty, ?_⟩
    rintro (hkey | hkey)
    · exact h.isSome_of_mem hkey
    · rw [Sym2.eq_swap]
      exact h.isSome_of_mem hkey
  cases forth with
  | nil =>
    refine ⟨back, hback, ?_, ?_⟩
    · intro ty
      have hnone : edgeKey n m ty ∉ s.edges := fun hkey => List.not_mem_nil ((hmemForth ty).mpr hkey)
      rw [hmemBack, hedge, or_iff_right hnone]
    · rw [untypedEdges, heqForth, List.map_nil, heqBack]
  | cons first rest =>
    refine ⟨first :: rest, hforth, ?_, ?_⟩
    · intro ty
      rw [hmemForth, hedge]
      refine ⟨Or.inl, ?_⟩
      rintro (hkey | hkey)
      · exact hkey
      · -- hashes in both directions: the two ends are one
        obtain rfl := h.oneWay n m first ty ((hmemForth first).mp List.mem_cons_self) hkey
        exact hkey
    · rw [untypedEdges, heqForth]
      rfl

/-- An edge of a given type between a node and a neighbour. -/
theorem typedEdges_eq (h : Represents s g) {n m ty : String} (hedge : (g s(n, m) ty).isSome) :
    typedEdges codec n m ty s = [dictOf g n m ty] := by
  unfold typedEdges
  split
  case h_1 props hprops => rw [dictOf, h.getD_eq hprops]
  case h_2 hnone =>
    split
    case h_1 props hprops => rw [dictOf, Sym2.eq_swap, h.getD_eq hprops]
    case h_2 hnone' =>
      rcases h.found n m ty hedge with hkey | hkey
      · exact absurd hkey (AList.lookup_eq_none.mp hnone)
      · exact absurd hkey (AList.lookup_eq_none.mp hnone')

/-- Every edge at a node is returned once. -/
theorem getEdges_eq (h : Represents s g) (order : IterationOrder String) {n : String}
    (edgeType : Option String) (hn : GlobFree n) : ∃ listed : List (String × String),
      listed.Nodup ∧
      (∀ m ty, (m, ty) ∈ listed ↔ Selects edgeType ty ∧ (g s(n, m) ty).isSome) ∧
      getEdges codec order n edgeType s = listed.map fun e => dictOf g n e.1 e.2 := by
  have hmem : ∀ m, m ∈ getNeighbors order n edgeType s ↔ g.Neighbor (Selects edgeType) n m :=
    fun m => h.mem_getNeighbors hn
  have hnodup : (getNeighbors order n edgeType s).Nodup := nodup_getNeighbors
  -- what is returned for each neighbour: its types
  have htypes : ∀ m ∈ getNeighbors order n edgeType s, ∃ types : List String, types.Nodup ∧
      (∀ ty, ty ∈ types ↔ Selects edgeType ty ∧ (g s(n, m) ty).isSome) ∧
      ((given edgeType).elim (untypedEdges codec order n m s) fun ty => typedEdges codec n m ty s)
        = types.map (dictOf g n m) := by
    intro m hm
    obtain ⟨ty, hselects, hedge⟩ := (hmem m).mp hm
    unfold Selects at hselects ⊢
    cases hgiven : given edgeType with
    | some t =>
      obtain rfl : ty = t := hselects t hgiven
      refine ⟨[ty], List.nodup_singleton ty, ?_, h.typedEdges_eq hedge⟩
      intro u
      simp only [List.mem_singleton, Option.some.injEq, forall_eq']
      constructor
      · rintro rfl
        exact ⟨rfl, hedge⟩
      · exact fun hu => hu.1
    | none =>
      have hm' : GlobFree m :=
        h.globFree m ((h.named _ _ hedge).2 m (Sym2.mem_mk_right n m)).2
      simpa using h.untypedEdges_eq order hn hm'
  choose! types htypesNodup htypesMem htypesEq using htypes
  refine ⟨(getNeighbors order n edgeType s).flatMap fun m => (types m).map (Prod.mk m), ?_, ?_, ?_⟩
  · refine List.nodup_flatMap.mpr ⟨?_, ?_⟩
    · intro m hm
      exact (htypesNodup m hm).map (Prod.mk_right_injective m)
    · refine hnodup.imp ?_
      intro m m' hne
      refine List.disjoint_left.mpr ?_
      rintro e hm hm'
      obtain ⟨_, -, rfl⟩ := List.mem_map.mp hm
      obtain ⟨_, -, heq⟩ := List.mem_map.mp hm'
      exact hne (congrArg Prod.fst heq).symm
  · intro m ty
    simp only [List.mem_flatMap, List.mem_map, Prod.mk.injEq]
    constructor
    · rintro ⟨m, hm, ty, hty, rfl, rfl⟩
      exact (htypesMem m hm ty).mp hty
    · intro hty
      have hm := (hmem m).mpr ⟨ty, hty⟩
      exact ⟨m, hm, ty, (htypesMem m hm ty).mpr hty, rfl, rfl⟩
  · rw [getEdges, List.map_flatMap]
    refine List.flatMap_congr fun m hm => ?_
    refine Eq.trans ?_ ((htypesEq m hm).trans ?_)
    · cases given edgeType <;> rfl
    · rw [List.map_map]
      rfl

/-! ## The whole graph -/

/-- The text that a listed edge is known by. -/
def listedKey (e : String × String × String) : String := e.1 ++ ":" ++ e.2.1 ++ ":" ++ e.2.2

/-- The ends and the type of a listed edge are its fields. -/
theorem dictOf_fields (h : Represents s g) {a b ty : String} (hedge : (g s(a, b) ty).isSome) :
    dictOf g a b ty "source" = some (.text a) ∧ dictOf g a b ty "target" = some (.text b) ∧
      dictOf g a b ty "edge_type" = some (.text ty) := by
  obtain ⟨props, hprops⟩ := Option.isSome_iff_exists.mp hedge
  have hnone := h.unreserved _ _ _ hprops
  have hsource := hnone "source" (by decide)
  have htarget := hnone "target" (by decide)
  have htype := hnone "edge_type" (by decide)
  simp [dictOf, hprops, edgeDict, Hash.overlay_apply, hsource, htarget, htype]

theorem listedKey_inj {a b c d t u : String} (ha : ColonFree a) (hb : ColonFree b)
    (ht : ColonFree t) : listedKey (c, d, u) = listedKey (a, b, t) ↔ (c, d, u) = (a, b, t) := by
  have hkey : ∀ e : String × String × String,
      edgeKey e.1 e.2.1 e.2.2 = "GRAPH:EDGE:" ++ listedKey e := by
    intro e
    simp only [edgeKey, listedKey, String.append_assoc]
  rw [← String.append_right_inj "GRAPH:EDGE:", ← hkey, ← hkey, edgeKey_inj ha hb ht]
  simp

/-- What the loop of `get_graph` has collected, as listed edges: their dicts, and the texts
they are known by. -/
def Collected (g : PropertyGraph String String (Dict codec.Tree))
    (kept : List (String × String × String)) (acc : List (Dict codec.Tree) × List String) : Prop :=
  acc.1 = kept.map (fun e => dictOf g e.1 e.2.1 e.2.2) ∧ ∀ k, k ∈ acc.2 ↔ k ∈ kept.map listedKey

/-- A listed edge is one of the graph. -/
def Listed (g : PropertyGraph String String (Dict codec.Tree)) (e : String × String × String) :
    Prop :=
  (g s(e.1, e.2.1) e.2.2).isSome

/-- One round keeps an edge between nodes asked for, unless it has it in either direction. -/
theorem collect_step (h : Represents s g) (ids : List String)
    {kept : List (String × String × String)} {acc : List (Dict codec.Tree) × List String}
    (hacc : Collected g kept acc)
    {e : String × String × String} (he : Listed g e) :
    Collected g
      (if PropertyGraph.undirected e ∉ kept.map PropertyGraph.undirected ∧ e.1 ∈ ids ∧ e.2.1 ∈ ids
        then kept ++ [e] else kept)
      (collect codec ids acc (dictOf g e.1 e.2.1 e.2.2)) := by
  obtain ⟨a, b, ty⟩ := e
  obtain ⟨hsource, htarget, htype⟩ := h.dictOf_fields he
  obtain ⟨hty, hends⟩ := h.named _ _ he
  have ha : ColonFree a := (hends a (Sym2.mem_mk_left a b)).1
  have hb : ColonFree b := (hends b (Sym2.mem_mk_right a b)).1
  have hforth : seenKey codec (dictOf g a b ty) "source" "target" = listedKey (a, b, ty) := by
    simp [seenKey, fieldText, hsource, htarget, htype, JsonCodec.strOf, listedKey]
  have hback : seenKey codec (dictOf g a b ty) "target" "source" = listedKey (b, a, ty) := by
    simp [seenKey, fieldText, hsource, htarget, htype, JsonCodec.strOf, listedKey]
  have hinSource : fieldIn codec (dictOf g a b ty) "source" ids = decide (a ∈ ids) := by
    simp [fieldIn, hsource]
  have hinTarget : fieldIn codec (dictOf g a b ty) "target" ids = decide (b ∈ ids) := by
    simp [fieldIn, htarget]
  have hseen : ∀ c d, ColonFree c → ColonFree d →
      (listedKey (c, d, ty) ∈ acc.2 ↔ (c, d, ty) ∈ kept) := by
    intro c d hc hd
    rw [hacc.2, List.mem_map]
    constructor
    · rintro ⟨⟨c', d', ty'⟩, hmem, hkey⟩
      rwa [← (listedKey_inj hc hd hty).mp hkey]
    · exact fun hmem => ⟨_, hmem, rfl⟩
  have hnew : (listedKey (a, b, ty) ∉ acc.2 ∧ listedKey (b, a, ty) ∉ acc.2) ↔
      PropertyGraph.undirected (a, b, ty) ∉ kept.map PropertyGraph.undirected := by
    rw [hseen a b ha hb, hseen b a hb ha, ← not_or, not_iff_not, List.mem_map]
    constructor
    · rintro (hmem | hmem)
      · exact ⟨_, hmem, rfl⟩
      · exact ⟨_, hmem, by simp [Sym2.eq_swap]⟩
    · rintro ⟨⟨c, d, u⟩, hmem, heq⟩
      obtain ⟨rfl, ⟨rfl, rfl⟩ | ⟨rfl, rfl⟩⟩ := PropertyGraph.undirected_eq_iff.mp heq
      · exact Or.inl hmem
      · exact Or.inr hmem
  have hcollect : collect codec ids acc (dictOf g a b ty)
      = if PropertyGraph.undirected (a, b, ty) ∉ kept.map PropertyGraph.undirected ∧
          a ∈ ids ∧ b ∈ ids
        then (acc.1 ++ [dictOf g a b ty], listedKey (a, b, ty) :: acc.2) else acc := by
    simp only [collect, hforth, hback, hinSource, hinTarget, ← hnew, decide_eq_true_eq, and_assoc]
  rw [hcollect]
  by_cases hcond : PropertyGraph.undirected (a, b, ty) ∉ kept.map PropertyGraph.undirected ∧
      a ∈ ids ∧ b ∈ ids
  · rw [if_pos hcond, if_pos hcond]
    refine ⟨by simp [hacc.1], ?_⟩
    intro k
    simp [hacc.2, or_comm]
  · rw [if_neg hcond, if_neg hcond]
    exact hacc

/-- The loop keeps, once, the edges between nodes asked for. -/
theorem collect_loop (h : Represents s g) (ids : List String) :
    ∀ (es kept : List (String × String × String)) (acc : List (Dict codec.Tree) × List String),
      Collected g kept acc → (kept.map PropertyGraph.undirected).Nodup → (∀ e ∈ es, Listed g e) →
      ∃ kept' : List (String × String × String),
        (kept'.map PropertyGraph.undirected).Nodup ∧
        (∀ x, x ∈ kept'.map PropertyGraph.undirected ↔ x ∈ kept.map PropertyGraph.undirected ∨
          ∃ e ∈ es, PropertyGraph.undirected e = x ∧ e.1 ∈ ids ∧ e.2.1 ∈ ids) ∧
        Collected g kept' ((es.map fun e => dictOf g e.1 e.2.1 e.2.2).foldl
          (collect codec ids) acc) := by
  intro es
  induction es with
  | nil =>
    intro kept acc hacc hnodup _
    exact ⟨kept, hnodup, by simp, hacc⟩
  | cons e es ih =>
    intro kept acc hacc hnodup hes
    obtain ⟨he, hes⟩ := List.forall_mem_cons.mp hes
    have hstep := h.collect_step ids hacc he
    by_cases hcond : PropertyGraph.undirected e ∉ kept.map PropertyGraph.undirected ∧
        e.1 ∈ ids ∧ e.2.1 ∈ ids
    · rw [if_pos hcond] at hstep
      obtain ⟨kept', hnodup', hmem, hacc'⟩ := ih (kept ++ [e]) _ hstep
        (by
          rw [List.map_append, List.nodup_append]
          refine ⟨hnodup, List.nodup_singleton _, ?_⟩
          intro x hx y hy
          obtain rfl := List.mem_singleton.mp hy
          exact fun heq => hcond.1 (heq ▸ hx)) hes
      refine ⟨kept', hnodup', ?_, hacc'⟩
      intro x
      rw [hmem, List.map_append, List.mem_append, List.map_singleton, List.mem_singleton,
        or_assoc]
      refine or_congr_right ?_
      rw [List.exists_mem_cons_iff]
      refine or_congr_left ?_
      exact ⟨fun hx => ⟨hx.symm, hcond.2⟩, fun hx => hx.1.symm⟩
    · rw [if_neg hcond] at hstep
      obtain ⟨kept', hnodup', hmem, hacc'⟩ := ih kept _ hstep hnodup hes
      refine ⟨kept', hnodup', ?_, hacc'⟩
      intro x
      rw [hmem, List.exists_mem_cons_iff]
      refine ⟨Or.imp_right Or.inr, ?_⟩
      rintro (hx | ⟨rfl, hends⟩ | hx)
      · exact Or.inl hx
      · -- the edge is there already
        exact Or.inl (by_contra fun hnew => hcond ⟨hnew, hends⟩)
      · exact Or.inr hx

/-- The whole graph, or the part between given nodes, is returned with each edge once. -/
theorem getGraph_eq (h : Represents s g) (order : IterationOrder String)
    (nodeIds : Option (List String))
    (hids : ∀ ids, nodeIds = some ids → ∀ n ∈ ids, GlobFree n) :
    ∃ listed : List (String × String × String),
      (listed.map PropertyGraph.undirected).Nodup ∧
      (∀ e ty, (e, ty) ∈ listed.map PropertyGraph.undirected ↔
        (g e ty).isSome ∧ ∀ ids, nodeIds = some ids → ∀ n ∈ e, n ∈ ids) ∧
      (getGraph codec order nodeIds s).2 = listed.map fun e => dictOf g e.1 e.2.1 e.2.2 := by
  let ids := nodeIds.getD (order.list s.allNodes.members)
  have hfree : ∀ n ∈ ids, GlobFree n := by
    intro n hn
    cases nodeIds with
    | none => exact h.globFree n (order.mem_list.mp hn)
    | some given => exact hids given rfl n hn
  have hwhich : ∀ e ty, (g e ty).isSome → ((∀ n ∈ e, n ∈ ids) ↔
      ∀ given, nodeIds = some given → ∀ n ∈ e, n ∈ given) := by
    intro e ty hedge
    cases nodeIds with
    | none =>
      refine iff_of_true ?_ (by simp)
      intro n hn
      exact order.mem_list.mpr ((h.named e ty hedge).2 n hn).2
    | some given => simp [ids]
  -- the edges of every node asked for, listed
  have hedges := fun n (hn : n ∈ ids) => h.getEdges_eq order none (hfree n hn)
  choose! at_ _hnodup hmem heq using hedges
  let es := ids.flatMap fun n => (at_ n).map (Prod.mk n)
  have hloop : ids.foldl (fun acc n => (getEdges codec order n none s).foldl
      (collect codec ids) acc) ([], [])
        = (es.map fun e => dictOf g e.1 e.2.1 e.2.2).foldl (collect codec ids) ([], []) := by
    rw [List.map_flatMap, List.foldl_flatMap]
    refine List.foldl_ext _ _ _ ?_
    intro acc n hn
    rw [heq n hn, List.map_map]
    rfl
  have hlisted : ∀ e ∈ es, Listed g e := by
    intro e he
    obtain ⟨n, hn, he⟩ := List.mem_flatMap.mp he
    obtain ⟨⟨m, ty⟩, hat, rfl⟩ := List.mem_map.mp he
    exact ((hmem n hn m ty).mp hat).2
  obtain ⟨kept, hnodup, hkept, hcollected⟩ := h.collect_loop ids es [] ([], [])
    ⟨rfl, by simp⟩ (by simp) hlisted
  refine ⟨kept, hnodup, ?_, ?_⟩
  · intro e ty
    rw [hkept]
    constructor
    · rintro (hnil | ⟨⟨a, b, ty⟩, hes, heq, ha, hb⟩)
      · cases hnil
      · obtain ⟨rfl, rfl⟩ := Prod.mk.inj heq
        have hedge := hlisted _ hes
        refine ⟨hedge, (hwhich _ _ hedge).mp ?_⟩
        intro n hn
        rcases Sym2.mem_iff.mp hn with rfl | rfl
        · exact ha
        · exact hb
    · rintro ⟨hedge, hall⟩
      have hin := (hwhich e ty hedge).mpr hall
      induction e with
      | _ a b =>
        have ha := hin a (Sym2.mem_mk_left a b)
        refine Or.inr ⟨(a, b, ty), ?_, rfl, ha, hin b (Sym2.mem_mk_right a b)⟩
        exact List.mem_flatMap.mpr ⟨a, ha, List.mem_map.mpr ⟨(b, ty),
          (hmem a ha b ty).mpr ⟨by simp [Selects, given], hedge⟩, rfl⟩⟩
  · rw [getGraph]
    exact (congrArg Prod.fst hloop).trans hcollected.1

/-- Where a store represents a graph, every read answers with what is in the graph. -/
theorem complete (h : Represents s g) : Complete s g where
  neighbors _ _ _ _ hn := h.mem_getNeighbors hn
  symmetric _ _ _ _ hn hm := by
    rw [h.mem_getNeighbors hn, h.mem_getNeighbors hm, PropertyGraph.neighbor_comm]
  edges order _ edgeType hn := h.getEdges_eq order edgeType hn
  graph order nodeIds hids := h.getGraph_eq order nodeIds hids

end Represents
end DoxAsdlc.Graph
