import Mathlib.Data.Sym.Sym2

/-!
# Property graphs

An undirected graph with typed edges: between two nodes there is at most one edge of each
type, and an edge has properties.  An edge is known by the unordered pair of its ends, so that
nothing needs to be said about its direction.

## Main definitions

* `PropertyGraph` — the edges with their properties.
* `PropertyGraph.modify`, `deleteNode` — a change of one edge, and of all edges at a node.
* `PropertyGraph.Neighbor` — two nodes with an edge of one of the given types.
* `PropertyGraph.undirected` — a directed listing of an edge, without its direction.
-/

/-- The edges of each type, with their properties. -/
abbrev PropertyGraph (N T P : Type*) := Sym2 N → T → Option P

namespace PropertyGraph

variable {N T P : Type*}

/-- The graph without edges. -/
def empty : PropertyGraph N T P := fun _ _ => none

@[simp] theorem empty_apply (e : Sym2 N) (t : T) : (empty : PropertyGraph N T P) e t = none := rfl

/-- There is an edge of one of the types between two nodes. -/
def Neighbor (g : PropertyGraph N T P) (types : T → Prop) (n m : N) : Prop :=
  ∃ t, types t ∧ (g s(n, m) t).isSome

/-- A neighbour's neighbour is the node itself. -/
theorem neighbor_comm (g : PropertyGraph N T P) (types : T → Prop) (n m : N) :
    g.Neighbor types n m ↔ g.Neighbor types m n := by
  rw [Neighbor, Neighbor, Sym2.eq_swap]

/-- An edge listed from one end to the other, without its direction. -/
def undirected (e : N × N × T) : Sym2 N × T := (s(e.1, e.2.1), e.2.2)

@[simp] theorem undirected_mk (a b : N) (t : T) : undirected (a, b, t) = (s(a, b), t) := rfl

theorem undirected_eq_iff {a b c d : N} {t u : T} :
    undirected (a, b, t) = undirected (c, d, u) ↔
      t = u ∧ ((a = c ∧ b = d) ∨ (a = d ∧ b = c)) := by
  rw [undirected_mk, undirected_mk, Prod.mk.injEq, Sym2.eq_iff, and_comm]

variable [DecidableEq N] [DecidableEq T]

/-- Change the edge of one type between two nodes. -/
def modify (g : PropertyGraph N T P) (e : Sym2 N) (t : T) (f : Option P → Option P) :
    PropertyGraph N T P :=
  fun x u => if x = e ∧ u = t then f (g e t) else g x u

theorem modify_self (g : PropertyGraph N T P) (e : Sym2 N) (t : T) (f : Option P → Option P) :
    g.modify e t f e t = f (g e t) := by simp [modify]

theorem modify_of_ne (g : PropertyGraph N T P) {e x : Sym2 N} {t u : T} (f : Option P → Option P)
    (h : ¬ (x = e ∧ u = t)) : g.modify e t f x u = g x u := by rw [modify, if_neg h]

omit [DecidableEq T] in
/-- Remove every edge at a node. -/
def deleteNode (g : PropertyGraph N T P) (n : N) : PropertyGraph N T P :=
  fun e t => if n ∈ e then none else g e t

omit [DecidableEq T] in
theorem deleteNode_of_mem (g : PropertyGraph N T P) {n : N} {e : Sym2 N} (t : T) (h : n ∈ e) :
    g.deleteNode n e t = none := if_pos h

omit [DecidableEq T] in
theorem deleteNode_of_not_mem (g : PropertyGraph N T P) {n : N} {e : Sym2 N} (t : T)
    (h : n ∉ e) : g.deleteNode n e t = g e t := if_neg h

omit [DecidableEq T] in
/-- What is left after a deletion was there and does not touch the node. -/
theorem deleteNode_eq_some {g : PropertyGraph N T P} {n : N} {e : Sym2 N} {t : T} {p : P} :
    g.deleteNode n e t = some p ↔ n ∉ e ∧ g e t = some p := by
  by_cases h : n ∈ e
  · simp [deleteNode_of_mem g t h, h]
  · simp [deleteNode_of_not_mem g t h, h]

omit [DecidableEq T] in
theorem isSome_deleteNode {g : PropertyGraph N T P} {n : N} {e : Sym2 N} {t : T} :
    (g.deleteNode n e t).isSome ↔ n ∉ e ∧ (g e t).isSome := by
  simp only [Option.isSome_iff_exists, deleteNode_eq_some, exists_and_left]

end PropertyGraph
