import Mathlib.Data.Nat.Find
import Mathlib.Order.Bounds.Basic

/-!
# Breadth-first search

A search takes nodes from a queue, each with its depth, skips the ones that it has visited and
puts the neighbours of the others at the end of the queue, up to a depth.  The queue of a search
is layered: its depths grow, and by one at most.  From a layered queue a search visits exactly
the nodes that a walk leads to, each once, with the length of a shortest walk.

## Main definitions

* `Avoids`, `Walk` — walks of a number of edges, off a set of nodes.
* `Explores` — a run of the search: what it visits, in order.

## Main results

* `Avoids.last_visit` — a walk avoids a node, or a shorter walk from the node avoids it.
* `Explores.mem_iff` — what is visited, and at which depth.
* `Explores.nodup` — no node is visited twice.
* `walk_swap` — the walks of the reversed edges.
-/

namespace DoxAsdlc.BreadthFirst

variable {V : Type*} {R : V → V → Prop} {visited : Set V} {n : ℕ} {x y z c : V}

/-! ## Walks -/

/-- A walk of a number of edges all of whose nodes are off a set. -/
inductive Avoids (R : V → V → Prop) (visited : Set V) : ℕ → V → V → Prop
  | nil {x : V} (hx : x ∉ visited) : Avoids R visited 0 x x
  | cons {n : ℕ} {x y z : V} (hx : x ∉ visited) (hedge : R x y)
      (hwalk : Avoids R visited n y z) : Avoids R visited (n + 1) x z

/-- A walk of a number of edges. -/
abbrev Walk (R : V → V → Prop) : ℕ → V → V → Prop := Avoids R ∅

namespace Avoids

theorem start_not_mem (h : Avoids R visited n x y) : x ∉ visited := by
  cases h with
  | nil hx => exact hx
  | cons hx _ _ => exact hx

theorem mono {visited' : Set V} (h : Avoids R visited n x y) (hsub : visited' ⊆ visited) :
    Avoids R visited' n x y := by
  induction h with
  | nil hx => exact .nil fun hmem => hx (hsub hmem)
  | cons hx hedge _ ih => exact .cons (fun hmem => hx (hsub hmem)) hedge ih

theorem eq_of_zero (h : Avoids R visited 0 x y) : x = y := by
  cases h
  rfl

/-- Add an edge at the end of a walk. -/
theorem snoc (h : Avoids R visited n x y) (hedge : R y z) (hz : z ∉ visited) :
    Avoids R visited (n + 1) x z := by
  induction h with
  | nil hx => exact .cons hx hedge (.nil hz)
  | cons hx hfirst _ ih => exact .cons hx hfirst (ih hedge)

theorem swap (h : Avoids R visited n x y) : Avoids (Function.swap R) visited n y x := by
  induction h with
  | nil hx => exact .nil hx
  | cons hx hedge _ ih => exact ih.snoc hedge hx

/-- A walk to another node avoids `c`, or what follows its last visit of `c` does. -/
theorem last_visit (h : Avoids R visited n x y) (hy : y ≠ c) :
    Avoids R (insert c visited) n x y ∨
      ∃ z m, m < n ∧ R c z ∧ Avoids R (insert c visited) m z y := by
  induction h with
  | nil hx => exact .inl (.nil (by simp [hx, hy]))
  | @cons n x w y hx hedge hwalk ih =>
    cases ih hy with
    | inl havoids =>
      by_cases hc : x = c
      · exact .inr ⟨w, n, by omega, hc ▸ hedge, havoids⟩
      · exact .inl (.cons (by simp [hx, hc]) hedge havoids)
    | inr hlater =>
      obtain ⟨z, m, hm, hcz, havoids⟩ := hlater
      exact .inr ⟨z, m, by omega, hcz, havoids⟩

end Avoids

/-- The walks of the reversed edges are the reversed walks. -/
theorem walk_swap : Walk (Function.swap R) n x y ↔ Walk R n y x :=
  ⟨Avoids.swap, Avoids.swap⟩

/-! ## The search -/

/-- A run of the search up to a depth: from the queue and the visited nodes to the visits. -/
inductive Explores (R : V → V → Prop) (limit : ℤ) :
    List (V × ℕ) → Set V → List (V × ℕ) → Prop
  | done {visited : Set V} : Explores R limit [] visited []
  | seen {visited : Set V} {x : V} {d : ℕ} {queue visits : List (V × ℕ)} (hx : x ∈ visited)
      (hrest : Explores R limit queue visited visits) :
      Explores R limit ((x, d) :: queue) visited visits
  | visit {visited : Set V} {x : V} {d : ℕ} {queue visits : List (V × ℕ)} (hx : x ∉ visited)
      (next : List (V × ℕ)) (hnext : ∀ y n, (y, n) ∈ next ↔
        (d : ℤ) < limit ∧ R x y ∧ y ∉ insert x visited ∧ n = d + 1)
      (hrest : Explores R limit (queue ++ next) (insert x visited) visits) :
      Explores R limit ((x, d) :: queue) visited ((x, d) :: visits)

/-- The depths of a queue grow, by one at most. -/
def Layered (queue : List (V × ℕ)) : Prop :=
  queue.Pairwise fun a b => a.2 ≤ b.2 ∧ b.2 ≤ a.2 + 1

/-- A walk leads from the queue to a node, and the node is `n` deep at its end. -/
def Reach (R : V → V → Prop) (limit : ℤ) (queue : List (V × ℕ)) (visited : Set V) (x : V)
    (n : ℕ) : Prop :=
  ∃ y d l, (y, d) ∈ queue ∧ Avoids R visited l y x ∧ n = d + l ∧ (l = 0 ∨ (n : ℤ) ≤ limit)

variable {limit : ℤ} {queue next visits : List (V × ℕ)} {d : ℕ}

theorem layered_singleton : Layered [(x, d)] := List.pairwise_singleton _ _

theorem Layered.tail {entry : V × ℕ} (h : Layered (entry :: queue)) : Layered queue :=
  (List.pairwise_cons.mp h).2

/-- The depths that follow the first node of a queue. -/
theorem Layered.head (h : Layered ((x, d) :: queue)) (hmem : (y, n) ∈ queue) :
    d ≤ n ∧ n ≤ d + 1 :=
  (List.pairwise_cons.mp h).1 (y, n) hmem

/-- A visit keeps the queue layered. -/
theorem Layered.visit (h : Layered ((x, d) :: queue)) (hnext : ∀ entry ∈ next, entry.2 = d + 1) :
    Layered (queue ++ next) := by
  apply List.pairwise_append.mpr
  refine ⟨h.tail, ?_, ?_⟩
  · apply List.pairwise_of_forall_mem_list
    intro a ha b hb
    simp [hnext a ha, hnext b hb]
  · intro a ha b hb
    have hdepth := h.head ha
    simp [hnext b hb]
    omega

/-- Two sets of depths have the same least one where the first is larger but bounded below by
the second. -/
theorem isLeast_iff_of_subset {s t : Set ℕ} (hsub : t ⊆ s) (hbound : ∀ n ∈ s, ∃ m ∈ t, m ≤ n) :
    IsLeast s d ↔ IsLeast t d := by
  constructor
  · intro h
    obtain ⟨m, hm, hle⟩ := hbound d h.1
    have heq : m = d := le_antisymm hle (h.2 (hsub hm))
    exact ⟨heq ▸ hm, fun n hn => h.2 (hsub hn)⟩
  · intro h
    refine ⟨hsub h.1, fun n hn => ?_⟩
    obtain ⟨m, hm, hle⟩ := hbound n hn
    exact (h.2 hm).trans hle

/-- A node of the queue that was visited leads nowhere. -/
theorem reach_seen (hc : c ∈ visited) :
    Reach R limit ((c, d) :: queue) visited x n ↔ Reach R limit queue visited x n := by
  constructor
  · intro h
    obtain ⟨y, e, l, hmem, hwalk, hrest⟩ := h
    cases List.mem_cons.mp hmem with
    | inl hhead =>
      obtain ⟨rfl, rfl⟩ := Prod.mk.inj hhead
      exact absurd hc hwalk.start_not_mem
    | inr htail => exact ⟨y, e, l, htail, hwalk, hrest⟩
  · intro h
    obtain ⟨y, e, l, hmem, hrest⟩ := h
    exact ⟨y, e, l, List.mem_cons_of_mem _ hmem, hrest⟩

/-- The first node of a layered queue is as near as the queue says. -/
theorem isLeast_head (hqueue : Layered ((c, d) :: queue)) (hc : c ∉ visited) :
    IsLeast {n | Reach R limit ((c, d) :: queue) visited c n} d := by
  refine ⟨⟨c, d, 0, List.mem_cons_self, .nil hc, rfl, .inl rfl⟩, ?_⟩
  intro n hn
  obtain ⟨y, e, l, hmem, _, hlength, _⟩ := hn
  cases List.mem_cons.mp hmem with
  | inl hhead =>
    obtain ⟨rfl, rfl⟩ := Prod.mk.inj hhead
    omega
  | inr htail =>
    have hdepth := hqueue.head htail
    omega

section Visit

variable
  (hnext : ∀ y n, (y, n) ∈ next ↔ (d : ℤ) < limit ∧ R c y ∧ y ∉ insert c visited ∧ n = d + 1)

include hnext

/-- What the neighbours of a node lead to, the node leads to. -/
theorem reach_of_visit (hc : c ∉ visited)
    (h : Reach R limit (queue ++ next) (insert c visited) x n) :
    Reach R limit ((c, d) :: queue) visited x n := by
  obtain ⟨y, e, l, hmem, hwalk, hlength, hlimit⟩ := h
  have hold := hwalk.mono (Set.subset_insert c visited)
  cases List.mem_append.mp hmem with
  | inl hqueue => exact ⟨y, e, l, List.mem_cons_of_mem _ hqueue, hold, hlength, hlimit⟩
  | inr hnew =>
    obtain ⟨hdepth, hedge, _, rfl⟩ := (hnext y e).mp hnew
    exact ⟨c, d, l + 1, List.mem_cons_self, .cons hc hedge hold, by omega, by omega⟩

/-- A walk to another node gives a walk off the first node that is no deeper. -/
theorem exists_reach_visit (hqueue : Layered ((c, d) :: queue)) (hx : x ≠ c)
    (h : Reach R limit ((c, d) :: queue) visited x n) :
    ∃ m, Reach R limit (queue ++ next) (insert c visited) x m ∧ m ≤ n := by
  obtain ⟨y, e, l, hmem, hwalk, hlength, hlimit⟩ := h
  have hdepth : d ≤ e := by
    cases List.mem_cons.mp hmem with
    | inl hhead => exact (Prod.mk.inj hhead).2.ge
    | inr htail => exact (hqueue.head htail).1
  cases hwalk.last_visit hx with
  | inl havoids =>
    have hy : y ≠ c := by
      intro heq
      exact havoids.start_not_mem (by simp [heq])
    have htail : (y, e) ∈ queue := by simpa [hy] using hmem
    exact ⟨n, ⟨y, e, l, List.mem_append_left _ htail, havoids, hlength, hlimit⟩, le_rfl⟩
  | inr hlater =>
    obtain ⟨z, m, hm, hedge, havoids⟩ := hlater
    have hnew : (z, d + 1) ∈ next :=
      (hnext z (d + 1)).mpr ⟨by omega, hedge, havoids.start_not_mem, rfl⟩
    exact ⟨d + 1 + m, ⟨z, d + 1, m, List.mem_append_right _ hnew, havoids, rfl, by omega⟩,
      by omega⟩

/-- A visit leaves the depths of the other nodes as they are. -/
theorem isLeast_visit {k : ℕ} (hc : c ∉ visited) (hqueue : Layered ((c, d) :: queue)) (hx : x ≠ c) :
    IsLeast {n | Reach R limit ((c, d) :: queue) visited x n} k ↔
      IsLeast {n | Reach R limit (queue ++ next) (insert c visited) x n} k := by
  apply isLeast_iff_of_subset
  · intro n hn
    exact reach_of_visit hnext hc hn
  · intro n hn
    exact exists_reach_visit hnext hqueue hx hn

end Visit

namespace Explores

/-- A search visits no node that was visited before. -/
theorem not_mem_of_mem (h : Explores R limit queue visited visits) (hmem : (x, d) ∈ visits) :
    x ∉ visited := by
  induction h with
  | done => simp at hmem
  | seen _ _ ih => exact ih hmem
  | visit hnew _ _ _ ih =>
    cases List.mem_cons.mp hmem with
    | inl hhead =>
      obtain ⟨rfl, rfl⟩ := Prod.mk.inj hhead
      exact hnew
    | inr htail => exact fun hx => ih htail (Set.mem_insert_of_mem _ hx)

/-- No node is visited twice. -/
theorem nodup (h : Explores R limit queue visited visits) : (visits.map Prod.fst).Nodup := by
  induction h with
  | done => simp
  | seen _ _ ih => exact ih
  | @visit visited x d queue visits _ _ _ hrest ih =>
    rw [List.map_cons, List.nodup_cons]
    refine ⟨?_, ih⟩
    intro hmem
    obtain ⟨entry, hentry, rfl⟩ := List.mem_map.mp hmem
    exact hrest.not_mem_of_mem hentry (Set.mem_insert _ _)

/-- From a layered queue a node is visited at the depth of the shortest walk to it. -/
theorem mem_iff (h : Explores R limit queue visited visits) (hqueue : Layered queue) :
    (x, d) ∈ visits ↔ IsLeast {n | Reach R limit queue visited x n} d := by
  induction h with
  | done => simp [Reach, IsLeast]
  | seen hc _ ih => simpa only [reach_seen hc] using ih hqueue.tail
  | @visit visited c e queue visits hc next hnext hrest ih =>
    have hlayered : Layered (queue ++ next) :=
      hqueue.visit fun entry hentry => ((hnext entry.1 entry.2).mp hentry).2.2.2
    by_cases hx : x = c
    · subst hx
      have hleast := @isLeast_head V R visited x limit queue e hqueue hc
      rw [List.mem_cons]
      constructor
      · intro hmem
        cases hmem with
        | inl hhead => rw [(Prod.mk.inj hhead).2]; exact hleast
        | inr htail => exact absurd (Set.mem_insert _ _) (hrest.not_mem_of_mem htail)
      · intro hd
        exact .inl (by rw [hd.unique hleast])
    · rw [isLeast_visit hnext hc hqueue hx, ← ih hlayered]
      simp [hx]

/-- A search from one node visits the nodes at the end of a walk, within the limit. -/
theorem mem_iff_walk {start : V} (h : Explores R limit [(start, 0)] ∅ visits) (hx : x ≠ start) :
    (x, d) ∈ visits ↔ IsLeast {n : ℕ | 1 ≤ n ∧ (n : ℤ) ≤ limit ∧ Walk R n start x} d := by
  rw [h.mem_iff layered_singleton]
  have hset : {n | Reach R limit [(start, 0)] ∅ x n} =
      {n : ℕ | 1 ≤ n ∧ (n : ℤ) ≤ limit ∧ Walk R n start x} := by
    ext n
    constructor
    · intro hreach
      obtain ⟨y, e, l, hmem, hwalk, rfl, hlimit⟩ := hreach
      obtain ⟨rfl, rfl⟩ : y = start ∧ e = 0 := by simpa using hmem
      have hl : l ≠ 0 := by
        intro hzero
        subst hzero
        exact hx hwalk.eq_of_zero.symm
      exact ⟨by omega, by omega, by simpa using hwalk⟩
    · intro hwalk
      exact ⟨start, 0, n, by simp, hwalk.2.2, by simp, .inr hwalk.2.1⟩
  rw [hset]

end Explores

/-- Within a limit there is a shortest walk as soon as there is one. -/
theorem exists_isLeast_iff {start : V} :
    (∃ d, IsLeast {n : ℕ | 1 ≤ n ∧ (n : ℤ) ≤ limit ∧ Walk R n start x} d) ↔
      ∃ n : ℕ, 1 ≤ n ∧ (n : ℤ) ≤ limit ∧ Walk R n start x := by
  constructor
  · intro h
    obtain ⟨d, hd, _⟩ := h
    exact ⟨d, hd⟩
  · intro h
    classical
    exact ⟨Nat.find h, Nat.find_spec h, fun m hm => Nat.find_min' h hm⟩

end DoxAsdlc.BreadthFirst
