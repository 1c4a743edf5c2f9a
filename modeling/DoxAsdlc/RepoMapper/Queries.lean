import DoxAsdlc.RepoMapper.DependencyGraph

/-!
# What the queries find, and what a built graph keeps

A search stays in every set of nodes that contains the queue and is closed under the edges,
and it visits what waits in the queue.  The edges of a built graph join known files, and both
directions of an edge are kept.

## Main results

* `search_closed`, `exists_of_mem_queue` — soundness and completeness of the search.
* `Linked` — both directions of an edge are kept, between known files.
* `getDependencies_of_loops`, `getDependents_of_loops` — where no file has an edge to another
  one the answers are empty.
-/

namespace DoxAsdlc.RepoMapper.DependencyGraph

variable {a : Adjacency} {iter : Iteration} {maxDepth : ℤ} {base : String → ℕ → ℕ}
  {queue : List (String × ℕ)} {visited : List String}

/-! ## The search -/

theorem mem_of_mem_neighbours {current x : String} (hx : x ∈ neighbours a iter visited current) :
    x ∈ a.of current :=
  (iter.property _ _).mp (List.mem_filter.mp hx).1

/-- A search stays among the nodes that the edges lead to from the queue. -/
theorem search_closed {P : String → Prop} (hqueue : ∀ entry ∈ queue, P entry.1)
    (hedge : ∀ x y, P x → y ∈ a.of x → P y) :
    ∀ visit ∈ search a iter maxDepth base queue visited, P visit.1 := by
  fun_induction search a iter maxDepth base queue visited with
  | case1 => simp
  | case2 current depth queue visited _ ih =>
    exact ih fun entry hentry => hqueue entry (List.mem_cons_of_mem _ hentry)
  | case3 current depth queue visited _ next ih =>
    have hcurrent : P current := hqueue (current, depth) List.mem_cons_self
    have hnext : ∀ entry ∈ next, P entry.1 := by
      intro entry hentry
      by_cases hdepth : (base current depth : ℤ) < maxDepth
      · simp only [next, dif_pos hdepth, List.mem_map] at hentry
        obtain ⟨x, hx, rfl⟩ := hentry
        exact hedge current x hcurrent (mem_of_mem_neighbours hx)
      · simp [next, hdepth] at hentry
    intro visit hvisit
    cases List.mem_cons.mp hvisit with
    | inl hhead => rw [hhead]; exact hcurrent
    | inr htail =>
      apply ih _ visit htail
      intro entry hentry
      cases List.mem_append.mp hentry with
      | inl hold => exact hqueue entry (List.mem_cons_of_mem _ hold)
      | inr hnew => exact hnext entry hnew

/-- What waits in the queue is visited. -/
theorem exists_of_mem_queue {x : String} {depth : ℕ} (hmem : (x, depth) ∈ queue)
    (hnew : x ∉ visited) : ∃ d, (x, d) ∈ search a iter maxDepth base queue visited := by
  fun_induction search a iter maxDepth base queue visited with
  | case1 => simp at hmem
  | case2 current _ queue visited hvisited ih =>
    cases List.mem_cons.mp hmem with
    | inl hhead =>
      have heq : x = current := congrArg Prod.fst hhead
      exact absurd (heq ▸ hvisited) hnew
    | inr htail => exact ih htail hnew
  | case3 current first queue visited _ next ih =>
    by_cases heq : x = current
    · exact ⟨first, by simp [heq]⟩
    · have htail : (x, depth) ∈ queue := by
        cases List.mem_cons.mp hmem with
        | inl hhead => exact absurd (congrArg Prod.fst hhead) heq
        | inr htail => exact htail
      have hnew' : x ∉ current :: visited := by simp [heq, hnew]
      obtain ⟨d, hd⟩ := ih (List.mem_append_left _ htail) hnew'
      exact ⟨d, List.mem_cons_of_mem _ hd⟩

/-- A neighbour of the first node is visited. -/
theorem exists_of_mem_of {x start : String} (hedge : x ∈ a.of start) (hne : x ≠ start)
    (hdepth : (base start 0 : ℤ) < maxDepth) :
    ∃ d, (x, d) ∈ search a iter maxDepth base [(start, 0)] [] := by
  have hneighbour : x ∈ neighbours a iter [start] start := by
    rw [neighbours, List.mem_filter]
    exact ⟨(iter.property _ _).mpr hedge, by simp [hne]⟩
  have hqueue := List.mem_map_of_mem (f := (·, base start 0 + 1)) hneighbour
  have hnew : x ∉ [start] := by simp [hne]
  obtain ⟨d, hd⟩ := @exists_of_mem_queue a iter maxDepth base _ _ _ _ hqueue hnew
  rw [search]
  simp only [List.not_mem_nil, if_false, if_pos hdepth, List.nil_append]
  exact ⟨d, List.mem_cons_of_mem _ hd⟩

/-! ## Built graphs -/

/-- Both directions of an edge are kept, and an edge joins known files. -/
structure Linked (g : DependencyGraph) : Prop where
  reversed : ∀ s t, s ∈ g.sources t ↔ t ∈ g.targets s
  known : ∀ s t, t ∈ g.targets s → s ∈ g.known ∧ t ∈ g.known

theorem linked_empty : Linked {} := by
  constructor <;> simp [targets, sources]

theorem mem_targets_addEdge {g : DependencyGraph} {source target s t : String} :
    t ∈ (g.addEdge source target).targets s ↔ t ∈ g.targets s ∨ s = source ∧ t = target :=
  Adjacency.mem_of_add

theorem mem_sources_addEdge {g : DependencyGraph} {source target s t : String} :
    s ∈ (g.addEdge source target).sources t ↔ s ∈ g.sources t ∨ t = target ∧ s = source := by
  rw [sources, addEdge, Adjacency.mem_of_add, Adjacency.of_ensure]
  rfl

theorem Linked.addEdge {g : DependencyGraph} (hg : Linked g) {source target : String}
    (hsource : source ∈ g.known) (htarget : target ∈ g.known) :
    Linked (g.addEdge source target) where
  reversed s t := by
    rw [mem_sources_addEdge, mem_targets_addEdge, hg.reversed, and_comm]
  known s t hedge := by
    cases mem_targets_addEdge.mp hedge with
    | inl hold => exact hg.known s t hold
    | inr hnew => rw [hnew.1, hnew.2]; exact ⟨hsource, htarget⟩

/-! ## Imports -/

/-- A relative import looks for two paths, whatever files are known. -/
theorem exists_candidates (path imp : String) : ∃ first second, ∀ known,
    resolveRelativeImport known path imp =
      if first ∈ known then some first else if second ∈ known then some second else none :=
  ⟨_, _, fun _ => rfl⟩

/-- An import stands for a known file. -/
theorem mem_of_resolveImport {known : List String} {path imp target : String}
    (hresolve : resolveImport known path imp = some target) : target ∈ known := by
  by_cases hrelative : imp.toList.head? = some '.'
  · obtain ⟨first, second, hcandidates⟩ := exists_candidates path imp
    rw [resolveImport, if_pos hrelative, hcandidates] at hresolve
    split at hresolve
    · next hfirst => exact Option.some.inj hresolve ▸ hfirst
    · split at hresolve
      · next hsecond => exact Option.some.inj hresolve ▸ hsecond
      · cases hresolve
  · rw [resolveImport, if_neg hrelative] at hresolve
    exact List.mem_of_find?_eq_some hresolve

theorem importTarget_eq_some {known : List String} {path imp target : String} :
    importTarget known path imp = some target ↔
      resolveImport known path imp = some target ∧ target ≠ "" := by
  simp [importTarget, Option.filter_eq_some_iff]

/-- The targets of the imports of a file. -/
def targetsOf (known : List String) (parsed : ParsedFile) : Finset String :=
  (parsed.imports.filterMap (importTarget known parsed.path)).toFinset

theorem mem_targetsOf {known : List String} {parsed : ParsedFile} {target : String} :
    target ∈ targetsOf known parsed ↔
      ∃ imp ∈ parsed.imports, resolveImport known parsed.path imp = some target ∧ target ≠ "" := by
  simp [targetsOf, importTarget_eq_some]

theorem mem_of_mem_targetsOf {known : List String} {parsed : ParsedFile} {target : String}
    (htarget : target ∈ targetsOf known parsed) : target ∈ known := by
  obtain ⟨imp, _, hresolve, _⟩ := mem_targetsOf.mp htarget
  exact mem_of_resolveImport hresolve

/-! ## Adding a file -/

variable {g : DependencyGraph}

@[simp] theorem known_addImport {path imp : String} : (g.addImport path imp).known = g.known := by
  unfold addImport
  split <;> rfl

theorem mem_targets_addImport {path imp s t : String} :
    t ∈ (g.addImport path imp).targets s ↔
      t ∈ g.targets s ∨ s = path ∧ importTarget g.known path imp = some t := by
  unfold addImport
  cases himp : importTarget g.known path imp with
  | none => simp
  | some target =>
    simp only [mem_targets_addEdge, Option.some.injEq]
    rw [eq_comm (a := t)]

theorem Linked.addImport (hg : Linked g) {path imp : String} (hpath : path ∈ g.known) :
    Linked (g.addImport path imp) := by
  unfold DependencyGraph.addImport
  cases himp : importTarget g.known path imp with
  | none => exact hg
  | some target =>
    exact hg.addEdge hpath (mem_of_resolveImport (importTarget_eq_some.mp himp).1)

@[simp] theorem known_addImports {path : String} {imports : List String} :
    (imports.foldl (addImport path) g).known = g.known := by
  induction imports generalizing g with
  | nil => rfl
  | cons imp imports ih => simp [ih]

theorem mem_targets_addImports {path s t : String} {imports : List String} :
    t ∈ (imports.foldl (addImport path) g).targets s ↔
      t ∈ g.targets s ∨ s = path ∧ ∃ imp ∈ imports, importTarget g.known path imp = some t := by
  induction imports generalizing g with
  | nil => simp
  | cons imp imports ih =>
    simp only [List.foldl_cons, ih, mem_targets_addImport, known_addImport, List.exists_mem_cons_iff]
    tauto

theorem Linked.addImports (hg : Linked g) {path : String} {imports : List String}
    (hpath : path ∈ g.known) : Linked (imports.foldl (DependencyGraph.addImport path) g) := by
  induction imports generalizing g with
  | nil => exact hg
  | cons imp imports ih => exact ih (hg.addImport hpath) (by simpa using hpath)

theorem map_path_setFile {files : List ParsedFile} {parsed : ParsedFile} :
    (setFile files parsed).map ParsedFile.path =
      if parsed.path ∈ files.map ParsedFile.path then files.map ParsedFile.path
      else files.map ParsedFile.path ++ [parsed.path] := by
  unfold setFile
  split
  · rw [List.map_map]
    apply List.map_congr_left
    intro f _
    by_cases heq : f.path = parsed.path <;> simp [heq]
  · simp

/-- The paths that are known once a file is added. -/
theorem known_addFile {parsed : ParsedFile} :
    (g.addFile parsed).known =
      if parsed.path ∈ g.known then g.known else g.known ++ [parsed.path] := by
  simp only [addFile, known_addImports]
  exact map_path_setFile

/-- Adding a file adds the targets of its imports. -/
theorem mem_targets_addFile {parsed : ParsedFile} {s t : String} :
    t ∈ (g.addFile parsed).targets s ↔
      t ∈ g.targets s ∨ s = parsed.path ∧ t ∈ targetsOf (g.addFile parsed).known parsed := by
  simp only [addFile, mem_targets_addImports, known_addImports, targetsOf, List.mem_toFinset,
    List.mem_filterMap]
  simp only [targets, Adjacency.of_ensure]

theorem Linked.addFile (hg : Linked g) {parsed : ParsedFile} : Linked (g.addFile parsed) := by
  unfold DependencyGraph.addFile
  apply Linked.addImports
  · constructor
    · intro s t
      simpa [targets, sources] using hg.reversed s t
    · intro s t hedge
      have hold := hg.known s t (by simpa [targets] using hedge)
      simp only [DependencyGraph.known, map_path_setFile]
      split
      · exact hold
      · exact ⟨List.mem_append_left _ hold.1, List.mem_append_left _ hold.2⟩
  · simp only [DependencyGraph.known, map_path_setFile]
    split
    · assumption
    · simp

theorem linked_foldl (hg : Linked g) (files : List ParsedFile) :
    Linked (files.foldl DependencyGraph.addFile g) := by
  induction files generalizing g with
  | nil => exact hg
  | cons parsed files ih => exact ih hg.addFile

/-- A built graph is linked. -/
theorem linked_build (files : List ParsedFile) : Linked (build files) :=
  linked_foldl linked_empty files

/-! ## Loops -/

/-- No file has an edge to another one. -/
def OnlyLoops (g : DependencyGraph) : Prop := ∀ s t, t ∈ g.targets s → t = s

/-- Without edges between files nothing is found. -/
theorem getDependencies_of_loops (hloops : g.OnlyLoops) (iter : Iteration) (path : String)
    (maxDepth : ℤ) : g.getDependencies iter path maxDepth = [] := by
  unfold getDependencies
  split
  · rfl
  · rw [List.filterMap_eq_nil_iff]
    intro visit hvisit
    have hpath : visit.1 = path :=
      search_closed (P := (· = path)) (by simp) (fun x y hx hy => hx ▸ hloops x y hy) visit hvisit
    rw [if_pos (Or.inl hpath)]

/-- Without edges between files nothing is found in the other direction. -/
theorem getDependents_of_loops (hg : g.Linked) (hloops : g.OnlyLoops) (iter : Iteration)
    (path : String) (maxDepth : ℤ) : g.getDependents iter path maxDepth = .ok [] := by
  have hback : ∀ x y, y ∈ g.sources x → y = x := by
    intro x y hy
    exact (hloops y x ((hg.reversed y x).mp hy)).symm
  unfold getDependents
  split
  · rfl
  · have hpath : ∀ visit ∈ search g.reverseAdjacency iter maxDepth (fun _ depth => depth)
        [(path, 0)] [], visit.1 = path :=
      search_closed (P := (· = path)) (by simp) fun x y hx hy => hx ▸ hback x y hy
    rw [List.filter_eq_nil_iff.mpr]
    · rfl
    · intro visit hvisit
      simp [hpath visit hvisit]

end DoxAsdlc.RepoMapper.DependencyGraph
