import DoxAsdlc.RepoMapper.Serialization
import DoxAsdlc.Structures.BreadthFirst

/-!
# The queries report shortest paths

The loop of the queries is a breadth-first search, so what a query reports are the files that a
path of import edges leads to within the depth that is asked for, each once and with the length
of a shortest such path.  Both directions of an edge are kept, so the two queries are dual.  A
file whose path is empty is the exception: it counts as no source, and has no dependencies.

## Main results

* `explores_search` — the loop of the queries is a search.
* `mem_getDependencies`, `exists_getDependents` — what the queries report.
* `getDependencies_shortest`, `getDependents_dual` — shortest paths, and duality.
-/

namespace DoxAsdlc.RepoMapper

/-- An edge of adjacency lists. -/
def Adjacency.Edge (a : Adjacency) (s t : String) : Prop := t ∈ a.of s

namespace DependencyGraph

open BreadthFirst

variable {a : Adjacency} {iter : Iteration} {maxDepth : ℤ} {base : String → ℕ → ℕ}
  {queue : List (String × ℕ)} {visited : List String}

/-- A file imports another one. -/
def Imports (g : DependencyGraph) (s t : String) : Prop := t ∈ g.targets s

/-! ## The loop -/

theorem coe_cons {x : String} : {y | y ∈ x :: visited} = insert x {y | y ∈ visited} := by
  ext y
  simp

/-- What a visit adds to the queue. -/
theorem mem_next {current y : String} {depth n : ℕ} :
    (y, n) ∈ (if (depth : ℤ) < maxDepth then
        (neighbours a iter (current :: visited) current).map (·, depth + 1) else []) ↔
      (depth : ℤ) < maxDepth ∧ a.Edge current y ∧ y ∉ insert current {z | z ∈ visited} ∧
        n = depth + 1 := by
  by_cases hdepth : (depth : ℤ) < maxDepth
  · have hiter := iter.property (a.of current) y
    simp [hdepth, neighbours, Adjacency.Edge, hiter, and_assoc, eq_comm (a := n)]
  · simp [hdepth]

/-- The loop of the queries is a breadth-first search. -/
theorem explores_search (hbase : ∀ x, x ∉ visited → ∀ depth, base x depth = depth) :
    Explores a.Edge maxDepth queue {x | x ∈ visited}
      (search a iter maxDepth base queue visited) := by
  fun_induction search a iter maxDepth base queue visited with
  | case1 => exact .done
  | case2 current depth queue visited hvisited ih => exact .seen hvisited (ih hbase)
  | case3 current depth queue visited hnew next ih =>
    have hcurrent : current ∉ {x | x ∈ visited} := hnew
    apply Explores.visit hcurrent next
    · intro y n
      simpa only [next, dite_eq_ite, hbase current hnew] using mem_next
    · rw [← coe_cons]
      exact ih fun x hx => hbase x fun hmem => hx (List.mem_cons_of_mem _ hmem)

/-- A query searches from its file, whose own depth is nothing. -/
theorem explores_start {start : String} (hstart : base start 0 = 0)
    (hbase : ∀ x, x ≠ start → ∀ depth, base x depth = depth) :
    Explores a.Edge maxDepth [(start, 0)] ∅ (search a iter maxDepth base [(start, 0)] []) := by
  have hempty : {z | z ∈ ([] : List String)} = ∅ := by simp
  have hset : insert start (∅ : Set String) = {x | x ∈ [start]} := by simp
  have hnext := fun y n => @mem_next a iter maxDepth [] start y 0 n
  rw [hempty] at hnext
  rw [search, if_neg List.not_mem_nil, hstart]
  apply Explores.visit (Set.notMem_empty start) _ hnext
  rw [hset]
  apply explores_search
  intro x hx
  exact hbase x (by simpa using hx)

/-- No node is visited twice. -/
theorem nodup_search {start : String} (hstart : base start 0 = 0)
    (hbase : ∀ x, x ≠ start → ∀ depth, base x depth = depth) :
    ((search a iter maxDepth base [(start, 0)] []).map Prod.fst).Nodup :=
  (explores_start hstart hbase).nodup

/-- What a query visits beside its file. -/
theorem mem_search {start x : String} {depth : ℕ} (hstart : base start 0 = 0)
    (hbase : ∀ x, x ≠ start → ∀ depth, base x depth = depth) (hx : x ≠ start) :
    (x, depth) ∈ search a iter maxDepth base [(start, 0)] [] ↔
      IsLeast {n : ℕ | 1 ≤ n ∧ (n : ℤ) ≤ maxDepth ∧ Walk a.Edge n start x} depth :=
  (explores_start hstart hbase).mem_iff_walk hx

/-! ## Known files -/

variable {g : DependencyGraph}

theorem file?_isSome {path : String} : (g.file? path).isSome ↔ path ∈ g.known := by
  simp [file?, known]

/-- A walk of one edge or more starts at a file and ends at one. -/
theorem Linked.known_of_walk (hg : g.Linked) {n : ℕ} {s t : String} (hn : 1 ≤ n)
    (hwalk : Walk g.Imports n s t) : s ∈ g.known ∧ t ∈ g.known := by
  induction hwalk with
  | nil => omega
  | @cons n s u t _ hedge hrest ih =>
    have hknown := hg.known s u hedge
    cases n with
    | zero => exact hrest.eq_of_zero ▸ hknown
    | succ n => exact ⟨hknown.1, (ih (by omega)).2⟩

/-- The reversed edges are the reversed edges. -/
theorem Linked.walk_sources (hg : g.Linked) {n : ℕ} {s t : String} :
    Walk g.reverseAdjacency.Edge n s t ↔ Walk g.Imports n t s := by
  have hedge : g.reverseAdjacency.Edge = Function.swap g.Imports := by
    funext x y
    exact propext (hg.reversed y x)
  rw [hedge]
  exact walk_swap

/-! ## What the queries report -/

/-- The lengths of the paths of import edges from a file to another one, within a limit. -/
def pathLengths (g : DependencyGraph) (maxDepth : ℤ) (s t : String) : Set ℕ :=
  {n : ℕ | 1 ≤ n ∧ (n : ℤ) ≤ maxDepth ∧ Walk g.Imports n s t}

theorem exists_isLeast_pathLengths {s t : String} :
    (∃ d, IsLeast (g.pathLengths maxDepth s t) d) ↔ (g.pathLengths maxDepth s t).Nonempty :=
  exists_isLeast_iff

/-- A path starts at a key. -/
theorem mem_adjacency_of_walk {n : ℕ} {s t : String} (hn : 1 ≤ n) (hwalk : Walk a.Edge n s t) :
    s ∈ a := by
  cases hwalk with
  | nil => omega
  | cons _ hedge _ =>
    by_contra hkey
    simp [Adjacency.Edge, Adjacency.of, AList.lookup_eq_none.mpr hkey] at hedge

/-- The depth from which the neighbours of a dependency are counted. -/
theorem mem_search_dependencies {path x : String} {depth : ℕ} (hx : x ≠ path) :
    (x, depth) ∈ search g.adjacency iter maxDepth
        (fun current depth => if current = path then 0 else depth) [(path, 0)] [] ↔
      IsLeast (g.pathLengths maxDepth path x) depth := by
  apply mem_search _ _ hx
  · simp
  · intro y hy depth
    simp [hy]

theorem mem_search_dependents (hg : g.Linked) {path x : String} {depth : ℕ} (hx : x ≠ path) :
    (x, depth) ∈ search g.reverseAdjacency iter maxDepth (fun _ depth => depth) [(path, 0)] [] ↔
      IsLeast (g.pathLengths maxDepth x path) depth := by
  rw [mem_search rfl (fun _ _ _ => rfl) hx]
  simp only [hg.walk_sources]
  rfl

/-- What `get_dependencies` reports. -/
theorem mem_getDependencies {path : String} {dep : DependencyInfo} :
    dep ∈ g.getDependencies iter path maxDepth ↔
      path ≠ "" ∧ dep.targetFile ≠ path ∧ dep.sourceFile = path ∧
        (g.file? dep.targetFile).map ParsedFile.exports = some dep.importedSymbols ∧
          IsLeast (g.pathLengths maxDepth path dep.targetFile) dep.depth := by
  unfold getDependencies
  split
  · next hkey =>
    constructor
    · simp
    · intro hdep
      have hlength := hdep.2.2.2.2.1
      exact absurd (mem_adjacency_of_walk hlength.1 hlength.2.2) hkey
  · rw [List.mem_filterMap]
    constructor
    · intro hvisit
      obtain ⟨⟨x, depth⟩, hmem, hreport⟩ := hvisit
      split at hreport
      · cases hreport
      · next hsource =>
        obtain ⟨parsed, hparsed, rfl⟩ := Option.map_eq_some_iff.mp hreport
        have hx : x ≠ path := fun heq => hsource (.inl heq)
        have hpath : path ≠ "" := fun heq => hsource (.inr heq)
        exact ⟨hpath, hx, rfl, by simp [hparsed], (mem_search_dependencies hx).mp hmem⟩
    · intro hdep
      obtain ⟨source, target, symbols, depth⟩ := dep
      obtain ⟨hpath, hx, rfl, hexports, hleast⟩ := hdep
      obtain ⟨parsed, hparsed, rfl⟩ := Option.map_eq_some_iff.mp hexports
      refine ⟨(target, depth), (mem_search_dependencies hx).mpr hleast, ?_⟩
      simp [hx, hpath, hparsed]

/-- A file at the end of a path is known. -/
theorem Linked.exists_file (hg : g.Linked) {s t : String} {depth : ℕ}
    (hlength : depth ∈ g.pathLengths maxDepth s t) :
    (∃ parsed, g.file? s = some parsed) ∧ ∃ parsed, g.file? t = some parsed := by
  have hknown := hg.known_of_walk hlength.1 hlength.2.2
  exact ⟨Option.isSome_iff_exists.mp (file?_isSome.mpr hknown.1),
    Option.isSome_iff_exists.mp (file?_isSome.mpr hknown.2)⟩

/-- The files that `get_dependencies` reports. -/
theorem mem_targetFiles (hg : g.Linked) {path x : String} :
    x ∈ (g.getDependencies iter path maxDepth).map DependencyInfo.targetFile ↔
      path ≠ "" ∧ x ≠ path ∧ (g.pathLengths maxDepth path x).Nonempty := by
  rw [List.mem_map]
  constructor
  · intro hreport
    obtain ⟨dep, hdep, rfl⟩ := hreport
    have hdep := mem_getDependencies.mp hdep
    exact ⟨hdep.1, hdep.2.1, ⟨_, hdep.2.2.2.2.1⟩⟩
  · intro hreach
    obtain ⟨hpath, hx, hlengths⟩ := hreach
    obtain ⟨depth, hleast⟩ := exists_isLeast_pathLengths.mpr hlengths
    obtain ⟨parsed, hparsed⟩ := (hg.exists_file hleast.1).2
    refine ⟨⟨path, x, parsed.exports, depth⟩, mem_getDependencies.mpr ?_, rfl⟩
    exact ⟨hpath, hx, rfl, by simp [hparsed], hleast⟩

/-- No file is reported twice. -/
theorem nodup_targetFiles {path : String} :
    ((g.getDependencies iter path maxDepth).map DependencyInfo.targetFile).Nodup := by
  unfold getDependencies
  split
  · simp
  · have hnodup := @nodup_search g.adjacency iter maxDepth
      (fun current depth => if current = path then 0 else depth) path (by simp)
      (fun x hx depth => by simp [hx])
    -- Which visits are reported depends on the nodes alone.
    let report (x : String) : Option String :=
      if x = path ∨ path = "" then none else (g.file? x).map fun _ => x
    have heq : ∀ x z, z ∈ report x → z = x := by
      intro x z hz
      simp only [report, Option.mem_def] at hz
      split at hz
      · cases hz
      · obtain ⟨_, _, rfl⟩ := Option.map_eq_some_iff.mp hz
        rfl
    have hinjective : ∀ x y z, z ∈ report x → z ∈ report y → x = y := by
      intro x y z hx hy
      rw [← heq x z hx, ← heq y z hy]
    have hreport := hnodup.filterMap hinjective
    rw [List.filterMap_map] at hreport
    rw [List.map_filterMap, List.filterMap_congr (g := report ∘ Prod.fst)]
    · exact hreport
    · intro visit _
      simp only [report, Function.comp_apply]
      split
      · rfl
      · rw [Option.map_map]
        rfl

/-- `get_dependents` raises nothing, and what its sources are. -/
theorem exists_getDependents (hg : g.Linked) {path : String} :
    ∃ deps, g.getDependents iter path maxDepth = .ok deps ∧
      ∀ x, x ∈ deps.map DependencyInfo.sourceFile ↔
        x ≠ path ∧ (g.pathLengths maxDepth x path).Nonempty := by
  unfold getDependents
  split
  · next hkey =>
    refine ⟨[], rfl, fun x => ?_⟩
    constructor
    · simp
    · intro hx
      obtain ⟨n, hn⟩ := hx.2
      exact absurd (mem_adjacency_of_walk hn.1 (hg.walk_sources.mpr hn.2.2)) hkey
  · -- A file that is reported has a path to the file of the query, which is therefore known.
    have hfile : ∀ visit ∈ (search g.reverseAdjacency iter maxDepth (fun _ depth => depth)
        [(path, 0)] []).filter fun visit => visit.1 ≠ path ∧ visit.1 ∈ g.known,
        visit.1 ≠ path ∧ IsLeast (g.pathLengths maxDepth visit.1 path) visit.2 := by
      intro visit hvisit
      have hmem := List.mem_filter.mp hvisit
      have hx : visit.1 ≠ path := by simpa using (of_decide_eq_true hmem.2).1
      exact ⟨hx, (mem_search_dependents hg hx).mp hmem.1⟩
    let info (visit : String × ℕ) : DependencyInfo :=
      ⟨visit.1, path, ((g.file? path).map ParsedFile.exports).getD [], visit.2⟩
    refine ⟨_, @mapM_eq_map _ _ _ _ info _ fun visit hvisit => ?_, fun x => ?_⟩
    · obtain ⟨parsed, hparsed⟩ := (hg.exists_file (hfile visit hvisit).2.1).2
      simp [file, hparsed, info]
    · rw [List.map_map, List.mem_map]
      constructor
      · intro hreport
        obtain ⟨visit, hvisit, rfl⟩ := hreport
        exact ⟨(hfile visit hvisit).1, ⟨_, (hfile visit hvisit).2.1⟩⟩
      · intro hreach
        obtain ⟨depth, hleast⟩ := exists_isLeast_pathLengths.mpr hreach.2
        refine ⟨(x, depth), List.mem_filter.mpr ⟨?_, ?_⟩, rfl⟩
        · exact (mem_search_dependents hg hreach.1).mpr hleast
        · simp [hreach.1, (hg.known_of_walk hleast.1.1 hleast.1.2.2).1]

/-! ## The two queries of a built graph -/

/-- What `get_dependencies` promises. -/
structure Shortest (g : DependencyGraph) (iter : Iteration) (path : String) (maxDepth : ℤ) :
    Prop where
  nodup : ((g.getDependencies iter path maxDepth).map DependencyInfo.targetFile).Nodup
  files : ∀ x, x ∈ (g.getDependencies iter path maxDepth).map DependencyInfo.targetFile ↔
    x ≠ path ∧ (g.pathLengths maxDepth path x).Nonempty
  depth : ∀ dep ∈ g.getDependencies iter path maxDepth,
    IsLeast (g.pathLengths maxDepth path dep.targetFile) dep.depth

/-- A file without a name has no dependencies. -/
theorem getDependencies_nameless : g.getDependencies iter "" maxDepth = [] := by
  rw [List.eq_nil_iff_forall_not_mem]
  intro dep hdep
  exact (mem_getDependencies.mp hdep).1 rfl

/-- The files that a file with a name reaches within a depth are reported, once each, with the
length of a shortest path. -/
theorem getDependencies_shortest (files : List ParsedFile) (iter : Iteration) (path : String)
    (maxDepth : ℤ) (hpath : path ≠ "") : Shortest (build files) iter path maxDepth := by
  constructor
  · exact nodup_targetFiles
  · intro x
    simp [mem_targetFiles (linked_build files), hpath]
  · intro dep hdep
    exact (mem_getDependencies.mp hdep).2.2.2.2

/-- Three files that import each other in a circle. -/
def circle : List ParsedFile :=
  [{ path := "a" }, { path := "b", imports := ["a"] }, { path := "c", imports := ["b"] },
    { path := "a", imports := ["c"] }]

theorem getDependencies_circle : "a" ≠ "" ∧ Shortest (build circle) inOrder "a" 2 :=
  ⟨by decide, getDependencies_shortest circle inOrder "a" 2 (by decide)⟩

/-- A file with a name, and one without that imports it. -/
def nameless : List ParsedFile := [{ path := "b" }, { path := "", imports := ["b"] }]

theorem walk_nameless : Walk (build nameless).Imports 1 "" "b" := by
  have hedge : "b" ∈ (build nameless).targets "" := by decide
  exact .cons (Set.notMem_empty _) hedge (.nil (Set.notMem_empty _))

/-- The file without a name reaches the other one and reports nothing. -/
theorem not_shortest_nameless : ¬ Shortest (build nameless) inOrder "" 3 := by
  intro h
  have hreport := (h.files "b").mpr ⟨by decide, 1, by decide, by decide, walk_nameless⟩
  simp [getDependencies_nameless] at hreport

/-! ## Duality -/

/-- Both directions of an edge are kept, and a file with a name is a dependent of another one
exactly when it has it as a dependency. -/
theorem getDependents_dual (files : List ParsedFile) (iter iter' : Iteration) (maxDepth : ℤ) :
    (∀ s t, t ∈ (build files).targets s ↔ s ∈ (build files).sources t) ∧
      ∀ a, ∃ dependents, (build files).getDependents iter a maxDepth = .ok dependents ∧
        ∀ b, b ≠ "" → (b ∈ dependents.map DependencyInfo.sourceFile ↔
          a ∈ ((build files).getDependencies iter' b maxDepth).map DependencyInfo.targetFile) := by
  have hg := linked_build files
  refine ⟨fun s t => (hg.reversed s t).symm, fun a => ?_⟩
  obtain ⟨dependents, hdependents, hsources⟩ := @exists_getDependents iter maxDepth _ hg a
  refine ⟨dependents, hdependents, fun b hb => ?_⟩
  rw [hsources, mem_targetFiles hg]
  simp [hb, ne_comm]

/-- A file without a name is a dependent of a file that it does not have as a dependency. -/
theorem not_dual_nameless :
    ¬ ∃ dependents, (build nameless).getDependents inOrder "b" 2 = .ok dependents ∧
      ∀ b, b ∈ dependents.map DependencyInfo.sourceFile ↔
        "b" ∈ ((build nameless).getDependencies inOrder b 2).map DependencyInfo.targetFile := by
  intro h
  obtain ⟨dependents, hdependents, hdual⟩ := h
  obtain ⟨answer, hanswer, hsources⟩ :=
    @exists_getDependents inOrder 2 _ (linked_build nameless) "b"
  obtain rfl : answer = dependents := Except.ok.inj (hanswer.symm.trans hdependents)
  have hpath : (1 : ℕ) ∈ (build nameless).pathLengths 2 "" "b" :=
    ⟨by decide, by decide, walk_nameless⟩
  have hsource := (hsources "").mpr ⟨by decide, 1, hpath⟩
  have hreport := (hdual "").mp hsource
  simp [getDependencies_nameless] at hreport

end DependencyGraph

end DoxAsdlc.RepoMapper
