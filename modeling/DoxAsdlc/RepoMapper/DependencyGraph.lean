import DoxAsdlc.Core.Events
import DoxAsdlc.Text.PosixPath
import Mathlib.Data.List.AList

/-!
# The dependency graph of the repo mapper

Files are added one by one.  The imports of a file are resolved when it is added, against the
files that are known by then; an edge is kept in both directions.  The queries search the
edges breadth first and answer with the files that are known.

The order in which a set of strings is iterated is a parameter.

## Main definitions

* `ParsedFile`, `DependencyGraph`, `addFile` — the files and the graph.
* `resolveImport`, `resolveRelativeImport` — what an import stands for.
* `getDependencies`, `getDependents` — the queries.
* `toDict`, `fromDict` — the serialised form.
-/

namespace DoxAsdlc.RepoMapper

/-- What the graph uses of a parsed file: the sources of its imports, and its exports. -/
structure ParsedFile where
  path : String
  imports : List String := []
  exports : List String := []
  deriving DecidableEq, Repr

/-- The adjacency lists of a graph. -/
abbrev Adjacency := AList fun _ : String => Finset String

/-- The files, in the order in which they were first added, and the edges. -/
structure DependencyGraph where
  files : List ParsedFile := []
  adjacency : Adjacency := ∅
  reverseAdjacency : Adjacency := ∅

/-- A file that another one depends on, or that depends on it. -/
structure DependencyInfo where
  sourceFile : String
  targetFile : String
  importedSymbols : List String
  depth : ℕ
  deriving DecidableEq, Repr

/-- An order in which sets are iterated. -/
def Iteration := { order : Finset String → List String // ∀ s x, x ∈ order s ↔ x ∈ s }

/-! ## Imports -/

/-- `s.replace(".", "/")`. -/
def dotsToSlashes (s : String) : String :=
  String.ofList (s.toList.map fun c => if c = '.' then '/' else c)

/-- `_resolve_relative_import`. -/
def resolveRelativeImport (known : List String) (sourcePath importSource : String) :
    Option String :=
  let sourceDir := (PosixPath.parse sourcePath).parent
  let dots := (importSource.toList.takeWhile (· = '.')).length
  let relativeModule := String.ofList (importSource.toList.drop dots)
  let targetDir := PosixPath.parent^[dots - 1] sourceDir
  let targetPath :=
    if relativeModule ≠ "" then targetDir.join (dotsToSlashes relativeModule ++ ".py")
    else targetDir.join "__init__.py"
  let altTarget := (targetDir.join (dotsToSlashes relativeModule)).str
  if targetPath.str ∈ known then some targetPath.str
  else if altTarget ∈ known then some altTarget
  else none

/-- `_resolve_import`: the first known file whose path contains the import, or the file that a
relative import leads to. -/
def resolveImport (known : List String) (sourcePath importSource : String) : Option String :=
  if importSource.toList.head? = some '.' then
    resolveRelativeImport known sourcePath importSource
  else known.find? (contains (dotsToSlashes importSource))

/-- The target of an import, where it is not empty. -/
def importTarget (known : List String) (sourcePath importSource : String) : Option String :=
  (resolveImport known sourcePath importSource).filter (· ≠ "")

/-! ## Adding files -/

/-- The set of a key. -/
def Adjacency.of (a : Adjacency) (key : String) : Finset String := (a.lookup key).getD ∅

/-- Create the set of a key if it is not there. -/
def Adjacency.ensure (a : Adjacency) (key : String) : Adjacency :=
  if key ∈ a then a else a.insert key ∅

/-- Add a value to the set of a key. -/
def Adjacency.add (a : Adjacency) (key value : String) : Adjacency :=
  a.insert key (insert value (a.of key))

/-- `_files[path] = parsed`. -/
def setFile (files : List ParsedFile) (parsed : ParsedFile) : List ParsedFile :=
  if parsed.path ∈ files.map ParsedFile.path then
    files.map fun f => if f.path = parsed.path then parsed else f
  else files ++ [parsed]

namespace DependencyGraph

/-- `_files.get(path)`. -/
def file? (g : DependencyGraph) (path : String) : Option ParsedFile :=
  g.files.find? (·.path = path)

/-- The paths of the known files. -/
def known (g : DependencyGraph) : List String := g.files.map ParsedFile.path

/-- An edge, in both directions. -/
def addEdge (source target : String) (g : DependencyGraph) : DependencyGraph :=
  { g with
    adjacency := g.adjacency.add source target
    reverseAdjacency := (g.reverseAdjacency.ensure target).add target source }

/-- Process one import. -/
def addImport (path : String) (g : DependencyGraph) (importSource : String) : DependencyGraph :=
  match importTarget g.known path importSource with
  | none => g
  | some target => g.addEdge path target

/-- `add_file`. -/
def addFile (g : DependencyGraph) (parsed : ParsedFile) : DependencyGraph :=
  let g : DependencyGraph :=
    { files := setFile g.files parsed
      adjacency := g.adjacency.ensure parsed.path
      reverseAdjacency := g.reverseAdjacency.ensure parsed.path }
  parsed.imports.foldl (addImport parsed.path) g

/-- The graph of files that are added in order. -/
def build (files : List ParsedFile) : DependencyGraph := files.foldl addFile {}

/-! ## Queries -/

/-- The keys that have not been visited. -/
def unvisited (a : Adjacency) (visited : List String) : ℕ :=
  a.keys.countP (· ∉ visited)

theorem unvisited_lt {a : Adjacency} {visited : List String} {current : String}
    (hkey : current ∈ a) (hnew : current ∉ visited) :
    unvisited a (current :: visited) < unvisited a visited := by
  have hperm := List.perm_cons_erase (AList.mem_keys.mpr hkey)
  rw [unvisited, unvisited, hperm.countP_eq, hperm.countP_eq,
    List.countP_cons_of_neg (by simp), List.countP_cons_of_pos (by simpa using hnew)]
  apply Nat.lt_succ_of_le
  apply List.countP_mono_left
  intro key _ hunvisited
  simp only [List.mem_cons, not_or, decide_eq_true_eq] at hunvisited ⊢
  exact hunvisited.2

theorem unvisited_of_not_mem {a : Adjacency} {visited : List String} {current : String}
    (hkey : current ∉ a) : unvisited a (current :: visited) = unvisited a visited := by
  apply List.countP_congr
  intro key hmem
  have hne : key ≠ current := by
    rintro rfl
    exact hkey (AList.mem_keys.mp hmem)
  simp [hne]

/-- The neighbours of a node that are still to be searched. -/
def neighbours (a : Adjacency) (iter : Iteration) (visited : List String) (current : String) :
    List String :=
  (iter.val (a.of current)).filter (· ∉ visited)

/-- A node without a key has no neighbours. -/
theorem neighbours_of_not_mem {a : Adjacency} {iter : Iteration} {visited : List String}
    {current : String} (hkey : current ∉ a) : neighbours a iter visited current = [] := by
  have hempty : a.of current = ∅ := by rw [Adjacency.of, AList.lookup_eq_none.mpr hkey]; rfl
  rw [neighbours, hempty, List.filter_eq_nil_iff]
  intro x hx
  exact absurd ((iter.property ∅ x).mp hx) (Finset.notMem_empty x)

/-- The loop of the queries: the nodes that are visited, each with its depth. The depth from
which the neighbours of a node are counted is `base`. -/
def search (a : Adjacency) (iter : Iteration) (maxDepth : ℤ) (base : String → ℕ → ℕ) :
    List (String × ℕ) → List String → List (String × ℕ)
  | [], _ => []
  | (current, depth) :: queue, visited =>
    if current ∈ visited then search a iter maxDepth base queue visited
    else
      let next :=
        if (base current depth : ℤ) < maxDepth then
          (neighbours a iter (current :: visited) current).map (·, base current depth + 1)
        else []
      (current, depth) :: search a iter maxDepth base (queue ++ next) (current :: visited)
termination_by queue visited => (unvisited a visited, queue.length)
decreasing_by
  · exact .right _ (Nat.lt_succ_self _)
  · next hnew =>
    by_cases hkey : current ∈ a
    · exact .left _ _ (unvisited_lt hkey hnew)
    · rw [unvisited_of_not_mem hkey]
      apply Prod.Lex.right
      simp [neighbours_of_not_mem hkey]

/-- `get_dependencies`. -/
def getDependencies (g : DependencyGraph) (iter : Iteration) (filePath : String) (maxDepth : ℤ) :
    List DependencyInfo :=
  if filePath ∉ g.adjacency then []
  else
    let base current depth := if current = filePath then 0 else depth
    (search g.adjacency iter maxDepth base [(filePath, 0)] []).filterMap fun visit =>
      -- The source file itself is no dependency, and an empty name counts as no source.
      if visit.1 = filePath ∨ filePath = "" then none
      else (g.file? visit.1).map fun parsed => ⟨filePath, visit.1, parsed.exports, visit.2⟩

/-- `_files[path]`. -/
def file (g : DependencyGraph) (path : String) : Except Error ParsedFile :=
  match g.file? path with
  | none => .error { cls := .keyError, message := path }
  | some parsed => .ok parsed

/-- `get_dependents`. -/
def getDependents (g : DependencyGraph) (iter : Iteration) (filePath : String) (maxDepth : ℤ) :
    Except Error (List DependencyInfo) :=
  if filePath ∉ g.reverseAdjacency then .ok []
  else
    ((search g.reverseAdjacency iter maxDepth (fun _ depth => depth) [(filePath, 0)] []).filter
      fun visit => visit.1 ≠ filePath ∧ visit.1 ∈ g.known).mapM fun visit => do
        let parsed ← g.file filePath
        return ⟨visit.1, filePath, parsed.exports, visit.2⟩

/-! ## The serialised form -/

/-- An edge of the serialised form. -/
structure Edge where
  source : String
  target : String
  deriving DecidableEq, Repr

/-- The serialised form. -/
structure GraphDict where
  files : List String := []
  edges : List Edge := []

/-- `to_dict`. -/
def toDict (g : DependencyGraph) (iter : Iteration) : GraphDict where
  files := g.known
  edges := g.adjacency.keys.flatMap fun source =>
    (iter.val (g.adjacency.of source)).map fun target => ⟨source, target⟩

/-- Rebuild one edge. -/
def restoreEdge (g : DependencyGraph) (edge : Edge) : DependencyGraph :=
  { g with
    adjacency := (g.adjacency.ensure edge.source).add edge.source edge.target
    reverseAdjacency := (g.reverseAdjacency.ensure edge.target).add edge.target edge.source }

/-- `from_dict`: the edges are rebuilt. -/
def fromDict (data : GraphDict) : DependencyGraph := data.edges.foldl restoreEdge {}

/-! ## Edges -/

/-- The files that a file depends on. -/
def targets (g : DependencyGraph) (path : String) : Finset String := g.adjacency.of path

/-- The files that depend on a file. -/
def sources (g : DependencyGraph) (path : String) : Finset String := g.reverseAdjacency.of path

end DependencyGraph

/-! ## Lemmas on adjacency lists -/

namespace Adjacency

variable {a : Adjacency} {key key' value x : String}

@[simp] theorem of_empty : (∅ : Adjacency).of key = ∅ := rfl

@[simp] theorem of_ensure : (a.ensure key).of key' = a.of key' := by
  unfold ensure
  split
  · rfl
  · next hkey =>
    by_cases heq : key' = key
    · subst heq
      rw [of, of, AList.lookup_insert, AList.lookup_eq_none.mpr hkey]
      rfl
    · rw [of, of, AList.lookup_insert_ne heq]

theorem mem_of_add : x ∈ (a.add key value).of key' ↔ x ∈ a.of key' ∨ key' = key ∧ x = value := by
  unfold add
  by_cases heq : key' = key
  · subst heq
    rw [of, AList.lookup_insert, Option.getD_some, Finset.mem_insert]
    simp [or_comm]
  · rw [of, AList.lookup_insert_ne heq]
    simp [of, heq]

end Adjacency

end DoxAsdlc.RepoMapper
