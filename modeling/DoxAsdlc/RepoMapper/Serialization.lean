import DoxAsdlc.RepoMapper.Queries

/-!
# Restored dependency graphs

A serialised graph lists its files and its edges, and a restored graph has the edges only.
The queries of a restored graph answer with known files, of which there are none.  So the
answers survive the round trip exactly where they are empty to begin with: where no file has an
edge to another one.

## Main results

* `restored_answers_nothing` — what a restored graph answers.
* `restored_iff` — when a restored graph answers as the original.
-/

namespace DoxAsdlc.RepoMapper.DependencyGraph

variable {g : DependencyGraph}

/-- A query that finds what another query finds, where neither raises. -/
def SameFound {ε α : Type} (original restored : Except ε α) : Prop :=
  ∃ found, original = .ok found ∧ restored = .ok found

/-- The restored graph answers every query as the original. -/
def AnswersAs (restored original : DependencyGraph) (iterRestored iter : Iteration) : Prop :=
  ∀ path maxDepth,
    restored.getDependencies iterRestored path maxDepth =
        original.getDependencies iter path maxDepth ∧
      SameFound (original.getDependents iter path maxDepth)
        (restored.getDependents iterRestored path maxDepth)

/-! ## Restored graphs -/

theorem files_restoreEdges (edges : List Edge) (g : DependencyGraph) :
    (edges.foldl restoreEdge g).files = g.files := by
  induction edges generalizing g with
  | nil => rfl
  | cons edge edges ih => exact ih (g.restoreEdge edge)

/-- A restored graph knows no file. -/
@[simp] theorem files_fromDict (data : GraphDict) : (fromDict data).files = [] :=
  files_restoreEdges data.edges {}

/-- Where no file is known nothing is found. -/
theorem getDependencies_of_no_files (hfiles : g.files = []) (iter : Iteration) (path : String)
    (maxDepth : ℤ) : g.getDependencies iter path maxDepth = [] := by
  unfold getDependencies
  split
  · rfl
  · rw [List.filterMap_eq_nil_iff]
    intro visit _
    simp [file?, hfiles]

/-- Where no file is known nothing is found in the other direction. -/
theorem getDependents_of_no_files (hfiles : g.files = []) (iter : Iteration) (path : String)
    (maxDepth : ℤ) : g.getDependents iter path maxDepth = .ok [] := by
  unfold getDependents
  split
  · rfl
  · rw [List.filter_eq_nil_iff.mpr]
    · rfl
    · intro visit _
      simp [known, hfiles]

/-- A restored graph answers every query with nothing. -/
theorem restored_answers_nothing (data : GraphDict) (iter : Iteration) (path : String)
    (maxDepth : ℤ) :
    (fromDict data).getDependencies iter path maxDepth = [] ∧
      (fromDict data).getDependents iter path maxDepth = .ok [] :=
  ⟨getDependencies_of_no_files (files_fromDict data) iter path maxDepth,
    getDependents_of_no_files (files_fromDict data) iter path maxDepth⟩

/-! ## Original graphs -/

theorem mapM_ne_nil {ε α β : Type} {f : α → Except ε β} {x : α} {xs : List α} (hx : x ∈ xs) :
    xs.mapM f ≠ .ok [] := by
  intro h
  have hlength := (forall₂_of_mapM h).length_eq
  rw [List.length_nil, List.length_eq_zero_iff] at hlength
  exact List.ne_nil_of_mem hx hlength

/-- The key of a set that has a member is there. -/
theorem Adjacency.mem_of_mem_of {a : Adjacency} {key x : String} (hx : x ∈ a.of key) :
    key ∈ a := by
  by_contra hkey
  rw [Adjacency.of, AList.lookup_eq_none.mpr hkey] at hx
  simp at hx

/-- The dependents of the end of an edge between files are not empty. -/
theorem getDependents_ne_nil (hg : g.Linked) {s t : String} (hedge : t ∈ g.targets s)
    (hne : t ≠ s) (iter : Iteration) : g.getDependents iter t 1 ≠ .ok [] := by
  have hsource : s ∈ g.sources t := (hg.reversed s t).mpr hedge
  have hkey : t ∈ g.reverseAdjacency := Adjacency.mem_of_mem_of hsource
  obtain ⟨d, hd⟩ := @exists_of_mem_of _ iter 1 (fun _ depth => depth) s t hsource hne.symm
    (by simp)
  have hknown : s ∈ g.known := (hg.known s t hedge).1
  unfold getDependents
  rw [if_neg (not_not.mpr hkey)]
  apply mapM_ne_nil (x := (s, d))
  rw [List.mem_filter]
  exact ⟨hd, by simp [hne.symm, hknown]⟩

/-- Where a restored graph answers as the original, no file of the original has an edge to
another one. -/
theorem onlyLoops_of_answersAs {data : GraphDict} {iter iterRestored : Iteration}
    (hg : g.Linked) (hsame : (fromDict data).AnswersAs g iterRestored iter) : g.OnlyLoops := by
  intro s t hedge
  by_contra hne
  obtain ⟨found, horiginal, hfound⟩ := (hsame t 1).2
  have hnil : found = [] := by
    rw [(restored_answers_nothing data iterRestored t 1).2] at hfound
    exact (Except.ok.inj hfound).symm
  exact getDependents_ne_nil hg hedge hne iter (horiginal.trans (congrArg _ hnil))

/-- A restored graph answers every query as the original, and none of them raises, exactly
when no file of the original has an edge to another one. -/
theorem restored_iff (files : List ParsedFile) (iter iterDict iterRestored : Iteration) :
    (fromDict ((build files).toDict iterDict)).AnswersAs (build files) iterRestored iter ↔
      (build files).OnlyLoops := by
  have hlinked := linked_build files
  constructor
  · exact onlyLoops_of_answersAs hlinked
  · intro hloops path maxDepth
    have hrestored :=
      restored_answers_nothing ((build files).toDict iterDict) iterRestored path maxDepth
    constructor
    · rw [hrestored.1, getDependencies_of_loops hloops]
    · exact ⟨[], getDependents_of_loops hlinked hloops iter path maxDepth, hrestored.2⟩

/-- One file imports another. -/
def importer : ParsedFile := { path := "app.py", imports := ["lib"] }

/-- The file that is imported. -/
def imported : ParsedFile := { path := "lib.py" }

/-- Sets are iterated in the order of their members. -/
def inOrder : Iteration := ⟨Joined.sorted, fun _ _ => Joined.mem_sorted⟩

/-- The only dependent of a file is not found in the restored graph. -/
theorem dependent_lost :
    ¬ (fromDict ((build [imported, importer]).toDict inOrder)).AnswersAs
      (build [imported, importer]) inOrder inOrder := by
  intro hsame
  have hloops := onlyLoops_of_answersAs (linked_build [imported, importer]) hsame
  have hedge : "lib.py" ∈ (build [imported, importer]).targets "app.py" := by decide
  exact absurd (hloops "app.py" "lib.py" hedge) (by decide)

end DoxAsdlc.RepoMapper.DependencyGraph
