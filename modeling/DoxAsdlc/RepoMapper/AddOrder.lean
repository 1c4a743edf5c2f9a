import DoxAsdlc.RepoMapper.Queries

/-!
# The order in which files are added

The imports of a file are resolved when it is added, so a file that is added later is no target.
An import stands for another file only where the other file comes first: the graph is the same
in every order exactly when no file has other targets with one of the other files in front of it
than on its own.

## Main results

* `resolveImport_first`, `exists_of_alone` — an import among many files and among few.
* `targets_build` — the targets of a file in a built graph.
* `order_immaterial_iff` — when the order is immaterial.
-/

namespace DoxAsdlc.RepoMapper.DependencyGraph

/-- Source files, no two of them with one path. -/
structure SourceFiles where
  files : List ParsedFile
  distinct : (files.map ParsedFile.path).Nodup

/-- Two graphs with the same edges and the same answers. -/
structure SameGraph (g g' : DependencyGraph) : Prop where
  targets : ∀ path, g.targets path = g'.targets path
  dependencies : ∀ iter path maxDepth,
    g.getDependencies iter path maxDepth = g'.getDependencies iter path maxDepth
  dependents : ∀ iter path maxDepth,
    g.getDependents iter path maxDepth = g'.getDependents iter path maxDepth

/-- The graph is the same in whatever order the files are added. -/
def SourceFiles.OrderImmaterial (src : SourceFiles) : Prop :=
  ∀ order order' : List ParsedFile, order.Perm src.files → order'.Perm src.files →
    SameGraph (build order) (build order')

/-- No file has other targets with another file known before it than on its own. -/
def SourceFiles.Unaffected (src : SourceFiles) : Prop :=
  ∀ f ∈ src.files, ∀ other ∈ src.files, other ≠ f →
    targetsOf [other.path, f.path] f = targetsOf [f.path] f

/-! ## Imports among more and fewer files -/

variable {known : List String} {path imp target : String}

/-- What an import stands for among many files it stands for among fewer, where it comes
first. -/
theorem resolveImport_first {rest : List String}
    (hresolve : resolveImport known path imp = some target) (hrest : ∀ p ∈ rest, p ∈ known) :
    resolveImport (target :: rest) path imp = some target := by
  by_cases hrelative : imp.toList.head? = some '.'
  · obtain ⟨first, second, hcandidates⟩ := exists_candidates path imp
    rw [resolveImport, if_pos hrelative, hcandidates] at hresolve ⊢
    by_cases hfirst : first ∈ known
    · rw [if_pos hfirst] at hresolve
      simp [Option.some.inj hresolve]
    · rw [if_neg hfirst] at hresolve
      split at hresolve
      · next hsecond =>
        have htarget : second = target := Option.some.inj hresolve
        have hmissing : first ∉ target :: rest := by
          intro hmem
          cases List.mem_cons.mp hmem with
          | inl heq => exact hfirst (heq ▸ htarget ▸ hsecond)
          | inr hmem => exact hfirst (hrest first hmem)
        simp [hmissing, htarget]
      · cases hresolve
  · rw [resolveImport, if_neg hrelative] at hresolve ⊢
    exact List.find?_cons_of_pos (List.find?_some hresolve)

/-- An import that stands for its own file stands for a file among more of them. -/
theorem exists_of_alone (hresolve : resolveImport [path] path imp = some path)
    (hpath : path ∈ known) : ∃ target, resolveImport known path imp = some target := by
  by_cases hrelative : imp.toList.head? = some '.'
  · obtain ⟨first, second, hcandidates⟩ := exists_candidates path imp
    rw [resolveImport, if_pos hrelative, hcandidates] at hresolve ⊢
    by_cases hfirst : first ∈ known
    · exact ⟨first, if_pos hfirst⟩
    · have hne : first ∉ [path] := by
        simp only [List.mem_singleton]
        exact fun h => hfirst (h ▸ hpath)
      rw [if_neg hne] at hresolve
      split at hresolve
      · next hsecond =>
        have : second = path := Option.some.inj hresolve
        exact ⟨second, by rw [if_neg hfirst, if_pos (this ▸ hpath)]⟩
      · cases hresolve
  · rw [resolveImport, if_neg hrelative] at hresolve ⊢
    have hfound := List.find?_some hresolve
    exact Option.isSome_iff_exists.mp (List.find?_isSome.mpr ⟨path, hpath, hfound⟩)

/-! ## Targets among more and fewer files -/

/-- The targets of a file on its own are the file at most. -/
theorem eq_of_mem_alone {f : ParsedFile} (htarget : target ∈ targetsOf [f.path] f) :
    target = f.path :=
  List.mem_singleton.mp (mem_of_mem_targetsOf htarget)

/-- A target among many files is one among fewer, where it comes first. -/
theorem mem_targetsOf_first {f : ParsedFile} {rest : List String}
    (htarget : target ∈ targetsOf known f) (hrest : ∀ p ∈ rest, p ∈ known) :
    target ∈ targetsOf (target :: rest) f := by
  obtain ⟨imp, himp, hresolve, hne⟩ := mem_targetsOf.mp htarget
  exact mem_targetsOf.mpr ⟨imp, himp, resolveImport_first hresolve hrest, hne⟩

/-- The targets of a file do not change with the files before it, where none of these changes
them alone. -/
theorem targetsOf_eq_alone {f : ParsedFile} (hpath : f.path ∈ known)
    (halone : ∀ other ∈ known, other ≠ f.path →
      targetsOf [other, f.path] f = targetsOf [f.path] f) :
    targetsOf known f = targetsOf [f.path] f := by
  have hself : ∀ t ∈ targetsOf known f, t = f.path := by
    intro t ht
    by_contra hne
    have hpair : t ∈ targetsOf [t, f.path] f := mem_targetsOf_first ht (by simp [hpath])
    rw [halone t (mem_of_mem_targetsOf ht) hne] at hpair
    exact hne (eq_of_mem_alone hpair)
  ext t
  constructor
  · intro ht
    have hfirst : t ∈ targetsOf [t] f := mem_targetsOf_first ht (by simp)
    rwa [hself t ht] at hfirst ⊢
  · intro ht
    have heq := eq_of_mem_alone ht
    subst heq
    -- A file with an empty path is no target, and hides the others.
    have himport : ∃ imp ∈ f.imports, resolveImport [f.path] f.path imp = some f.path ∧
        resolveImport known f.path imp ≠ some "" := by
      obtain ⟨imp, himp, hresolve, hne⟩ := mem_targetsOf.mp ht
      by_cases hempty : "" ∈ known
      · rw [← halone "" hempty hne.symm] at ht
        obtain ⟨imp, himp, hpair, _⟩ := mem_targetsOf.mp ht
        refine ⟨imp, himp, resolveImport_first hpair (by simp), ?_⟩
        intro hhidden
        rw [resolveImport_first hhidden (by simp [hpath])] at hpair
        exact hne (Option.some.inj hpair).symm
      · exact ⟨imp, himp, hresolve, fun hhidden => hempty (mem_of_resolveImport hhidden)⟩
    obtain ⟨imp, himp, hresolve, hshown⟩ := himport
    obtain ⟨target, htarget⟩ := exists_of_alone hresolve hpath
    have hne : target ≠ "" := fun h => hshown (h ▸ htarget)
    have hmem : target ∈ targetsOf known f := mem_targetsOf.mpr ⟨imp, himp, htarget, hne⟩
    rwa [hself target hmem] at hmem

/-! ## Built graphs -/

theorem build_append (files files' : List ParsedFile) :
    build (files ++ files') = files'.foldl addFile (build files) := by
  rw [build, List.foldl_append]
  rfl

/-- Files with distinct paths are known in the order in which they are added. -/
theorem known_build {files : List ParsedFile} (hdistinct : (files.map ParsedFile.path).Nodup) :
    (build files).known = files.map ParsedFile.path := by
  induction files using List.reverseRecOn with
  | nil => rfl
  | append_singleton files f ih =>
    rw [List.map_append, List.nodup_append] at hdistinct
    have hnew : f.path ∉ files.map ParsedFile.path :=
      fun hmem => hdistinct.2.2 f.path hmem f.path (by simp) rfl
    rw [build_append, List.foldl_cons, List.foldl_nil, known_addFile, ih hdistinct.1,
      if_neg hnew, List.map_append]
    rfl

/-- The targets of a file do not change when other files are added. -/
theorem targets_foldl {g : DependencyGraph} {path : String} {files : List ParsedFile}
    (hpath : path ∉ files.map ParsedFile.path) :
    (files.foldl addFile g).targets path = g.targets path := by
  induction files generalizing g with
  | nil => rfl
  | cons f files ih =>
    simp only [List.map_cons, List.mem_cons, not_or] at hpath
    rw [List.foldl_cons, ih hpath.2]
    ext t
    simp [mem_targets_addFile, hpath.1]

/-- The targets of a file among those that are added before it. -/
theorem targets_build {before after : List ParsedFile} {f : ParsedFile}
    (hdistinct : ((before ++ f :: after).map ParsedFile.path).Nodup) :
    (build (before ++ f :: after)).targets f.path =
      targetsOf (before.map ParsedFile.path ++ [f.path]) f := by
  rw [List.map_append, List.map_cons, List.nodup_append, List.nodup_cons] at hdistinct
  have hbefore := hdistinct.1
  have hnew : f.path ∉ (build before).known := by
    rw [known_build hbefore]
    exact fun hmem => hdistinct.2.2 f.path hmem f.path List.mem_cons_self rfl
  rw [build_append, List.foldl_cons, targets_foldl hdistinct.2.1.1]
  ext t
  rw [mem_targets_addFile, known_addFile, if_neg hnew, known_build hbefore]
  have hfresh : t ∉ (build before).targets f.path :=
    fun hedge => hnew ((linked_build before).known f.path t hedge).1
  simp [hfresh]

/-! ## Orders -/

variable {src : SourceFiles} {order order' : List ParsedFile}

theorem SourceFiles.nodup_order (horder : order.Perm src.files) :
    (order.map ParsedFile.path).Nodup :=
  (horder.map ParsedFile.path).nodup_iff.mpr src.distinct

/-- Unaffected files have the targets that they have on their own. -/
theorem SourceFiles.Unaffected.targets_build (hunaffected : src.Unaffected)
    (horder : order.Perm src.files) {f : ParsedFile} (hf : f ∈ order) :
    (build order).targets f.path = targetsOf [f.path] f := by
  have hdistinct := SourceFiles.nodup_order horder
  obtain ⟨before, after, rfl⟩ := List.append_of_mem hf
  rw [DependencyGraph.targets_build hdistinct]
  apply targetsOf_eq_alone (by simp)
  intro path hpath hne
  have hbefore : path ∈ before.map ParsedFile.path := by simpa [hne] using hpath
  obtain ⟨other, hother, rfl⟩ := List.mem_map.mp hbefore
  apply hunaffected f (horder.mem_iff.mp hf) other
  · exact horder.mem_iff.mp (List.mem_append_left _ hother)
  · exact fun h => hne (congrArg ParsedFile.path h)

/-- The graph of unaffected files has no edge between two of them. -/
theorem SourceFiles.Unaffected.onlyLoops (hunaffected : src.Unaffected)
    (horder : order.Perm src.files) : (build order).OnlyLoops := by
  intro s t hedge
  have hknown := ((linked_build order).known s t hedge).1
  rw [known_build (SourceFiles.nodup_order horder)] at hknown
  obtain ⟨f, hf, rfl⟩ := List.mem_map.mp hknown
  rw [hunaffected.targets_build horder hf] at hedge
  exact eq_of_mem_alone hedge

theorem SourceFiles.Unaffected.targets_eq (hunaffected : src.Unaffected)
    (horder : order.Perm src.files) (horder' : order'.Perm src.files) (path : String) :
    (build order).targets path = (build order').targets path := by
  have hperm : order.Perm order' := horder.trans horder'.symm
  by_cases hpath : path ∈ order.map ParsedFile.path
  · obtain ⟨f, hf, rfl⟩ := List.mem_map.mp hpath
    rw [hunaffected.targets_build horder hf,
      hunaffected.targets_build horder' (hperm.mem_iff.mp hf)]
  · have hnone : ∀ l : List ParsedFile, l.Perm src.files → path ∉ l.map ParsedFile.path →
        (build l).targets path = ∅ := by
      intro l hl hmissing
      rw [Finset.eq_empty_iff_forall_notMem]
      intro t hedge
      rw [← known_build (SourceFiles.nodup_order hl)] at hmissing
      exact hmissing ((linked_build l).known path t hedge).1
    have hpath' : path ∉ order'.map ParsedFile.path := by
      rwa [← (hperm.map ParsedFile.path).mem_iff]
    rw [hnone order horder hpath, hnone order' horder' hpath']

/-- Two files can be added first. -/
theorem exists_order {f other : ParsedFile} (hf : f ∈ src.files) (hother : other ∈ src.files)
    (hne : other ≠ f) : ∃ rest, (f :: other :: rest).Perm src.files := by
  refine ⟨(src.files.erase f).erase other, ?_⟩
  have hmem : other ∈ src.files.erase f := (List.mem_erase_of_ne hne).mpr hother
  exact ((List.perm_cons_erase hmem).symm.cons f).trans (List.perm_cons_erase hf).symm

/-- The edges and the answers of the graph are the same in whatever order the files are added,
exactly when no file has other targets with another file known before it than on its own. -/
theorem order_immaterial_iff (src : SourceFiles) : src.OrderImmaterial ↔ src.Unaffected := by
  constructor
  · intro hsame f hf other hother hne
    obtain ⟨rest, horder⟩ := exists_order hf hother hne
    have horder' : (other :: f :: rest).Perm src.files := (List.Perm.swap f other rest).trans horder
    have hdistinct := SourceFiles.nodup_order horder
    have hdistinct' := SourceFiles.nodup_order horder'
    calc targetsOf [other.path, f.path] f
        = (build (other :: f :: rest)).targets f.path :=
          (@targets_build [other] rest f hdistinct').symm
      _ = (build (f :: other :: rest)).targets f.path :=
          (hsame _ _ horder' horder).targets f.path
      _ = targetsOf [f.path] f := @targets_build [] (other :: rest) f hdistinct
  · intro hunaffected order order' horder horder'
    have hloops := hunaffected.onlyLoops horder
    have hloops' := hunaffected.onlyLoops horder'
    constructor
    · exact hunaffected.targets_eq horder horder'
    · intro iter path maxDepth
      rw [getDependencies_of_loops hloops, getDependencies_of_loops hloops']
    · intro iter path maxDepth
      rw [getDependents_of_loops (linked_build order) hloops,
        getDependents_of_loops (linked_build order') hloops']

/-- A file that imports the other one. -/
def importing : SourceFiles where
  files := [{ path := "src/app.py", imports := [".lib"] }, { path := "src/lib.py" }]
  distinct := by decide

/-- The edge between the files is there only if the imported file is added first. -/
theorem edge_missing : ¬ importing.OrderImmaterial := by
  intro hsame
  have hedges := (hsame importing.files importing.files.reverse (.refl _)
    (List.reverse_perm _)).targets "src/app.py"
  revert hedges
  decide

end DoxAsdlc.RepoMapper.DependencyGraph
