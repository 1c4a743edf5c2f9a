import DoxAsdlc.Interaction.Run
import DoxAsdlc.RepoMapper.Serialization
import Mathlib.Algebra.GroupWithZero.Nat

/-!
# Context packs and their cache

A context is what the files of the repository are parsed to, with the graph of their
dependencies.  It is cached, and a pack is built from the cached one if there is one.  The commit
that a pack reports is read when it is built.  Files can be taken out of a cached context.

Contexts do not grow too old here, and the cache is that of one repository.

A pack is fresh if what it is built from is what the reported commit parses to.  The cached
context tells where it comes from only in part: it was built from some tree, and files that have
been named since are taken out of it, while the graph stays.  That history is kept here beside
the repository, and the cache is shown to follow it; packs are fresh exactly if what the history
leaves is what the current commit has.

## Main definitions

* `Tools` — the parser and the commits.
* `ASTContext`, `buildAstContext` — what is built from the working tree.
* `get`, `save`, `invalidate`, `partialInvalidate` — the cache.
* `generateContextPack`, `refreshAstContext` — the mapper.
* `Action`, `step` — everything that happens to a repository.
* `History`, `record` — where a cached context comes from.
* `Shows`, `UpToDate`, `Fresh` — what is promised of a pack.
* `Current` — when the promise is kept.
-/

namespace DoxAsdlc.RepoMapper

/-- What a pack uses of a parsed file. -/
structure ParsedSource extends ParsedFile where
  language : String
  /-- The names of the symbols. -/
  symbols : List String
  rawContent : String
  lineCount : ℕ
  deriving DecidableEq

/-- The files of a tree, in the order in which they are found, with their contents. -/
abbrev Tree := List (String × String)

/-- The parser of a file, which may skip it, and what the commits have. -/
structure Tools where
  parseFile : String → String → Option ParsedSource
  countParsedFile : ParsedSource → ℕ
  iteration : Iteration
  /-- The tree of a commit. -/
  treeAt : String → Tree

/-- `ASTContext`. -/
structure ASTContext where
  gitSha : String
  files : List (String × ParsedSource)
  dependencyGraph : DependencyGraph.GraphDict
  tokenEstimate : ℕ

variable (T : Tools)

/-- The files of a tree that are parsed. -/
def parsedFiles (tree : Tree) : List (String × ParsedSource) :=
  tree.filterMap fun f => (T.parseFile f.1 f.2).map fun parsed => (f.1, parsed)

/-- The dependency graph of a tree. -/
def graphOf (tree : Tree) : DependencyGraph.GraphDict :=
  (DependencyGraph.build ((parsedFiles T tree).map fun f => f.2.toParsedFile)).toDict T.iteration

/-- `_build_ast_context`. -/
def buildAstContext (tree : Tree) (gitSha : String) : ASTContext where
  gitSha := gitSha
  files := parsedFiles T tree
  dependencyGraph := graphOf T tree
  tokenEstimate := ((parsedFiles T tree).map fun f => T.countParsedFile f.2).sum

/-! ## The cache -/

/-- `get`, of a context that is not too old. -/
def get (cache : Option ASTContext) (validateSha : Bool) (currentSha : String) :
    Option ASTContext :=
  cache.filter fun context => !validateSha || context.gitSha == currentSha

/-- `save`. -/
def save (context : ASTContext) : Option ASTContext := some context

/-- `invalidate`. -/
def invalidate : Option ASTContext := none

/-- `partial_invalidate`. -/
def partialInvalidate (cache : Option ASTContext) (currentSha : String)
    (changedFiles : List String) : Option ASTContext :=
  match get cache false currentSha with
  | none => cache
  | some context =>
    let files := context.files.filter fun f => f.1 ∉ changedFiles
    save { context with
      files := files
      tokenEstimate := (files.map fun f => f.2.rawContent.length / 4).sum }

/-! ## The mapper -/

/-- A repository: its working tree, its current commit, and the cached context. -/
structure Repo where
  work : Tree
  head : String
  cache : Option ASTContext

/-- What a pack is built from, and the commit that its metadata reports. -/
structure PackSource where
  files : List (String × ParsedSource)
  dependencyGraph : DependencyGraph.GraphDict
  gitSha : String

/-- `_get_or_build_ast_context`. -/
def getOrBuildAstContext (r : Repo) : ASTContext × Repo :=
  match get r.cache false r.head with
  | some context => (context, r)
  | none =>
    let context := buildAstContext T r.work r.head
    (context, { r with cache := save context })

/-- `generate_context_pack`, up to the selection of files. -/
def generateContextPack (r : Repo) : PackSource × Repo :=
  let (context, r) := getOrBuildAstContext T r
  (⟨context.files, context.dependencyGraph, r.head⟩, r)

/-- `refresh_ast_context`. -/
def refreshAstContext (r : Repo) : Repo :=
  let r := { r with cache := invalidate }
  { r with cache := save (buildAstContext T r.work r.head) }

/-- What happens to a repository. -/
inductive Action where
  | edit (work : Tree)
  | commit (sha : String)
  | generate
  | refresh
  | partialInvalidate (changedFiles : List String)

/-- One step. -/
def step (r : Repo) : Action → Repo
  | .edit work => { r with work := work }
  | .commit sha => { r with head := sha }
  | .generate => (generateContextPack T r).2
  | .refresh => refreshAstContext T r
  | .partialInvalidate changedFiles =>
    { r with cache := RepoMapper.partialInvalidate r.cache r.head changedFiles }

/-- A repository without a cached context. -/
def start (work : Tree) (head : String) : Repo := ⟨work, head, none⟩

end DoxAsdlc.RepoMapper

/-! ## Whether context packs are fresh -/

namespace DoxAsdlc.RepoMapper

open Interaction

/-- The tree that the cached context was built from, and the files that have been named since. -/
structure Origin where
  tree : Tree
  dropped : List String

/-- What has happened to a repository: `named` are the files named since the last pack. -/
structure History where
  work : Tree
  head : String
  origin : Option Origin
  named : List String

/-- One step of the history. -/
def record (h : History) : Action → History
  | .edit work => { h with work := work }
  | .commit sha => { h with head := sha }
  | .generate => { h with origin := some (h.origin.getD ⟨h.work, []⟩), named := [] }
  | .refresh => { h with origin := some ⟨h.work, []⟩ }
  | .partialInvalidate changedFiles =>
    { h with
      origin := h.origin.map fun o => { o with dropped := o.dropped ++ changedFiles }
      named := h.named ++ changedFiles }

/-- The history of a repository without a cached context. -/
def History.start (work : Tree) (head : String) : History := ⟨work, head, none, []⟩

variable (T : Tools)

/-- What is left of the files of a tree. -/
def remaining (o : Origin) : List (String × ParsedSource) :=
  (parsedFiles T o.tree).filter fun f => f.1 ∉ o.dropped

/-! ## The cache follows the history -/

/-- The repository is where the history says. -/
structure Follows (h : History) (r : Repo) : Prop where
  work : r.work = h.work
  head : r.head = h.head
  cache : (r.cache.map fun c => (c.files, c.dependencyGraph))
    = h.origin.map fun o => (remaining T o, graphOf T o.tree)

variable {T} {h : History} {r : Repo}

@[simp] theorem get_unvalidated (cache : Option ASTContext) (sha : String) :
    get cache false sha = cache := by
  cases cache <;> rfl

theorem remaining_nil (tree : Tree) : remaining T ⟨tree, []⟩ = parsedFiles T tree := by
  simp [remaining]

theorem remaining_append (tree : Tree) (dropped changedFiles : List String) :
    remaining T ⟨tree, dropped ++ changedFiles⟩
      = (remaining T ⟨tree, dropped⟩).filter fun f => f.1 ∉ changedFiles := by
  simp only [remaining, List.filter_filter]
  refine List.filter_congr ?_
  intro f _
  by_cases hdropped : f.1 ∈ dropped <;> by_cases hchanged : f.1 ∈ changedFiles <;>
    simp [hdropped, hchanged]

/-- Without a cached context the history has none. -/
theorem Follows.origin_of_none (hr : Follows T h r) (hc : r.cache = none) : h.origin = none := by
  simpa [hc] using hr.cache.symm

/-- Where a cached context comes from. -/
theorem Follows.exists_origin (hr : Follows T h r) {context : ASTContext}
    (hc : r.cache = some context) :
    ∃ o, h.origin = some o ∧ context.files = remaining T o ∧
      context.dependencyGraph = graphOf T o.tree := by
  simpa [hc, eq_comm, Option.map_eq_some_iff] using hr.cache

theorem Follows.step (hr : Follows T h r) (a : Action) :
    Follows T (record h a) (RepoMapper.step T r a) := by
  cases a with
  | edit work => exact ⟨rfl, hr.head, hr.cache⟩
  | commit sha => exact ⟨hr.work, rfl, hr.cache⟩
  | refresh =>
    refine ⟨hr.work, hr.head, ?_⟩
    simp [RepoMapper.step, refreshAstContext, record, save, buildAstContext, remaining_nil, hr.work]
  | generate =>
    cases hc : r.cache with
    | none =>
      have horigin := hr.origin_of_none hc
      refine ⟨?_, ?_, ?_⟩ <;>
        simp [RepoMapper.step, generateContextPack, getOrBuildAstContext, record, hc, save,
          buildAstContext, horigin, remaining_nil, hr.work, hr.head]
    | some context =>
      obtain ⟨o, ho, hfiles, hgraph⟩ := hr.exists_origin hc
      refine ⟨?_, ?_, ?_⟩ <;>
        simp [RepoMapper.step, generateContextPack, getOrBuildAstContext, record, hc, ho, hfiles,
          hgraph, hr.work, hr.head]
  | partialInvalidate changedFiles =>
    refine ⟨hr.work, hr.head, ?_⟩
    cases hc : r.cache with
    | none =>
      have horigin := hr.origin_of_none hc
      simp [RepoMapper.step, record, RepoMapper.partialInvalidate, hc, horigin]
    | some context =>
      obtain ⟨o, ho, hfiles, hgraph⟩ := hr.exists_origin hc
      simp [RepoMapper.step, record, RepoMapper.partialInvalidate, hc, ho, save, hfiles, hgraph,
        remaining_append]

/-- **The cache follows the history** in every run. -/
theorem follows_run (work : Tree) (head : String) (actions : List Action) :
    Follows T (run record (History.start work head) actions)
      (run (RepoMapper.step T) (start work head) actions) := by
  induction actions using List.reverseRecOn with
  | nil => exact ⟨rfl, rfl, rfl⟩
  | append_singleton actions a ih =>
    rw [run_append, run_append]
    exact ih.step a

/-! ## What is promised of a pack -/

variable (T)

/-- The files and the edges are those of a tree. -/
def Shows (files : List (String × ParsedSource)) (graph : DependencyGraph.GraphDict)
    (tree : Tree) : Prop :=
  (∀ f, files.lookup f = (parsedFiles T tree).lookup f) ∧
    ∀ e, e ∈ graph.edges ↔ e ∈ (graphOf T tree).edges

/-- The named files are there as they are in a tree, if they are in it, and no edge from or to
one of them is one that the tree does not have. -/
def UpToDate (named : List String) (files : List (String × ParsedSource))
    (graph : DependencyGraph.GraphDict) (tree : Tree) : Prop :=
  ∀ f ∈ named, files.lookup f = (parsedFiles T tree).lookup f ∧
    ∀ e ∈ graph.edges, e.source = f ∨ e.target = f → e ∈ (graphOf T tree).edges

/-- A pack reports the current commit, shows what is there at that commit, and is up to date with
the working tree in the files named since the last pack. -/
def Fresh (h : History) (p : PackSource) : Prop :=
  p.gitSha = h.head ∧ Shows T p.files p.dependencyGraph (T.treeAt p.gitSha) ∧
    UpToDate T h.named p.files p.dependencyGraph h.work

/-- Where nothing is cached, the working tree is that of the current commit.  Where a context is
cached, what is left of the tree that it was built from, with all the edges of that tree, is that
of the current commit, and up to date with the working tree in what has been named since the last
pack. -/
def Current (h : History) : Prop :=
  match h.origin with
  | none => Shows T (parsedFiles T h.work) (graphOf T h.work) (T.treeAt h.head)
  | some o =>
    Shows T (remaining T o) (graphOf T o.tree) (T.treeAt h.head) ∧
      UpToDate T h.named (remaining T o) (graphOf T o.tree) h.work

variable {T}

theorem shows_self (tree : Tree) : Shows T (parsedFiles T tree) (graphOf T tree) tree :=
  ⟨fun _ => rfl, fun _ => Iff.rfl⟩

theorem Shows.upToDate {files : List (String × ParsedSource)}
    {graph : DependencyGraph.GraphDict} {tree : Tree} (hshows : Shows T files graph tree)
    (named : List String) : UpToDate T named files graph tree :=
  fun f _ => ⟨hshows.1 f, fun e he _ => (hshows.2 e).mp he⟩

/-- What a pack is built from, by the history. -/
theorem Follows.generate (hr : Follows T h r) :
    (generateContextPack T r).1 =
      match h.origin with
      | none => ⟨parsedFiles T h.work, graphOf T h.work, h.head⟩
      | some o => ⟨remaining T o, graphOf T o.tree, h.head⟩ := by
  cases hc : r.cache with
  | none =>
    have horigin := hr.origin_of_none hc
    simp [generateContextPack, getOrBuildAstContext, hc, horigin, buildAstContext, hr.work, hr.head]
  | some context =>
    obtain ⟨o, ho, hfiles, hgraph⟩ := hr.exists_origin hc
    simp [generateContextPack, getOrBuildAstContext, hc, ho, hfiles, hgraph, hr.head]

/-- One pack is fresh exactly if the history is current. -/
theorem Follows.fresh_iff (hr : Follows T h r) :
    Fresh T h (generateContextPack T r).1 ↔ Current T h := by
  rw [hr.generate]
  cases ho : h.origin with
  | none =>
    simp only [Fresh, Current, ho, true_and]
    constructor
    · intro hfresh
      exact hfresh.1
    · intro hshows
      exact ⟨hshows, (shows_self h.work).upToDate h.named⟩
  | some o => simp only [Fresh, Current, ho, true_and]

/-- Every pack of a run is fresh. -/
def AlwaysFresh (T : Tools) (work : Tree) (head : String) (actions : List Action) : Prop :=
  ∀ before after, actions = before ++ .generate :: after →
    Fresh T (run record (History.start work head) before)
      (generateContextPack T (run (step T) (start work head) before)).1

/-- **When packs are fresh.**  Every pack of a run is fresh exactly if the history is current
whenever one is built. -/
theorem alwaysFresh_iff (T : Tools) (work : Tree) (head : String) (actions : List Action) :
    AlwaysFresh T work head actions ↔ ∀ before after, actions = before ++ .generate :: after →
      Current T (run record (History.start work head) before) := by
  refine forall_congr' fun before => ?_
  have hfollows := follows_run (T := T) work head before
  simp only [hfollows.fresh_iff]

/-- A parser that keeps only the contents, and a repository of one file with two commits. -/
def oneFile : Tools where
  parseFile path content := some
    { path := path, language := "python", symbols := [], rawContent := content, lineCount := 1 }
  countParsedFile parsed := parsed.rawContent.length / 4
  iteration := DependencyGraph.inOrder
  treeAt sha := if sha = "1" then [("a.py", "x = 1")] else [("a.py", "x = 2")]

/-- A pack after another commit, in a working tree at that commit, shows the commit before. -/
theorem not_alwaysFresh_of_commit :
    ¬ AlwaysFresh oneFile (oneFile.treeAt "1") "1"
      [.generate, .edit (oneFile.treeAt "2"), .commit "2", .generate] := by
  intro hfresh
  obtain ⟨-, hshows, -⟩ := hfresh [.generate, .edit (oneFile.treeAt "2"), .commit "2"] [] rfl
  exact absurd (hshows.1 "a.py") (by decide)

end DoxAsdlc.RepoMapper
