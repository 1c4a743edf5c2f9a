import DoxAsdlc.Agents.JsonExtraction
import DoxAsdlc.Interaction.Program
import DoxAsdlc.Interaction.Run
import DoxAsdlc.Text.PosixPath

/-!
# The gateway to the repository

The manager agent applies a patch by four git commands and commits whatever then differs from the
last commit.  For the manager this is one step, which commits the patch or raises.  It is one as
long as nothing is left over by a call that raised: what a conflict or a failed commit leaves in
the working tree is in the next commit, which is made for another task.

What git makes of a patch is a parameter.

The status of the repository is read line by line from an output that is stripped as a whole, so
that the first line may have lost the blank that stands for an unchanged index.

## Main definitions

* `applyPatch` — the commands of the gateway.
* `Tools`, `Repo`, `serve` — git, as far as the commands go.
* `Atomic` — a call commits the patch or leaves no trace.
* `Tidy` — a call that is not ended between its first change and its commit.
* `getStatus`, `porcelain`, `statusOf` — the status, what git prints of it, and what that says.

## Main results

* `applyPatch_atomic_iff` — when the calls of a run are atomic.
* `getStatus_eq_statusOf_iff` — when the status is read as it is printed.
-/

namespace DoxAsdlc.Git

open Interaction Interaction.Program

/-! ## The gateway -/

/-- `CompletedProcess`. -/
structure Completed where
  returncode : ℤ
  stdout : String := ""
  stderr : String := ""
  deriving DecidableEq, Repr

inductive Cmd where
  | exists (path : String)
  | git (args : List String)

abbrev Reply : Cmd → Type
  | .exists _ => Bool
  | .git _ => Completed

abbrev interface : Interface := ⟨Cmd, Reply⟩

abbrev Async (α : Type) := Program interface Error α

abbrev send (c : Cmd) : Async (Reply c) := command (I := interface) c

/-- `GitOperationError(message, details)`. -/
def gitError (message : String) (details : List (String × Detail)) : Error where
  cls := .gitOperationError
  message := message
  details := details

/-- The gateway, and what `GIT_WRITE_ACCESS` is set to. -/
structure GitGateway where
  repoPath : String
  gitWriteAccess : Option String := none

/-- `is_write_allowed`. -/
def GitGateway.isWriteAllowed (gateway : GitGateway) : Bool :=
  decide ((gateway.gitWriteAccess.getD "false").toLower ∈ ["true", "1", "yes"])

/-- `_check_write_permission`. -/
def GitGateway.checkWritePermission (gateway : GitGateway) : Except Error Unit :=
  if gateway.isWriteAllowed then .ok ()
  else .error (gitError ("Write access not allowed. " ++
    "Set GIT_WRITE_ACCESS=true in orchestrator container.")
    [("repo_path", .text gateway.repoPath)])

/-- `str.strip`. -/
def strip (s : String) : String := String.ofList (Swarm.ResponseParser.strip s.toList)

/-- `_run_git`, which raises for every exit code but zero. -/
def runGit (args : List String) : Async Completed := do
  let result ← send (.git args)
  if result.returncode = 0 then return result
  else throw (gitError ("Git command failed: " ++ " ".intercalate ("git" :: args))
    [("returncode", .text (toString result.returncode)), ("stdout", .text result.stdout),
      ("stderr", .text result.stderr)])

/-- `except GitOperationError`. -/
def catching {α : Type} (p : Async α) (handler : Error → Async α) : Async α := do
  try p
  catch e => if e.cls = .gitOperationError then handler e else throw e

/-- `get_current_sha`. -/
def getCurrentSha (ref : String := "HEAD") : Async String := do
  let result ← runGit ["rev-parse", ref]
  return strip result.stdout

/-- The message of a commit. -/
def fullMessage (commitMessage taskId : String) : String :=
  commitMessage ++ "\n\nTask-ID: " ++ taskId

/-- Merge a patch that does not apply as it is. -/
def mergePatch (patchPath taskId : String) (e : Error) : Async Unit :=
  catching (do let _ ← runGit ["apply", "--3way", (PosixPath.parse patchPath).str]) fun _ =>
    throw (gitError ("Failed to apply patch: " ++ patchPath)
      [("task_id", .text taskId), ("original_error", .text e.str)])

/-- Apply a patch to the working tree. -/
def patchTree (patchPath taskId : String) : Async Unit :=
  catching (do let _ ← runGit ["apply", (PosixPath.parse patchPath).str])
    (mergePatch patchPath taskId)

/-- Stage everything and commit. -/
def commitAll (commitMessage taskId : String) : Async String := do
  let _ ← runGit ["add", "-A"]
  let _ ← runGit ["commit", "-m", fullMessage commitMessage taskId]
  getCurrentSha

/-- `apply_patch`. -/
def applyPatch (gateway : GitGateway) (patchPath commitMessage taskId : String) :
    Async String := do
  answer gateway.checkWritePermission
  let found ← send (.exists patchPath)
  if found = false then
    throw (gitError ("Patch file not found: " ++ patchPath) [("task_id", .text taskId)])
  patchTree patchPath taskId
  commitAll commitMessage taskId

/-! ## The repository -/

structure Commit (T : Type) where
  tree : T
  message : String
  deriving DecidableEq, Repr

/-- What git makes of a patch and a tree, and how it names commits. -/
structure Tools (T : Type) where
  /-- `git apply`: the tree with the patch, where it applies. -/
  apply : String → T → Option T
  /-- `git apply --3way`: the tree with the patch, or what a merge with conflicts leaves. -/
  threeWay : String → T → Except T T
  sha : List (Commit T) → String

/-- A branch from a first tree on, with the staged tree and the working tree. -/
structure Repo (T : Type) where
  base : T
  commits : List (Commit T) := []
  index : T
  work : T
  deriving DecidableEq, Repr

variable {T : Type}

/-- The tree of the last commit. -/
def Repo.head (r : Repo T) : T := (r.commits.getLast?.map Commit.tree).getD r.base

/-- Nothing differs from the last commit. -/
structure Repo.Settled (r : Repo T) : Prop where
  index : r.index = r.head
  work : r.work = r.head

/-- The repository at its first tree. -/
def Repo.ofTree (base : T) : Repo T := ⟨base, [], base, base⟩

/-- The repository with one more commit, and nothing that differs from it. -/
def Repo.push (r : Repo T) (c : Commit T) : Repo T where
  base := r.base
  commits := r.commits ++ [c]
  index := c.tree
  work := c.tree

/-- A command that did what it should. -/
def done (stdout : String := "") : Completed := ⟨0, stdout, ""⟩

/-- A command that refused. -/
def refusal (stderr : String) : Completed := ⟨1, "", stderr⟩

section

variable [DecidableEq T] (tools : Tools T) (files : String → Bool)

/-- What a git command does.  A merge needs a working tree without unstaged changes, and stages
what it comes to; a commit needs a difference. -/
def git (r : Repo T) : List String → Repo T × Completed
  | ["apply", path] =>
    match tools.apply path r.work with
    | some tree => ({ r with work := tree }, done)
    | none => (r, refusal "patch does not apply")
  | ["apply", "--3way", path] =>
    if r.work ≠ r.index then (r, refusal "does not match index")
    else match tools.threeWay path r.work with
      | .ok tree => ({ r with index := tree, work := tree }, done)
      | .error tree => ({ r with index := tree, work := tree }, refusal "with conflicts")
  | ["add", "-A"] => ({ r with index := r.work }, done)
  | ["commit", "-m", message] =>
    if r.index = r.head then (r, refusal "nothing to commit")
    else ({ r with commits := r.commits ++ [⟨r.index, message⟩] }, done)
  | ["rev-parse", "HEAD"] => (r, done (tools.sha r.commits))
  | _ => (r, refusal "not modelled")

def serve : Server interface (Repo T)
  | .exists path, r => (r, files path)
  | .git args, r => git tools r args

/-! ## Runs -/

/-- A call of `apply_patch`, and what becomes of its commands: each is carried out, or ends with
an exception before it does anything.  Where the list ends, so does the process. -/
structure PatchCall where
  patchPath : String
  commitMessage : String
  taskId : String
  outcomes : List (Option Error)

/-- A command that is carried out, or not. -/
def outcomeOf : Option Error → Outcome Error
  | none => .ok
  | some e => .refused e

variable (gateway : GitGateway)

/-- The repository after a call. -/
def PatchCall.step (r : Repo T) (call : PatchCall) : Repo T :=
  (play (serve tools files) (call.outcomes.map outcomeOf)
    (applyPatch gateway call.patchPath call.commitMessage call.taskId) r).2

/-- The path that git is given. -/
def PatchCall.path (call : PatchCall) : String := (PosixPath.parse call.patchPath).str

/-- The patch turns the one tree into the other. -/
def Patches (path : String) (before after : T) : Prop :=
  tools.apply path before = some after ∨ tools.threeWay path before = .ok after

/-- A call leaves no trace, or one commit that differs by its patch alone. -/
def Atomic (r : Repo T) (call : PatchCall) (r' : Repo T) : Prop :=
  r' = r ∨ ∃ tree, Patches tools call.path r.head tree ∧
    r' = r.push ⟨tree, fullMessage call.commitMessage call.taskId⟩

/-- Once the working tree has changed, everything is staged and committed. -/
def Finishes (r : Repo T) (tree : T) : List (Option Error) → Prop
  | none :: none :: _ => True
  | _ => tree = r.head

/-- The merge leaves nothing over, and what it comes to is committed. -/
def MergeTidy (r : Repo T) (path : String) : List (Option Error) → Prop
  | none :: outcomes =>
    match tools.threeWay path r.head with
    | .ok tree => Finishes r tree outcomes
    | .error tree => tree = r.head
  | _ => True

/-- The call is not ended between its first change and its commit. -/
def Tidy (r : Repo T) (call : PatchCall) : Prop :=
  gateway.isWriteAllowed = true → files call.patchPath = true →
    match call.outcomes with
    | none :: none :: outcomes =>
      match tools.apply call.path r.head with
      | some tree => Finishes r tree outcomes
      | none => MergeTidy tools r call.path outcomes
    | none :: some e :: outcomes =>
      e.cls = .gitOperationError → MergeTidy tools r call.path outcomes
    | _ => True

end

/-! ## One call -/

variable {tools : Tools T} {files : String → Bool} {gateway : GitGateway} {r : Repo T}
  {path message taskId : String} {tree : T}

@[simp] theorem head_push (r : Repo T) (c : Commit T) : (r.push c).head = c.tree := by
  simp [Repo.head, Repo.push]

@[simp] theorem head_changed (r : Repo T) (index work : T) :
    ({ r with index, work } : Repo T).head = r.head := rfl

theorem settled_push (r : Repo T) (c : Commit T) : (r.push c).Settled :=
  ⟨(head_push r c).symm, (head_push r c).symm⟩

/-- What a tree leaves over that is not committed. -/
theorem left_over (h : r.Settled) {index : T} (hindex : index = r.head ∨ index = tree) :
    (tree = r.head ∧ { r with index, work := tree } = r) ∨
      (tree ≠ r.head ∧ ¬ ({ r with index, work := tree } : Repo T).Settled) := by
  by_cases htree : tree = r.head
  · refine .inl ⟨htree, ?_⟩
    have hindex' : index = r.index := by rw [h.index]; rcases hindex with rfl | rfl <;> simp [htree]
    rw [hindex', htree, ← h.work]
  · exact .inr ⟨htree, fun hsettled => htree hsettled.work⟩

variable [DecidableEq T]

/-- Asking for the name of the last commit changes nothing. -/
theorem play_getCurrentSha (os : List (Outcome Error)) (r : Repo T) :
    (play (serve tools files) os getCurrentSha r).2 = r := by
  cases os with
  | nil => rfl
  | cons o os => cases o <;> simp [getCurrentSha, runGit, serve, git, done]

/-- A changed tree is committed, or it is left over. -/
theorem commitAll_cases (h : r.Settled) {index : T} (hindex : index = r.head ∨ index = tree)
    (os : List (Option Error)) {r' : Repo T}
    (hr' : (play (serve tools files) (os.map outcomeOf) (commitAll message taskId)
      { r with index, work := tree }).2 = r') :
    (Finishes r tree os ∧ (r' = r ∨ r' = r.push ⟨tree, fullMessage message taskId⟩)) ∨
      (¬ Finishes r tree os ∧ ¬ r'.Settled) := by
  have hstay : ∀ {index : T}, index = r.head ∨ index = tree →
      r' = { r with index, work := tree } → (Finishes r tree os ↔ tree = r.head) →
      (Finishes r tree os ∧ (r' = r ∨ r' = r.push ⟨tree, fullMessage message taskId⟩)) ∨
        (¬ Finishes r tree os ∧ ¬ r'.Settled) := by
    rintro index hindex rfl hfinishes
    rw [hfinishes]
    rcases left_over h hindex with ⟨htree, heq⟩ | hleft
    · exact .inl ⟨htree, .inl heq⟩
    · exact .inr hleft
  subst hr'
  cases os with
  | nil => exact hstay hindex rfl Iff.rfl
  | cons o os =>
    cases o with
    | some e => exact hstay hindex (by simp [commitAll, runGit, outcomeOf]) Iff.rfl
    | none =>
      cases os with
      | nil => exact hstay (.inr rfl) (by simp [commitAll, runGit, outcomeOf, serve, git, done]) Iff.rfl
      | cons o os =>
        cases o with
        | some e =>
          exact hstay (.inr rfl) (by simp [commitAll, runGit, outcomeOf, serve, git, done]) Iff.rfl
        | none =>
          refine .inl ⟨trivial, ?_⟩
          by_cases htree : tree = r.head
          · left
            have hsame : { r with index := r.head, work := r.head } = r := by
              nth_rewrite 1 [← h.index]
              rw [← h.work]
            simp [commitAll, runGit, outcomeOf, serve, git, done, refusal, hsame, htree, h.index]
          · right
            simp [commitAll, runGit, outcomeOf, serve, git, done, htree, play_getCurrentSha,
              Repo.push]

/-- A merged patch is committed or gone without a trace, or it is left over. -/
theorem mergePatch_cases (h : r.Settled) (patchPath : String) (e : Error)
    (os : List (Option Error)) {r' : Repo T}
    (hr' : (play (serve tools files) (os.map outcomeOf)
      (mergePatch patchPath taskId e >>= fun _ => commitAll message taskId) r).2 = r') :
    (MergeTidy tools r (PosixPath.parse patchPath).str os ∧
        (r' = r ∨ ∃ tree, tools.threeWay (PosixPath.parse patchPath).str r.head = .ok tree ∧
          r' = r.push ⟨tree, fullMessage message taskId⟩)) ∨
      (¬ MergeTidy tools r (PosixPath.parse patchPath).str os ∧ ¬ r'.Settled) := by
  cases os with
  | nil => exact .inl ⟨trivial, .inl hr'.symm⟩
  | cons o os =>
    cases o with
    | some e' =>
      refine .inl ⟨trivial, .inl ?_⟩
      rw [← hr']
      by_cases hcls : e'.cls = .gitOperationError <;>
        simp [mergePatch, catching, runGit, outcomeOf, hcls]
    | none =>
      have hsame : r.work = r.index := h.work.trans h.index.symm
      cases hmerge : tools.threeWay (PosixPath.parse patchPath).str r.head with
      | ok tree =>
        have hr'' : (play (serve tools files) (os.map outcomeOf) (commitAll message taskId)
            { r with index := tree, work := tree }).2 = r' := by
          rw [← hr']
          simp [mergePatch, catching, runGit, outcomeOf, serve, git, done, hsame, h.index, hmerge]
        simp only [MergeTidy, hmerge]
        rcases commitAll_cases h (.inr rfl) os hr'' with ⟨htidy, hatomic⟩ | hleft
        · refine .inl ⟨htidy, hatomic.imp_right ?_⟩
          intro hpush
          exact ⟨tree, rfl, hpush⟩
        · exact .inr hleft
      | error tree =>
        have hr'' : { r with index := tree, work := tree } = r' := by
          rw [← hr']
          simp [mergePatch, catching, runGit, outcomeOf, serve, git, refusal, gitError, hsame,
            h.index, hmerge]
        simp only [MergeTidy, hmerge, ← hr'']
        rcases left_over h (.inr rfl) with ⟨htree, heq⟩ | hleft
        · exact .inl ⟨htree, .inl heq⟩
        · exact .inr hleft

/-- The call is tidy and atomic, or it is not tidy and leaves something over. -/
def Classified (tools : Tools T) (files : String → Bool) (gateway : GitGateway) (r : Repo T)
    (call : PatchCall) : Prop :=
  (Tidy tools files gateway r call ∧ Atomic tools r call (call.step tools files gateway r)) ∨
    (¬ Tidy tools files gateway r call ∧ ¬ (call.step tools files gateway r).Settled)

section

variable {call : PatchCall} (outcomes : List (Option Error))

/-- No command changes a tree. -/
theorem classified_of_same (hsame : call.step tools files gateway r = r)
    (htidy : Tidy tools files gateway r call) : Classified tools files gateway r call :=
  .inl ⟨htidy, .inl hsame⟩

/-- The patch applies. -/
theorem classified_of_apply (h : r.Settled) (happly : tools.apply call.path r.head = some tree)
    (hstep : (play (serve tools files) (outcomes.map outcomeOf)
      (commitAll call.commitMessage call.taskId) { r with index := r.index, work := tree }).2 =
        call.step tools files gateway r)
    (htidy : Tidy tools files gateway r call ↔ Finishes r tree outcomes) :
    Classified tools files gateway r call := by
  rw [Classified, htidy]
  rcases commitAll_cases h (.inl h.index) outcomes hstep with ⟨hends, hsame | hpush⟩ | hleft
  · exact .inl ⟨hends, .inl hsame⟩
  · exact .inl ⟨hends, .inr ⟨tree, .inl happly, hpush⟩⟩
  · exact .inr hleft

/-- The patch is merged. -/
theorem classified_of_merge (h : r.Settled) (e : Error)
    (hstep : (play (serve tools files) (outcomes.map outcomeOf)
      (mergePatch call.patchPath call.taskId e >>= fun _ =>
        commitAll call.commitMessage call.taskId) r).2 = call.step tools files gateway r)
    (htidy : Tidy tools files gateway r call ↔ MergeTidy tools r call.path outcomes) :
    Classified tools files gateway r call := by
  rw [Classified, htidy]
  rcases mergePatch_cases h call.patchPath e outcomes hstep with ⟨hmerge, hsame | hpush⟩ | hleft
  · exact .inl ⟨hmerge, .inl hsame⟩
  · obtain ⟨tree, htree, hpush⟩ := hpush
    exact .inl ⟨hmerge, .inr ⟨tree, .inr htree, hpush⟩⟩
  · exact .inr hleft

end

/-- **What a call leaves**: all of its patch committed, nothing, or something left over. -/
theorem classified (h : r.Settled) (call : PatchCall) : Classified tools files gateway r call := by
  obtain ⟨patchPath, message, taskId, outcomes⟩ := call
  by_cases hwrite : gateway.isWriteAllowed = true
  swap
  · apply classified_of_same
    · simp [PatchCall.step, applyPatch, GitGateway.checkWritePermission, hwrite]
    · exact fun hallowed => absurd hallowed hwrite
  have hallowed : gateway.checkWritePermission = .ok () := if_pos hwrite
  cases outcomes with
  | nil =>
    exact classified_of_same (by simp [PatchCall.step, applyPatch, hallowed]) fun _ _ => trivial
  | cons o outcomes =>
    cases o with
    | some e =>
      apply classified_of_same
      · simp [PatchCall.step, applyPatch, hallowed, outcomeOf]
      · exact fun _ _ => trivial
    | none =>
      by_cases hfound : files patchPath = true
      swap
      · apply classified_of_same
        · simp [PatchCall.step, applyPatch, hallowed, outcomeOf, serve, hfound]
        · exact fun _ hfound' => absurd hfound' hfound
      cases outcomes with
      | nil =>
        apply classified_of_same
        · simp [PatchCall.step, applyPatch, hallowed, outcomeOf, serve, hfound]
        · exact fun _ _ => trivial
      | cons o outcomes =>
        cases o with
        | some e =>
          by_cases hcls : e.cls = .gitOperationError
          · apply classified_of_merge outcomes h e
            · simp [PatchCall.step, applyPatch, hallowed, outcomeOf, serve, hfound, patchTree,
                catching, runGit, hcls]
            · simp [Tidy, hwrite, hfound, hcls]
          · apply classified_of_same
            · simp [PatchCall.step, applyPatch, hallowed, outcomeOf, serve, hfound, patchTree,
                catching, runGit, hcls]
            · exact fun _ _ hcls' => absurd hcls' hcls
        | none =>
          cases happly : tools.apply (PosixPath.parse patchPath).str r.head with
          | some tree =>
            apply classified_of_apply outcomes h happly
            · simp [PatchCall.step, applyPatch, hallowed, outcomeOf, serve, hfound, patchTree,
                catching, runGit, git, done, h.work, happly]
            · simp [Tidy, PatchCall.path, hwrite, hfound, happly]
          | none =>
            apply classified_of_merge outcomes h (gitError
              ("Git command failed: " ++
                " ".intercalate ["git", "apply", (PosixPath.parse patchPath).str])
              [("returncode", .text (toString (1 : ℤ))), ("stdout", .text ""),
                ("stderr", .text "patch does not apply")])
            · simp [PatchCall.step, applyPatch, hallowed, outcomeOf, serve, hfound, patchTree,
                catching, runGit, git, refusal, gitError, h.work, happly]
            · simp [Tidy, PatchCall.path, hwrite, hfound, happly]

/-- **When the calls of a run are atomic.**  From a repository where nothing differs from the
last commit, each call leaves no trace or one commit that differs by its patch alone, and nothing
is left over in between, exactly when each call is tidy. -/
theorem applyPatch_atomic_iff (tools : Tools T) (files : String → Bool) (gateway : GitGateway) (base : T)
    (calls : List PatchCall) :
    Along (fun r call => PatchCall.step tools files gateway r call) Repo.Settled (Atomic tools)
        (Repo.ofTree base) calls ↔
      Each (fun r call => PatchCall.step tools files gateway r call) (Tidy tools files gateway)
        (Repo.ofTree base) calls := by
  apply along_iff_each (I := fun _ => True) (fun _ _ _ _ _ => trivial)
  · intro r call _ h
    rcases @classified _ tools files gateway r _ h call with ⟨htidy, hatomic⟩ | ⟨htidy, hleft⟩
    · refine iff_of_true ⟨hatomic, ?_⟩ htidy
      rcases hatomic with hsame | ⟨tree, -, hpush⟩
      · rwa [hsame]
      · rw [hpush]
        exact settled_push _ _
    · exact iff_of_false (fun hboth => hleft hboth.2) htidy
  · trivial
  · exact ⟨rfl, rfl⟩

/-- Git where one patch conflicts with every tree. -/
def exampleTools : Tools (List String) where
  apply path tree := if path = "b.patch" then none else some (tree ++ [path])
  threeWay _ tree := .error (tree ++ ["<<<<<<<"])
  sha commits := toString commits.length

/-- What the merge left of one patch is committed with the next one. -/
example : (run (PatchCall.step exampleTools (fun _ => true) ⟨"/repo", some "true"⟩)
    (.ofTree []) [⟨"b.patch", "Apply b", "t1", [none, none, none, none]⟩,
      ⟨"c.patch", "Apply c", "t2", List.replicate 6 none⟩]).commits =
    [⟨["<<<<<<<", "c.patch"], "Apply c\n\nTask-ID: t2"⟩] := by
  decide +kernel

/-! ## The status -/

/-- What `get_status` returns. -/
structure Status where
  staged : List String := []
  modified : List String := []
  untracked : List String := []
  deriving DecidableEq, Repr

/-- One line of the output. -/
def readLine (s : Status) : List Char → Except Error Status
  | [] => .ok s
  | [_] => .error { cls := .exception, message := "string index out of range" }
  | x :: y :: rest =>
    let filePath := String.ofList (rest.drop 1)
    .ok {
      staged := if x ∈ ['A', 'M', 'D', 'R'] then s.staged ++ [filePath] else s.staged
      modified := if y = 'M' then s.modified ++ [filePath] else s.modified
      untracked := if x = '?' ∧ y = '?' then s.untracked ++ [filePath] else s.untracked }

/-- The lines of the output, once it is stripped. -/
def readStatus (stdout : String) : Except Error Status :=
  ((Swarm.ResponseParser.strip stdout.toList).splitOn '\n').foldlM readLine {}

/-- `get_status`. -/
def getStatus : Async Status := do
  let result ← runGit ["status", "--porcelain"]
  answer (readStatus result.stdout)

/-- How a file differs on one side. -/
inductive StatusCode where
  | unmodified
  | modified
  | typeChanged
  | added
  | deleted
  | renamed
  | copied
  | unmerged
  | untracked
  | ignored
  deriving DecidableEq, Repr

namespace StatusCode

def letter : StatusCode → Char
  | .unmodified => ' '
  | .modified => 'M'
  | .typeChanged => 'T'
  | .added => 'A'
  | .deleted => 'D'
  | .renamed => 'R'
  | .copied => 'C'
  | .unmerged => 'U'
  | .untracked => '?'
  | .ignored => '!'

/-- A change that the next commit has. -/
def isStaged : StatusCode → Bool
  | .added | .modified | .deleted | .renamed => true
  | _ => false

variable {c : StatusCode}

@[simp] theorem letter_mem_staged : c.letter ∈ ['A', 'M', 'D', 'R'] ↔ c.isStaged = true := by
  cases c <;> decide

@[simp] theorem letter_eq_modified : c.letter = 'M' ↔ c = .modified := by cases c <;> decide

@[simp] theorem letter_eq_untracked : c.letter = '?' ↔ c = .untracked := by cases c <;> decide

theorem isSpace_letter : isSpace c.letter = false ↔ c ≠ .unmodified := by cases c <;> decide

theorem letter_ne_newline : c.letter ≠ '\n' := by cases c <;> decide

end StatusCode

/-- A file that differs in the index or in the working tree.  Its path is quoted where it has
white space at its ends or a line break. -/
structure StatusEntry where
  index : StatusCode
  worktree : StatusCode
  path : List Char
  differs : index ≠ .unmodified ∨ worktree ≠ .unmodified
  oneLine : '\n' ∉ path
  ends : ∃ c, path.getLast? = some c ∧ isSpace c = false

/-- The line of a file. -/
def StatusEntry.line (e : StatusEntry) : List Char :=
  e.index.letter :: e.worktree.letter :: ' ' :: e.path

/-- What `git status --porcelain` prints. -/
def porcelain (entries : List StatusEntry) : String :=
  String.ofList (entries.flatMap fun e => e.line ++ ['\n'])

/-- A repository where some files differ. -/
def statusServer (entries : List StatusEntry) : Server interface Unit
  | .exists _, s => (s, false)
  | .git args, s =>
    (s, if args = ["status", "--porcelain"] then done (porcelain entries) else refusal "no status")

def pathsOf (entries : List StatusEntry) (p : StatusEntry → Bool) : List String :=
  (entries.filter p).map fun e => String.ofList e.path

/-- The files by what their letters say. -/
def statusOf (entries : List StatusEntry) : Status where
  staged := pathsOf entries fun e => e.index.isStaged
  modified := pathsOf entries fun e => e.worktree = .modified
  untracked := pathsOf entries fun e => e.index = .untracked ∧ e.worktree = .untracked

namespace Status

instance : Append Status where
  append s t := ⟨s.staged ++ t.staged, s.modified ++ t.modified, s.untracked ++ t.untracked⟩

theorem append_eq (s t : Status) :
    s ++ t = ⟨s.staged ++ t.staged, s.modified ++ t.modified, s.untracked ++ t.untracked⟩ := rfl

theorem append_assoc (s t u : Status) : s ++ t ++ u = s ++ (t ++ u) := by simp [append_eq]

theorem append_right_cancel {s t u : Status} : s ++ u = t ++ u ↔ s = t := by
  cases s
  cases t
  simp [append_eq]

end Status

theorem statusOf_cons (e : StatusEntry) (es : List StatusEntry) :
    statusOf (e :: es) = statusOf [e] ++ statusOf es := by
  simp [Status.append_eq, statusOf, pathsOf, ← List.map_append, ← List.filter_append]

/-! ## What is read of the status -/

/-- What is read of two letters and a path. -/
theorem readLine_eq (s : Status) (x y z : Char) (path : List Char) :
    readLine s (x :: y :: z :: path) = .ok (s ++
      { staged := if x ∈ ['A', 'M', 'D', 'R'] then [String.ofList path] else []
        modified := if y = 'M' then [String.ofList path] else []
        untracked := if x = '?' ∧ y = '?' then [String.ofList path] else [] }) := by
  simp only [readLine, Status.append_eq, List.drop_one, List.tail_cons]
  congr 2 <;> split_ifs <;> simp

theorem readLine_line (s : Status) (e : StatusEntry) :
    readLine s e.line = .ok (s ++ statusOf [e]) := by
  rw [StatusEntry.line, readLine_eq]
  simp only [StatusCode.letter_mem_staged, StatusCode.letter_eq_modified,
    StatusCode.letter_eq_untracked, statusOf, pathsOf, List.filter_singleton]
  congr 3 <;> split_ifs <;> simp [*]

theorem readLines (s : Status) (es : List StatusEntry) :
    (es.map StatusEntry.line).foldlM readLine s = .ok (s ++ statusOf es) := by
  induction es generalizing s with
  | nil => simp [statusOf, pathsOf, Status.append_eq, pure, Except.pure]
  | cons e es ih =>
    rw [List.map_cons, List.foldlM_cons, readLine_line, ok_bind, ih, statusOf_cons e es,
      Status.append_assoc]

/-- The line of the first file once the output is stripped: a blank letter is white space. -/
def StatusEntry.stripped (e : StatusEntry) : List Char :=
  if e.index = .unmodified then e.worktree.letter :: ' ' :: e.path else e.line

/-- Text that ends with no white space. -/
def Ends (l : List Char) : Prop := ∃ c, l.getLast? = some c ∧ isSpace c = false

theorem Ends.append {l : List Char} (h : Ends l) (before : List Char) : Ends (before ++ l) := by
  obtain ⟨c, hlast, hc⟩ := h
  exact ⟨c, by simp [List.getLast?_append, hlast], hc⟩

theorem ends_intercalate {l : List Char} {ls : List (List Char)} (h : ∀ l' ∈ l :: ls, Ends l') :
    Ends (['\n'].intercalate (l :: ls)) := by
  induction ls generalizing l with
  | nil => simpa using h l
  | cons l' ls ih =>
    rw [List.intercalate_cons_cons]
    exact (ih fun l'' hl'' => h l'' (List.mem_cons_of_mem _ hl'')).append _

theorem flatMap_newline (l : List Char) (ls : List (List Char)) :
    (l :: ls).flatMap (· ++ ['\n']) = ['\n'].intercalate (l :: ls) ++ ['\n'] := by
  induction ls generalizing l with
  | nil => simp
  | cons l' ls ih =>
    rw [List.flatMap_cons, ih l', List.intercalate_cons_cons]
    simp only [List.append_assoc]

/-- What is stripped of the first line is white space, and nothing more of it is. -/
theorem StatusEntry.line_eq (e : StatusEntry) :
    ∃ p c, Agents.JsonExtraction.Spaces p ∧ e.line = p ++ e.stripped ∧
      e.stripped.head? = some c ∧ isSpace c = false := by
  by_cases hindex : e.index = .unmodified
  · have hworktree := e.differs.resolve_left (by simp [hindex])
    refine ⟨[' '], e.worktree.letter, by simp [Agents.JsonExtraction.Spaces]; decide, ?_, ?_⟩
    · simp [StatusEntry.stripped, StatusEntry.line, hindex, StatusCode.letter]
    · simp [StatusEntry.stripped, hindex, StatusCode.isSpace_letter, hworktree]
  · refine ⟨[], e.index.letter, by simp [Agents.JsonExtraction.Spaces], ?_, ?_⟩
    · simp [StatusEntry.stripped, hindex]
    · simp [StatusEntry.stripped, hindex, StatusEntry.line, StatusCode.isSpace_letter]

theorem ends_of_mem_lines (e : StatusEntry) (es : List StatusEntry) :
    ∀ l ∈ e.stripped :: es.map StatusEntry.line, Ends l := by
  have hpath : ∀ (before : List Char) (f : StatusEntry), Ends (before ++ f.path) :=
    fun before f => Ends.append f.ends before
  intro l hl
  rcases List.mem_cons.mp hl with rfl | hl
  · rw [StatusEntry.stripped]
    split
    · exact hpath [_, ' '] e
    · exact hpath [_, _, ' '] e
  · obtain ⟨f, -, rfl⟩ := List.mem_map.mp hl
    exact hpath [_, _, ' '] f

/-- **The output is stripped** of its last line break, and of a first letter that is blank. -/
theorem strip_porcelain (e : StatusEntry) (es : List StatusEntry) :
    Swarm.ResponseParser.strip (porcelain (e :: es)).toList
      = ['\n'].intercalate (e.stripped :: es.map StatusEntry.line) := by
  obtain ⟨p, c, hp, hline, hhead, hc⟩ := e.line_eq
  obtain ⟨d, hlast, hd⟩ := ends_intercalate (ends_of_mem_lines e es)
  have htext : (porcelain (e :: es)).toList
      = p ++ ['\n'].intercalate (e.stripped :: es.map StatusEntry.line) ++ ['\n'] := by
    have hlines := flatMap_newline e.line (es.map StatusEntry.line)
    rw [← List.map_cons, List.flatMap_map] at hlines
    rw [porcelain, String.toList_ofList, hlines, List.map_cons, hline]
    cases es <;> simp
  rw [htext]
  refine Agents.JsonExtraction.strip_eq hp (by simp [Agents.JsonExtraction.Spaces]; decide)
    ?_ hc hlast hd
  cases es <;> simp [List.head?_append, hhead]

/-- What is taken for the first file. -/
def StatusEntry.taken (e : StatusEntry) : Status :=
  if e.index = .unmodified then
    { staged := if e.worktree.isStaged then [String.ofList e.path.tail] else [] }
  else statusOf [e]

/-- **What `get_status` returns.** -/
theorem readStatus_porcelain (e : StatusEntry) (es : List StatusEntry) :
    readStatus (porcelain (e :: es)) = .ok (e.taken ++ statusOf es) := by
  have hfree : ∀ l ∈ e.stripped :: es.map StatusEntry.line, '\n' ∉ l := by
    intro l hl
    rcases List.mem_cons.mp hl with rfl | hl
    · rw [StatusEntry.stripped]
      split <;> simp [StatusEntry.line, e.oneLine, StatusCode.letter_ne_newline.symm]
    · obtain ⟨f, -, rfl⟩ := List.mem_map.mp hl
      simp [StatusEntry.line, f.oneLine, StatusCode.letter_ne_newline.symm]
  have hfirst : readLine {} e.stripped = .ok ({} ++ e.taken) := by
    by_cases hindex : e.index = .unmodified
    · obtain ⟨c, hlast, -⟩ := e.ends
      cases hpath : e.path with
      | nil => simp [hpath] at hlast
      | cons z path =>
        simp only [StatusEntry.stripped, StatusEntry.taken, hindex, if_true, hpath, readLine_eq,
          StatusCode.letter_mem_staged]
        simp
    · simp only [StatusEntry.stripped, StatusEntry.taken, hindex, if_false]
      exact readLine_line {} e
  rw [readStatus, strip_porcelain, List.splitOn_intercalate _ hfree (by simp), List.foldlM_cons,
    hfirst, ok_bind, readLines]
  simp [Status.append_eq]

/-- **When the status is read as it is.**  The files are classified by what their letters say
exactly unless the first one is changed in the working tree only, by a change of the kinds that
are looked for in the index. -/
theorem getStatus_eq_statusOf_iff (entries : List StatusEntry) :
    (getStatus.eval (statusServer entries) ()).1 = .ok (statusOf entries) ↔
      ∀ e, entries.head? = some e → e.index = .unmodified → e.worktree.isStaged = false := by
  have heval : (getStatus.eval (statusServer entries) ()).1 = readStatus (porcelain entries) := by
    rw [getStatus, eval_bind]
    simp [runGit, statusServer, done]
    cases readStatus (porcelain entries) <;> rfl
  rw [heval]
  cases entries with
  | nil => simp; rfl
  | cons e es =>
    rw [readStatus_porcelain, statusOf_cons, Except.ok.injEq, Status.append_right_cancel]
    simp only [List.head?_cons, Option.some.injEq, forall_eq']
    by_cases hindex : e.index = .unmodified
    · have hletters : statusOf [e]
          = { modified := if e.worktree = .modified then [String.ofList e.path] else [] } := by
        by_cases hworktree : e.worktree = .modified <;>
          simp [statusOf, pathsOf, hindex, hworktree, StatusCode.isStaged]
      simp only [StatusEntry.taken, hindex, if_true, hletters, forall_const]
      cases e.worktree <;> simp [StatusCode.isStaged]
    · simp [StatusEntry.taken, hindex]

end DoxAsdlc.Git
