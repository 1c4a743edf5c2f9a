import DoxAsdlc.Orchestrator.RoundTrips

/-!
# Reading a task back

A task is written over what its hash holds, and an empty field is not written at all, so that
what the hash held there before shows through.  A call of `updateState` or `createTask` reads
back what it returned exactly when no field that it empties was there before, and no list that
it writes is split in another way.

## Main definitions

* `Shows`, `ListShows` — a value written over an older one is read back.
* `lastGiven` — the value that the updates give a field.
* `UpdateReadsBack`, `CreateReadsBack` — a task is read back as it was returned.
* `Keepable` — the updates that are read back.
-/

namespace DoxAsdlc

open Interaction Interaction.Program Async

/-! ## One field over another -/

/-- An optional text is read back over an older one: an empty one only if it is there
already. -/
def Shows (old v : Option String) : Prop := given v = none → old = v

/-- A list is read back over an older one: an empty one only if there is no older one. -/
def ListShows (old : Option String) (paths : List String) : Prop :=
  Listable paths ∧ (paths = [] → splitPaths old = [])

theorem given_or_eq_iff {old v : Option String} : (given v).or old = v ↔ Shows old v := by
  rcases v with _ | s
  · simp [Shows]
  · by_cases h : s = "" <;> simp [Shows, given_some, h]

theorem splitPaths_or_eq_iff {old : Option String} {paths : List String} :
    splitPaths ((joinPaths paths).or old) = paths ↔ ListShows old paths := by
  rcases eq_or_ne paths [] with rfl | h
  · have hnil : Listable [] := ⟨by simp, by simp⟩
    simp [ListShows, joinPaths, hnil]
  · rw [ListShows, ← splitPaths_intercalate_iff, joinPaths, if_neg h, Option.some_or]
    simp [h]

/-- What is split is a list that can be joined. -/
theorem listable_splitPaths (text : Option String) : Listable (splitPaths text) := by
  rw [splitPaths]
  cases htext : given text with
  | none => exact ⟨by simp, by simp⟩
  | some t =>
    refine ⟨fun piece hpiece => Joined.not_mem_of_mem_split (c := ',') hpiece, ?_⟩
    intro hsplit
    have hjoin : [','].intercalate (t.toList.splitOn ',') = t.toList :=
      List.intercalate_splitOn ','
    have hchars : t.toList.splitOn ',' = [[]] := by
      have hmap := (Joined.splitOn_eq t ',').symm.trans hsplit
      obtain ⟨piece, hpiece, hempty⟩ := List.map_eq_singleton_iff.mp hmap
      rw [hpiece]
      simpa using congrArg String.toList hempty
    rw [hchars] at hjoin
    exact (given_eq_some.mp htext).2 (String.toList_eq_nil_iff.mp hjoin.symm)

/-! ## A task over an older hash -/

variable {now now' : Time}

/-- **A task is read back** when each of its fields that may be empty is. -/
theorem fromDict_overlay_iff (old : TaskHash) (t : Task) :
    Task.fromDict now (old.overlay t.toDict) = t ↔
      Shows (old .currentAgent) t.currentAgent ∧ Shows (old .gitSha) t.gitSha ∧
        ListShows (old .artifactPaths) t.artifactPaths := by
  have hread : Task.fromDict now (old.overlay t.toDict) = { t with
      currentAgent := (given t.currentAgent).or (old .currentAgent)
      gitSha := (given t.gitSha).or (old .gitSha)
      artifactPaths := splitPaths ((joinPaths t.artifactPaths).or (old .artifactPaths)) } := rfl
  rw [hread, ← given_or_eq_iff, ← given_or_eq_iff, ← splitPaths_or_eq_iff]
  constructor
  · intro h
    exact ⟨congrArg Task.currentAgent h, congrArg Task.gitSha h, congrArg Task.artifactPaths h⟩
  · intro ⟨hagent, hsha, hpaths⟩
    rw [hagent, hsha, hpaths]

/-! ## The fields that updates give -/

/-- The last value that the updates give a field. -/
def lastGiven {α : Type} (pick : TaskUpdate → Option α) (updates : List TaskUpdate) : Option α :=
  (updates.filterMap pick).getLast?

/-- `current_agent=…`. -/
def TaskUpdate.agent? : TaskUpdate → Option (Option String)
  | .currentAgent v => some v
  | _ => none

/-- `git_sha=…`. -/
def TaskUpdate.sha? : TaskUpdate → Option (Option String)
  | .gitSha v => some v
  | _ => none

/-- `artifact_paths=…`. -/
def TaskUpdate.paths? : TaskUpdate → Option (List String)
  | .artifactPaths v => some v
  | _ => none

/-- A field has the last value that it is given, or keeps its own. -/
theorem updated_field {α : Type} (field : Task → α) (pick : TaskUpdate → Option α)
    (hset : ∀ t u, field (t.setattr u) = (pick u).getD (field t)) (updates : List TaskUpdate)
    (t : Task) :
    field (updates.foldl Task.setattr t) = (lastGiven pick updates).getD (field t) := by
  induction updates using List.reverseRecOn with
  | nil => rfl
  | append_singleton updates u ih =>
    rw [List.foldl_append, List.foldl_cons, List.foldl_nil, hset, ih, lastGiven, lastGiven,
      List.filterMap_append]
    cases hpick : pick u with
    | none => simp [hpick]
    | some v => simp [hpick]

section

variable (t : Task) (newState : TaskState) (updates : List TaskUpdate)

theorem updated_agent : (t.updated now newState updates).currentAgent
    = (lastGiven TaskUpdate.agent? updates).getD t.currentAgent := by
  refine updated_field Task.currentAgent TaskUpdate.agent? (fun t u => ?_) updates _
  cases u <;> rfl

theorem updated_gitSha : (t.updated now newState updates).gitSha
    = (lastGiven TaskUpdate.sha? updates).getD t.gitSha := by
  refine updated_field Task.gitSha TaskUpdate.sha? (fun t u => ?_) updates _
  cases u <;> rfl

theorem updated_artifactPaths : (t.updated now newState updates).artifactPaths
    = (lastGiven TaskUpdate.paths? updates).getD t.artifactPaths := by
  refine updated_field Task.artifactPaths TaskUpdate.paths? (fun t u => ?_) updates _
  cases u <;> rfl

end

/-- What the updates give can be read back over the stored task. -/
structure Keepable (data : TaskHash) (updates : List TaskUpdate) : Prop where
  currentAgent : ∀ v, lastGiven TaskUpdate.agent? updates = some v → Shows (data .currentAgent) v
  gitSha : ∀ v, lastGiven TaskUpdate.sha? updates = some v → Shows (data .gitSha) v
  artifactPaths : ∀ v, lastGiven TaskUpdate.paths? updates = some v →
    ListShows (data .artifactPaths) v

/-- What is read and not given another value is read again. -/
theorem fromDict_updated_iff (data : TaskHash) (newState : TaskState) (updates : List TaskUpdate) :
    Task.fromDict now' (data.overlay
        ((Task.fromDict now data).updated now newState updates).toDict)
      = (Task.fromDict now data).updated now newState updates ↔ Keepable data updates := by
  rw [fromDict_overlay_iff, updated_agent, updated_gitSha, updated_artifactPaths]
  have hagent : Shows (data .currentAgent)
      ((lastGiven TaskUpdate.agent? updates).getD (Task.fromDict now data).currentAgent) ↔
        ∀ v, lastGiven TaskUpdate.agent? updates = some v → Shows (data .currentAgent) v := by
    cases lastGiven TaskUpdate.agent? updates with
    | none => exact iff_of_true (fun _ => rfl) (by simp)
    | some v => simp
  have hsha : Shows (data .gitSha)
      ((lastGiven TaskUpdate.sha? updates).getD (Task.fromDict now data).gitSha) ↔
        ∀ v, lastGiven TaskUpdate.sha? updates = some v → Shows (data .gitSha) v := by
    cases lastGiven TaskUpdate.sha? updates with
    | none => exact iff_of_true (fun _ => rfl) (by simp)
    | some v => simp
  have hpaths : ListShows (data .artifactPaths)
      ((lastGiven TaskUpdate.paths? updates).getD (Task.fromDict now data).artifactPaths) ↔
        ∀ v, lastGiven TaskUpdate.paths? updates = some v → ListShows (data .artifactPaths) v := by
    cases lastGiven TaskUpdate.paths? updates with
    | none => exact iff_of_true ⟨listable_splitPaths _, id⟩ (by simp)
    | some v => simp
  rw [hagent, hsha, hpaths]
  constructor
  · intro ⟨h₁, h₂, h₃⟩
    exact ⟨h₁, h₂, h₃⟩
  · intro h
    exact ⟨h.currentAgent, h.gitSha, h.artifactPaths⟩

/-! ## The calls -/

section

variable (env : Env) (w : Store)

theorem eval_getTask (now : Time) (taskId : String) :
    eval (Store.serve env) (getTask env now taskId) w
      = (.ok ((w.tasks (taskKey env taskId)).map (Task.fromDict now)), w) := rfl

/-- What is read of a task that was written over another one. -/
theorem eval_getTask_writeTask (now : Time) (taskId : String) (mapping : TaskHash) :
    (eval (Store.serve env) (getTask env now taskId) (w.writeTask (taskKey env taskId) mapping)).1
      = .ok (some (Task.fromDict now
          (((w.tasks (taskKey env taskId)).getD .empty).overlay mapping))) := by
  simp [eval_getTask, Store.writeTask, Redis.hset]

/-- The task that a call returns is what is read after it. -/
def UpdateReadsBack (now now' : Time) (taskId : String) (newState : TaskState)
    (updates : List TaskUpdate) : Prop :=
  ∀ task w', eval (Store.serve env) (updateState env now taskId newState updates) w = (.ok task, w') →
    (eval (Store.serve env) (getTask env now' taskId) w').1 = .ok (some task)

/-- The task that is created is what is read after it. -/
def CreateReadsBack (now' : Time) (task : Task) : Prop :=
  ∀ task' w', eval (Store.serve env) (createTask env task) w = (.ok task', w') →
    task' = task ∧ (eval (Store.serve env) (getTask env now' task.taskId) w').1 = .ok (some task)

/-- A state change that succeeds, and what it leaves. -/
theorem eval_updateState {taskId : String} {newState : TaskState} {updates : List TaskUpdate}
    {task : Task} {w' : Store} :
    eval (Store.serve env) (updateState env now taskId newState updates) w = (.ok task, w') ↔
      ∃ data, w.tasks (taskKey env taskId) = some data ∧
        canTransition (Task.fromDict now data).state newState = true ∧
        task = (Task.fromDict now data).updated now newState updates ∧
        w' = w.writeTask (taskKey env taskId) task.toDict := by
  rw [updateState_eq, eval_call, serve_hgetall]
  cases hdata : w.tasks (taskKey env taskId) with
  | none => simp
  | some data =>
    cases hv : validateTransition (Task.fromDict now data).state newState with
    | error e =>
      have hcan : canTransition (Task.fromDict now data).state newState ≠ true := by
        intro hcan
        rw [(validateTransition_eq_ok _ _ ()).mpr hcan] at hv
        cases hv
      simp [hv, hcan]
    | ok u =>
      have hcan := (validateTransition_eq_ok _ _ _).mp hv
      simp only [hv, eval_call, serve_hset, answer_ok, elim_ret, eval_ret, Prod.mk.injEq,
        Except.ok.injEq, Option.some.injEq, exists_eq_left', hcan, true_and]
      constructor
      · intro ⟨htask, hw'⟩
        exact ⟨htask.symm, by rw [← hw', ← htask]⟩
      · intro ⟨htask, hw'⟩
        exact ⟨htask.symm, by rw [hw', htask]⟩

theorem updateReadsBack_iff (now now' : Time) (taskId : String) (newState : TaskState)
    (updates : List TaskUpdate) :
    UpdateReadsBack env w now now' taskId newState updates ↔
      ∀ data, w.tasks (taskKey env taskId) = some data →
        canTransition (Task.fromDict now data).state newState = true → Keepable data updates := by
  constructor
  · intro h data hdata hcan
    have hback := h _ _ ((eval_updateState env w).mpr ⟨data, hdata, hcan, rfl, rfl⟩)
    rw [eval_getTask_writeTask, hdata] at hback
    exact (fromDict_updated_iff data newState updates).mp (by simpa using hback)
  · intro h task w' hrun
    obtain ⟨data, hdata, hcan, rfl, rfl⟩ := (eval_updateState env w).mp hrun
    rw [eval_getTask_writeTask, hdata, Option.getD_some,
      (fromDict_updated_iff data newState updates).mpr (h data hdata hcan)]

theorem createReadsBack_iff (now' : Time) (task : Task) :
    CreateReadsBack env w now' task ↔
      Shows (Redis.hget (w.tasks (taskKey env task.taskId)) .currentAgent) task.currentAgent ∧
      Shows (Redis.hget (w.tasks (taskKey env task.taskId)) .gitSha) task.gitSha ∧
      ListShows (Redis.hget (w.tasks (taskKey env task.taskId)) .artifactPaths)
        task.artifactPaths := by
  have hold : ∀ f, ((w.tasks (taskKey env task.taskId)).getD .empty) f
      = Redis.hget (w.tasks (taskKey env task.taskId)) f := by
    intro f
    cases w.tasks (taskKey env task.taskId) <;> rfl
  rw [← hold, ← hold, ← hold, ← @fromDict_overlay_iff now']
  constructor
  · intro h
    have hback := (h task (w.writeTask (taskKey env task.taskId) task.toDict) rfl).2
    rw [eval_getTask_writeTask] at hback
    simpa using hback
  · intro h task' w' hrun
    cases hrun
    exact ⟨rfl, by rw [serve_hset, eval_getTask_writeTask, h]⟩

/-- **Reading one's writes.**  A task that was updated or created is read back as it was
returned exactly when every field that the call empties was empty before, and the lists that it
writes are split as they were. -/
theorem readsBack_iff (now now' : Time) (taskId : String) (newState : TaskState)
    (updates : List TaskUpdate) (task : Task) :
    (UpdateReadsBack env w now now' taskId newState updates ↔
      ∀ data, w.tasks (taskKey env taskId) = some data →
        canTransition (Task.fromDict now data).state newState = true → Keepable data updates) ∧
    (CreateReadsBack env w now' task ↔
      Shows (Redis.hget (w.tasks (taskKey env task.taskId)) .currentAgent) task.currentAgent ∧
      Shows (Redis.hget (w.tasks (taskKey env task.taskId)) .gitSha) task.gitSha ∧
      ListShows (Redis.hget (w.tasks (taskKey env task.taskId)) .artifactPaths)
        task.artifactPaths) :=
  ⟨updateReadsBack_iff env w now now' taskId newState updates, createReadsBack_iff env w now' task⟩

end

/-- A task with an agent. -/
def assignedTask : Task where
  taskId := "t"
  sessionId := "s"
  epicId := "e"
  state := .pending
  createdAt := 0
  updatedAt := 0
  currentAgent := some "coding"

/-- An agent that is taken off a task is still read. -/
theorem not_readsBack_assignedTask :
    ¬ ∀ (env : Env) (w : Store) (now now' : Time) (taskId : String) (newState : TaskState)
      (updates : List TaskUpdate) (task : Task),
      UpdateReadsBack env w now now' taskId newState updates ∧
        CreateReadsBack env w now' task := by
  intro h
  have hupdate := (h plainEnv (.ofTask plainEnv assignedTask) 0 0 "t" .inProgress
    [.currentAgent none] assignedTask).1
  have hkeep := (updateReadsBack_iff _ _ _ _ _ _ _).mp hupdate assignedTask.toDict
    (by simp [Store.ofTask, Store.writeTask, Store.empty, assignedTask]) (by decide)
  have hshows := hkeep.currentAgent none rfl rfl
  exact absurd hshows (by decide)

end DoxAsdlc
