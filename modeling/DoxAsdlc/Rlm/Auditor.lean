import DoxAsdlc.Interaction.Run
import DoxAsdlc.Rlm.Records

/-!
# The audit history of explorations

Results are kept in a directory, a file for each, with an index that lists them.  Every instance of
the auditor reads the index once, before its first operation, and from then on trusts its own copy:
whatever it saves or deletes, it writes that copy over the index.  A file is named after the second
and the task.

Any number of instances on one directory, interleaved call by call.  Files are named relative to the
directory.

## Main definitions

* `saveResult`, `deleteAudit`, `loadResult`, `listAudits` — the operations.
* `World`, `Action` — instances on a directory, and what happens.
* `Kept` — what is promised of the history.
* `Action.Apart` — the calls that keep the promise.

## Main results

* `kept_iff_apart` — when the history is kept throughout a run.
-/

namespace DoxAsdlc.Rlm

open Interaction

/-! ## Operations -/

/-- The index, if there is one, and the files with the results. -/
structure Disk where
  index : Option Json := none
  files : String → Option Json := fun _ => none

/-- `_index` and `_loaded` of an instance. -/
structure Auditor where
  index : List AuditEntry := []
  loaded : Bool := false

/-- Texts of instants, and what the file system takes for a name. -/
structure AuditEnv where
  iso : IsoFormat
  /-- `strftime('%Y%m%d_%H%M%S')`. -/
  stamp : Time → String
  /-- A file of this name can be created. -/
  creatable : String → Bool

variable (env : AuditEnv)

/-- The entries of an index. -/
def readEntries (data : Json) : Except Error (List AuditEntry) := do
  (← data.elements).mapM (AuditEntry.fromDict env.iso)

/-- The file of an index. -/
def indexDict (entries : List AuditEntry) : Json := .arr (entries.map (AuditEntry.toDict env.iso))

@[simp] theorem readEntries_indexDict (entries : List AuditEntry) :
    readEntries env (indexDict env entries) = .ok entries :=
  Json.mapM_map (AuditEntry.fromDict_toDict env.iso) entries

/-- The entries on disk: an index with a field missing counts as empty. -/
def storedEntries (disk : Disk) : Except Error (List AuditEntry) :=
  match disk.index with
  | none => .ok []
  | some data =>
    match readEntries env data with
    | .ok entries => .ok entries
    | .error e => if e.cls = .keyError then .ok [] else .error e

/-- `_load_index`. -/
def loadIndex (disk : Disk) (a : Auditor) : Except Error Auditor :=
  if a.loaded then .ok a
  else (storedEntries env disk).map fun entries => { index := entries, loaded := true }

/-- `task_id.replace("/", "_").replace("\\", "_")`. -/
def safeTaskId (taskId : String) : String :=
  String.ofList (taskId.toList.map fun c => if c = '/' ∨ c = '\\' then '_' else c)

/-- The name of the file of a result. -/
def fileName (now : Time) (taskId : String) : String :=
  env.stamp now ++ "_" ++ safeTaskId taskId ++ ".json"

/-- The entry of a result. -/
def auditEntry (now : Time) (result : AuditedResult) : AuditEntry where
  taskId := result.taskId
  timestamp := now
  query := result.trajectory.query
  success := result.success
  findingsCount := result.findings.length
  iterations := result.trajectory.steps.length
  subcallsUsed := result.usage.subcallCount
  wallTimeSeconds := result.usage.wallTimeSeconds
  filePath := fileName env now result.taskId

/-- `save_result`. -/
def saveResult (now : Time) (result : AuditedResult) (disk : Disk) (a : Auditor) :
    Disk × Auditor × Except Error String :=
  match loadIndex env disk a with
  | .error e => (disk, a, .error e)
  | .ok a =>
    let name := fileName env now result.taskId
    if env.creatable name then
      let index := a.index ++ [auditEntry env now result]
      ({ index := some (indexDict env index)
         files := Function.update disk.files name (some (result.toDict env.iso)) },
        { a with index := index }, .ok name)
    else (disk, a, .error ⟨.osError, name, []⟩)

/-- `load_result_from_file`. -/
def loadResultFromFile (filePath : String) (disk : Disk) : Except Error (Option AuditedResult) :=
  match disk.files filePath with
  | none => .ok none
  | some data =>
    match AuditedResult.fromDict env.iso data with
    | .ok result => .ok (some result)
    | .error e => if e.cls = .keyError then .ok none else .error e

/-- What `load_result` answers. -/
def loadResult (taskId : String) (disk : Disk) (a : Auditor) :
    Except Error (Option AuditedResult) := do
  let a ← loadIndex env disk a
  match a.index.reverse.find? (·.taskId = taskId) with
  | none => return none
  | some entry => loadResultFromFile env entry.filePath disk

/-- What `list_audits` answers. -/
def listAudits (limit : Option ℕ) (successOnly : Bool) (disk : Disk) (a : Auditor) :
    Except Error (List AuditEntry) := do
  let a ← loadIndex env disk a
  let entries := if successOnly then a.index.reverse.filter (·.success) else a.index.reverse
  match limit with
  | none | some 0 => return entries
  | some n => return entries.take n

/-- `delete_audit`. -/
def deleteAudit (taskId : String) (disk : Disk) (a : Auditor) :
    Disk × Auditor × Except Error Bool :=
  match loadIndex env disk a with
  | .error e => (disk, a, .error e)
  | .ok a =>
    match a.index.find? (·.taskId = taskId) with
    | none => (disk, a, .ok false)
    | some entry =>
      let index := a.index.eraseP (·.taskId = taskId)
      ({ index := some (indexDict env index)
         files := Function.update disk.files entry.filePath none },
        { a with index := index }, .ok true)

/-! ## Instances on one directory -/

/-- A result that has been saved, and when. -/
structure Saved where
  now : Time
  result : AuditedResult

/-- The name of its file. -/
def Saved.name (s : Saved) : String := fileName env s.now s.result.taskId

/-- Its entry. -/
def Saved.entry (s : Saved) : AuditEntry := auditEntry env s.now s.result

/-- The directory, the instances, and the results that have been saved and not deleted. -/
structure World (ι : Type) where
  disk : Disk := {}
  auditors : ι → Auditor := fun _ => {}
  saved : List Saved := []

/-- A new instance is made in the place of an old one, or an instance is called.  Every call that
only reads may be the first one that loads the index. -/
inductive Action (ι : Type) where
  | start (i : ι)
  | look (i : ι)
  | save (i : ι) (now : Time) (result : AuditedResult)
  | delete (i : ι) (taskId : String)

variable {ι : Type}

/-- An instance after a call that reads. -/
def lookedAt (disk : Disk) (a : Auditor) : Auditor :=
  match loadIndex env disk a with
  | .ok a => a
  | .error _ => a

/-- What a call or a new instance does.  The first result of a task that has not been deleted is the
one that a deletion deletes. -/
def World.step [DecidableEq ι] (w : World ι) : Action ι → World ι
  | .start i => { w with auditors := Function.update w.auditors i {} }
  | .look i => { w with
      auditors := Function.update w.auditors i (lookedAt env w.disk (w.auditors i)) }
  | .save i now result =>
    let (disk, a, path) := saveResult env now result w.disk (w.auditors i)
    { disk := disk
      auditors := Function.update w.auditors i a
      saved := if path.isOk then w.saved ++ [⟨now, result⟩] else w.saved }
  | .delete i taskId =>
    let (disk, a, _) := deleteAudit env taskId w.disk (w.auditors i)
    { disk := disk
      auditors := Function.update w.auditors i a
      saved := w.saved.eraseP (·.result.taskId = taskId) }

/-! ## The promise -/

/-- What is promised of the history. -/
structure Kept (w : World ι) : Prop where
  /-- Every instance lists what has been saved and not deleted, the latest first. -/
  listed : ∀ i, listAudits env none false w.disk (w.auditors i)
    = .ok (w.saved.map (Saved.entry env)).reverse
  /-- The file of each holds the result that was saved. -/
  loadable : ∀ s ∈ w.saved, loadResultFromFile env (s.name env) w.disk = .ok (some s.result)
  /-- Every instance loads the latest result of a task. -/
  latest : ∀ i taskId, loadResult env taskId w.disk (w.auditors i)
    = .ok ((w.saved.reverse.find? (·.result.taskId = taskId)).map Saved.result)

/-- No other instance has loaded the index. -/
def Alone (w : World ι) (i : ι) : Prop := ∀ j, j ≠ i → (w.auditors j).loaded = false

/-- The calls that keep the promise: an instance that changes something is alone, a file of the same
name holds the same result, and a file that is deleted is not that of another result. -/
def Action.Apart (w : World ι) : Action ι → Prop
  | .start _ | .look _ => True
  | .save i now result => env.creatable (fileName env now result.taskId) = true →
      Alone w i ∧ ∀ s ∈ w.saved, s.name env = fileName env now result.taskId → s.result = result
  | .delete i taskId => ∀ s, w.saved.find? (·.result.taskId = taskId) = some s →
      Alone w i ∧ ∀ s' ∈ w.saved.eraseP (·.result.taskId = taskId), s'.name env ≠ s.name env

/-! ## When the promise is kept -/

section

variable {env} {w : World ι}

/-- An instance has, or would load, the entries of what has been saved and not deleted. -/
def Current (env : AuditEnv) (w : World ι) (i : ι) : Prop :=
  loadIndex env w.disk (w.auditors i) = .ok ⟨w.saved.map (Saved.entry env), true⟩

theorem loadIndex_of_loaded {disk : Disk} {a : Auditor} (ha : a.loaded = true) :
    loadIndex env disk a = .ok a := by
  simp [loadIndex, ha]

theorem loadIndex_of_unloaded {disk : Disk} {a : Auditor} (ha : a.loaded = false) :
    loadIndex env disk a
      = (storedEntries env disk).map fun entries => { index := entries, loaded := true } := by
  simp [loadIndex, ha]

/-- An index that has been loaded. -/
theorem loaded_of_loadIndex {disk : Disk} {a a' : Auditor} (h : loadIndex env disk a = .ok a') :
    a'.loaded = true := by
  cases ha : a.loaded with
  | true =>
    rw [loadIndex_of_loaded ha] at h
    cases h
    exact ha
  | false =>
    rw [loadIndex_of_unloaded ha] at h
    cases hentries : storedEntries env disk with
    | error e =>
      rw [hentries] at h
      cases h
    | ok entries =>
      rw [hentries] at h
      cases h
      rfl

theorem listAudits_eq (disk : Disk) (a : Auditor) :
    listAudits env none false disk a = (loadIndex env disk a).map fun a => a.index.reverse := by
  cases h : loadIndex env disk a <;> simp [listAudits, h, Bind.bind, Except.bind, pure,
    Except.pure, Except.map]

/-- An instance lists what it should when its entries are current. -/
theorem listed_iff {i : ι} : listAudits env none false w.disk (w.auditors i)
    = .ok (w.saved.map (Saved.entry env)).reverse ↔ Current env w i := by
  rw [listAudits_eq, Current]
  cases h : loadIndex env w.disk (w.auditors i) with
  | error e => simp [Except.map]
  | ok a =>
    have hloaded := loaded_of_loadIndex h
    cases a with
    | mk index loaded =>
      cases hloaded
      simp [Except.map]

/-- The latest result of a task is loaded from its file. -/
theorem latest_of_current {i : ι} (hcurrent : Current env w i)
    (hloadable : ∀ s ∈ w.saved, loadResultFromFile env (s.name env) w.disk = .ok (some s.result))
    (taskId : String) : loadResult env taskId w.disk (w.auditors i)
      = .ok ((w.saved.reverse.find? (·.result.taskId = taskId)).map Saved.result) := by
  have hfind : (w.saved.map (Saved.entry env)).reverse.find? (·.taskId = taskId)
      = (w.saved.reverse.find? (·.result.taskId = taskId)).map (Saved.entry env) := by
    rw [← List.map_reverse, List.find?_map]
    rfl
  rw [loadResult, hcurrent]
  simp only [Bind.bind, Except.bind, hfind]
  cases hs : w.saved.reverse.find? (·.result.taskId = taskId) with
  | none => rfl
  | some s =>
    have hmem : s ∈ w.saved := List.mem_reverse.mp (List.mem_of_find?_eq_some hs)
    exact hloadable s hmem

/-- The promise, by what instances load and what files hold. -/
theorem kept_iff : Kept env w ↔ (∀ i, Current env w i) ∧
    ∀ s ∈ w.saved, loadResultFromFile env (s.name env) w.disk = .ok (some s.result) := by
  constructor
  · intro h
    exact ⟨fun i => listed_iff.mp (h.listed i), h.loadable⟩
  · rintro ⟨hcurrent, hloadable⟩
    exact ⟨fun i => listed_iff.mpr (hcurrent i), hloadable,
      fun i => latest_of_current (hcurrent i) hloadable⟩

/-- A loaded instance is current when it has the entries. -/
theorem current_of_loaded {i : ι} (hloaded : (w.auditors i).loaded = true) :
    Current env w i ↔ (w.auditors i).index = w.saved.map (Saved.entry env) := by
  rw [Current, loadIndex_of_loaded hloaded]
  cases ha : w.auditors i with
  | mk index loaded =>
    rw [ha] at hloaded
    cases hloaded
    simp

/-- The index on disk lists what has been saved and not deleted. -/
def Stored (env : AuditEnv) (w : World ι) : Prop :=
  storedEntries env w.disk = .ok (w.saved.map (Saved.entry env))

theorem current_of_unloaded {i : ι} (hloaded : (w.auditors i).loaded = false)
    (h : Stored env w) : Current env w i := by
  rw [Current, loadIndex_of_unloaded hloaded, h]
  rfl

/-- The world after instance `i` has written an index and the files. -/
def World.rewrite [DecidableEq ι] (env : AuditEnv) (w : World ι) (i : ι) (saved : List Saved)
    (files : String → Option Json) : World ι where
  disk := { index := some (indexDict env (saved.map (Saved.entry env))), files := files }
  auditors := Function.update w.auditors i ⟨saved.map (Saved.entry env), true⟩
  saved := saved

variable [DecidableEq ι] {i : ι} {saved : List Saved} {files : String → Option Json}

theorem stored_rewrite : Stored env (w.rewrite env i saved files) := by
  simp [Stored, World.rewrite, storedEntries]

/-- After a change every instance is current when the one that made it was alone. -/
theorem current_rewrite (hcurrent : ∀ j, Current env w j) (hlength : saved.length ≠ w.saved.length) :
    (∀ j, Current env (w.rewrite env i saved files) j) ↔ Alone w i := by
  constructor
  · intro h j hj
    by_contra hloaded
    have hloaded : (w.auditors j).loaded = true := by simpa using hloaded
    have hsame : (w.rewrite env i saved files).auditors j = w.auditors j := by
      simp [World.rewrite, hj]
    have hbefore := (current_of_loaded hloaded).mp (hcurrent j)
    have hafter := (current_of_loaded (hsame ▸ hloaded)).mp (h j)
    rw [hsame, hbefore] at hafter
    apply hlength
    simpa [World.rewrite] using (congrArg List.length hafter).symm
  · intro h j
    by_cases hj : j = i
    · subst hj
      exact (current_of_loaded (by simp [World.rewrite])).mpr (by simp [World.rewrite])
    · apply current_of_unloaded _ stored_rewrite
      simpa [World.rewrite, hj] using h j hj

/-- What a save that is not refused does where the instance is current. -/
theorem step_save (hcurrent : Current env w i) {now : Time} {result : AuditedResult}
    (hcreatable : env.creatable (fileName env now result.taskId) = true) :
    w.step env (.save i now result) = w.rewrite env i (w.saved ++ [⟨now, result⟩])
      (Function.update w.disk.files (fileName env now result.taskId)
        (some (result.toDict env.iso))) := by
  have hload : loadIndex env w.disk (w.auditors i) = .ok ⟨w.saved.map (Saved.entry env), true⟩ :=
    hcurrent
  simp [World.step, saveResult, hload, hcreatable, World.rewrite, Saved.entry, Except.isOk,
    Except.toBool]

/-- What a refused save, or a deletion of an unknown task, does: the index is loaded. -/
def World.loadAt (env : AuditEnv) (w : World ι) (i : ι) : World ι :=
  { w with auditors := Function.update w.auditors i ⟨w.saved.map (Saved.entry env), true⟩ }

theorem step_save_refused (hcurrent : Current env w i) {now : Time} {result : AuditedResult}
    (hcreatable : env.creatable (fileName env now result.taskId) = false) :
    w.step env (.save i now result) = w.loadAt env i := by
  have hload : loadIndex env w.disk (w.auditors i) = .ok ⟨w.saved.map (Saved.entry env), true⟩ :=
    hcurrent
  simp [World.step, saveResult, hload, hcreatable, World.loadAt, Except.isOk, Except.toBool]

omit [DecidableEq ι] in
theorem find?_entries (taskId : String) : (w.saved.map (Saved.entry env)).find? (·.taskId = taskId)
    = (w.saved.find? (·.result.taskId = taskId)).map (Saved.entry env) := by
  rw [List.find?_map]
  rfl

omit [DecidableEq ι] in
theorem eraseP_entries (taskId : String) :
    (w.saved.map (Saved.entry env)).eraseP (·.taskId = taskId)
      = (w.saved.eraseP (·.result.taskId = taskId)).map (Saved.entry env) := by
  rw [List.eraseP_map]
  rfl

/-- What a deletion does where the instance is current. -/
theorem step_delete (hcurrent : Current env w i) {taskId : String} {s : Saved}
    (hs : w.saved.find? (·.result.taskId = taskId) = some s) :
    w.step env (.delete i taskId) = w.rewrite env i (w.saved.eraseP (·.result.taskId = taskId))
      (Function.update w.disk.files (s.name env) none) := by
  have hload : loadIndex env w.disk (w.auditors i) = .ok ⟨w.saved.map (Saved.entry env), true⟩ :=
    hcurrent
  have hfind : (w.saved.map (Saved.entry env)).find? (·.taskId = taskId) = some (s.entry env) :=
    (find?_entries taskId).trans (congrArg (Option.map (Saved.entry env)) hs)
  simp only [World.step, deleteAudit, hload, hfind, eraseP_entries, World.rewrite]
  rfl

theorem step_delete_unknown (hcurrent : Current env w i) {taskId : String}
    (hs : w.saved.find? (·.result.taskId = taskId) = none) :
    w.step env (.delete i taskId) = w.loadAt env i := by
  have hload : loadIndex env w.disk (w.auditors i) = .ok ⟨w.saved.map (Saved.entry env), true⟩ :=
    hcurrent
  have hfind : (w.saved.map (Saved.entry env)).find? (·.taskId = taskId) = none :=
    (find?_entries taskId).trans (congrArg (Option.map (Saved.entry env)) hs)
  have hnone : ∀ s ∈ w.saved, ¬ (s.result.taskId = taskId) := by
    simpa using hs
  have hsame : w.saved.eraseP (·.result.taskId = taskId) = w.saved :=
    List.eraseP_of_forall_not (by simpa using hnone)
  simp only [World.step, deleteAudit, hload, hfind, hsame, World.loadAt]

/-- Loading the index changes nothing. -/
theorem loadAt_keeps (hstored : Stored env w) (h : Kept env w) :
    Stored env (w.loadAt env i) ∧ Kept env (w.loadAt env i) := by
  refine ⟨hstored, kept_iff.mpr ⟨?_, h.loadable⟩⟩
  intro j
  by_cases hj : j = i
  · subst hj
    exact (current_of_loaded (by simp [World.loadAt])).mpr (by simp [World.loadAt])
  · have hbefore : Current env w j := listed_iff.mp (h.listed j)
    simpa [Current, World.loadAt, hj] using hbefore

/-- A file of a result that is written back. -/
theorem load_written {disk : Disk} {name : String} (result : AuditedResult)
    (h : disk.files name = some (result.toDict env.iso)) :
    loadResultFromFile env name disk = .ok (some result) := by
  simp [loadResultFromFile, h, AuditedResult.fromDict_toDict]

/-- What is loaded depends on the file alone. -/
theorem load_eq_of_files (disk : Disk) {disk' : Disk} {name : String}
    (h : disk'.files name = disk.files name) :
    loadResultFromFile env name disk' = loadResultFromFile env name disk := by
  simp [loadResultFromFile, h]

/-- **When a save keeps the promise.** -/
theorem kept_save_iff (h : Kept env w) (now : Time) (result : AuditedResult)
    (hcreatable : env.creatable (fileName env now result.taskId) = true) :
    Kept env (w.step env (.save i now result)) ↔ Alone w i ∧
      ∀ s ∈ w.saved, s.name env = fileName env now result.taskId → s.result = result := by
  obtain ⟨hcurrent, hloadable⟩ := kept_iff.mp h
  rw [step_save (hcurrent i) hcreatable, kept_iff, current_rewrite hcurrent (by simp)]
  apply and_congr_right
  intro _
  simp only [World.rewrite]
  constructor
  · intro hloads s hs hname
    have hnew := hloads s (List.mem_append_left _ hs)
    rw [load_written result (by simp [hname])] at hnew
    cases hnew
    rfl
  · intro hfits s hs
    rcases List.mem_append.mp hs with hold | hnew
    · by_cases hname : s.name env = fileName env now result.taskId
      · rw [hfits s hold hname]
        exact load_written result (by simp [hname])
      · rw [load_eq_of_files w.disk (by simp [hname])]
        exact hloadable s hold
    · obtain rfl := List.mem_singleton.mp hnew
      exact load_written result (by simp [Saved.name])

/-- **When a deletion keeps the promise.** -/
theorem kept_delete_iff (h : Kept env w) {taskId : String} {s : Saved}
    (hs : w.saved.find? (·.result.taskId = taskId) = some s) :
    Kept env (w.step env (.delete i taskId)) ↔ Alone w i ∧
      ∀ s' ∈ w.saved.eraseP (·.result.taskId = taskId), s'.name env ≠ s.name env := by
  obtain ⟨hcurrent, hloadable⟩ := kept_iff.mp h
  have hlength : (w.saved.eraseP (·.result.taskId = taskId)).length ≠ w.saved.length := by
    have hmem : s ∈ w.saved := List.mem_of_find?_eq_some hs
    have hpos : 0 < w.saved.length := List.length_pos_of_mem hmem
    have herase := List.length_eraseP_of_mem (p := (·.result.taskId = taskId)) hmem
      (by simpa using List.find?_some hs)
    omega
  rw [step_delete (hcurrent i) hs, kept_iff, current_rewrite hcurrent hlength]
  apply and_congr_right
  intro _
  simp only [World.rewrite]
  constructor
  · intro hloads s' hs' hname
    have hgone := hloads s' hs'
    simp [loadResultFromFile, hname] at hgone
  · intro hapart s' hs'
    rw [load_eq_of_files w.disk (by simp [hapart s' hs'])]
    exact hloadable s' (List.mem_of_mem_eraseP hs')

/-- A new instance loads the index when it is asked to. -/
theorem start_keeps (hstored : Stored env w) (h : Kept env w) :
    Stored env (w.step env (.start i)) ∧ Kept env (w.step env (.start i)) := by
  refine ⟨hstored, kept_iff.mpr ⟨?_, h.loadable⟩⟩
  intro j
  by_cases hj : j = i
  · subst hj
    exact current_of_unloaded (by simp [World.step]) hstored
  · have hbefore : Current env w j := listed_iff.mp (h.listed j)
    simpa [Current, World.step, hj] using hbefore

theorem step_look (hcurrent : Current env w i) : w.step env (.look i) = w.loadAt env i := by
  have hload : loadIndex env w.disk (w.auditors i) = .ok ⟨w.saved.map (Saved.entry env), true⟩ :=
    hcurrent
  simp only [World.step, lookedAt, hload, World.loadAt]

/-- **One step**: the promise is kept exactly by the calls that are apart. -/
theorem kept_step_iff (hstored : Stored env w) (h : Kept env w) (a : Action ι) :
    (Kept env (w.step env a) ↔ a.Apart env w) ∧
      (a.Apart env w → Stored env (w.step env a)) := by
  obtain ⟨hcurrent, -⟩ := kept_iff.mp h
  cases a with
  | start i =>
    obtain ⟨hstored', hkept'⟩ := start_keeps (i := i) hstored h
    exact ⟨iff_of_true hkept' trivial, fun _ => hstored'⟩
  | look i =>
    obtain ⟨hstored', hkept'⟩ := loadAt_keeps (i := i) hstored h
    rw [step_look (hcurrent i)]
    exact ⟨iff_of_true hkept' trivial, fun _ => hstored'⟩
  | save i now result =>
    cases hcreatable : env.creatable (fileName env now result.taskId) with
    | false =>
      obtain ⟨hstored', hkept'⟩ := loadAt_keeps (i := i) hstored h
      rw [step_save_refused (hcurrent i) hcreatable]
      exact ⟨iff_of_true hkept' (by simp [Action.Apart, hcreatable]), fun _ => hstored'⟩
    | true =>
      constructor
      · rw [kept_save_iff h now result hcreatable]
        simp [Action.Apart, hcreatable]
      · intro _
        rw [step_save (hcurrent i) hcreatable]
        exact stored_rewrite
  | delete i taskId =>
    cases hs : w.saved.find? (·.result.taskId = taskId) with
    | none =>
      obtain ⟨hstored', hkept'⟩ := loadAt_keeps (i := i) hstored h
      rw [step_delete_unknown (hcurrent i) hs]
      refine ⟨iff_of_true hkept' ?_, fun _ => hstored'⟩
      intro s hfound
      rw [hs] at hfound
      cases hfound
    | some s =>
      constructor
      · rw [kept_delete_iff h hs, Action.Apart, hs]
        simp
      · intro _
        rw [step_delete (hcurrent i) hs]
        exact stored_rewrite

end

/-- The empty directory satisfies the promise. -/
theorem kept_empty : Kept env ({} : World ι) := by
  refine kept_iff.mpr ⟨fun i => rfl, ?_⟩
  intro s hs
  cases hs

/-- **When the audit history is kept.**  Throughout a run of any number of instances, from an empty
directory on, every result that has been saved and not deleted is listed and can be loaded exactly
if every call of the run is apart. -/
theorem kept_iff_apart [DecidableEq ι] (env : AuditEnv) (actions : List (Action ι)) :
    Along (World.step env) (Kept env) (fun _ _ _ => True) ({} : World ι) actions
      ↔ Each (World.step env) (fun w a => a.Apart env w) ({} : World ι) actions := by
  apply along_iff_each (I := Stored env)
  · intro w a hstored h hapart
    exact (kept_step_iff hstored h a).2 hapart
  · intro w a hstored h
    rw [true_and]
    exact (kept_step_iff hstored h a).1
  · rfl
  · exact kept_empty env

/-! ## Two instances -/

/-- Instants in unary notation, but for midnight of the first of January 2026. -/
def exampleIso : IsoFormat where
  isoformat t :=
    if t = 1767225600000000 then "2026-01-01T00:00:00+00:00"
    else String.ofList ((if 0 ≤ t then '+' else '-') :: List.replicate t.natAbs 'i')
  fromisoformat s :=
    if s = "2026-01-01T00:00:00+00:00" then some 1767225600000000
    else match s.toList with
      | '+' :: marks => some marks.length
      | '-' :: marks => some (-marks.length)
      | _ => none
  fromisoformat_isoformat := by
    intro t
    have hne (c : Char) (hc : c ≠ '2') (marks : List Char) :
        String.ofList (c :: marks) ≠ "2026-01-01T00:00:00+00:00" := by
      intro h
      exact hc (by simpa using congrArg (fun s => s.toList.head?) h)
    by_cases ht : t = 1767225600000000
    · simp only [ht, if_true]
    · by_cases hpos : 0 ≤ t
      · simp only [ht, hpos, if_false, if_true]
        rw [if_neg (hne _ (by decide) _), String.toList_ofList]
        simpa using Int.natAbs_of_nonneg hpos
      · simp only [ht, hpos, if_false]
        rw [if_neg (hne _ (by decide) _), String.toList_ofList]
        have habs : (t.natAbs : ℤ) = -t := Int.ofNat_natAbs_of_nonpos (not_le.mp hpos).le
        simp [habs]
  isoformat_ne_empty := by
    intro t
    by_cases ht : t = 1767225600000000
    · simp [ht]
    · intro h
      simpa [ht] using congrArg String.toList h

def exampleAudit : AuditEnv where
  iso := exampleIso
  stamp := fun _ => "20260101_000000"
  creatable := fun _ => true

/-- A result without findings. -/
def emptyResult (taskId : String) : AuditedResult where
  taskId := taskId
  success := true
  findings := []
  synthesis := ""
  trajectory := {
    steps := []
    startTime := 1767225600000000
    endTime := some 1767225600000000
    totalSubcalls := 0
    cachedHits := 0
    query := "where is the parser" }
  usage := {
    subcallCount := 0
    cachedSubcalls := 0
    totalTokens := 0
    wallTimeSeconds := 0
    modelCalls := 0 }
  citations := []

/-- Two instances save in turn. -/
def inTurn : List (Action (Fin 3)) :=
  [.save 0 1767225600000000 (emptyResult "task-a"), .save 1 1767225600000000 (emptyResult "task-b"),
    .save 0 1767225600000000 (emptyResult "task-c")]

/-- **A result is lost**: an instance that has loaded the index before another one saved writes its
own index over the other's. -/
theorem not_kept_inTurn :
    ¬ Kept exampleAudit (run (World.step exampleAudit) ({} : World (Fin 3)) inTurn) := by
  intro h
  have hlatest := h.latest 2 "task-b"
  have hlost : (loadResult exampleAudit "task-b"
      (run (World.step exampleAudit) ({} : World (Fin 3)) inTurn).disk
      ((run (World.step exampleAudit) ({} : World (Fin 3)) inTurn).auditors 2)).map Option.isSome
        = .ok false := by decide
  rw [hlatest] at hlost
  revert hlost
  decide

end DoxAsdlc.Rlm
