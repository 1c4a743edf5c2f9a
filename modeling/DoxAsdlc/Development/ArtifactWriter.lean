import DoxAsdlc.Development.Agents
import DoxAsdlc.Interaction.Straight
import DoxAsdlc.Text.PosixPath

/-!
# The writer of artifacts, and the files of an implementation

An artifact is written below the directory of its session, under the name that its agent gives
it.  The coding agent makes the name of a file of the task and of the path of the file, with an
underscore for each slash, so that two paths may come to one name, and a path to the name of the
description of the implementation.

## Main definitions

* `Disk`, `Disk.serve` — the files.
* `writeArtifact`, `onDisk` — the writer.
* `Separate` — each file has an artifact of its own.
* `names` — the names that the paths of the files come to.
-/

namespace DoxAsdlc.Development

open Interaction Interaction.Program
open Rlm (Json)

/-! ## The writer -/

/-- The files of the workspace. -/
abbrev Disk := PosixPath → Option Content

/-- The commands that the writer gives to the file system. -/
inductive DiskCmd where
  | mkdir (path : PosixPath)
  | writeText (path : PosixPath) (content : Content)

/-- The commands and their answers: what cannot be made or written is an exception. -/
abbrev diskInterface : Interface := ⟨DiskCmd, fun _ => Unit⟩

/-- What each command does to the files. -/
def Disk.serve : Server diskInterface Disk
  | .mkdir _, disk => (disk, ())
  | .writeText path content, disk => (Function.update disk path (some content), ())

/-- A coroutine of the writer. -/
abbrev DiskAsync (α : Type) := Program diskInterface Error α

/-- The name of a type of artifact. -/
def ArtifactType.typeName : ArtifactType → String
  | .report => "report"
  | .text => "text"

/-- The default file extension of a type. -/
def ArtifactType.fileExtension : ArtifactType → String
  | .report => ".json"
  | .text => ".txt"

/-- What `write_text` writes of a content: an object is dumped first, and what is not a text
is refused. -/
def Content.checked : Content → Except Error Content
  | .value (.str s) => .ok (.value (.str s))
  | .value (.obj fields) => .ok (.value (.obj fields))
  | .value other => .error (Agents.typeError ("data must be str, not " ++ other.typeName))
  | .json artifact => .ok (.json artifact)

section

variable (workspacePath timestamp : String)

/-- `get_artifact_directory`. -/
def artifactDirectory (sessionId : String) : PosixPath :=
  ((PosixPath.parse workspacePath).join "artifacts").join sessionId

theorem normal_artifactDirectory (sessionId : String) :
    (artifactDirectory workspacePath sessionId).Normal :=
  ((PosixPath.normal_parse workspacePath).join "artifacts").join sessionId

/-- `_ensure_directory`. -/
def ensureDirectory (sessionId : String) : DiskAsync PosixPath := do
  command (I := diskInterface) (.mkdir (artifactDirectory workspacePath sessionId))
  pure (artifactDirectory workspacePath sessionId)

/-- `_generate_filename`. -/
def generateFilename (taskId : String) (artifactType : ArtifactType) (customFilename : String) :
    String :=
  if customFilename ≠ "" then customFilename
  else taskId ++ "_" ++ artifactType.typeName ++ "_" ++ timestamp ++ artifactType.fileExtension

/-- `write_artifact`. -/
def writeArtifact (sessionId taskId : String) (content : Content) (artifactType : ArtifactType)
    (filename : String) : DiskAsync String := do
  let artifactDir ← ensureDirectory workspacePath sessionId
  let filePath := artifactDir.join (generateFilename timestamp taskId artifactType filename)
  let content ← answer content.checked
  command (I := diskInterface) (.writeText filePath content)
  pure filePath.str

/-- The agents with the writer: every other command is passed on. -/
def onDisk : (c : Cmd) → Program (interface.sum diskInterface) Error (Reply c)
  | .writeArtifact sessionId taskId content artifactType filename =>
    (writeArtifact workspacePath timestamp sessionId taskId content artifactType filename).inr
  | c => (send c).inl

end

/-! ## The files of an implementation -/

namespace Coding

/-- The name that a path comes to. -/
def flatten (path : String) : String := path.map fun c => if c = '/' then '_' else c

/-- The name of the artifact of a file, without the task: the path has to be a text, and the
content a text or an object. -/
def fileName (file : CodeFile) : Option String :=
  match file.path, file.content with
  | .str path, .str _ => some (flatten path)
  | .str path, .obj _ => some (flatten path)
  | _, _ => none

/-- The names of the artifacts of some files, if they can all be written. -/
def names (files : List CodeFile) : Option (List String) := files.mapM fileName

/-- Where an artifact of a task is. -/
def artifactPath (dir : PosixPath) (taskId name : String) : PosixPath :=
  dir.join (taskId ++ "_" ++ name)

/-- **Each file has an artifact of its own**: the description and the files are at paths that
are all different and lead below the directory, and each path has what was to be written
there. -/
structure Separate (dir : PosixPath) (implementation : Implementation) (paths : List String)
    (disk : Disk) : Prop where
  distinct : paths.Nodup
  inside : ∀ path ∈ paths, (PosixPath.parse path).Inside dir
  contents : List.Forall₂ (fun content path => disk (PosixPath.parse path) = some content)
    (.json (.implementation implementation) :: implementation.files.map fun file =>
      .value file.content) paths

/-! ## Where artifacts are -/

theorem not_mem_flatten (path : String) : '/' ∉ (flatten path).toList := by
  rw [flatten, String.toList_map, List.mem_map]
  intro ⟨c, _, hc⟩
  split at hc
  · exact absurd hc (by decide)
  · next hne => exact hne hc

section

variable (dir : PosixPath) (taskId : String)

theorem normal_artifactPath {dir : PosixPath} (hdir : dir.Normal) (name : String) :
    (artifactPath dir taskId name).Normal := hdir.join _

/-- The path of an artifact tells its name. -/
theorem artifactPath_inj {n m : String} (hn : '/' ∉ n.toList) (hm : '/' ∉ m.toList) :
    artifactPath dir taskId n = artifactPath dir taskId m ↔ n = m := by
  obtain ⟨root, front, last, h⟩ := dir.exists_join_underscore taskId
  rw [artifactPath, artifactPath, h n hn, h m hm]
  simp [String.append_right_inj]

/-- All artifacts of a task are below the directory, or none is. -/
theorem inside_artifactPath {n m : String} (hn : '/' ∉ n.toList) (hm : '/' ∉ m.toList) :
    (artifactPath dir taskId n).Inside dir ↔ (artifactPath dir taskId m).Inside dir := by
  obtain ⟨root, front, last, h⟩ := dir.exists_join_underscore taskId
  have hlast : ∀ name : String, last ++ "_" ++ name ≠ ".." := fun name =>
    PosixPath.underscore_ne last name (by decide)
  rw [artifactPath, artifactPath, h n hn, h m hm, PosixPath.inside_concat (hlast n),
    PosixPath.inside_concat (hlast m)]

/-- They are when the task has no slash in its id. -/
theorem inside_of_no_slash {taskId : String} (h : '/' ∉ taskId.toList) {name : String}
    (hname : '/' ∉ name.toList) : (artifactPath dir taskId name).Inside dir := by
  have htext : (taskId ++ "_" ++ name).toList = taskId.toList ++ '_' :: name.toList := by simp
  have hfree : '/' ∉ taskId.toList ++ '_' :: name.toList := by simp [h, hname]
  have hroot : PosixPath.rootOf (taskId.toList ++ '_' :: name.toList) = "" := by
    cases hcs : taskId.toList ++ '_' :: name.toList with
    | nil => rfl
    | cons c cs =>
      have hc : c ≠ '/' := fun heq => hfree (by simp [hcs, heq])
      simp [PosixPath.rootOf, hc]
  have hnames : PosixPath.namesOf (taskId.toList ++ '_' :: name.toList)
      = [taskId ++ "_" ++ name] := by
    have hkeep : taskId ++ "_" ++ name ≠ "" ∧ taskId ++ "_" ++ name ≠ "." :=
      ⟨PosixPath.underscore_ne _ _ (by decide), PosixPath.underscore_ne _ _ (by decide)⟩
    rw [PosixPath.namesOf, List.splitOn_eq_singleton hfree, List.map_singleton, ← htext,
      String.ofList_toList, List.filter_cons_of_pos (by simpa using hkeep), List.filter_nil]
  have hlast : taskId ++ "_" ++ name ≠ ".." := PosixPath.underscore_ne _ _ (by decide)
  have hpath : artifactPath dir taskId name = ⟨dir.root, dir.parts ++ [taskId ++ "_" ++ name]⟩ := by
    rw [artifactPath, PosixPath.join, PosixPath.parse_eq, htext, hroot, hnames]
    simp
  rw [hpath, PosixPath.inside_concat hlast]
  exact ⟨rfl, [], by simp, by simp⟩

end

/-- The files once some of the implementation are written, in order. -/
def stored (dir : PosixPath) (taskId : String) : List (CodeFile × String) → Disk → Disk
  | [], disk => disk
  | (file, name) :: rest, disk =>
    stored dir taskId rest
      (Function.update disk (artifactPath dir taskId name) (some (.value file.content)))

/-! ## What is written -/

section

variable {σ : Type} (rest : Server interface σ) (workspacePath timestamp : String)

/-- Writing an artifact under a name. -/
theorem eval_onDisk_eq_ok {sessionId taskId filename path : String} {content : Content}
    {artifactType : ArtifactType} (hname : filename ≠ "") {w w' : σ × Disk} :
    eval (rest.sum Disk.serve) (onDisk workspacePath timestamp
      (.writeArtifact sessionId taskId content artifactType filename)) w = (.ok path, w') ↔
      ∃ written, content.checked = .ok written ∧
        path = ((artifactDirectory workspacePath sessionId).join filename).str ∧
        w' = (w.1, Function.update w.2 ((artifactDirectory workspacePath sessionId).join filename)
          (some written)) := by
  rw [onDisk, eval_inr, writeArtifact, generateFilename, if_pos hname]
  cases content.checked with
  | error e => simp [ensureDirectory]
  | ok written =>
    simp [ensureDirectory, Disk.serve, eq_comm]

variable (context : Context)

/-- What a file has to be for its artifact to be written. -/
theorem fileName_eq_some {file : CodeFile} {name : String} :
    fileName file = some name ↔
      (file.path.onText "replace" fun s => s.map fun c => if c = '/' then '_' else c) = .ok name ∧
        (Content.value file.content).checked = .ok (.value file.content) := by
  obtain ⟨path, content, language⟩ := file
  cases path <;> cases content <;> simp [fileName, Json.onText, Content.checked, flatten]

/-- The names of the files, one after the other. -/
theorem names_cons {file : CodeFile} {files : List CodeFile} {ns : List String} :
    names (file :: files) = some ns ↔
      ∃ name ns', fileName file = some name ∧ names files = some ns' ∧ ns = name :: ns' := by
  simp only [names, List.mapM_cons]
  cases fileName file with
  | none => simp
  | some name =>
    cases List.mapM fileName files with
    | none => simp
    | some ns' => simp [eq_comm]

/-- What is written of a value is that value. -/
theorem eq_of_checked {value : Json} {written : Content}
    (h : (Content.value value).checked = .ok written) : written = .value value := by
  cases value <;> cases h <;> rfl

/-- **The files of an implementation** are written under the names that their paths come to,
if each of them can be. -/
theorem eval_writeFiles {files : List CodeFile} {w w' : σ × Disk} {paths : List String} :
    eval (rest.sum Disk.serve)
      ((writeFiles context files).translate (onDisk workspacePath timestamp)) w = (.ok paths, w') ↔
      ∃ ns, names files = some ns ∧
        paths = ns.map (fun name => (artifactPath (artifactDirectory workspacePath context.sessionId)
          context.taskId name).str) ∧
        w' = (w.1, stored (artifactDirectory workspacePath context.sessionId) context.taskId
          (files.zip ns) w.2) := by
  induction files generalizing w w' paths with
  | nil => simp [writeFiles, names, stored, eq_comm]
  | cons file files ih =>
    simp only [writeFiles, translate_bind, translate_answer, eval_bind_eq_ok, eval_answer_eq_ok,
      ih]
    constructor
    · intro ⟨name, w₀, ⟨hpath, hw₀⟩, path, w₁, hwrite, paths', w₂, ⟨ns, hns, hpaths, hw₂⟩, hret⟩
      rw [send, translate_command,
        eval_onDisk_eq_ok rest workspacePath timestamp (PosixPath.underscore_ne _ _ (by decide))]
        at hwrite
      obtain ⟨written, hchecked, rfl, rfl⟩ := hwrite
      cases eq_of_checked hchecked
      cases hret
      refine ⟨name :: ns, ?_, by rw [hpaths]; rfl, by rw [hw₂, ← hw₀]; rfl⟩
      exact names_cons.mpr ⟨name, ns, fileName_eq_some.mpr ⟨hpath, hchecked⟩, hns, rfl⟩
    · intro ⟨ns, hns, hpaths, hw'⟩
      obtain ⟨name, ns', hname, hns', rfl⟩ := names_cons.mp hns
      obtain ⟨hpath, hchecked⟩ := fileName_eq_some.mp hname
      let path := artifactPath (artifactDirectory workspacePath context.sessionId)
        context.taskId name
      refine ⟨name, w, ⟨hpath, rfl⟩, path.str,
        (w.1, Function.update w.2 path (some (.value file.content))), ?_, _, _,
        ⟨ns', hns', rfl, rfl⟩, ?_⟩
      · rw [send, translate_command, eval_onDisk_eq_ok rest workspacePath timestamp
          (PosixPath.underscore_ne _ _ (by decide))]
        exact ⟨_, hchecked, rfl, rfl⟩
      · rw [hpaths, hw']
        rfl

/-- The artifact of the description comes first. -/
def description : String := "implementation.json"

/-- **The artifacts of an implementation.** -/
theorem eval_writeArtifacts {implementation : Implementation} {w w' : σ × Disk}
    {paths : List String} :
    eval (rest.sum Disk.serve) ((writeArtifacts context implementation).translate
      (onDisk workspacePath timestamp)) w = (.ok paths, w') ↔
      ∃ ns, names implementation.files = some ns ∧
        paths = (description :: ns).map (fun name => (artifactPath
          (artifactDirectory workspacePath context.sessionId) context.taskId name).str) ∧
        w' = (w.1, stored (artifactDirectory workspacePath context.sessionId) context.taskId
          (implementation.files.zip ns) (Function.update w.2
            (artifactPath (artifactDirectory workspacePath context.sessionId) context.taskId
              description) (some (.json (.implementation implementation))))) := by
  have hname : context.taskId ++ "_implementation.json"
      = context.taskId ++ "_" ++ description := by
    rw [String.append_assoc]
    rfl
  simp only [writeArtifacts, translate_bind, eval_bind_eq_ok, eval_writeFiles]
  constructor
  · intro ⟨path, w₁, hwrite, paths', w₂, ⟨ns, hns, hpaths, hw₂⟩, hret⟩
    rw [hname, send, translate_command, eval_onDisk_eq_ok rest workspacePath timestamp
      (PosixPath.underscore_ne _ _ (by decide))] at hwrite
    obtain ⟨written, hchecked, rfl, rfl⟩ := hwrite
    cases hchecked
    cases hret
    exact ⟨ns, hns, by rw [hpaths]; rfl, hw₂⟩
  · intro ⟨ns, hns, hpaths, hw'⟩
    let path := artifactPath (artifactDirectory workspacePath context.sessionId)
      context.taskId description
    refine ⟨path.str, (w.1, Function.update w.2 path (some (.json (.implementation
      implementation)))), ?_, _, _, ⟨ns, hns, rfl, rfl⟩, ?_⟩
    · rw [hname, send, translate_command, eval_onDisk_eq_ok rest workspacePath timestamp
        (PosixPath.underscore_ne _ _ (by decide))]
      exact ⟨_, rfl, rfl, rfl⟩
    · rw [hpaths, hw']
      rfl

/-- **Each file has an artifact of its own** after every run that returns. -/
def WritesSeparately (implementation : Implementation) (w : σ × Disk) : Prop :=
  ∀ (os : List (Outcome Error)) (paths : List String) (w' : σ × Disk),
    play (rest.sum Disk.serve) os ((writeArtifacts context implementation).translate
      (onDisk workspacePath timestamp)) w = (.ret paths, w') →
      Separate (artifactDirectory workspacePath context.sessionId) implementation paths w'.2

/-! ## When each file has an artifact of its own -/

/-- The names are those of the files, and have no slashes. -/
theorem length_names {files : List CodeFile} {ns : List String} (h : names files = some ns) :
    ns.length = files.length ∧ ∀ name ∈ ns, '/' ∉ name.toList := by
  induction files generalizing ns with
  | nil =>
    cases h
    simp
  | cons file files ih =>
    obtain ⟨name, ns', hname, hns', rfl⟩ := names_cons.mp h
    obtain ⟨hlength, hfree⟩ := ih hns'
    refine ⟨by simp [hlength], ?_⟩
    intro n hn
    rcases List.mem_cons.mp hn with rfl | hn
    · obtain ⟨hpath, -⟩ := fileName_eq_some.mp hname
      cases hp : file.path with
      | str path =>
        rw [hp] at hpath
        cases hpath
        exact not_mem_flatten path
      | _ =>
        rw [hp] at hpath
        cases hpath
    · exact hfree n hn

section

variable {dir : PosixPath} {taskId : String}

/-- Writing under other names leaves an artifact as it is. -/
theorem stored_of_not_mem {name : String} (hname : '/' ∉ name.toList)
    {files : List (CodeFile × String)} (hfree : ∀ x ∈ files, '/' ∉ x.2.toList)
    (h : name ∉ files.map Prod.snd) (disk : Disk) :
    stored dir taskId files disk (artifactPath dir taskId name)
      = disk (artifactPath dir taskId name) := by
  induction files generalizing disk with
  | nil => rfl
  | cons x files ih =>
    obtain ⟨file, other⟩ := x
    rw [List.map_cons, List.mem_cons, not_or] at h
    have hne : artifactPath dir taskId name ≠ artifactPath dir taskId other := fun heq =>
      h.1 ((artifactPath_inj dir taskId hname (hfree _ List.mem_cons_self)).mp heq)
    rw [stored, ih (fun x hx => hfree x (List.mem_cons_of_mem _ hx)) h.2,
      Function.update_of_ne hne]

/-- Under different names each file is stored. -/
theorem stored_contents {files : List (CodeFile × String)}
    (hfree : ∀ x ∈ files, '/' ∉ x.2.toList) (hnodup : (files.map Prod.snd).Nodup) (disk : Disk) :
    ∀ x ∈ files, stored dir taskId files disk (artifactPath dir taskId x.2)
      = some (.value x.1.content) := by
  induction files generalizing disk with
  | nil => simp
  | cons x files ih =>
    obtain ⟨hx, hrest⟩ := List.nodup_cons.mp hnodup
    have hfree' : ∀ y ∈ files, '/' ∉ y.2.toList := fun y hy =>
      hfree y (List.mem_cons_of_mem _ hy)
    intro y hy
    rcases List.mem_cons.mp hy with rfl | hy
    · rw [stored, stored_of_not_mem (hfree _ List.mem_cons_self) hfree' hx, Function.update_self]
    · exact ih hfree' hrest _ y hy

end

variable {implementation : Implementation}

/-- The artifacts that a run returned are separate when their names are, and none of them leads
out of the directory. -/
theorem separateNames_iff {dir : PosixPath} (hdir : dir.Normal) {ns : List String}
    (hns : names implementation.files = some ns) (disk : Disk) :
    Separate dir implementation
      ((description :: ns).map fun name => (artifactPath dir context.taskId name).str)
      (stored dir context.taskId (implementation.files.zip ns) (Function.update disk
        (artifactPath dir context.taskId description)
        (some (.json (.implementation implementation))))) ↔
      (artifactPath dir context.taskId description).Inside dir ∧ (description :: ns).Nodup := by
  obtain ⟨hlength, hfree⟩ := length_names hns
  have hslash : ∀ name ∈ description :: ns, '/' ∉ name.toList := by
    simp only [List.forall_mem_cons]
    exact ⟨by decide, hfree⟩
  have hparse : ∀ name, PosixPath.parse (artifactPath dir context.taskId name).str
      = artifactPath dir context.taskId name := fun name =>
    (normal_artifactPath context.taskId hdir name).parse_str
  have hinj : Set.InjOn (fun name => (artifactPath dir context.taskId name).str)
      {name | name ∈ description :: ns} := by
    intro n hn m hm heq
    refine (artifactPath_inj dir context.taskId (hslash n hn) (hslash m hm)).mp ?_
    rw [← hparse n, ← hparse m]
    exact congrArg PosixPath.parse heq
  constructor
  · intro h
    refine ⟨?_, List.Nodup.of_map _ h.distinct⟩
    rw [← hparse]
    exact h.inside _ (List.mem_cons_self)
  · rintro ⟨hinside, hnodup⟩
    have hnew := List.nodup_cons.mp hnodup
    have hzip : (implementation.files.zip ns).map Prod.snd = ns :=
      List.map_snd_zip (by omega)
    have hzipfree : ∀ x ∈ implementation.files.zip ns, '/' ∉ x.2.toList := fun x hx =>
      hfree _ (List.of_mem_zip hx).2
    refine ⟨List.Nodup.map_on (fun n hn m hm => hinj hn hm) hnodup, ?_, ?_⟩
    · intro path hpath
      obtain ⟨name, hname, rfl⟩ := List.mem_map.mp hpath
      rw [hparse]
      exact (inside_artifactPath dir context.taskId (hslash _ hname) (by decide)).mpr hinside
    · refine .cons ?_ ?_
      · rw [hparse, stored_of_not_mem (by decide) hzipfree (by rw [hzip]; exact hnew.1),
          Function.update_self]
      · rw [List.forall₂_map_left_iff, List.forall₂_map_right_iff, List.forall₂_iff_zip]
        refine ⟨hlength.symm, ?_⟩
        intro file name hmem
        rw [hparse]
        exact stored_contents hzipfree (by rw [hzip]; exact hnew.2) _ (file, name) hmem

/-- The writer catches nothing. -/
theorem straight_writeArtifacts (implementation : Implementation) :
    ((writeArtifacts context implementation).translate
      (onDisk workspacePath timestamp)).Straight := by
  have hfiles : ∀ files, (writeFiles context files).Straight := by
    intro files
    induction files with
    | nil => exact straight_ret _
    | cons file files ih =>
      exact straight_bind (straight_answer _) fun _ =>
        straight_bind (straight_command _) fun _ => straight_bind ih fun _ => straight_ret _
  refine straight_translate (straight_bind (straight_command _) fun _ =>
    straight_bind (hfiles _) fun _ => straight_ret _) fun c => ?_
  cases c with
  | writeArtifact sessionId taskId content artifactType filename =>
    exact straight_inr (straight_bind (straight_bind (straight_command _) fun _ => straight_ret _)
      fun _ => straight_bind (straight_answer _) fun _ => straight_bind (straight_command _)
        fun _ => straight_ret _)
  | _ => exact straight_inl (straight_command _)

/-- **Each file has an artifact of its own** exactly when the names that the paths come to are
all different and none is that of the description, and a task with a slash in its id does not
lead out of the directory; or when some file cannot be written, and no run returns. -/
theorem writesSeparately_iff (implementation : Implementation) (w : σ × Disk) :
    WritesSeparately rest workspacePath timestamp context implementation w ↔
      ∀ ns, names implementation.files = some ns → (description :: ns).Nodup ∧
        ('/' ∈ context.taskId.toList →
          (artifactPath (artifactDirectory workspacePath context.sessionId) context.taskId
            description).Inside (artifactDirectory workspacePath context.sessionId)) := by
  have hdir := normal_artifactDirectory workspacePath context.sessionId
  have hstraight := straight_writeArtifacts workspacePath timestamp context implementation
  constructor
  · intro h ns hns
    obtain ⟨os, hos⟩ := hstraight.play_eq_ret.mpr
      ((eval_writeArtifacts rest workspacePath timestamp context).mpr ⟨ns, hns, rfl, rfl⟩)
    have hboth := (separateNames_iff context hdir hns w.2).mp (h os _ _ hos)
    exact ⟨hboth.2, fun _ => hboth.1⟩
  · intro h os paths w' hos
    obtain ⟨ns, hns, rfl, rfl⟩ := (eval_writeArtifacts rest workspacePath timestamp context).mp
      (hstraight.play_eq_ret.mp ⟨os, hos⟩)
    obtain ⟨hnodup, hslash⟩ := h ns hns
    refine (separateNames_iff context hdir hns w.2).mpr ⟨?_, hnodup⟩
    by_cases htask : '/' ∈ context.taskId.toList
    · exact hslash htask
    · exact inside_of_no_slash _ htask (by decide)

end

/-- Nothing else is asked for while artifacts are written. -/
def idle : Server interface Unit
  | .generate _, w => (w, "")
  | .writeArtifact .., w => (w, "")
  | .shouldUseRlm .., w => (w, false)
  | .explore .., w => (w, ⟨"", none⟩)
  | .runTests .., w => (w, ⟨"", [], 0, 0, 0⟩)
  | .requestGate .., w => (w, ⟨"", none⟩)

/-- Two paths that differ in a slash. -/
def collidingFiles : Implementation where
  taskId := .str "t"
  files := [⟨.str "src/db.py", .str "x = 1", .str "python", .obj []⟩,
    ⟨.str "src_db.py", .str "y = 2", .str "python", .obj []⟩]
  imports := .arr []
  dependencies := .arr []

/-- Their artifacts are one file. -/
theorem not_writesSeparately_collidingFiles :
    ¬ ∀ (context : Context) (implementation : Implementation) (w : Unit × Disk),
      WritesSeparately idle "/w" "20250101_000000" context implementation w := by
  intro h
  let context : Context :=
    { sessionId := "s", taskId := "t", tenantId := "default", workspacePath := "/w" }
  obtain ⟨os, hos⟩ := (straight_writeArtifacts "/w" "20250101_000000" context
    collidingFiles).play_eq_ret.mpr ((eval_writeArtifacts idle _ _ context (w := ((), fun _ => none))).mpr
      ⟨["src_db.py", "src_db.py"], by decide +kernel, rfl, rfl⟩)
  have hdistinct := (h context collidingFiles _ os _ _ hos).distinct
  revert hdistinct
  decide

end Coding

end DoxAsdlc.Development
