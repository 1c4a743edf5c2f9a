import DoxAsdlc.Text.PosixPath

/-!
# Trees of files with symbolic links

A tree of files has directories, files, and links that hold the text of a path.  A path is a list
of names from the root; it is resolved name by name, each link being followed where it is met, and
names that there is no node for are kept.  What a resolved path goes through is no link.

## Main definitions

* `FileNode`, `FileTree` — nodes, and a tree of them, in which entries have proper names.
* `FileTree.resolve` — where a path leads.
* `FileTree.Real` — the paths that go through no link.
* `FileNode.dirs` — the directories at and beneath a node, none of them through a link.

## Main results

* `FileTree.real_of_resolve`, `FileTree.resolve_of_real` — the resolved paths are the real ones.
* `FileTree.mem_dirs_iff` — which directories there are beneath a node.
-/

inductive FileNode (C : Type) where
  | file (content : C)
  | dir (entries : List (String × FileNode C))
  | link (target : String)
  | other

namespace FileNode

variable {C : Type}

/-- The node of a name in a directory. -/
def child? (entries : List (String × FileNode C)) (name : String) : Option (FileNode C) :=
  (entries.find? fun entry => entry.1 = name).map Prod.snd

/-- The node that names lead to, where no link is followed. -/
def at? : FileNode C → List String → Option (FileNode C)
  | node, [] => some node
  | .dir entries, name :: names => (child? entries name).bind fun node => node.at? names
  | _, _ :: _ => none

mutual

/-- The directories at and beneath a node, each with its entries, a directory before those beneath
it. -/
def dirs : List String → FileNode C → List (List String × List (String × FileNode C))
  | here, .dir entries => (here, entries) :: dirsOf here entries
  | _, _ => []

/-- The directories at and beneath the entries of a directory. -/
def dirsOf : List String → List (String × FileNode C) →
    List (List String × List (String × FileNode C))
  | _, [] => []
  | here, (name, node) :: entries => node.dirs (here ++ [name]) ++ dirsOf here entries

end

theorem at?_append (node : FileNode C) (front rest : List String) :
    node.at? (front ++ rest) = (node.at? front).bind fun node => node.at? rest := by
  induction front generalizing node with
  | nil => rfl
  | cons name front ih =>
    cases node with
    | dir entries =>
      simp only [List.cons_append, at?, Option.bind_assoc]
      exact congrArg _ (funext ih)
    | _ => rfl

theorem child?_of_mem {entries : List (String × FileNode C)}
    (h : (entries.map Prod.fst).Nodup) {entry : String × FileNode C} (hentry : entry ∈ entries) :
    child? entries entry.1 = some entry.2 := by
  induction entries with
  | nil => cases hentry
  | cons first entries ih =>
    rw [List.map_cons, List.nodup_cons] at h
    obtain rfl | hlater := List.mem_cons.mp hentry
    · simp [child?]
    · have hne : first.1 ≠ entry.1 := fun heq => h.1 (heq ▸ List.mem_map_of_mem hlater)
      simpa [child?, hne] using ih h.2 hlater

theorem mem_of_child? {entries : List (String × FileNode C)} {name : String} {node : FileNode C}
    (h : child? entries name = some node) : (name, node) ∈ entries := by
  obtain ⟨entry, hfind, rfl⟩ := Option.map_eq_some_iff.mp h
  have hname : entry.1 = name := by simpa using List.find?_some hfind
  exact hname ▸ List.mem_of_find?_eq_some hfind

end FileNode

/-- A name of an entry. -/
def IsFileName (name : String) : Prop :=
  name ≠ "" ∧ name ≠ "." ∧ name ≠ ".." ∧ '/' ∉ name.toList
  deriving Decidable

namespace FileNode

variable {C : Type}

mutual

/-- Every directory at and beneath a node has entries with proper and different names. -/
def formed : FileNode C → Bool
  | .dir entries => decide ((entries.map Prod.fst).Nodup) && formedOf entries
  | _ => true

/-- The entries of a directory have proper names, and so has what is beneath them. -/
def formedOf : List (String × FileNode C) → Bool
  | [] => true
  | (name, node) :: entries => decide (IsFileName name) && node.formed && formedOf entries

end

theorem formed_of_mem {entries : List (String × FileNode C)} (h : formedOf entries = true)
    {entry : String × FileNode C} (hentry : entry ∈ entries) :
    IsFileName entry.1 ∧ entry.2.formed = true := by
  induction entries with
  | nil => cases hentry
  | cons first entries ih =>
    simp only [formedOf, Bool.and_eq_true, decide_eq_true_eq] at h
    obtain rfl | hlater := List.mem_cons.mp hentry
    · exact h.1
    · exact ih h.2 hlater

/-- Names that lead to a node of a formed one are proper, and that node is formed. -/
theorem formed_at? {node node' : FileNode C} {path : List String} (h : node.formed = true)
    (hat : node.at? path = some node') :
    (∀ name ∈ path, IsFileName name) ∧ node'.formed = true := by
  induction path generalizing node with
  | nil =>
    cases Option.some.inj hat
    exact ⟨by simp, h⟩
  | cons name path ih =>
    cases node with
    | dir entries =>
      simp only [formed, Bool.and_eq_true] at h
      obtain ⟨child, hchild, hrest⟩ := Option.bind_eq_some_iff.mp hat
      obtain ⟨hname, hformed⟩ := formed_of_mem h.2 (mem_of_child? hchild)
      obtain ⟨hnames, hend⟩ := ih hformed hrest
      exact ⟨List.forall_mem_cons.mpr ⟨hname, hnames⟩, hend⟩
    | _ => cases hat

end FileNode

/-- A tree of files, the directory in which a program runs, and how many links may be followed for
one path. -/
structure FileTree (C : Type) where
  top : List (String × FileNode C)
  cwd : List String
  maxLinks : ℕ
  formed : (FileNode.dir top).formed = true

namespace FileTree

variable {C : Type} (t : FileTree C)

/-- The root, which is a directory. -/
def root : FileNode C := .dir t.top

variable {t} in
theorem names {path : List String} {node : FileNode C} (h : t.root.at? path = some node) :
    ∀ name ∈ path, IsFileName name := (FileNode.formed_at? t.formed h).1

variable {t} in
theorem distinct {path : List String} {entries : List (String × FileNode C)}
    (h : t.root.at? path = some (.dir entries)) : (entries.map Prod.fst).Nodup := by
  have hformed := (FileNode.formed_at? t.formed h).2
  simp only [FileNode.formed, Bool.and_eq_true, decide_eq_true_eq] at hformed
  exact hformed.1

/-- Where names lead from a path on, as far as the first link, and what comes next from there. -/
def followTo (next : List String → List String → Option (List String)) :
    List String → List String → Option (List String)
  | here, [] => some here
  | here, name :: names =>
    if name = ".." then followTo next here.dropLast names
    else
      match t.root.at? (here ++ [name]) with
      | some (.link target) =>
        let path := PosixPath.parse target
        next (if path.root = "" then here else []) (path.parts ++ names)
      | _ => followTo next (here ++ [name]) names

/-- Where names lead from a path on, with so many links to follow at most. -/
def follow : ℕ → List String → List String → Option (List String)
  | 0 => t.followTo fun _ _ => none
  | links + 1 => t.followTo (follow links)

/-- `Path.resolve`. -/
def resolve (path : List String) : Option (List String) := t.follow t.maxLinks [] path

/-- The node that a path leads to, links being followed. -/
def node? (path : List String) : Option (FileNode C) := (t.resolve path).bind t.root.at?

/-- A path that leads up nowhere and goes through no link. -/
structure Real (path : List String) : Prop where
  up : ".." ∉ path
  links : ∀ front, front <+: path → ∀ target, t.root.at? front ≠ some (.link target)

variable {t}

theorem Real.of_prefix {path front : List String} (h : t.Real path) (hfront : front <+: path) :
    t.Real front :=
  ⟨fun hup => h.up (hfront.subset hup), fun f hf => h.links f (hf.trans hfront)⟩

theorem Real.concat {here : List String} {name : String} (h : t.Real here) (hname : name ≠ "..")
    (hlink : ∀ target, t.root.at? (here ++ [name]) ≠ some (.link target)) :
    t.Real (here ++ [name]) := by
  refine ⟨by simp [h.up, hname.symm], fun front hfront => ?_⟩
  obtain rfl | hfront := List.prefix_concat_iff.mp hfront
  · simpa using hlink
  · exact h.links front hfront

theorem real_nil : t.Real [] := by
  refine ⟨by simp, fun front hfront target => ?_⟩
  rw [List.prefix_nil.mp hfront]
  intro h
  cases h

theorem real_of_followTo {next : List String → List String → Option (List String)}
    (hnext : ∀ here names path, t.Real here → next here names = some path → t.Real path)
    {here names path : List String} (hhere : t.Real here)
    (h : t.followTo next here names = some path) : t.Real path := by
  induction names generalizing here with
  | nil => exact Option.some.inj h ▸ hhere
  | cons name names ih =>
    rw [followTo] at h
    split at h
    · exact ih (hhere.of_prefix (List.dropLast_prefix here)) h
    · next hup =>
      split at h
      · refine hnext _ _ _ ?_ h
        split
        · exact hhere
        · exact real_nil
      · next hlink => exact ih (hhere.concat hup hlink) h

/-- What names lead to is real. -/
theorem real_of_follow {links : ℕ} {here names path : List String} (hhere : t.Real here)
    (h : t.follow links here names = some path) : t.Real path := by
  induction links generalizing here names path with
  | zero => exact real_of_followTo (fun _ _ _ _ hnone => by cases hnone) hhere h
  | succ links ih => exact real_of_followTo (fun _ _ _ hreal hnext => ih hreal hnext) hhere h

theorem real_of_resolve {path p : List String} (h : t.resolve path = some p) : t.Real p :=
  real_of_follow real_nil h

/-- A real path leads to itself. -/
theorem followTo_of_real {next : List String → List String → Option (List String)}
    {here names : List String} (h : t.Real (here ++ names)) :
    t.followTo next here names = some (here ++ names) := by
  induction names generalizing here with
  | nil => simp [followTo]
  | cons name names ih =>
    have hup : name ≠ ".." := fun heq => h.up (by simp [heq])
    have hlink : ∀ target, t.root.at? (here ++ [name]) ≠ some (.link target) :=
      h.links _ ⟨names, by simp⟩
    have hrest : t.followTo next (here ++ [name]) names = some (here ++ [name] ++ names) :=
      ih (by simpa using h)
    rw [followTo, if_neg hup]
    split
    · next heq => exact absurd heq (hlink _)
    · simpa using hrest

theorem resolve_of_real {path : List String} (h : t.Real path) : t.resolve path = some path := by
  have hreal : t.Real ([] ++ path) := h
  rw [resolve]
  cases t.maxLinks with
  | zero => exact followTo_of_real hreal
  | succ links => exact followTo_of_real hreal

/-- What is reached without following a link, and is none itself, is real. -/
theorem real_of_at? {path : List String} {node : FileNode C} (h : t.root.at? path = some node)
    (hlink : ∀ target, node ≠ .link target) : t.Real path := by
  refine ⟨fun hup => (names h _ hup).2.2.1 rfl, ?_⟩
  intro front ⟨rest, hpath⟩ target hfront
  rw [← hpath, FileNode.at?_append, hfront] at h
  cases rest with
  | nil => exact hlink target (Option.some.inj h).symm
  | cons name rest => cases h

theorem node?_of_real {path : List String} (h : t.Real path) :
    t.node? path = t.root.at? path := by
  simp [node?, resolve_of_real h]

/-! ## Directories -/

theorem mem_dirsOf {here : List String} {entries : List (String × FileNode C)} {name : String}
    {node : FileNode C} (h : (name, node) ∈ entries)
    {d : List String × List (String × FileNode C)} (hd : d ∈ node.dirs (here ++ [name])) :
    d ∈ FileNode.dirsOf here entries := by
  induction entries with
  | nil => cases h
  | cons first entries ih =>
    rw [FileNode.dirsOf]
    obtain rfl | hlater := List.mem_cons.mp h
    · exact List.mem_append_left _ hd
    · exact List.mem_append_right _ (ih hlater)

/-- A directory that names lead to is one of those beneath. -/
theorem mem_dirs_of_at? {here rest : List String} {node : FileNode C}
    {entries : List (String × FileNode C)} (h : node.at? rest = some (.dir entries)) :
    (here ++ rest, entries) ∈ node.dirs here := by
  induction rest generalizing here node with
  | nil =>
    cases Option.some.inj h
    simp [FileNode.dirs]
  | cons name rest ih =>
    cases node with
    | dir top =>
      obtain ⟨child, hchild, hrest⟩ := Option.bind_eq_some_iff.mp h
      have hmem : (here ++ [name] ++ rest, entries) ∈ child.dirs (here ++ [name]) := ih hrest
      rw [List.append_assoc] at hmem
      exact List.mem_cons_of_mem _ (mem_dirsOf (FileNode.mem_of_child? hchild) hmem)
    | _ => cases h

mutual

/-- The directories beneath a node are where they are said to be. -/
theorem at?_of_mem_dirs : ∀ (node : FileNode C) (here : List String),
    t.root.at? here = some node → ∀ d ∈ node.dirs here,
      t.root.at? d.1 = some (.dir d.2) ∧ here <+: d.1
  | .dir entries, here, h, d, hd => by
    obtain rfl | hbeneath := List.mem_cons.mp hd
    · exact ⟨h, List.prefix_rfl⟩
    · refine at?_of_mem_dirsOf entries here (fun entry hentry => ?_) d hbeneath
      rw [FileNode.at?_append, h]
      simp [FileNode.at?, FileNode.child?_of_mem (distinct h) hentry]
  | .file _, _, _, _, hd | .link _, _, _, _, hd | .other, _, _, _, hd => by cases hd

theorem at?_of_mem_dirsOf : ∀ (entries : List (String × FileNode C)) (here : List String),
    (∀ entry ∈ entries, t.root.at? (here ++ [entry.1]) = some entry.2) →
      ∀ d ∈ FileNode.dirsOf here entries, t.root.at? d.1 = some (.dir d.2) ∧ here <+: d.1
  | [], _, _, _, hd => by cases hd
  | (name, node) :: entries, here, h, d, hd => by
    obtain hfirst | hlater := List.mem_append.mp hd
    · obtain ⟨hat, hprefix⟩ :=
        at?_of_mem_dirs node (here ++ [name]) (h (name, node) List.mem_cons_self) d hfirst
      exact ⟨hat, (List.prefix_append here [name]).trans hprefix⟩
    · exact at?_of_mem_dirsOf entries here (fun e he => h e (List.mem_cons_of_mem _ he)) d hlater

end

/-- **The directories beneath a node** of the tree are those that are reached through it. -/
theorem mem_dirs_iff {here path : List String} {node : FileNode C}
    {entries : List (String × FileNode C)} (h : t.root.at? here = some node) :
    (path, entries) ∈ node.dirs here ↔ t.root.at? path = some (.dir entries) ∧ here <+: path := by
  constructor
  · intro hd
    exact at?_of_mem_dirs node here h _ hd
  · intro ⟨hat, rest, hpath⟩
    rw [← hpath, FileNode.at?_append, h] at hat
    exact hpath ▸ mem_dirs_of_at? hat

end FileTree
