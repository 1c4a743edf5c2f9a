import DoxAsdlc.Text.Joined

/-!
# Paths

A path is a root and the names below it.  Reading a path drops empty names and single dots;
two slashes at the front are a root of their own, three are one.  A path is joined to another
one name by name, unless the other has a root.

## Main definitions

* `PosixPath`, `PosixPath.parse`, `PosixPath.str` — paths and their texts.
* `PosixPath.parent`, `PosixPath.join` — the directory of a path, and what is in it.
* `PosixPath.Normal` — the paths that are read off texts.
* `PosixPath.resolve`, `PosixPath.Inside` — where a path leads.
-/

/-- A root, which may be empty, and names. -/
structure PosixPath where
  root : String
  parts : List String
  deriving DecidableEq, Repr

namespace PosixPath

/-- The root of a text. -/
def rootOf : List Char → String
  | '/' :: '/' :: '/' :: _ => "/"
  | '/' :: '/' :: _ => "//"
  | '/' :: _ => "/"
  | _ => ""

/-- `PurePosixPath(s)`. -/
def parse (s : String) : PosixPath where
  root := rootOf s.toList
  parts := ((s.toList.splitOn '/').map String.ofList).filter fun name => name ≠ "" ∧ name ≠ "."

/-- `str(p)`. -/
def str (p : PosixPath) : String :=
  if p.root = "" ∧ p.parts = [] then "." else p.root ++ "/".intercalate p.parts

/-- `p.parent`. -/
def parent (p : PosixPath) : PosixPath := { p with parts := p.parts.dropLast }

/-- `p / s`. -/
def join (p : PosixPath) (s : String) : PosixPath :=
  let q := parse s
  if q.root = "" then { p with parts := p.parts ++ q.parts } else q

/-! ## Paths as they are read -/

/-- Names are not empty, not a single dot, and without slashes; a root has two slashes at
most. -/
structure Normal (p : PosixPath) : Prop where
  root : p.root = "" ∨ p.root = "/" ∨ p.root = "//"
  names : ∀ name ∈ p.parts, name ≠ "" ∧ name ≠ "." ∧ '/' ∉ name.toList

theorem rootOf_cases (cs : List Char) : rootOf cs = "" ∨ rootOf cs = "/" ∨ rootOf cs = "//" := by
  fun_cases rootOf <;> simp

theorem normal_parse (s : String) : (parse s).Normal where
  root := rootOf_cases _
  names := by
    intro name hname
    obtain ⟨hmem, hkeep⟩ := List.mem_filter.mp hname
    obtain ⟨piece, hpiece, rfl⟩ := List.mem_map.mp hmem
    obtain ⟨hne, hdot⟩ := of_decide_eq_true hkeep
    exact ⟨hne, hdot, by simpa using Joined.not_mem_of_mem_splitOn hpiece⟩

theorem Normal.join {p : PosixPath} (hp : p.Normal) (s : String) : (p.join s).Normal := by
  rw [PosixPath.join]
  split
  · refine ⟨hp.root, fun name hname => ?_⟩
    rcases List.mem_append.mp hname with h | h
    · exact hp.names name h
    · exact (normal_parse s).names name h
  · exact normal_parse s

/-- The names in a text. -/
def namesOf (cs : List Char) : List String :=
  ((cs.splitOn '/').map String.ofList).filter fun name => name ≠ "" ∧ name ≠ "."

theorem parse_eq (s : String) : parse s = ⟨rootOf s.toList, namesOf s.toList⟩ := rfl

/-- A slash at the front is no name. -/
@[simp] theorem namesOf_slash (cs : List Char) : namesOf ('/' :: cs) = namesOf cs := by
  simp [namesOf, List.splitOn_cons_eq_if_modifyHead]

/-- Names joined by slashes are the names in the text. -/
theorem namesOf_intercalate {names : List String}
    (h : ∀ name ∈ names, name ≠ "" ∧ name ≠ "." ∧ '/' ∉ name.toList) :
    namesOf ("/".intercalate names).toList = names := by
  rcases eq_or_ne names [] with rfl | hne
  · decide
  · have hfree : ∀ piece ∈ names.map String.toList, '/' ∉ piece := by
      intro piece hpiece
      obtain ⟨name, hname, rfl⟩ := List.mem_map.mp hpiece
      exact (h name hname).2.2
    rw [namesOf, String.toList_intercalate,
      show "/".toList = ['/'] from rfl, List.splitOn_intercalate _ hfree (by simpa using hne),
      List.map_map, show String.ofList ∘ String.toList = id from funext fun _ => String.ofList_toList,
      List.map_id, List.filter_eq_self]
    intro name hname
    simpa using ⟨(h name hname).1, (h name hname).2.1⟩

/-- The first character of names joined by slashes is not one. -/
theorem rootOf_append_intercalate {names : List String}
    (h : ∀ name ∈ names, name ≠ "" ∧ name ≠ "." ∧ '/' ∉ name.toList) {root : String}
    (hroot : root = "" ∨ root = "/" ∨ root = "//") :
    rootOf (root.toList ++ ("/".intercalate names).toList) = root := by
  have hfirst : ∀ cs, ("/".intercalate names).toList ≠ '/' :: cs := by
    intro cs hcs
    cases names with
    | nil => cases hcs
    | cons name rest =>
      obtain ⟨hne, -, hfree⟩ := h name List.mem_cons_self
      cases hname : name.toList with
      | nil => exact hne (String.toList_eq_nil_iff.mp hname)
      | cons c tail =>
        have hc : c = '/' := by
          rw [String.toList_intercalate, List.map_cons, hname] at hcs
          cases rest <;> simp [List.intercalate] at hcs <;> exact hcs.1
        exact hfree (by simp [hname, hc])
  generalize ("/".intercalate names).toList = cs at hfirst
  cases cs with
  | nil => rcases hroot with rfl | rfl | rfl <;> rfl
  | cons c cs =>
    have hc : c ≠ '/' := fun heq => hfirst cs (by rw [heq])
    rcases hroot with rfl | rfl | rfl <;> simp [rootOf, hc]

/-- **Reading what was written.** -/
theorem Normal.parse_str {p : PosixPath} (h : p.Normal) : parse p.str = p := by
  rw [str]
  split
  · next hempty =>
    obtain ⟨root, parts⟩ := p
    obtain ⟨rfl, rfl⟩ := hempty
    decide
  · rw [parse_eq, String.toList_append, rootOf_append_intercalate h.names h.root]
    have hnames := namesOf_intercalate h.names
    rcases h.root with hroot | hroot | hroot
    all_goals
      obtain ⟨root, parts⟩ := p
      cases hroot
      simpa using hnames

/-- No path has an empty text. -/
theorem Normal.str_ne_empty {p : PosixPath} (h : p.Normal) : p.str ≠ "" := by
  intro hempty
  have hparse := h.parse_str
  rw [hempty] at hparse
  rw [← hparse] at hempty
  exact absurd hempty (by decide)

theorem Normal.parent {p : PosixPath} (h : p.Normal) : p.parent.Normal :=
  ⟨h.root, fun name hname => h.names name (List.dropLast_subset _ hname)⟩

theorem Normal.iterate_parent {p : PosixPath} (h : p.Normal) (n : ℕ) :
    (PosixPath.parent^[n] p).Normal := by
  induction n generalizing p with
  | zero => exact h
  | succ n ih => exact ih h.parent

/-! ## Files of a directory -/

/-- Where a name leads, from the names that lead here, the last one first. -/
def follow (root : String) (here : List String) (name : String) : List String :=
  if name = ".." then
    match here with
    | [] => if root = "" then [".."] else []
    | top :: above => if top = ".." then ".." :: here else above
  else name :: here

/-- The names of a path once those that lead up are gone, but for leading ones of a path
without a root. -/
def resolve (p : PosixPath) : List String := (p.parts.foldl (follow p.root) []).reverse

/-- A path leads below a directory. -/
def Inside (p dir : PosixPath) : Prop :=
  p.root = dir.root ∧ ∃ rest, rest ≠ [] ∧ ".." ∉ rest ∧ p.resolve = dir.resolve ++ rest

theorem resolve_concat {root last : String} {front : List String} (h : last ≠ "..") :
    resolve ⟨root, front ++ [last]⟩ = resolve ⟨root, front⟩ ++ [last] := by
  simp [resolve, follow, h]

/-- Whether a path leads below a directory does not depend on its last name. -/
theorem inside_concat {root last : String} {front : List String} {dir : PosixPath}
    (h : last ≠ "..") :
    Inside ⟨root, front ++ [last]⟩ dir ↔
      root = dir.root ∧ ∃ rest, ".." ∉ rest ∧ resolve ⟨root, front⟩ = dir.resolve ++ rest := by
  refine and_congr_right fun _ => ?_
  rw [resolve_concat h]
  constructor
  · intro ⟨rest, hne, hup, heq⟩
    obtain ⟨init, x, rfl⟩ := (List.eq_nil_or_concat rest).resolve_left hne
    rw [List.concat_eq_append] at hup heq
    rw [← List.append_assoc] at heq
    exact ⟨init, fun hmem => hup (by simp [hmem]), (List.append_inj' heq rfl).1⟩
  · intro ⟨rest, hup, heq⟩
    exact ⟨rest ++ [last], by simp, by simp [hup, Ne.symm h], by rw [heq, List.append_assoc]⟩

/-- A piece without slashes goes on with the last piece. -/
theorem exists_splitOn_append (a : List Char) :
    ∃ front last, ∀ b, '/' ∉ b → (a ++ b).splitOn '/' = front ++ [last ++ b] := by
  induction a with
  | nil => exact ⟨[], [], fun b hb => by simp [List.splitOn_eq_singleton hb]⟩
  | cons c a ih =>
    obtain ⟨front, last, h⟩ := ih
    by_cases hc : c = '/'
    · refine ⟨[] :: front, last, fun b hb => ?_⟩
      rw [List.cons_append, List.splitOn_cons_eq_if_modifyHead, h b hb]
      simp [hc]
    · cases front with
      | nil =>
        refine ⟨[], c :: last, fun b hb => ?_⟩
        rw [List.cons_append, List.splitOn_cons_eq_if_modifyHead, h b hb]
        simp [hc]
      | cons first front =>
        refine ⟨(c :: first) :: front, last, fun b hb => ?_⟩
        rw [List.cons_append, List.splitOn_cons_eq_if_modifyHead, h b hb]
        simp [hc]

/-- The root does not depend on what comes after an underscore. -/
theorem rootOf_underscore (a b : List Char) : rootOf (a ++ '_' :: b) = rootOf (a ++ ['_']) := by
  rcases a with _ | ⟨c, _ | ⟨d, _ | ⟨e, a⟩⟩⟩
  · rfl
  · by_cases hc : c = '/' <;> simp [rootOf, hc]
  · by_cases hc : c = '/' <;> by_cases hd : d = '/' <;> simp [rootOf, hc, hd]
  · by_cases hc : c = '/' <;> by_cases hd : d = '/' <;> by_cases he : e = '/' <;>
      simp [rootOf, hc, hd, he]

/-- A text with an underscore is not one without. -/
theorem underscore_ne (a b : String) {text : String} (h : '_' ∉ text.toList) :
    a ++ "_" ++ b ≠ text := by
  intro heq
  rw [← heq] at h
  simp at h

/-- **What is joined under a common front** differs in the last name only. -/
theorem exists_join_underscore (p : PosixPath) (a : String) :
    ∃ root front last, ∀ name : String, '/' ∉ name.toList →
      p.join (a ++ "_" ++ name) = ⟨root, front ++ [last ++ "_" ++ name]⟩ := by
  obtain ⟨front, last, hsplit⟩ := exists_splitOn_append a.toList
  let kept := (front.map String.ofList).filter fun name => name ≠ "" ∧ name ≠ "."
  have hnames : ∀ name : String, '/' ∉ name.toList → namesOf (a ++ "_" ++ name).toList
      = kept ++ [String.ofList last ++ "_" ++ name] := by
    intro name hname
    have htext : (a ++ "_" ++ name).toList = a.toList ++ '_' :: name.toList := by simp
    have hlast : String.ofList (last ++ '_' :: name.toList) = String.ofList last ++ "_" ++ name := by
      apply String.toList_inj.mp
      simp
    have hkeep : String.ofList last ++ "_" ++ name ≠ "" ∧ String.ofList last ++ "_" ++ name ≠ "." :=
      ⟨underscore_ne _ _ (by decide), underscore_ne _ _ (by decide)⟩
    rw [namesOf, htext, hsplit _ (by simpa using hname), List.map_append, List.filter_append,
      List.map_cons, List.map_nil, hlast, List.filter_cons_of_pos (by simpa using hkeep),
      List.filter_nil]
  have hroot : ∀ name : String, rootOf (a ++ "_" ++ name).toList = rootOf (a.toList ++ ['_']) := by
    intro name
    rw [← rootOf_underscore _ name.toList]
    simp
  by_cases h : rootOf (a.toList ++ ['_']) = ""
  · refine ⟨p.root, p.parts ++ kept, String.ofList last, fun name hname => ?_⟩
    rw [join, parse_eq, hroot, hnames name hname]
    simp only [h, if_true, List.append_assoc]
  · refine ⟨rootOf (a.toList ++ ['_']), kept, String.ofList last, fun name hname => ?_⟩
    rw [join, parse_eq, hroot, hnames name hname]
    simp only [h, if_false]

/-- What is joined comes after the directory. -/
example : ((parse "/repo//src/./a.py").parent.join "lib/b.py").str = "/repo/src/lib/b.py" := by
  decide

/-- A text with a root replaces the directory. -/
example : ((parse "/repo/src/a.ts").parent.join "/utils.py").str = "/utils.py" := by
  decide

end PosixPath
