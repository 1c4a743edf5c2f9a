import DoxAsdlc.Rlm.FileTools

/-!
# What the file tools disclose

Listing and reading keep what they promise, since the path that is checked is the one that is used.
A search keeps it exactly if the files it comes to lead beneath the root, and to different files.

## Main results

* `FileTools.lineRange_eq` — a range of lines.
* `FileTools.right_iff_harmless` — when a call keeps what is promised.
-/

namespace DoxAsdlc.Rlm.FileTools

variable {t : Tree} {tools : FileTools t}

/-! ## Paths -/

theorem validatePath_eq_ok {path : String} {p : List String} (h : tools.validatePath path = .ok p) :
    tools.resolved path = some p ∧ tools.root <+: p := by
  rw [validatePath] at h
  split at h
  · cases h
  · split at h
    · cases h
    · next resolved hresolved =>
      split at h
      · next hinside =>
        cases h
        exact ⟨hresolved, hinside⟩
      · cases h

theorem real_of_resolved {path : String} {p : List String} (h : tools.resolved path = some p) :
    t.Real p := FileTree.real_of_resolve h

/-! ## Listing -/

theorem mem_listed {directory : List String} {entries : List (String × FileNode FileContent)}
    (h : t.root.at? directory = some (.dir entries)) {recursive : Bool}
    {file : List String × String} (hfile : file ∈ listed (t := t) directory entries recursive) :
    ∃ entries entry, t.root.at? file.1 = some (.dir entries) ∧ directory <+: file.1 ∧
      entry ∈ entries ∧ file.2 = entry.1 := by
  cases recursive with
  | true =>
    obtain ⟨⟨here, found⟩, hhere, hmem⟩ := List.mem_flatMap.mp hfile
    obtain ⟨entry, hentry, rfl⟩ := List.mem_map.mp hmem
    obtain ⟨hat, hbeneath⟩ := (FileTree.mem_dirs_iff h).mp hhere
    exact ⟨found, entry, hat, hbeneath, List.mem_of_mem_filter hentry, rfl⟩
  | false =>
    obtain ⟨entry, hentry, rfl⟩ := List.mem_map.mp hfile
    exact ⟨entries, entry, h, List.prefix_rfl, List.mem_of_mem_filter hentry, rfl⟩

/-- Listing keeps what it promises. -/
theorem listsRight_of_eq_ok {directory pattern : String} {recursive : Bool} {maxResults : ℤ}
    {files : List String}
    (h : tools.listFiles directory pattern recursive maxResults = .ok files) :
    tools.ListsRight files := by
  intro file hfile
  obtain ⟨dirPath, hvalid, h⟩ := bind_eq_ok.mp h
  obtain ⟨hresolved, hinside⟩ := validatePath_eq_ok hvalid
  have hreal := real_of_resolved hresolved
  rw [FileTree.node?_of_real hreal] at h
  split at h
  · next entries hentries =>
    have hmem : file ∈ LimitedSearch.collect maxResults.toNat
        ((((listed (t := t) dirPath entries recursive).filter fun file =>
          Ingestion.fnmatch file.2 pattern).map
            fun file => tools.relativeText (file.1 ++ [file.2]))) [] := by
      dsimp only at h
      split at h
      · cases h
        exact hfile
      · cases h
        exact List.mem_mergeSort.mp hfile
    obtain hnone | hlisted := LimitedSearch.mem_of_mem_collect hmem
    · cases hnone
    · obtain ⟨place, hplace, rfl⟩ := List.mem_map.mp hlisted
      obtain ⟨found, entry, hat, hbeneath, hentry, hname⟩ :=
        mem_listed hentries (List.mem_of_mem_filter hplace)
      have hroute : t.Real place.1 := FileTree.real_of_at? hat (by simp)
      exact ⟨place.1, found, entry, FileTree.resolve_of_real hroute, hinside.trans hbeneath, hat,
        hentry, by rw [hname]⟩
  · cases h

/-! ## Reading -/

/-- The lines of a text are all of it. -/
theorem flatten_linesKept (text : List Char) : (linesKept text).flatten = text := by
  fun_induction linesKept text with
  | case1 => rfl
  | case2 rest ih => simp [ih]
  | case3 c rest _ hends ih => simp [ih]
  | case4 c rest _ hends ih =>
    cases hlines : linesKept rest with
    | nil => simp_all [Separated.consHead]
    | cons line lines => simp_all [Separated.consHead]

/-- The elements of a list whose numbers are in a range. -/
theorem filter_zipIdx {A : Type} (l : List A) (k a b : ℕ) :
    ((l.zipIdx k).filter fun x => a ≤ x.2 ∧ x.2 < b).map Prod.fst
      = (l.take (b - k)).drop (a - k) := by
  induction l generalizing k with
  | nil => simp
  | cons x l ih =>
    rw [List.zipIdx_cons]
    by_cases hlate : b ≤ k
    · have hskip : ¬ (a ≤ k ∧ k < b) := by omega
      rw [List.filter_cons_of_neg (by simpa using hskip), ih, show b - (k + 1) = 0 by omega,
        show b - k = 0 by omega]
      simp
    · rw [show b - k = b - (k + 1) + 1 by omega, List.take_succ_cons]
      by_cases hstarts : a ≤ k
      · have hkeep : a ≤ k ∧ k < b := by omega
        rw [List.filter_cons_of_pos (by simpa using hkeep), List.map_cons, ih,
          show a - (k + 1) = 0 by omega, show a - k = 0 by omega]
        rfl
      · have hskip : ¬ (a ≤ k ∧ k < b) := by omega
        rw [List.filter_cons_of_neg (by simpa using hskip), ih,
          show a - k = a - (k + 1) + 1 by omega]
        rfl

/-- **A range of lines** has the lines that are in it. -/
theorem lineRange_eq (text : List Char) (startLine endLine : Option ℤ) :
    lineRange text startLine endLine = linesWithin text startLine endLine := by
  let lines := linesKept text
  by_cases hall : startLine = none ∧ endLine = none
  · obtain ⟨rfl, rfl⟩ := hall
    simp [lineRange, linesWithin, flatten_linesKept, List.zipIdx_map_fst]
  · obtain ⟨first, hfirst⟩ : ∃ n : ℤ, n = max 1 (startLine.getD 1) := ⟨_, rfl⟩
    obtain ⟨last, hlast⟩ : ∃ n : ℤ, n = min (lines.length : ℤ) (endLine.getD lines.length) :=
      ⟨_, rfl⟩
    have hnumbers : ∀ line ∈ lines.zipIdx 1,
        ((∀ n ∈ startLine, n ≤ line.2) ∧ ∀ n ∈ endLine, (line.2 : ℤ) ≤ n) ↔
          first.toNat ≤ line.2 ∧ line.2 < (last + 1).toNat := by
      intro ⟨line, i⟩ hline
      have hbounds := List.mem_zipIdx hline
      cases startLine <;> cases endLine <;> simp at hfirst hlast ⊢ <;> omega
    have hwithin : linesWithin text startLine endLine =
        ((lines.take ((last + 1).toNat - 1)).drop (first.toNat - 1)).flatten := by
      rw [linesWithin, ← filter_zipIdx]
      congr 2
      apply List.filter_congr
      intro line hline
      exact decide_eq_decide.mpr (hnumbers line hline)
    have hrange : lineRange text startLine endLine =
        if last < first then [] else ((lines.take last.toNat).drop (first - 1).toNat).flatten := by
      have hstart : (if startLine.getD 1 < 1 then 1 else startLine.getD 1) = first := by
        split <;> omega
      have hstop : (if (lines.length : ℤ) < endLine.getD lines.length then (lines.length : ℤ)
          else endLine.getD lines.length) = last := by
        split <;> omega
      simp only [lineRange, if_neg hall]
      rw [hstart, hstop]
    rw [hwithin, hrange]
    split
    · have hshort : (lines.take ((last + 1).toNat - 1)).length ≤ first.toNat - 1 := by
        rw [List.length_take]
        omega
      rw [List.drop_of_length_le hshort]
      rfl
    · rw [show (last + 1).toNat - 1 = last.toNat by omega,
        show first.toNat - 1 = (first - 1).toNat by omega]

/-- Reading keeps what it promises. -/
theorem readsRight_of_eq_ok {path : String} {startLine endLine : Option ℤ} {maxSizeBytes : ℤ}
    {content : String} (h : tools.readFile path startLine endLine maxSizeBytes = .ok content) :
    tools.ReadsRight path startLine endLine content := by
  obtain ⟨filePath, hvalid, h⟩ := bind_eq_ok.mp h
  obtain ⟨hresolved, hinside⟩ := validatePath_eq_ok hvalid
  rw [FileTree.node?_of_real (real_of_resolved hresolved)] at h
  split at h
  · next file hfile =>
    split at h
    · cases h
    · split at h
      · cases h
      · next text htext =>
        cases h
        exact ⟨filePath, file, text, hresolved, hinside, hfile, htext, by rw [lineRange_eq]⟩
  · cases h

/-! ## Searching -/

variable {regex : String → Bool} {contextLines : ℤ}

theorem file_of_mem_hitsIn {file : List String} {h : Hit}
    (hh : h ∈ hitsIn t regex contextLines file) : h.file = file := by
  rw [hitsIn] at hh
  split at hh
  · cases hh
  · obtain ⟨line, -, rfl⟩ := List.mem_map.mp hh
    rfl

/-- The numbers of the lines of a text that match. -/
def numbersOf (regex : String → Bool) (text : Option String) : List ℕ :=
  match text with
  | none => []
  | some text => ((linesOf text).zipIdx.filter fun line => regex line.1).map fun line => line.2 + 1

/-- The line numbers of the matches in a file are told by its text. -/
theorem map_lineNumber_hitsIn (file : List String) :
    (hitsIn t regex contextLines file).map Hit.lineNumber = numbersOf regex (readText t file) := by
  cases htext : readText t file with
  | none => simp [hitsIn, numbersOf, htext]
  | some text =>
    simp only [hitsIn, numbersOf, htext, List.map_map]
    rfl

theorem nodup_numbersOf (text : Option String) : (numbersOf regex text).Nodup := by
  cases text with
  | none => exact List.nodup_nil
  | some text =>
    have hall : ((linesOf text).zipIdx.map Prod.snd).Nodup := by
      rw [List.zipIdx_map_snd]
      exact List.nodup_range'
    have hkept : (((linesOf text).zipIdx.filter fun line => regex line.1).map Prod.snd).Nodup :=
      hall.sublist (List.filter_sublist.map _)
    have hmap := hkept.map (f := Nat.succ) Nat.succ_injective
    rw [List.map_map] at hmap
    exact hmap

theorem readText_congr {file file' : List String} (h : t.resolve file = t.resolve file') :
    readText t file = readText t file' := by
  rw [readText, readText, FileTree.node?, FileTree.node?, h]

/-- Matches that are found are lines of the file. -/
theorem genuine_of_mem_hitsIn {file : List String} {h : Hit}
    (hh : h ∈ hitsIn t regex contextLines file) :
    ∃ text, readText t h.file = some text ∧ h.Genuine regex (linesOf text) := by
  have hfile := file_of_mem_hitsIn hh
  rw [hitsIn] at hh
  split at hh
  · cases hh
  · next text htext =>
    obtain ⟨⟨line, i⟩, hline, rfl⟩ := List.mem_map.mp hh
    obtain ⟨hmem, hmatch⟩ := List.mem_filter.mp hline
    refine ⟨text, htext, ?_, hmatch, ?_, ?_⟩
    · have hat := List.mem_zipIdx_iff_getElem?.mp hmem
      simpa [hit] using hat
    · exact (List.drop_suffix _ _).isInfix.trans (List.take_prefix _ _).isInfix
    · exact (List.drop_suffix _ _).isInfix.trans (List.take_prefix _ _).isInfix

/-- Every matching line of a file is among its matches. -/
theorem exists_mem_hitsIn {file : List String} {text : String} (htext : readText t file = some text)
    {i : ℕ} {line : String} (hline : (linesOf text)[i]? = some line) (hmatch : regex line = true) :
    ∃ h ∈ hitsIn t regex contextLines file, h.file = file ∧ h.lineNumber = i + 1 := by
  have hmem : (line, i) ∈ (linesOf text).zipIdx.filter fun line => regex line.1 :=
    List.mem_filter.mpr ⟨List.mem_zipIdx_iff_getElem?.mpr hline, hmatch⟩
  refine ⟨hit file (linesOf text) contextLines line i, ?_, rfl, rfl⟩
  rw [hitsIn, htext]
  exact List.mem_map.mpr ⟨_, hmem, rfl⟩

/-- The files at a path, or beneath it. -/
theorem mem_filesAt {path file : List String} {text : String} (hpath : t.Real path)
    (hfile : AtOrBeneath t path file) (htext : readText t file = some text) :
    file ∈ filesAt t path := by
  have hisFile : isFile t file = true := by
    rw [readText] at htext
    rw [isFile]
    split at htext
    · rfl
    · cases htext
  rw [filesAt, FileTree.node?_of_real hpath]
  obtain rfl | ⟨directory, entries, entry, hbeneath, hat, hentry, rfl⟩ := hfile
  · rw [isFile, FileTree.node?_of_real hpath] at hisFile
    split at hisFile
    · next heq =>
      rw [heq]
      exact List.mem_singleton_self _
    · cases hisFile
  · obtain ⟨rest, hrest⟩ := hbeneath
    have hdirectory := hat
    rw [← hrest, FileNode.at?_append] at hdirectory
    obtain ⟨node, hnode, hdown⟩ := Option.bind_eq_some_iff.mp hdirectory
    cases node with
    | dir top =>
      simp only [hnode]
      refine List.mem_filter.mpr ⟨List.mem_flatMap.mpr ⟨(directory, entries), ?_, ?_⟩, hisFile⟩
      · exact (FileTree.mem_dirs_iff hnode).mpr ⟨hat, rest, hrest⟩
      · exact List.mem_map.mpr ⟨entry, hentry, rfl⟩
    | _ =>
      cases rest with
      | nil => cases hdown
      | cons name rest => cases hdown

theorem search_eq (files : List (List String)) (maxMatches : ℤ) :
    search t regex contextLines maxMatches files =
      (files.flatMap (hitsIn t regex contextLines)).take maxMatches.toNat :=
  LimitedSearch.gather_eq_take ..

/-- **When a search keeps what it promises.** -/
theorem findsRight_iff {paths : List String} {files : List (List String)} {maxMatches : ℤ}
    (hfiles : tools.filesToSearch paths = .ok files) :
    tools.FindsRight regex paths maxMatches (search t regex contextLines maxMatches files) ↔
      (∀ file ∈ LimitedSearch.reached (hitsIn t regex contextLines) maxMatches.toNat files,
        tools.Within file) ∧
      ((LimitedSearch.reached (hitsIn t regex contextLines) maxMatches.toNat files).map
        t.resolve).Nodup := by
  have howner (file : List String) : ∀ h ∈ hitsIn t regex contextLines file, h.file = file :=
    fun h hh => file_of_mem_hitsIn hh
  have hnumbers (file : List String) :
      ((hitsIn t regex contextLines file).map Hit.lineNumber).Nodup := by
    rw [map_lineNumber_hitsIn]
    exact nodup_numbersOf _
  have hsame (file file' : List String) (h : t.resolve file = t.resolve file') :
      (hitsIn t regex contextLines file).map Hit.lineNumber =
        (hitsIn t regex contextLines file').map Hit.lineNumber := by
    rw [map_lineNumber_hitsIn, map_lineNumber_hitsIn, readText_congr h]
  rw [← LimitedSearch.forall_take_iff howner, ← LimitedSearch.nodup_take_iff howner hnumbers hsame,
    ← search_eq]
  refine ⟨fun h => ⟨h.contained, h.once⟩, fun ⟨hcontained, honce⟩ => ⟨?_, hcontained, honce, ?_⟩⟩
  · intro h hh
    rw [search_eq] at hh
    obtain ⟨file, -, hmem⟩ := List.mem_flatMap.mp (List.mem_of_mem_take hh)
    exact genuine_of_mem_hitsIn hmem
  · intro hlimit path hpath p hp file hfile text htext i line hline hmatch
    obtain ⟨validated, hvalidated, hflat⟩ := bind_eq_ok.mp hfiles
    cases hflat
    obtain ⟨p', hp', hvalid⟩ := exists_of_forall₂ (forall₂_of_mapM hvalidated) hpath
    obtain rfl : p' = p := Option.some.inj ((validatePath_eq_ok hvalid).1.symm.trans hp)
    obtain ⟨h, hh, hhfile, hhline⟩ := exists_mem_hitsIn htext hline hmatch
    refine ⟨h, ?_, hhfile, hhline⟩
    rw [search_eq] at hlimit ⊢
    rw [List.take_of_length_le]
    · exact List.mem_flatMap.mpr ⟨file, List.mem_flatMap.mpr
        ⟨p', hp', mem_filesAt (real_of_resolved hp) hfile htext⟩, hh⟩
    · rw [List.length_take] at hlimit
      omega

/-- **When the file tools keep what they promise**: for every tree of files and every call, exactly
if the files that a search comes to lead beneath the root, and to different files. -/
theorem right_iff_harmless (t : Tree) (tools : FileTools t)
    (compile : String → Bool → Option (String → Bool)) (call : Call) :
    tools.Right compile call ↔ tools.Harmless compile call := by
  cases call with
  | listFiles directory pattern recursive maxResults =>
    exact iff_of_true (fun _ h => listsRight_of_eq_ok h) trivial
  | readFile path startLine endLine maxSizeBytes =>
    exact iff_of_true (fun _ h => readsRight_of_eq_ok h) trivial
  | grep pattern paths contextLines maxMatches caseInsensitive =>
    refine forall₂_congr fun regex hregex => ?_
    simp only [grepHits, hregex]
    constructor
    · intro h files hfiles
      exact (findsRight_iff hfiles).mp (h _ (by rw [hfiles, ok_bind]; rfl))
    · intro h hits hhits
      obtain ⟨files, hfiles, heq⟩ := bind_eq_ok.mp hhits
      cases heq
      exact (findsRight_iff hfiles).mpr (h files hfiles)

/-- A repository that has a link to a file outside of it. -/
def linked : Tree where
  top := [
    ("etc", .dir [("passwd", .file ⟨9, some "root:x:0\n"⟩)]),
    ("repo", .dir [("src", .dir [("notes.txt", .link "/etc/passwd")])])]
  cwd := []
  maxLinks := 40
  formed := by decide +kernel

/-- The tools on that repository. -/
def linkedTools : FileTools linked := ⟨["repo"], _, rfl⟩

/-- Expressions that match the texts that they are in. -/
def literal (pattern : String) (_ : Bool) : Option (String → Bool) :=
  some fun line => contains pattern line

/-- **A search leaves the repository**: it follows the link. -/
theorem not_right_linked : ¬ linkedTools.Right literal (.grep "root" ["src"] 2 100 false) := by
  intro h
  let regex : String → Bool := fun line => contains "root" line
  let file := ["repo", "src", "notes.txt"]
  have hvalid : linkedTools.validatePath "src" = .ok ["repo", "src"] := by decide +kernel
  have hfiles : linkedTools.filesToSearch ["src"] = .ok [file] := by
    have hat : filesAt linked ["repo", "src"] = [file] := by decide +kernel
    rw [filesToSearch, List.mapM_cons, hvalid]
    simp [hat, file]
  have hsearch : search linked regex 2 100 [file] = [⟨file, 1, "root:x:0", [], []⟩] := by
    decide +kernel
  have hfound := h regex rfl _ (by
    simp only [grepHits, literal, hfiles, ok_bind]
    exact congrArg Except.ok hsearch)
  obtain ⟨p, hp, hinside⟩ := hfound.contained _ (List.mem_singleton_self _)
  have hresolved : linked.resolve file = some ["etc", "passwd"] := by decide +kernel
  obtain rfl : ["etc", "passwd"] = p := Option.some.inj (hresolved.symm.trans hp)
  exact absurd hinside (by decide)

end DoxAsdlc.Rlm.FileTools
