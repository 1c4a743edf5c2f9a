import DoxAsdlc.Core.Events
import DoxAsdlc.Interaction.Program
import DoxAsdlc.Redis.Glob
import Mathlib.Algebra.Ring.Int.Defs

/-!
# Repository ingestion

The files of a repository are chosen by extension and by patterns, read, cut into chunks at
line ends, and indexed chunk by chunk.  A document is found again by the path of its file in the
repository and the number of its chunk; indexing replaces what has the same identifier.

A file that cannot be ingested is reported and the others are gone on with.

## Main definitions

* `IngestionConfig`, `FileSystem` — what is to be ingested, and one state of what there is.
* `fnmatch`, `chunkContent` — the patterns and the chunks.
* `Document`, `indexDocument` — the documents and their store.
* `ingestFile`, `ingestRepository` — ingestion.
-/

namespace DoxAsdlc.Ingestion

open Interaction Interaction.Program

/-! ## Configuration -/

/-- `IngestionConfig`. -/
structure IngestionConfig where
  includeExtensions : List String := [".py", ".ts", ".js", ".tsx", ".jsx", ".md", ".yaml",
    ".yml", ".json", ".sh", ".toml", ".html", ".css"]
  excludePatterns : List String := ["**/node_modules/**", "**/__pycache__/**", "**/.git/**",
    "**/dist/**", "**/build/**", "**/*.pyc", "**/*.whl", "**/*.tar*", "**/*.zip", "**/*.png",
    "**/*.jpg", "**/*.gif", "**/*.ico", "**/*.egg-info/**", "**/.venv/**", "**/venv/**"]
  maxChunkSize : ℤ := 4000
  overlapLines : ℤ := 5
  maxFileSizeBytes : ℤ := 10000000

/-! ## Which files -/

/-- `os.path.splitext(path)[1]`: dots that begin a name begin no extension. -/
def extension (path : String) : String :=
  let name := path.toList.reverse.takeWhile (· ≠ '/')
  let tail := name.takeWhile (· ≠ '.')
  if (name.drop (tail.length + 1)).all (· = '.') then "" else String.ofList ('.' :: tail.reverse)

/-- A class of characters without its brackets, read from the left. -/
def ranges : List Char → List (Char × Char)
  | a :: '-' :: b :: cs => (a, b) :: ranges cs
  | a :: cs => (a, a) :: ranges cs
  | [] => []

/-- The class that a bracket opens and what comes after it, if the bracket is closed.  A bracket
that comes first is in the class. -/
def bracket (cs : List Char) : Option (Redis.Glob.Token × List Char) :=
  let negated := cs.head? = some '!'
  let cs := if negated then cs.tail else cs
  let first := if cs.head? = some ']' then cs.take 1 else []
  let rest := cs.drop first.length
  let body := rest.takeWhile (· ≠ ']')
  match rest.drop body.length with
  | [] => none
  | _ :: after => some (.oneOf negated (ranges (first ++ body)), after)

/-- `fnmatch.translate`; every piece is at least one character, so that the length of the pattern
is enough of a bound. -/
def translate : ℕ → List Char → List Redis.Glob.Token
  | _, [] => []
  | 0, _ :: _ => []
  | n + 1, '*' :: cs => .star :: translate n cs
  | n + 1, '?' :: cs => .any :: translate n cs
  | n + 1, '[' :: cs =>
    match bracket cs with
    | some (token, after) => token :: translate n after
    | none => .literal '[' :: translate n cs
  | n + 1, c :: cs => .literal c :: translate n cs

/-- `fnmatch.fnmatch`. -/
def fnmatch (name pattern : String) : Bool :=
  Redis.Glob.accepts (translate pattern.length pattern.toList) name.toList

/-- `text.startswith(front)`. -/
def startsWith (text front : String) : Bool := front.toList.isPrefixOf text.toList

/-- The characters of a text without a part, where some of them are still to be skipped. -/
def dropPart (part : List Char) : ℕ → List Char → List Char
  | _, [] => []
  | n + 1, _ :: cs => dropPart part n cs
  | 0, c :: cs =>
    if part.isPrefixOf (c :: cs) then dropPart part (part.length - 1) cs
    else c :: dropPart part 0 cs

/-- `text.replace(part, "")`. -/
def without (part text : String) : String := String.ofList (dropPart part.toList 0 text.toList)

/-- One exclude pattern against the path of a file. -/
def excludes (path pattern : String) : Bool :=
  fnmatch path pattern ||
    (contains "/**" pattern &&
      (let directory := without "/**" (without "**/" pattern)
       contains ("/" ++ directory ++ "/") ("/" ++ path) || startsWith path (directory ++ "/")))

/-- `_should_include_file`; `lower` is `str.lower`. -/
def shouldIncludeFile (config : IngestionConfig) (lower : String → String) (path : String) :
    Bool :=
  decide (lower (extension path) ∈ config.includeExtensions) &&
    !config.excludePatterns.any (excludes path)

/-! ## What is in them -/

/-- One state of the file system. -/
structure FileSystem where
  /-- `os.path.realpath`. -/
  realpath : String → String
  /-- The files below a directory as `os.walk` lists them, by their paths in it. -/
  walk : String → List String
  /-- `os.path.getsize`, if it does not raise. -/
  getsize : String → Option ℕ
  /-- The bytes of a file, if it can be opened and read. -/
  bytes : String → Option (List UInt8)
  /-- No resolved path ends in a dot for a name. -/
  realpath_ne_dot : ∀ p directory, realpath p ≠ directory ++ "/."
  /-- A resolved path is that of one file. -/
  bytes_eq : ∀ p q, realpath p = realpath q →
    ∀ a b, bytes p = some a → bytes q = some b → a = b

/-- The line ends of a file opened as text. -/
def newlines : List Char → List Char
  | '\r' :: '\n' :: cs => '\n' :: newlines cs
  | '\r' :: cs => '\n' :: newlines cs
  | c :: cs => c :: newlines cs
  | [] => []

/-- The text of a file: UTF-8, or else Latin-1. -/
def decode (bytes : List UInt8) : String :=
  let text := match String.fromUTF8? ⟨bytes.toArray⟩ with
    | some text => text.toList
    | none => bytes.map fun b => Char.ofNat b.toNat
  String.ofList (newlines text)

/-- `_read_file_content`. -/
def readFileContent (fs : FileSystem) (filePath : String) : Option String :=
  (fs.bytes filePath).map decode

/-- `_check_file_size`. -/
def checkFileSize (config : IngestionConfig) (fs : FileSystem) (filePath : String) : Bool :=
  match fs.getsize filePath with
  | none => false
  | some size => decide (size ≤ config.maxFileSizeBytes)

/-- `_validate_path_within_repo`. -/
def validatePathWithinRepo (fs : FileSystem) (filePath repoPath : String) : Bool :=
  let realFile := fs.realpath filePath
  let realRepo := fs.realpath repoPath
  startsWith realFile (realRepo ++ "/") || realFile == realRepo

/-- `os.path.relpath`, of a resolved path in a resolved directory. -/
def relpath (path start : String) : String :=
  if path = start then "." else String.ofList (path.toList.drop (start.length + 1))

/-- `os.path.join`. -/
def join (directory name : String) : String :=
  if directory.toList.getLast? = some '/' then directory ++ name else directory ++ "/" ++ name

/-! ## Chunks -/

/-- `lines[-overlap:]`; from zero on the end of a slice is counted from the front. -/
def overlapping (overlap : ℤ) (lines : List String) : List String :=
  lines.drop (if 0 < overlap then lines.length - overlap.toNat else (-overlap).toNat)

/-- The chunks so far, and the lines of the current one. -/
structure Chunks where
  chunks : List String
  current : List String
  currentSize : ℤ

/-- `"\n".join(lines)`. -/
def joinLines (lines : List String) : String := "\n".intercalate lines

/-- The size of a line, with its end. -/
def lineSize (line : String) : ℤ := line.length + 1

/-- One turn of the loop over the lines. -/
def addLine (overlap maxChars : ℤ) (st : Chunks) (line : String) : Chunks :=
  let st :=
    if maxChars < st.currentSize + lineSize line ∧ st.current ≠ [] then
      let kept := overlapping overlap st.current
      { chunks := st.chunks ++ [joinLines st.current], current := kept,
        currentSize := (kept.map lineSize).sum }
    else st
  { st with current := st.current ++ [line], currentSize := st.currentSize + lineSize line }

/-- `_chunk_content`. -/
def chunkContent (overlap : ℤ) (content : String) (maxChars : ℤ) : List String :=
  if content.length ≤ maxChars then [content]
  else
    let lines := (content.toList.splitOn '\n').map String.ofList
    let st := lines.foldl (addLine overlap maxChars) ⟨[], [], 0⟩
    if st.current ≠ [] then st.chunks ++ [joinLines st.current] else st.chunks

/-! ## Documents -/

/-- A document of the knowledge store, with its metadata. -/
structure Document where
  docId : String
  content : String
  filePath : String
  fileType : String
  chunkIndex : ℕ
  totalChunks : ℕ
  repoPath : String
  indexedAt : String
  deriving DecidableEq

/-- The store is asked to index documents. -/
inductive Cmd where
  | index (document : Document)

/-- It answers with the identifier. -/
abbrev Reply : Cmd → Type
  | .index _ => String

/-- The commands and their answers. -/
abbrev interface : Interface := ⟨Cmd, Reply⟩

/-- The documents that are stored, by identifier. -/
abbrev Shelf := String → Option Document

/-- A document is put in place of what has its identifier. -/
def serve : Server interface Shelf
  | .index document, shelf =>
    (Function.update shelf document.docId (some document), document.docId)

/-- A coroutine of the ingester. -/
abbrev Async (α : Type) := Program interface Error α

/-- `index_document`. -/
def indexDocument (document : Document) : Async String :=
  if document.docId = "" ∨ 512 < document.docId.length then
    throw ⟨.valueError, "Invalid doc_id: must be non-empty string with max 512 chars", []⟩
  else command (I := interface) (.index document)

/-! ## Ingestion -/

/-- How an ingester is set up, and what it finds. -/
structure Setting where
  config : IngestionConfig
  /-- `str.lower`. -/
  lower : String → String
  files : FileSystem
  /-- `datetime.now(UTC).isoformat()` when the chunks of a file are indexed. -/
  now : String → String

/-- `IngestionResult`. -/
structure IngestionResult where
  filesProcessed : ℕ
  documentsCreated : ℕ
  filesSkipped : ℕ
  errors : List (String × String)
  deriving DecidableEq

section

variable (S : Setting)

/-- `IngestionError`. -/
def ingestionError (message : String) : Error where
  cls := .exception
  message := message

/-- The path of a file in its repository and its chunks. -/
def readChunks (filePath repoPath : String) : Except Error (String × List String) :=
  if ¬ validatePathWithinRepo S.files filePath repoPath then
    .error (ingestionError s!"Path traversal detected: {filePath} is outside repo")
  else if ¬ checkFileSize S.config S.files filePath then
    .error (ingestionError s!"File exceeds size limit: {filePath}")
  else
    match readFileContent S.files filePath with
    | none => .error (ingestionError s!"Failed to read file: {filePath}")
    | some content =>
      .ok (relpath (S.files.realpath filePath) (S.files.realpath repoPath),
        chunkContent S.config.overlapLines content S.config.maxChunkSize)

/-- The identifier of a chunk. -/
def docId (relativePath : String) (chunkIndex : ℕ) : String :=
  relativePath ++ ":" ++ toString chunkIndex

/-- The documents of a file. -/
def documents (filePath repoPath : String) (relativePath : String) (chunks : List String) :
    List Document :=
  chunks.mapIdx fun i chunk =>
    { docId := docId relativePath i
      content := chunk
      filePath := relativePath
      fileType := S.lower (extension filePath)
      chunkIndex := i
      totalChunks := chunks.length
      repoPath := repoPath
      indexedAt := S.now filePath }

/-- Index documents one after the other. -/
def indexAll : List Document → Async (List String)
  | [] => pure []
  | d :: ds => do
      let _ ← try indexDocument d
        catch e => throw (ingestionError s!"Failed to index document {d.docId}: {e.str}")
      let docIds ← indexAll ds
      pure (d.docId :: docIds)

/-- `ingest_file`. -/
def ingestFile (filePath repoPath : String) : Async (List String) := do
  match readChunks S filePath repoPath with
  | .error e => throw e
  | .ok (relativePath, chunks) => indexAll (documents S filePath repoPath relativePath chunks)

/-- One file of the repository. -/
def ingestNext (realRepo : String) (result : IngestionResult) (relativePath : String) :
    Async IngestionResult :=
  if ¬ shouldIncludeFile S.config S.lower relativePath then
    pure { result with filesSkipped := result.filesSkipped + 1 }
  else
    try do
      let docIds ← ingestFile S (join realRepo relativePath) realRepo
      pure { result with
        filesProcessed := result.filesProcessed + 1
        documentsCreated := result.documentsCreated + docIds.length }
    catch e => pure { result with errors := result.errors ++ [(relativePath, e.str)] }

/-- `ingest_repository`; `force_reindex` is not implemented. -/
def ingestRepository (repoPath : String) : Async IngestionResult :=
  let realRepo := S.files.realpath repoPath
  (S.files.walk realRepo).foldlM (ingestNext S realRepo) ⟨0, 0, 0, []⟩

end

/-- Not every dot begins an extension, and a pattern of a directory excludes what is in it. -/
example : extension "src/.env" = "" ∧ extension "a.d/b.test.TS" = ".TS" ∧
    excludes "web/node_modules/x/a.js" "**/node_modules/**" = true ∧
    excludes "build/b.py" "**/build/**" = true ∧
    fnmatch "a-b.py" "[!x]-?.p[x-z]" = true ∧ fnmatch "a.pyc" "**/*.pyc" = false := by
  decide +kernel

end DoxAsdlc.Ingestion
