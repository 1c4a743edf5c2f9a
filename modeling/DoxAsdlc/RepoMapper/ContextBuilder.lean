import DoxAsdlc.Numeric.Binary64
import DoxAsdlc.RepoMapper.DependencyGraph
import DoxAsdlc.Structures.Greedy
import DoxAsdlc.Structures.Records
import DoxAsdlc.Text.Backtracking

/-!
# The context builder of the repo mapper

The names of symbols are extracted from the description of a task by patterns.  A symbol of the
repository is scored by the names: a name that is the symbol counts most, then the first name
that is a part of it, the more the longer it is, then one that it is a part of.

The scores are binary64 numbers.

Files are scored by their relevance to a task and selected, the most relevant first, as long as
they fit a budget of tokens.

The tables of Unicode, the count of the tokens of a text, the order in which sets are iterated and
the order in which the extracted names are listed are parameters.

## Main definitions

* `SymbolInfo` — a symbol of the repository.
* `SymbolExtractor.extractSymbolNames` — the names in a description.
* `SymbolExtractor.scoreRelevance` — the score of a symbol.
* `ContextBuilder`, `addParsedFile` — the files and the graph.
* `scoreFileRelevance` — the score of a file.
* `selectRelevantFiles` — the selection.
-/

namespace DoxAsdlc.RepoMapper

open Backtracking Matcher

/-- The kinds of symbols. -/
inductive SymbolKind where
  | function | cls | interface | variable | method | constant
  deriving DecidableEq, Repr

/-- A symbol of a file. -/
structure SymbolInfo where
  name : String
  kind : SymbolKind
  filePath : String
  startLine : ℕ
  endLine : ℕ
  signature : Option String
  docstring : Option String
  references : List String
  deriving DecidableEq, Repr

/-- An import statement. -/
structure ImportInfo where
  source : String
  names : List String
  isRelative : Bool
  lineNumber : ℕ
  deriving DecidableEq, Repr

/-- The tables of Unicode: the characters of words, and `str.lower`. -/
structure UnicodeTables where
  word : Char → Bool
  lower : String → String

/-- The number of a literal. -/
def float (x : ℚ) : ℚ := Binary64.round x

/-- The product of two numbers. -/
def floatMul (x y : ℚ) : ℚ := Binary64.round (x * y)

namespace SymbolExtractor

/-- `COMMON_WORDS`. -/
def commonWords : List String :=
  ["the", "a", "an", "and", "or", "but", "in", "on", "at", "to", "for", "of", "with", "by", "from",
    "as", "is", "was", "are", "were", "be", "been", "being", "have", "has", "had", "do", "does",
    "did", "will", "would", "should", "could", "may", "might", "must", "can", "shall", "return",
    "if", "else", "then", "when", "where", "which", "who", "what", "why", "how", "this", "that",
    "these", "those", "it", "its", "not", "function", "class", "method", "variable", "file", "code",
    "bug", "fix", "update", "add", "remove", "delete", "refactor"]

/-! ## The patterns -/

/-- `[a-z]`. -/
def lowerLetter (c : Char) : Bool := 'a' ≤ c ∧ c ≤ 'z'

/-- `[A-Z]`. -/
def upperLetter (c : Char) : Bool := 'A' ≤ c ∧ c ≤ 'Z'

/-- `[0-9]`. -/
def asciiDigit (c : Char) : Bool := '0' ≤ c ∧ c ≤ '9'

/-- `[a-z]` without regard to case: the letters, and four others of which one case is a letter. -/
def anyLetter (c : Char) : Bool :=
  lowerLetter c || upperLetter c || c ∈ ['\u0130', '\u0131', '\u017F', '\u212A']

section

variable (u : UnicodeTables)

/-- A name: what is matched between the borders of a word. -/
def between (name : Matcher Char (List Char)) : Matcher Char (List Char) := do
  border u.word
  let symbol ← name
  border u.word
  pure symbol

/-- `function_pattern`. -/
def functionPattern : Matcher Char (List Char) := do
  border u.word
  let first ← one fun c => anyLetter c || c == '_'
  let rest ← many fun c => anyLetter c || asciiDigit c || c == '_'
  let _ ← literal "()".toList
  pure (first :: rest)

/-- `snake_case_pattern`. -/
def snakeCasePattern : Matcher Char (List Char) := between u do
  let first ← one lowerLetter
  let word ← many fun c => lowerLetter c || asciiDigit c
  let underscore ← one (· == '_')
  let rest ← plus fun c => lowerLetter c || asciiDigit c || c == '_'
  pure (first :: word ++ underscore :: rest)

/-- What the patterns of words with inner capitals share: the first letter, small letters, a
capital letter and any letters. -/
def capitalsPattern (first : Char → Bool) : Matcher Char (List Char) := between u do
  let first ← one first
  let word ← many fun c => lowerLetter c || asciiDigit c
  let capital ← one upperLetter
  let rest ← many fun c => lowerLetter c || upperLetter c || asciiDigit c
  pure (first :: word ++ capital :: rest)

/-- `camel_case_pattern`. -/
def camelCasePattern : Matcher Char (List Char) := capitalsPattern u lowerLetter

/-- `pascal_case_pattern`. -/
def pascalCasePattern : Matcher Char (List Char) := capitalsPattern u upperLetter

/-- A capital letter and small letters. -/
def pascalWord : Matcher Char (List Char) := do
  let first ← one upperLetter
  let rest ← plus lowerLetter
  pure (first :: rest)

/-- `simple_pascal_pattern`. -/
def simplePascalPattern : Matcher Char (List Char) := between u do
  let first ← pascalWord
  let rest ← star pascalWord
  pure (first ++ rest.flatten)

/-- The symbols that a pattern finds. -/
def found (pattern : Matcher Char (List Char)) (description : String) : List String :=
  ((finditer pattern ⟨none, description.toList⟩).map String.ofList).filter fun symbol =>
    u.lower symbol ∉ commonWords

/-- `extract_symbol_names`, before the set is listed. -/
def extractSymbolNames (description : String) : Finset String :=
  (found u (functionPattern u) description ++
    found u (snakeCasePattern u) description ++
    found u (camelCasePattern u) description ++
    found u (pascalCasePattern u) description ++
    (found u (simplePascalPattern u) description).filter fun symbol => 2 < symbol.length).toFinset

/-! ## The score of a symbol -/

/-- The score of a symbol that a term is a part of: the longer the term, the higher the score. -/
def partScore (term symbolName : String) : ℚ :=
  min (floatMul (float 0.7) (float (term.length / symbolName.length))) (float 0.9)

/-- `score_relevance`. -/
def scoreRelevance (symbol : SymbolInfo) (symbolNames : List String) : ℚ :=
  let symbolNameLower := u.lower symbol.name
  let symbolNamesLower := symbolNames.map u.lower
  if symbolNameLower ∈ symbolNamesLower then 1
  else
    -- The first term that is a part of the name decides.
    match symbolNamesLower.find? (contains · symbolNameLower) with
    | some searchTerm => partScore searchTerm symbolNameLower
    | none => if symbolNamesLower.any (contains symbolNameLower) then 0.5 else 0

end

end SymbolExtractor

end DoxAsdlc.RepoMapper

/-! ## The context builder -/

namespace DoxAsdlc.RepoMapper

/-- A parsed file with its symbols and its content. -/
structure MappedFile extends ParsedFile where
  symbols : List SymbolInfo := []
  rawContent : String := ""
  deriving DecidableEq

/-- The path of a file. -/
def MappedFile.filePath (f : MappedFile) : String := f.path

/-- What the builder is given: the tables of Unicode, the number of the tokens that a text is
encoded by, and the order in which sets are iterated. -/
structure Encoding where
  unicode : UnicodeTables
  encode : String → ℕ
  iteration : Iteration

/-- `_parsed_files`, in the order in which they came, and `_dependency_graph`. -/
structure ContextBuilder where
  parsedFiles : Records MappedFile.filePath := .empty
  dependencyGraph : DependencyGraph := {}

namespace ContextBuilder

variable (env : Encoding) (b : ContextBuilder)

/-- `add_parsed_file`. -/
def addParsedFile (parsed : MappedFile) : ContextBuilder where
  parsedFiles := b.parsedFiles.put parsed
  dependencyGraph := b.dependencyGraph.addFile parsed.toParsedFile

/-- `count_parsed_file`. -/
def countParsedFile (parsed : MappedFile) : ℕ :=
  if parsed.rawContent = "" then 0 else env.encode parsed.rawContent

/-- The best score of the symbols of a file. -/
def symbolScore (parsed : MappedFile) (symbolNames : List String) : ℚ :=
  if symbolNames ≠ [] then
    parsed.symbols.foldl (fun maxScore symbol => max maxScore
      (floatMul (SymbolExtractor.scoreRelevance env.unicode symbol symbolNames) (float 0.8))) 0
  else 0

/-- An export of a file has a name as a part. -/
def exportsName (parsed : MappedFile) (symbolNames : List String) : Bool :=
  parsed.exports.any fun export_ => symbolNames.any fun symbolName =>
    contains (env.unicode.lower symbolName) (env.unicode.lower export_)

/-- A target file depends on a file. -/
def dependencyOfTarget (parsed : MappedFile) (targetFiles : List String) : Bool :=
  targetFiles.any fun targetFile =>
    (b.dependencyGraph.getDependencies env.iteration targetFile 1).any
      fun dep => dep.targetFile = parsed.path

/-- `score_file_relevance`. -/
def scoreFileRelevance (parsed : MappedFile) (targetFiles symbolNames : List String) : ℚ :=
  if parsed.path ∈ targetFiles then 1
  else
    let maxScore := symbolScore env parsed symbolNames
    let maxScore := if exportsName env parsed symbolNames then max maxScore (float 0.2)
      else maxScore
    if b.dependencyOfTarget env parsed targetFiles then max maxScore (float 0.4) else maxScore

/-- A file with its score and the number of its tokens. -/
structure FileScore where
  filePath : String
  score : ℚ
  tokenCount : ℕ

/-- The loop of the selection. -/
def selectLoop (targetFiles : List String) (tokenBudget : ℤ) : ℕ → List FileScore → List String
  | _, [] => []
  | totalTokens, file :: rest =>
    if file.filePath ∈ targetFiles then
      if (totalTokens + file.tokenCount : ℤ) ≤ tokenBudget then
        file.filePath :: selectLoop targetFiles tokenBudget (totalTokens + file.tokenCount) rest
      else selectLoop targetFiles tokenBudget totalTokens rest
    else if float 0.3 < file.score ∧ (totalTokens + file.tokenCount : ℤ) ≤ tokenBudget then
      file.filePath :: selectLoop targetFiles tokenBudget (totalTokens + file.tokenCount) rest
    else selectLoop targetFiles tokenBudget totalTokens rest

/-- `select_relevant_files`, once the names are listed. -/
def selectFiles (targetFiles symbolNames : List String) (tokenBudget : ℤ) : List String :=
  let fileScores := b.parsedFiles.rows.map fun parsed =>
    ⟨parsed.path, b.scoreFileRelevance env parsed targetFiles symbolNames,
      countParsedFile env parsed⟩
  selectLoop targetFiles tokenBudget 0 (Greedy.ranked FileScore.score fileScores)

/-- `select_relevant_files`; the names are a set, which is listed in some order. -/
def selectRelevantFiles (order : Finset String → List String) (targetFiles : List String)
    (taskDescription : String) (tokenBudget : ℤ) : List String :=
  b.selectFiles env targetFiles
    (order (SymbolExtractor.extractSymbolNames env.unicode taskDescription)) tokenBudget

/-- `get_relevance_scores`. -/
def getRelevanceScores (order : Finset String → List String) (targetFiles : List String)
    (taskDescription : String) : List (String × ℚ) :=
  b.parsedFiles.rows.map fun parsed =>
    (parsed.path, b.scoreFileRelevance env parsed targetFiles
      (order (SymbolExtractor.extractSymbolNames env.unicode taskDescription)))

end ContextBuilder

end DoxAsdlc.RepoMapper
