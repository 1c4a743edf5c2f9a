import DoxAsdlc.Core.Events
import DoxAsdlc.Swarm.Models
import DoxAsdlc.Text.Backtracking
import DoxAsdlc.Text.JsonText
import DoxAsdlc.Text.Separated

/-!
# The parser of the answers of reviewers

What a model answers is read as JSON: inside a code fence, if there is one, as a whole, or from
the first opening to the last closing brace or bracket.  The items of the list of findings that
are well formed become findings.  If there is no such list, findings are taken from the
severities that are printed in bold.

What Python does with a text or with another value is a parameter where a finding only stores the
result; so is what a field of a finding accepts as an optional number, and the ids.

## Main definitions

* `ResponseParser.fence?`, `decode` — the JSON value of an answer.
* `ResponseParser.dictToFinding` — an item becomes a finding.
* `ResponseParser.parse` — the parser.
-/

namespace DoxAsdlc.Swarm

open Backtracking Matcher JsonText

/-- What the parser is given: the limits of `json.loads`, `str.upper`, `str` of values that are no
texts, `int` and `float` of texts, what a field accepts that is a number or nothing, and the
ids. -/
structure ResponseEnv where
  maxDigits : ℕ
  depth : ℕ
  upper : String → String
  render : Value → String
  intOf : String → Option ℤ
  floatOf : String → Option FloatValue
  optionalInt : Value → Option (Option ℤ)
  ids : ℕ → String
  optionalInt_null : optionalInt .null = some none
  optionalInt_int : ∀ n, optionalInt (.int n) = some (some n)

/-- What the parser does not catch. -/
inductive Uncaught where
  | recursionError
  | overflowError
  deriving DecidableEq, Repr

/-- What a conversion raises: a `ValueError` or `TypeError`, or an `OverflowError`. -/
inductive Refused where
  | caught
  | overflowError
  deriving DecidableEq, Repr

/-- The values of the severities. -/
def Severity.value : Severity → String
  | .critical => "CRITICAL"
  | .high => "HIGH"
  | .medium => "MEDIUM"
  | .low => "LOW"
  | .info => "INFO"

namespace ResponseParser

variable (env : ResponseEnv)

/-! ## Conversions -/

/-- The severity of a value of `_SEVERITY_VALUES`. -/
def severityOf (value : String) : Option Severity :=
  [Severity.critical, .high, .medium, .low, .info].find? fun severity => severity.value = value

/-- The truth value. -/
def truthy : Value → Bool
  | .null => false
  | .bool b => b
  | .int n => n ≠ 0
  | .float x => x ≠ .finite 0
  | .str text => text ≠ some ""
  | .arr items => !items.isEmpty
  | .obj fields => !fields.isEmpty

/-- `str`; `none` for a text that is not made of characters. -/
def str : Value → Option String
  | .str text => text
  | value => some (env.render value)

/-- `float`. -/
def float : Value → Except Refused FloatValue
  | .int n =>
    match toFloat n with
    | .infinite _ => .error .overflowError
    | x => .ok x
  | .float x => .ok x
  | .bool b => .ok (.finite (if b then 1 else 0))
  | .str text =>
    match text.bind env.floatOf with
    | some x => .ok x
    | none => .error .caught
  | .null | .arr _ | .obj _ => .error .caught

/-- `int`. -/
def int : Value → Except Refused ℤ
  | .int n => .ok n
  | .float (.finite x) => .ok (x.num.tdiv x.den)
  | .float (.infinite _) => .error .overflowError
  | .float .nan => .error .caught
  | .bool b => .ok (if b then 1 else 0)
  | .str text =>
    match text.bind env.intOf with
    | some n => .ok n
    | none => .error .caught
  | .null | .arr _ | .obj _ => .error .caught

/-- `max(0.0, min(1.0, confidence))`; what is not a number is not less than one. -/
def clamp : FloatValue → Confidence
  | .finite x => ⟨max 0 (min 1 x), le_max_left _ _, max_le (by norm_num) (min_le_left _ _)⟩
  | .infinite negative => if negative then ⟨0, le_rfl, by norm_num⟩ else ⟨1, by norm_num, le_rfl⟩
  | .nan => ⟨1, by norm_num, le_rfl⟩

/-- What a field accepts that is a text or nothing. -/
def optionalText : Value → Option (Option String)
  | .null => some none
  | .str (some text) => some (some text)
  | _ => none

/-! ## Items -/

/-- `dict.get`. -/
def getOf (fields : List (Option String × Value)) (key : String) (default : Value) : Value :=
  (field? fields key).getD default

/-- The line that a value starts at, `int(value or 0)`. -/
def lineOf (value : Value) : Except Refused ℤ := if truthy value then int env value else .ok 0

/-- The finding of the converted values; a text of it that is not made of characters, or a value
that a field does not accept, is refused. -/
def stored (reviewerType id : String) (severity : Severity) (confidence : Confidence)
    (lineStart : ℤ) (get : String → Value → Value) : Option ReviewFinding := do
  return {
    id := id
    reviewerType := reviewerType
    severity := severity
    category := ← str env (get "category" .null)
    title := ← str env (get "title" .null)
    description := ← str env (get "description" .null)
    filePath := ← str env (get "file_path" (.str (some "")))
    lineStart := lineStart
    lineEnd := ← env.optionalInt (get "line_end" .null)
    codeSnippet := ← optionalText (get "code_snippet" .null)
    recommendation := ← str env (get "recommendation" .null)
    confidence := confidence }

/-- The call of `ReviewFinding`, with the severity and the confidence that were read. -/
def construct (reviewerType id : String) (severity : Severity) (confidence : Confidence)
    (get : String → Value → Value) : Except Refused ReviewFinding := do
  let lineStart ← lineOf env (get "line_start" .null)
  match stored env reviewerType id severity confidence lineStart get with
  | some finding => return finding
  | none => throw .caught

/-- The keys that an item needs. -/
def required : List String :=
  ["severity", "category", "title", "description", "recommendation", "confidence"]

/-- What is caught leaves the item out. -/
def orNone {A : Type} : Except Refused A → Except Uncaught (Option A)
  | .ok a => .ok (some a)
  | .error .caught => .ok none
  | .error .overflowError => .error .overflowError

/-- `_dict_to_finding`. -/
def dictToFinding (reviewerType id : String) : Value → Except Uncaught (Option ReviewFinding)
  | .obj fields =>
    if required.all fun key => (field? fields key).isSome then
      match ((str env (getOf fields "severity" .null)).map env.upper).bind severityOf with
      | none => .ok none
      | some severity => orNone do
          let confidence ← float env (getOf fields "confidence" .null)
          construct env reviewerType id severity (clamp confidence) (getOf fields)
    else .ok none
  | _ => .ok none

/-- The findings of the items, from the `i`-th on. -/
def itemFindings (reviewerType : String) : ℕ → List Value → Except Uncaught (List ReviewFinding)
  | _, [] => .ok []
  | i, item :: items => do
      let finding ← dictToFinding env reviewerType (env.ids i) item
      let findings ← itemFindings reviewerType (i + 1) items
      return finding.toList ++ findings

/-! ## JSON -/

/-- `_CODE_FENCE_RE`. -/
def fencePattern : Matcher Char (List Char) := do
  let _ ← literal "```".toList
  let _ ← oneOf [literal "json".toList, pure []]
  let _ ← many isSpace
  let _ ← oneOf [literal ['\n'], pure []]
  let content ← lazyMany fun _ => true
  let _ ← oneOf [literal ['\n'], pure []]
  let _ ← many isSpace
  let _ ← literal "```".toList
  pure content

/-- `str.strip`. -/
def strip (l : List Char) : List Char :=
  ((l.dropWhile isSpace).reverse.dropWhile isSpace).reverse

/-- The content of the first code fence. -/
def fence? (text : List Char) : Option (List Char) :=
  (search fencePattern ⟨none, text⟩).map Prod.fst

/-- `json.loads`, where a `ValueError` is caught. -/
def tryLoads (text : List Char) : Except Uncaught (Option Value) :=
  match loads env.maxDigits env.depth text with
  | .ok value => .ok (some value)
  | .error .decodeError | .error .valueError => .ok none
  | .error .recursionError => .error .recursionError

/-- The value of a text, or else what comes next. -/
def loadsOr (text : List Char) (next : Except Uncaught (Option Value)) :
    Except Uncaught (Option Value) := do
  match ← tryLoads env text with
  | some value => return some value
  | none => next

/-- The text from the first opening to the last closing character, where there is one behind the
other. -/
def outermost (opening closing : Char) (text : List Char) : Option (List Char) :=
  let part := ((text.dropWhile (· ≠ opening)).reverse.dropWhile (· ≠ closing)).reverse
  if part = [] then none else some part

/-- The value between the outermost braces, or else between the outermost brackets. -/
def decodeParts (text : List Char) : List (Char × Char) → Except Uncaught (Option Value)
  | [] => .ok none
  | (opening, closing) :: pairs =>
    match outermost opening closing text with
    | none => decodeParts text pairs
    | some part => loadsOr env part (decodeParts text pairs)

/-- The value of a text, as a whole or in part. -/
def decode (text : List Char) : Except Uncaught (Option Value) :=
  loadsOr env text (decodeParts env text [('\x7b', '\x7d'), ('[', ']')])

/-- The text that is decoded: what the first code fence has, or everything. -/
def textOf (raw : List Char) : List Char :=
  match fence? (strip raw) with
  | some content => strip content
  | none => strip raw

/-- The list of findings in a value. -/
def rawFindings : Value → Option (List Value)
  | .obj fields =>
    match field? fields "findings" with
    | some (.arr items) => some items
    | _ => none
  | .arr items => some items
  | _ => none

/-- `_try_json_parse`. -/
def tryJsonParse (raw : List Char) (reviewerType : String) :
    Except Uncaught (Option (List ReviewFinding)) := do
  match (← decode env (textOf raw)).bind rawFindings with
  | none => return none
  | some items => return some (← itemFindings env reviewerType 0 items)

/-! ## Markdown -/

/-- A letter, without regard to case. -/
def letter (c : Char) : Matcher Char Char :=
  one fun x => x = c ∨ x = c.toLower ∨ (c = 'I' ∧ x ∈ ['\u0130', '\u0131'])

/-- A word of capital letters, without regard to case. -/
def word : List Char → Matcher Char (List Char)
  | [] => pure []
  | c :: cs => do
      let x ← letter c
      let xs ← word cs
      pure (x :: xs)

/-- `_SEVERITY_RE`. -/
def severityPattern : Matcher Char (List Char) := do
  let _ ← literal "**".toList
  let severity ← oneOf
    (["CRITICAL", "HIGH", "MEDIUM", "LOW", "INFO"].map fun severity => word severity.toList)
  let _ ← literal "**".toList
  pure severity

/-- `_SEVERITY_RE.split`: the text before the first severity, and each severity with the text
behind it. -/
def splitSeverities (l : List Char) : List Char × List (List Char × List Char) :=
  match l with
  | [] => ([], [])
  | c :: rest =>
    match (severityPattern ⟨none, c :: rest⟩).head? with
    | some (severity, cursor) =>
      if cursor.rest.length < (c :: rest).length then
        let (body, parts) := splitSeverities cursor.rest
        ([], (severity, body) :: parts)
      else ([], [])
    | none =>
      let (body, parts) := splitSeverities rest
      (c :: body, parts)
termination_by l.length
decreasing_by
  · assumption
  · exact Nat.lt_succ_self _

/-- The characters that end a line. -/
def endsLine (c : Char) : Bool :=
  c ∈ ['\n', '\r', '\x0b', '\x0c', '\x1c', '\x1d', '\x1e', '\x85', '\u2028', '\u2029']

/-- `str.splitlines`. -/
def splitlines : List Char → List (List Char)
  | [] => []
  | '\r' :: '\n' :: rest => [] :: splitlines rest
  | c :: rest => if endsLine c then [] :: splitlines rest
      else Separated.consHead c (splitlines rest)

/-- The title, from the first line, and the description, from the others. -/
def titleAndDescription (body : List Char) : List Char × List Char :=
  match splitlines (strip body) with
  | [] => ("Untitled".toList, "Untitled".toList)
  | first :: others =>
    let colons (l : List Char) := ((l.dropWhile (· = ':')).reverse.dropWhile (· = ':')).reverse
    let title := strip (colons (strip first))
    (title, if others = [] then title else strip (['\n'].intercalate others))

/-- `_try_markdown_parse`. -/
def tryMarkdownParse (raw : List Char) (reviewerType : String) : List ReviewFinding :=
  (splitSeverities raw).2.zipIdx.filterMap fun (part, i) =>
    (severityOf (env.upper (String.ofList part.1))).map fun severity =>
      let (title, description) := titleAndDescription part.2
      { id := env.ids i
        reviewerType := reviewerType
        severity := severity
        category := "general"
        title := String.ofList (title.take 200)
        description := String.ofList (description.take 2000)
        filePath := ""
        lineStart := 0
        recommendation := "See description for details."
        confidence := ⟨1 / 2, by norm_num, by norm_num⟩ }

/-- `parse`. -/
def parse (raw : String) (reviewerType : String) : Except Uncaught (List ReviewFinding) := do
  match ← tryJsonParse env raw.toList reviewerType with
  | some findings => return findings
  | none => return tryMarkdownParse env raw.toList reviewerType

end ResponseParser

end DoxAsdlc.Swarm
