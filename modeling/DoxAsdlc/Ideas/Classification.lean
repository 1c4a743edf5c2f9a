import DoxAsdlc.Agents.JsonExtraction
import DoxAsdlc.Development.Workshop
import DoxAsdlc.Orchestrator.LabelTaxonomy
import DoxAsdlc.Redis.MemberSet
import DoxAsdlc.Workers.ClassificationWorker

/-!
# Ideas and how they are classified

An idea is classified by a language model that is shown its content and the labels of the
taxonomy.  Whatever goes wrong with the model or with its answer, the idea is classified by the
words in its content.

## Main definitions

* `Idea`, `UpdateIdeaRequest`, `UpdateData` — ideas, and changes to them.
* `parseClassificationResponse`, `validateLabels` — what is made of an answer.
* `classifyWithLlm`, `classifyWithRules`, `classified` — the classification of an idea.
-/

namespace DoxAsdlc.Ideas

open Classification (ClassificationType)
open Labels (LabelDefinition LabelTaxonomy)
open JsonText

/-! ## Ideas -/

inductive IdeaStatus where
  | active | archived
  deriving DecidableEq, Repr

inductive IdeaClassification where
  | functional | nonFunctional | undetermined
  deriving DecidableEq, Repr

/-- `IdeaClassification(classification.value)`. -/
def IdeaClassification.of : ClassificationType → IdeaClassification
  | .functional => .functional
  | .nonFunctional => .nonFunctional
  | .undetermined => .undetermined

structure Idea where
  id : String
  content : String
  authorId : String
  authorName : String
  status : IdeaStatus := .active
  classification : IdeaClassification := .undetermined
  labels : List String := []
  createdAt : Time
  updatedAt : Time
  wordCount : ℕ := 0
  deriving DecidableEq, Repr

structure UpdateIdeaRequest where
  content : Option String := none
  status : Option IdeaStatus := none
  classification : Option IdeaClassification := none
  labels : Option (List String) := none
  deriving DecidableEq, Repr

/-- `update_data`: the fields to write. -/
structure UpdateData where
  /-- `content` and `word_count`. -/
  content : Option (String × ℕ) := none
  status : Option IdeaStatus := none
  classification : Option IdeaClassification := none
  labels : Option (List String) := none
  updatedAt : Time
  deriving DecidableEq, Repr

/-- `_count_words`. -/
def countWords (text : String) : ℕ :=
  ((text.toList.splitOnP Rlm.isSpace).filter (!·.isEmpty)).length

/-- The part of `update_idea` between its read and its write. -/
def UpdateIdeaRequest.updateData (request : UpdateIdeaRequest) (now : Time) :
    Except Error UpdateData :=
  let doc : UpdateData := {
    status := request.status
    classification := request.classification
    labels := request.labels
    updatedAt := now }
  match request.content with
  | none => .ok doc
  | some content =>
    let wordCount := countWords content
    if 144 < wordCount then
      .error ⟨.valueError, "Idea exceeds 144 word limit (" ++ toString wordCount ++ " words)", []⟩
    else
      .ok { doc with content := some (content, wordCount) }

/-- What a partial update makes of a document. -/
def UpdateData.apply (doc : UpdateData) (idea : Idea) : Idea :=
  { idea with
    content := (doc.content.map Prod.fst).getD idea.content
    wordCount := (doc.content.map Prod.snd).getD idea.wordCount
    status := doc.status.getD idea.status
    classification := doc.classification.getD idea.classification
    labels := doc.labels.getD idea.labels
    updatedAt := doc.updatedAt }

@[simp] theorem UpdateData.labels_apply (doc : UpdateData) (idea : Idea) :
    (doc.apply idea).labels = doc.labels.getD idea.labels := rfl

@[simp] theorem UpdateData.classification_apply (doc : UpdateData) (idea : Idea) :
    (doc.apply idea).classification = doc.classification.getD idea.classification := rfl

/-- The labels and the classification are written as they were requested. -/
theorem updateData_eq_ok {request : UpdateIdeaRequest} {now : Time} {doc : UpdateData}
    (h : request.updateData now = .ok doc) :
    doc.labels = request.labels ∧ doc.classification = request.classification := by
  cases hcontent : request.content with
  | none =>
    simp only [UpdateIdeaRequest.updateData, hcontent, Except.ok.injEq] at h
    subst h
    exact ⟨rfl, rfl⟩
  | some content =>
    simp only [UpdateIdeaRequest.updateData, hcontent] at h
    split at h
    · cases h
    · cases h
      exact ⟨rfl, rfl⟩

/-! ## Classification -/

structure ClassificationResult where
  ideaId : String
  classification : ClassificationType
  confidence : ℚ
  labels : List String
  /-- A text that is not made of characters is `some none`. -/
  reasoning : Option (Option String) := none
  modelVersion : Option String := none
  deriving DecidableEq, Repr

/-- What a classification meets outside the stores. -/
structure Env where
  ideaId : String
  now : Time
  /-- A client for the role, and its answer to a prompt with the name of its model. -/
  generate : String → Except Error (String × String)
  /-- `CLASSIFICATION_PROMPT`, with the content of the idea and the taxonomy. -/
  classificationPrompt : String → String → String
  limits : Agents.LoadsLimits
  lower : String → String
  /-- `float` of a text; nothing is a text that does not stand for a number. -/
  parseFloat : String → Option FloatValue
  /-- The characters of a text of the answer that is not made of characters. -/
  loneSurrogates : List Value
  /-- The order of the elements of a set. -/
  order : Redis.IterationOrder String

/-- `get_prompt_version`. -/
def promptVersion : String := "1.0.0"

/-- The lines about one label. -/
def labelLines (label : LabelDefinition) : List String :=
  ["- " ++ label.id ++ " (" ++ label.name ++ ")"] ++
    (match given label.description with
      | some description => ["  Description: " ++ description]
      | none => []) ++
    (if label.keywords = [] then [] else ["  Keywords: " ++ ", ".intercalate label.keywords]) ++
    [""]

/-- `to_prompt_format`, of the stored taxonomy. -/
def toPromptFormat (taxonomy : LabelTaxonomy) : String :=
  "\n".intercalate (["Available labels for classification:", ""] ++
    taxonomy.labels.flatMap labelLines)

/-- What is read from an answer. -/
structure Parsed where
  classification : ClassificationType
  confidence : FloatValue
  reasoning : Value
  labels : Value

/-- What stands in a code block. -/
def codeBlock (response : String) : Option String := do
  let (_, rest) ← Development.splitFirst "```".toList response.toList
  let body := if "json".toList.isPrefixOf rest then rest.drop 4 else rest
  let (inside, _) ← Development.splitFirst "```".toList body
  some (Rlm.strip (String.ofList inside))

variable (env : Env)

/-- `float(value)`. -/
def float : Value → Except Error FloatValue
  | .bool b => .ok (.finite (if b then 1 else 0))
  | .int n =>
    match toFloat n with
    | .infinite _ => .error ⟨.exception, "int too large to convert to float", []⟩
    | x => .ok x
  | .float x => .ok x
  | .str text =>
    match text.bind env.parseFloat with
    | some x => .ok x
    | none => .error ⟨.valueError, "could not convert string to float", []⟩
  | .null | .arr _ | .obj _ =>
    .error (Agents.typeError "float() argument must be a string or a real number")

/-- `data.get(key, default)`, of what is a dict. -/
def getOf (data : Value) (key : String) (default : Value) : Except Error Value :=
  match data with
  | .obj fields => .ok ((field? fields key).getD default)
  | _ => .error ⟨.exception, "object has no attribute 'get'", []⟩

/-- `value.lower()`, of what is a text. -/
def lowered : Value → Except Error (Option String)
  | .str text => .ok (text.map env.lower)
  | _ => .error ⟨.exception, "object has no attribute 'lower'", []⟩

/-- The classification that a text stands for. -/
def normalized (classification : Option String) : ClassificationType :=
  if classification = some "functional" then .functional
  else if classification = some "non_functional" then .nonFunctional
  else .undetermined

/-- An error of `json.loads` that is not caught where it is called. -/
def loadsError : Fault → Error
  | .decodeError | .valueError =>
    ⟨.valueError, "Exceeds the limit for integer string conversion", []⟩
  | .recursionError => ⟨.exception, "maximum recursion depth exceeded", []⟩

/-- `parse_classification_response`. -/
def parseClassificationResponse (response : String) : Except Error Parsed :=
  let text := (codeBlock response).getD response
  match loads env.limits.maxDigits env.limits.depth text.toList with
  | .error .decodeError =>
    .ok {
      classification := .undetermined
      confidence := .finite 0
      reasoning := .str (some "Failed to parse LLM response")
      labels := .arr [] }
  | .error fault => .error (loadsError fault)
  | .ok data => do
      let classification ← lowered env
        (← getOf data "classification" (.str (some "undetermined")))
      let confidence ← float env (← getOf data "confidence" (.float (.finite (1 / 2))))
      let reasoning ← getOf data "reasoning" (.str (some ""))
      let labels ← getOf data "labels" (.arr [])
      return {
        classification := normalized classification
        confidence := confidence
        reasoning := reasoning
        labels := labels }

/-- The items of what is iterated: a text has its characters, a dict its keys. -/
def elements : Value → Except Error (List Value)
  | .arr items => .ok items
  | .obj fields => .ok ((fields.map Prod.fst).eraseDups.map .str)
  | .str (some text) => .ok (text.toList.map fun c => .str (some (String.singleton c)))
  | .str none => .ok env.loneSurrogates
  | _ => .error (Agents.typeError "object is not iterable")

/-- Whether a label is in the taxonomy, which is asked of a set. -/
def validLabel (taxonomy : LabelTaxonomy) : Value → Except Error (Option String)
  | .str (some label) => .ok (if label ∈ Labels.ids taxonomy.labels then some label else none)
  | .arr _ => .error (Agents.typeError "unhashable type: 'list'")
  | .obj _ => .error (Agents.typeError "unhashable type: 'dict'")
  | _ => .ok none

/-- `validate_labels`. -/
def validateLabels (labels : Value) (taxonomy : LabelTaxonomy) : Except Error (List String) := do
  let items ← elements env labels
  let checked ← items.mapM (validLabel taxonomy)
  return checked.filterMap id

/-- A field that is a text or nothing. -/
def optionalText : Value → Except Error (Option (Option String))
  | .str text => .ok (some text)
  | .null => .ok none
  | _ => .error ⟨.valueError, "Input should be a valid string", []⟩

/-- A confidence between 0 and 1. -/
def checkConfidence : FloatValue → Except Error ℚ
  | .finite x =>
    if 0 ≤ x ∧ x ≤ 1 then .ok x
    else .error ⟨.valueError, "Input should be between 0 and 1", []⟩
  | _ => .error ⟨.valueError, "Input should be between 0 and 1", []⟩

/-- `_classify_with_llm`. -/
def classifyWithLlm (prompt : String) (taxonomy : LabelTaxonomy) :
    Except Error ClassificationResult := do
  let (content, model) ← env.generate prompt
  let parsed ← parseClassificationResponse env content
  let labels ← validateLabels env parsed.labels taxonomy
  let confidence ← checkConfidence parsed.confidence
  let reasoning ← optionalText parsed.reasoning
  return {
    ideaId := env.ideaId
    classification := parsed.classification
    confidence := confidence
    labels := labels
    reasoning := reasoning
    modelVersion := some (model ++ ":" ++ promptVersion) }

def nonFunctionalKeywords : List String :=
  ["performance", "speed", "fast", "slow", "security", "encrypt", "scale", "concurrent",
    "reliability", "uptime", "latency"]

def functionalKeywords : List String :=
  ["add", "create", "build", "implement", "feature", "allow", "enable", "user can", "ability to"]

/-- How many of the words are in a content. -/
def matchesIn (contentLower : String) (keywords : List String) : ℕ :=
  (keywords.filter fun keyword => contains keyword contentLower).length

/-- `_classify_with_rules`. -/
def classifyWithRules (content : String) (taxonomy : LabelTaxonomy) : ClassificationResult :=
  let contentLower := env.lower content
  let matched := taxonomy.labels.filter fun label =>
    0 < matchesIn contentLower (label.keywords.map env.lower)
  let nfMatches := matchesIn contentLower nonFunctionalKeywords
  let fMatches := matchesIn contentLower functionalKeywords
  let (classification, confidence) : ClassificationType × ℚ :=
    if fMatches < nfMatches then (.nonFunctional, min (1 / 2 + nfMatches * (1 / 20)) (7 / 10))
    else if nfMatches < fMatches then (.functional, min (1 / 2 + fMatches * (1 / 20)) (7 / 10))
    else (.undetermined, 3 / 10)
  { ideaId := env.ideaId
    classification := classification
    confidence := confidence
    labels := Labels.ids matched
    reasoning := some (some "Classification based on keyword matching (LLM fallback).")
    modelVersion := some ("rule-based:" ++ promptVersion) }

/-- The classification of an idea by its content, with the taxonomy as it was read for the labels
and for the prompt. -/
def classified (content : String) (taxonomy prompted : LabelTaxonomy) : ClassificationResult :=
  match classifyWithLlm env (env.classificationPrompt content (toPromptFormat prompted)) taxonomy with
  | .ok result => result
  | .error _ => classifyWithRules env content taxonomy

/-- The labels that are written: those of the idea as it was read, and the assigned ones. -/
def mergedLabels (labels assigned : List String) : List String :=
  env.order.list (labels ++ assigned).dedup

@[simp] theorem mem_mergedLabels {labels assigned : List String} {label : String} :
    label ∈ mergedLabels env labels assigned ↔ label ∈ labels ∨ label ∈ assigned := by
  simp [mergedLabels]

theorem nodup_mergedLabels (labels assigned : List String) :
    (mergedLabels env labels assigned).Nodup :=
  env.order.nodup_list (List.nodup_dedup _)

end DoxAsdlc.Ideas
