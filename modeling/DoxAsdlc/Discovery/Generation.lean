import DoxAsdlc.Agents.JsonExtraction
import DoxAsdlc.Development.Workshop
import DoxAsdlc.Discovery.Documents
import Mathlib.Data.List.ReduceOption

/-!
# The generation of requirements documents

A model groups extracted requirements into a document.  An entry in the requirements of a section
stands for the extracted one with its identifier, if there is one; an entry elsewhere, in the
objectives, in the scope or in a subsection, is read as it is.  Without an answer the requirements
are grouped by their types.

Prompts and the writing of artifacts are left out, but for the values that a prompt is made of.  A
text with half of a surrogate pair and a number that is infinite or none are not told apart.

## Main definitions

* `PRDGenerator.generate`, `PRDAgent.generatePrd` — the generator and the agent.
* `Extracted`, `ExtractedData` — requirements that were extracted.
* `HasAll` — a document has each of them once.
* `Named` — an answer names each of them once.

## Main results

* `hasAll_build_iff` — the answers of which the document has all.
* `keeps_iff` — when requirements are kept.
-/

namespace DoxAsdlc.Discovery

open Development (pad3)
open JsonText (Value)

/-! ## Answers -/

mutual

/-- A JSON value. -/
def ofJson : Value → PyValue
  | .null => .none
  | .bool b => .bool b
  | .int n => .int n
  | .float (.finite x) => .float x
  | .float _ => .other "float"
  | .str (some s) => .str s
  | .str none => .other "str"
  | .arr items => .list (ofItems items)
  | .obj fields => .dict (OrderedDict.entriesOf (ofFields fields))

def ofItems : List Value → List PyValue
  | [] => []
  | v :: items => ofJson v :: ofItems items

def ofFields : List (Option String × Value) → List (PyKey × PyValue)
  | [] => []
  | (key, v) :: fields => (key.elim (.other "str") .str, ofJson v) :: ofFields fields

end

section

variable (limits : Agents.LoadsLimits)

/-- What an attempt comes to: a value that counts as true in the answer, if the client has one. -/
def readAnswer (answer : Option String) : Option PyValue :=
  match answer with
  | none => none
  | some content =>
    match Agents.parseJsonFromResponse limits content.toList with
    | .ok (some value) => some (ofJson value) |>.filter fun data => data.truthy
    | _ => none

/-- `_get_prd_structure`, of the answers to the attempts. -/
def getPrdStructure (answers : List (Option String)) : Option PyValue :=
  answers.findSome? (readAnswer limits)

end

/-! ## The document of an answer -/

section

variable (requirements : List Requirement)

/-- The extracted requirement with an identifier, which is a text. -/
def matching (reqId : PyValue) : Option Requirement :=
  requirements.find? fun r =>
    match r.id with
    | .str s => reqId.isText s
    | _ => false

-- Whether an entry with a priority or a type that does not exist is left out.
variable (skipInvalid : Bool)

/-- The requirement of an entry. -/
def entryRequirement (data : PyValue) : Except Error (Option Requirement) := do
  let reqId ← data.get "id" (.str "")
  match matching requirements reqId with
  | some r => return some r
  | none =>
    match Requirement.fromDict data with
    | .ok r => return some r
    | .error e => if skipInvalid ∧ e.cls ∈ [.valueError, .keyError] then return none else .error e

/-- A section of an answer. -/
def buildSection (data : PyValue) : Except Error PRDSection := do
  let sectionReqs ← (← (← data.get "requirements" (.list [])).elements).mapM
    (entryRequirement requirements skipInvalid)
  return {
    title := ← data.get "title" (.str "")
    content := ← data.get "content" (.str "")
    requirements := sectionReqs.reduceOption
    subsections := ← (← (← data.get "subsections" (.list [])).elements).mapM PRDSection.fromDict }

/-- `_build_prd_from_response`. -/
def buildPrdFromResponse (now : Time) (fallbackTitle : String) (prdData : PyValue) :
    Except Error PRDDocument := do
  let sections ← (← (← prdData.get "sections" (.list [])).elements).mapM
    (buildSection requirements skipInvalid)
  let objectives ← PRDSection.fromDict (← prdData.get "objectives" (.dict []))
  let scope ← PRDSection.fromDict (← prdData.get "scope" (.dict []))
  return .create now (← prdData.get "title" (.str fallbackTitle))
    (← prdData.get "executive_summary" (.str "")) objectives scope sections
    (← prdData.get "version" (.str "1.0.0"))

/-- The sections of the document without an answer: a type, a title and a text. -/
def fallbackSections : List (RequirementType × String × String) :=
  [(.functional, "Functional Requirements", "Core functionality requirements."),
    (.nonFunctional, "Non-Functional Requirements", "Quality and performance requirements."),
    (.constraint, "Technical Constraints", "Technical limitations and constraints."),
    (.assumption, "Assumptions", "Project assumptions.")]

/-- `_create_fallback_prd`. -/
def createFallbackPrd (now : Time) (title executiveSummary : String) : PRDDocument :=
  let sections := fallbackSections.filterMap fun (type, title, content) =>
    let grouped := requirements.filter fun r => r.type = type
    if grouped = [] then none else some ⟨.str title, .str content, grouped, []⟩
  .create now (.str title) (.str executiveSummary)
    ⟨.str "Objectives", .str "Define project objectives.", [], []⟩
    ⟨.str "Scope", .str "Define project scope.", [], []⟩ sections

end

/-! ## The generator and the agent -/

namespace PRDGenerator

/-- `IdeationToPRDInput`, without what is for the prompt alone. -/
structure Input where
  projectTitle : String
  conversationSummary : String
  extractedRequirements : List PyValue

/-- The requirement of a dictionary, at a position. -/
def convertRequirement (raw : PyValue) (i : ℕ) : Except Error Requirement := do
  return {
    id := ← raw.get "id" (.str ("REQ-" ++ pad3 (i + 1)))
    description := ← raw.get "description" (.str "")
    priority := ← RequirementPriority.of (← raw.get "priority" (.str "should_have"))
    type := ← RequirementType.of (← raw.get "type" (.str "functional"))
    rationale := ← raw.get "rationale" (.str "")
    source := ← raw.get "source" (.str "ideation") }

/-- `_convert_requirements`; one with a priority or a type that does not exist is left out. -/
def convertRequirements (rawRequirements : List PyValue) : Except Error (List Requirement) := do
  let converted ← rawRequirements.zipIdx.mapM fun (raw, i) =>
    match convertRequirement raw i with
    | .ok r => return some r
    | .error e => if e.cls ∈ [.valueError, .keyError] then return none else .error e
  return converted.reduceOption

/-- The text about the conversation in the document without an answer. -/
def summary (conversationSummary : String) : String :=
  if conversationSummary ≠ "" then String.ofList (conversationSummary.toList.take 500)
  else "PRD generated from ideation session."

/-- `PRDGeneratorResult`: a document, or the message of an error. -/
inductive Result where
  | success (prdDocument : PRDDocument)
  | failure (errorMessage : String)

/-- The document, of the answers to the attempts. -/
def document (limits : Agents.LoadsLimits) (now : Time) (answers : List (Option String))
    (input : Input) : Except Error PRDDocument := do
  let _ ← (PyValue.list input.extractedRequirements).dumps
  let prdData := getPrdStructure limits answers
  let requirements ← convertRequirements input.extractedRequirements
  match prdData with
  | none =>
    return createFallbackPrd requirements now input.projectTitle
      (summary input.conversationSummary)
  | some prdData => buildPrdFromResponse requirements true now input.projectTitle prdData

/-- `generate`. -/
def generate (limits : Agents.LoadsLimits) (now : Time) (answers : List (Option String))
    (input : Input) : Result :=
  if input.extractedRequirements = [] then .failure "No requirements provided for PRD generation"
  else if input.projectTitle = "" then .failure "No project title provided for PRD generation"
  else
    match document limits now answers input with
    | .ok prd => .success prd
    | .error e => .failure e.str

end PRDGenerator

namespace PRDAgent

/-- The document of an attempt, if one can be built. -/
def attempt (limits : Agents.LoadsLimits) (now : Time) (requirements : List Requirement)
    (answer : Option String) : Option PRDDocument :=
  (readAnswer limits answer).bind fun prdData =>
    (buildPrdFromResponse requirements false now "Untitled Project" prdData).toOption

/-- `_generate_prd`, of the answers to the attempts. -/
def generatePrd (limits : Agents.LoadsLimits) (now : Time) (answers : List (Option String))
    (requirements : List Requirement) (projectTitle : String) : Except Error PRDDocument := do
  let _ ← (PyValue.list (requirements.map Requirement.toDict)).dumps
  match answers.findSome? (attempt limits now requirements) with
  | some prd => return prd
  | none =>
    return createFallbackPrd requirements now projectTitle
      "This PRD was generated from extracted requirements."

end PRDAgent

/-! ## What is promised -/

/-- Requirements that were extracted, with different texts as identifiers. -/
structure Extracted where
  requirements : List Requirement
  ids : List String
  map_id : requirements.map Requirement.id = ids.map PyValue.str
  nodup : ids.Nodup

/-- A field of a value, or what stands for it. -/
def field (data : PyValue) (key : String) (default : PyValue) : PyValue :=
  match data.get key default with
  | .ok v => v
  | .error _ => default

/-- A dictionary is that of a requirement, with an identifier, and with a priority and a type that
exist. -/
structure Describes (raw : PyValue) (r : Requirement) : Prop where
  id : ∀ default, raw.get "id" default = .ok r.id
  description : raw.get "description" (.str "") = .ok r.description
  priority : ∃ v, raw.get "priority" (.str "should_have") = .ok v ∧
    RequirementPriority.of v = .ok r.priority
  type : ∃ v, raw.get "type" (.str "functional") = .ok v ∧ RequirementType.of v = .ok r.type
  rationale : raw.get "rationale" (.str "") = .ok r.rationale
  source : raw.get "source" (.str "ideation") = .ok r.source
  metadata : r.metadata = .dict []

/-- The dictionaries of extracted requirements. -/
structure ExtractedData extends Extracted where
  raws : List PyValue
  describes : List.Forall₂ Describes raws requirements

/-- Requirements have one once, with its description, type and priority. -/
structure HasOnce (all : List Requirement) (r : Requirement) (s : String) : Prop where
  once : all.countP (fun q => q.id.isText s) = 1
  same : ∀ q ∈ all, q.id.isText s = true →
    q.description = r.description ∧ q.type = r.type ∧ q.priority = r.priority

/-- They have each of them. -/
def HasAll (all requirements : List Requirement) : Prop :=
  ∀ r ∈ requirements, ∀ s, r.id = .str s → HasOnce all r s

/-! ## What an answer names -/

/-- The items of a field. -/
def itemsOf (data : PyValue) (key : String) : List PyValue :=
  match (field data key (.list [])).elements with
  | .ok items => items
  | .error _ => []

/-- The entries of a section and of its subsections. -/
def sectionEntries (data : PyValue) : List PyValue :=
  itemsOf data "requirements" ++
    match subsectionsOf data with
    | .ok items => items.val.attach.flatMap fun item => sectionEntries item.val
    | .error _ => []
termination_by sizeOf data
decreasing_by exact items.property item.val item.property

/-- An entry of an answer, and whether it may stand for an extracted requirement. -/
structure Entry where
  matched : Bool
  data : PyValue

namespace Entry

/-- The identifier of an entry. -/
def id (e : Entry) : PyValue := field e.data "id" (.str "")

/-- An entry has the description, the type and the priority of a requirement. -/
def States (e : Entry) (r : Requirement) : Prop :=
  field e.data "description" (.str "") = r.description ∧
    RequirementType.of (field e.data "type" (.str "functional")) = .ok r.type ∧
    RequirementPriority.of (field e.data "priority" (.str "should_have")) = .ok r.priority

end Entry

/-- The entries of a section at the top: those of its own, and those of its subsections. -/
def topEntries (data : PyValue) : List Entry :=
  (itemsOf data "requirements").map (Entry.mk true) ++
    ((itemsOf data "subsections").flatMap sectionEntries).map (Entry.mk false)

/-- The entries of an answer. -/
def entries (prdData : PyValue) : List Entry :=
  (sectionEntries (field prdData "objectives" (.dict []))).map (Entry.mk false) ++
    (sectionEntries (field prdData "scope" (.dict []))).map (Entry.mk false) ++
    (itemsOf prdData "sections").flatMap topEntries

/-- An answer names each requirement in one entry, which may stand for it or has its description,
type and priority. -/
def Named (requirements : List Requirement) (prdData : PyValue) : Prop :=
  ∀ r ∈ requirements, ∀ s, r.id = .str s →
    (entries prdData).countP (fun e => e.id.isText s) = 1 ∧
      ∀ e ∈ entries prdData, e.id.isText s = true → e.matched = true ∨ e.States r

/-! ## What is built of entries -/

theorem sectionEntries_eq (data : PyValue) : sectionEntries data =
    itemsOf data "requirements" ++
      match subsectionsOf data with
      | .ok items => items.val.flatMap sectionEntries
      | .error _ => [] := by
  rw [sectionEntries]
  cases subsectionsOf data with
  | ok items => simp only [List.flatMap_subtype, List.unattach_attach]
  | error e => rfl

theorem itemsOf_eq {data v : PyValue} {items : List PyValue} {key : String}
    (hv : data.get key (.list []) = .ok v) (hitems : v.elements = .ok items) :
    itemsOf data key = items := by
  simp [itemsOf, field, hv, hitems]

theorem collects_eq_flatMap (ss : List PRDSection) :
    PRDSection.collects ss = ss.flatMap PRDSection.collect := by
  induction ss with
  | nil => rfl
  | cons s ss ih => rw [PRDSection.collects, ih, List.flatMap_cons]

theorem forall₂_flatMap {A B C D : Type} {R : A → B → Prop} {P : C → D → Prop} {f : A → List C}
    {g : B → List D} {l : List A} {k : List B} (h : List.Forall₂ R l k)
    (hfg : ∀ a ∈ l, ∀ b, R a b → List.Forall₂ P (f a) (g b)) :
    List.Forall₂ P (l.flatMap f) (k.flatMap g) := by
  induction h with
  | nil => exact .nil
  | cons hab _ ih =>
    rw [List.forall_mem_cons] at hfg
    exact List.rel_append (hfg.1 _ hab) (ih hfg.2)

/-- The entries of a section are read as its requirements. -/
theorem forall₂_collect {data : PyValue} {s : PRDSection} (h : PRDSection.fromDict data = .ok s) :
    List.Forall₂ (fun e r => Requirement.fromDict e = .ok r) (sectionEntries data) s.collect := by
  rw [PRDSection.fromDict_eq] at h
  obtain ⟨title, -, h⟩ := bind_eq_ok.mp h
  obtain ⟨content, -, h⟩ := bind_eq_ok.mp h
  obtain ⟨v, hv, h⟩ := bind_eq_ok.mp h
  obtain ⟨l, hl, h⟩ := bind_eq_ok.mp h
  obtain ⟨requirements, hrequirements, h⟩ := bind_eq_ok.mp h
  obtain ⟨items, hitems, h⟩ := bind_eq_ok.mp h
  obtain ⟨subsections, hsubsections, h⟩ := bind_eq_ok.mp h
  obtain rfl := Except.ok.inj h
  rw [sectionEntries_eq, itemsOf_eq hv hl, hitems, PRDSection.collect, collects_eq_flatMap]
  refine List.rel_append (forall₂_of_mapM hrequirements) ?_
  exact forall₂_flatMap (forall₂_of_mapM hsubsections) fun item hitem s hs => forall₂_collect hs
termination_by sizeOf data
decreasing_by exact items.property item hitem

/-- What an entry is read as; one may be left out. -/
def ReadAs (requirements : List Requirement) (skipInvalid : Bool) (e : Entry)
    (read : Option Requirement) : Prop :=
  if e.matched then entryRequirement requirements skipInvalid e.data = .ok read
  else ∃ r, Requirement.fromDict e.data = .ok r ∧ read = some r

section

variable {requirements : List Requirement} {skipInvalid : Bool}

/-- Entries that stand for themselves are read one by one. -/
theorem forall₂_own {items : List PyValue} {read : List Requirement}
    (h : List.Forall₂ (fun e r => Requirement.fromDict e = .ok r) items read) :
    List.Forall₂ (ReadAs requirements skipInvalid) (items.map (Entry.mk false))
      (read.map some) := by
  rw [List.forall₂_map_left_iff, List.forall₂_map_right_iff]
  exact h.imp fun _ r hr => ⟨r, hr, rfl⟩

theorem reduceOption_map_some (l : List Requirement) : (l.map some).reduceOption = l := by
  simp [List.reduceOption]

theorem forall₂_buildSection {data : PyValue} {s : PRDSection}
    (h : buildSection requirements skipInvalid data = .ok s) :
    ∃ read, List.Forall₂ (ReadAs requirements skipInvalid) (topEntries data) read ∧
      s.collect = read.reduceOption := by
  obtain ⟨v, hv, h⟩ := bind_eq_ok.mp h
  obtain ⟨items, hitems, h⟩ := bind_eq_ok.mp h
  obtain ⟨read, hread, h⟩ := bind_eq_ok.mp h
  obtain ⟨title, -, h⟩ := bind_eq_ok.mp h
  obtain ⟨content, -, h⟩ := bind_eq_ok.mp h
  obtain ⟨w, hw, h⟩ := bind_eq_ok.mp h
  obtain ⟨subs, hsubs, h⟩ := bind_eq_ok.mp h
  obtain ⟨subsections, hsubsections, h⟩ := bind_eq_ok.mp h
  obtain rfl := Except.ok.inj h
  refine ⟨read ++ (subsections.flatMap PRDSection.collect).map some, ?_, ?_⟩
  · rw [topEntries, itemsOf_eq hv hitems, itemsOf_eq hw hsubs]
    refine List.rel_append ?_ (forall₂_own (forall₂_flatMap (forall₂_of_mapM hsubsections)
      fun item _ s hs => forall₂_collect hs))
    rw [List.forall₂_map_left_iff]
    exact forall₂_of_mapM hread
  · rw [PRDSection.collect, collects_eq_flatMap, List.reduceOption_append, reduceOption_map_some]

theorem forall₂_buildSections {items : List PyValue} {sections : List PRDSection}
    (h : List.Forall₂ (fun data s => buildSection requirements skipInvalid data = .ok s) items
      sections) :
    ∃ read, List.Forall₂ (ReadAs requirements skipInvalid) (items.flatMap topEntries) read ∧
      PRDSection.collects sections = read.reduceOption := by
  induction h with
  | nil => exact ⟨[], .nil, rfl⟩
  | cons hs _ ih =>
    obtain ⟨read, hread, heq⟩ := forall₂_buildSection hs
    obtain ⟨later, hlater, hrest⟩ := ih
    refine ⟨read ++ later, List.rel_append hread hlater, ?_⟩
    rw [PRDSection.collects, heq, hrest, List.reduceOption_append]

/-- **What a document is built of**: the requirements are those that the entries are read as. -/
theorem forall₂_build {now : Time} {title : String} {prdData : PyValue} {doc : PRDDocument}
    (h : buildPrdFromResponse requirements skipInvalid now title prdData = .ok doc) :
    ∃ read, List.Forall₂ (ReadAs requirements skipInvalid) (entries prdData) read ∧
      doc.allRequirements = read.reduceOption := by
  obtain ⟨v, hv, h⟩ := bind_eq_ok.mp h
  obtain ⟨items, hitems, h⟩ := bind_eq_ok.mp h
  obtain ⟨sections, hsections, h⟩ := bind_eq_ok.mp h
  obtain ⟨w, hw, h⟩ := bind_eq_ok.mp h
  obtain ⟨objectives, hobjectives, h⟩ := bind_eq_ok.mp h
  obtain ⟨x, hx, h⟩ := bind_eq_ok.mp h
  obtain ⟨scope, hscope, h⟩ := bind_eq_ok.mp h
  obtain ⟨title', -, h⟩ := bind_eq_ok.mp h
  obtain ⟨summary, -, h⟩ := bind_eq_ok.mp h
  obtain ⟨version, -, h⟩ := bind_eq_ok.mp h
  obtain rfl := Except.ok.inj h
  obtain ⟨read, hread, heq⟩ := forall₂_buildSections (forall₂_of_mapM hsections)
  have hw' : field prdData "objectives" (.dict []) = w := by simp [field, hw]
  have hx' : field prdData "scope" (.dict []) = x := by simp [field, hx]
  refine ⟨objectives.collect.map some ++ scope.collect.map some ++ read, ?_, ?_⟩
  · rw [entries, hw', hx', itemsOf_eq hv hitems]
    exact List.rel_append (List.rel_append (forall₂_own (forall₂_collect hobjectives))
      (forall₂_own (forall₂_collect hscope))) hread
  · rw [PRDDocument.create, heq, List.reduceOption_append, List.reduceOption_append,
      reduceOption_map_some, reduceOption_map_some]

end

/-! ## What an answer keeps -/

theorem isText_iff {v : PyValue} {s : String} : v.isText s = true ↔ v = .str s := by
  cases v <;> simp [PyValue.isText]

/-- What is read of a dictionary. -/
theorem fromDict_fields {data : PyValue} {q : Requirement} (h : Requirement.fromDict data = .ok q) :
    q.id = field data "id" (.str "") ∧ q.description = field data "description" (.str "") ∧
      RequirementPriority.of (field data "priority" (.str "should_have")) = .ok q.priority ∧
      RequirementType.of (field data "type" (.str "functional")) = .ok q.type := by
  obtain ⟨id, hid, h⟩ := bind_eq_ok.mp h
  obtain ⟨description, hdescription, h⟩ := bind_eq_ok.mp h
  obtain ⟨priority, hpriority, h⟩ := bind_eq_ok.mp h
  obtain ⟨p, hp, h⟩ := bind_eq_ok.mp h
  obtain ⟨type, htype, h⟩ := bind_eq_ok.mp h
  obtain ⟨t, ht, h⟩ := bind_eq_ok.mp h
  obtain ⟨_, -, h⟩ := bind_eq_ok.mp h
  obtain ⟨_, -, h⟩ := bind_eq_ok.mp h
  obtain ⟨_, -, h⟩ := bind_eq_ok.mp h
  obtain rfl := Except.ok.inj h
  simp [field, hid, hdescription, hpriority, htype, hp, ht]

variable {ex : Extracted} {r : Requirement} {s : String}

theorem Extracted.exists_id (hr : r ∈ ex.requirements) : ∃ s ∈ ex.ids, r.id = .str s := by
  have hmem := List.mem_map_of_mem (f := Requirement.id) hr
  rw [ex.map_id] at hmem
  obtain ⟨s, hs, heq⟩ := List.mem_map.mp hmem
  exact ⟨s, hs, heq.symm⟩

/-- Extracted requirements are told apart by their identifiers. -/
theorem Extracted.eq_of_id {q : Requirement} (hr : r ∈ ex.requirements) (hq : q ∈ ex.requirements)
    (h : q.id = r.id) : q = r := by
  have hnodup : (ex.requirements.map Requirement.id).Nodup := by
    rw [ex.map_id]
    exact ex.nodup.map fun _ _ => PyValue.str.inj
  exact List.inj_on_of_nodup_map hnodup hq hr h

theorem matching_spec {reqId : PyValue} {q : Requirement}
    (h : matching ex.requirements reqId = some q) : q ∈ ex.requirements ∧ q.id = reqId := by
  have hmem := List.mem_of_find?_eq_some h
  obtain ⟨t, -, ht⟩ := Extracted.exists_id hmem
  have hfound := List.find?_some h
  rw [ht] at hfound
  exact ⟨hmem, by rw [ht, isText_iff.mp hfound]⟩

/-- The requirement with an identifier is found. -/
theorem matching_eq_some (hr : r ∈ ex.requirements) (hs : r.id = .str s) :
    matching ex.requirements (.str s) = some r := by
  cases hfound : matching ex.requirements (.str s) with
  | none =>
    have hnone := List.find?_eq_none.mp hfound r hr
    simp [hs, PyValue.isText] at hnone
  | some q =>
    obtain ⟨hq, hid⟩ := matching_spec hfound
    rw [Extracted.eq_of_id hr hq (hid.trans hs.symm)]

section

variable {skipInvalid : Bool} {e : Entry} {read : Option Requirement}

/-- An entry with the identifier of a requirement is read as one with it. -/
theorem exists_of_readAs (hr : r ∈ ex.requirements) (hs : r.id = .str s)
    (h : ReadAs ex.requirements skipInvalid e read) (hid : e.id.isText s = true) :
    ∃ q, read = some q ∧ q.id.isText s = true ∧
      ((q.description = r.description ∧ q.type = r.type ∧ q.priority = r.priority) ↔
        e.matched = true ∨ e.States r) := by
  rw [ReadAs] at h
  split at h
  · next hmatched =>
    obtain ⟨reqId, hget, h⟩ := bind_eq_ok.mp h
    have hreqId : reqId = .str s := by
      rw [isText_iff, Entry.id, field, hget] at hid
      exact hid
    rw [hreqId, matching_eq_some hr hs] at h
    obtain rfl := Except.ok.inj h
    exact ⟨r, rfl, isText_iff.mpr hs, by simp [hmatched]⟩
  · next hown =>
    obtain ⟨q, hq, rfl⟩ := h
    obtain ⟨hqid, hdescription, hpriority, htype⟩ := fromDict_fields hq
    refine ⟨q, rfl, by rw [hqid]; exact hid, ?_⟩
    simp only [hown, Bool.false_eq_true, false_or, Entry.States, hpriority, htype, hdescription,
      Except.ok.injEq]

/-- An entry with another identifier is read as none with it. -/
theorem isText_of_readAs (h : ReadAs ex.requirements skipInvalid e read)
    (hid : e.id.isText s = false) : ∀ q ∈ read, q.id.isText s = false := by
  intro q hq
  rw [ReadAs] at h
  split at h
  · obtain ⟨reqId, hget, h⟩ := bind_eq_ok.mp h
    have hreqId : e.id = reqId := by simp [Entry.id, field, hget]
    cases hfound : matching ex.requirements reqId with
    | some found =>
      simp only [hfound] at h
      obtain rfl := Except.ok.inj h
      obtain rfl := Option.some.inj hq
      rw [(matching_spec hfound).2, ← hreqId, hid]
    | none =>
      simp only [hfound] at h
      cases hread : Requirement.fromDict e.data with
      | ok found =>
        simp only [hread] at h
        obtain rfl := Except.ok.inj h
        obtain rfl := Option.some.inj hq
        rw [(fromDict_fields hread).1]
        exact hid
      | error error =>
        simp only [hread] at h
        split at h
        · obtain rfl := Except.ok.inj h
          cases hq
        · cases h
  · obtain ⟨found, hread, rfl⟩ := h
    obtain rfl := Option.some.inj hq
    rw [(fromDict_fields hread).1]
    exact hid

/-- As many requirements have an identifier as entries have it. -/
theorem countP_of_readAs (hr : r ∈ ex.requirements) (hs : r.id = .str s) {es : List Entry}
    {read : List (Option Requirement)}
    (h : List.Forall₂ (ReadAs ex.requirements skipInvalid) es read) :
    read.reduceOption.countP (fun q => q.id.isText s) = es.countP fun e => e.id.isText s := by
  induction h with
  | nil => rfl
  | @cons e first _ _ hread _ ih =>
    cases hid : e.id.isText s with
    | true =>
      obtain ⟨q, rfl, hq, -⟩ := exists_of_readAs hr hs hread hid
      simp [List.reduceOption_cons_of_some, hq, hid, ih]
    | false =>
      have hother := isText_of_readAs hread hid
      cases first with
      | none => simp [List.reduceOption_cons_of_none, hid, ih]
      | some q => simp [List.reduceOption_cons_of_some, hid, hother q rfl, ih]

/-- They are like a requirement exactly if the entries stand for it or are like it. -/
theorem forall_same_iff (hr : r ∈ ex.requirements) (hs : r.id = .str s) {es : List Entry}
    {read : List (Option Requirement)}
    (h : List.Forall₂ (ReadAs ex.requirements skipInvalid) es read) :
    (∀ q ∈ read.reduceOption, q.id.isText s = true →
        q.description = r.description ∧ q.type = r.type ∧ q.priority = r.priority) ↔
      ∀ e ∈ es, e.id.isText s = true → e.matched = true ∨ e.States r := by
  induction h with
  | nil => simp [List.reduceOption]
  | @cons e first _ _ hread _ ih =>
    rw [List.forall_mem_cons, ← ih]
    cases hid : e.id.isText s with
    | true =>
      obtain ⟨q, rfl, hq, hlike⟩ := exists_of_readAs hr hs hread hid
      rw [List.reduceOption_cons_of_some, List.forall_mem_cons, ← hlike]
      simp only [hq, forall_const]
    | false =>
      have hother := isText_of_readAs hread hid
      cases first with
      | none => simp [List.reduceOption_cons_of_none]
      | some q => simp [List.reduceOption_cons_of_some, hother q rfl]

/-- A requirement is there once exactly if one entry has its identifier, and stands for it or is like
it. -/
theorem hasOnce_iff (hr : r ∈ ex.requirements) (hs : r.id = .str s) {es : List Entry}
    {read : List (Option Requirement)}
    (h : List.Forall₂ (ReadAs ex.requirements skipInvalid) es read) :
    HasOnce read.reduceOption r s ↔ es.countP (fun e => e.id.isText s) = 1 ∧
      ∀ e ∈ es, e.id.isText s = true → e.matched = true ∨ e.States r := by
  rw [← countP_of_readAs hr hs h, ← forall_same_iff hr hs h]
  exact ⟨fun h => ⟨h.once, h.same⟩, fun h => ⟨h.1, h.2⟩⟩

/-- **What an answer keeps**: the document has all requirements exactly if the answer names them. -/
theorem hasAll_build_iff {now : Time} {title : String} {prdData : PyValue} {doc : PRDDocument}
    (h : buildPrdFromResponse ex.requirements skipInvalid now title prdData = .ok doc) :
    HasAll doc.allRequirements ex.requirements ↔ Named ex.requirements prdData := by
  obtain ⟨read, hread, heq⟩ := forall₂_build h
  rw [heq]
  exact forall₂_congr fun r hr => forall₂_congr fun s hs => hasOnce_iff hr hs hread

end

/-! ## The document without an answer -/

/-- All requirements, by their types. -/
theorem allRequirements_fallback (requirements : List Requirement) (now : Time)
    (title summary : String) :
    (createFallbackPrd requirements now title summary).allRequirements =
      fallbackSections.flatMap fun group => requirements.filter fun r => r.type = group.1 := by
  have hcollects : ∀ groups : List (RequirementType × String × String),
      PRDSection.collects (groups.filterMap fun (type, title, content) =>
        let grouped := requirements.filter fun r => r.type = type
        if grouped = [] then none else some ⟨.str title, .str content, grouped, []⟩) =
      groups.flatMap fun group => requirements.filter fun r => r.type = group.1 := by
    intro groups
    induction groups with
    | nil => rfl
    | cons group groups ih =>
      rw [List.filterMap_cons, List.flatMap_cons, ← ih]
      by_cases hempty : (requirements.filter fun r => r.type = group.1) = []
      · simp [hempty]
      · simp [hempty, PRDSection.collects, PRDSection.collect]
  simp only [createFallbackPrd, PRDDocument.create, hcollects, PRDSection.collect,
    PRDSection.collects, List.nil_append]

/-- An extracted identifier is there once. -/
theorem Extracted.countP_id (hr : r ∈ ex.requirements) (hs : r.id = .str s) :
    ex.requirements.countP (fun q => q.id.isText s) = 1 := by
  obtain ⟨t, ht, hid⟩ := Extracted.exists_id hr
  obtain rfl : t = s := PyValue.str.inj (hid.symm.trans hs)
  have hids : (ex.requirements.map Requirement.id).countP (PyValue.isText t) = ex.ids.count t := by
    rw [ex.map_id, List.countP_map, List.count]
    exact List.countP_congr fun u _ => by simp [PyValue.isText]
  rw [← List.count_eq_one_of_mem ex.nodup ht, ← hids, List.countP_map]
  rfl

/-- **Without an answer** the document has all requirements. -/
theorem hasAll_fallback (ex : Extracted) (now : Time) (title summary : String) :
    HasAll (createFallbackPrd ex.requirements now title summary).allRequirements
      ex.requirements := by
  intro r hr s hs
  rw [allRequirements_fallback]
  constructor
  · rw [← Extracted.countP_id hr hs]
    simp only [fallbackSections, List.flatMap_cons, List.flatMap_nil, List.countP_append,
      List.countP_nil]
    generalize ex.requirements = l
    induction l with
    | nil => rfl
    | cons q l ih => cases htype : q.type <;> simp [htype, List.countP_cons] <;> omega
  · intro q hq hid
    obtain ⟨group, -, hgroup⟩ := List.mem_flatMap.mp hq
    have hmem := (List.mem_filter.mp hgroup).1
    rw [Extracted.eq_of_id hr hmem ((isText_iff.mp hid).trans hs.symm)]
    exact ⟨rfl, rfl, rfl⟩

/-! ## When requirements are kept -/

/-- An answer is the first one of which the agent can build a document. -/
def PRDAgent.Used (limits : Agents.LoadsLimits) (now : Time) (answers : List (Option String))
    (requirements : List Requirement) (prdData : PyValue) : Prop :=
  (∃ text, (PyValue.list (requirements.map Requirement.toDict)).dumps = .ok text) ∧
    ∃ front answer back prd, answers = front ++ answer :: back ∧
      (∀ earlier ∈ front, PRDAgent.attempt limits now requirements earlier = none) ∧
      readAnswer limits answer = some prdData ∧
      buildPrdFromResponse requirements false now "Untitled Project" prdData = .ok prd

/-- An answer is the first one that the generator can read, and it can build a document of it. -/
def PRDGenerator.Used (limits : Agents.LoadsLimits) (now : Time) (answers : List (Option String))
    (input : PRDGenerator.Input) (requirements : List Requirement) (prdData : PyValue) : Prop :=
  input.extractedRequirements ≠ [] ∧ input.projectTitle ≠ "" ∧
    (∃ text, (PyValue.list input.extractedRequirements).dumps = .ok text) ∧
    getPrdStructure limits answers = some prdData ∧
    ∃ prd, buildPrdFromResponse requirements true now input.projectTitle prdData = .ok prd

variable {limits : Agents.LoadsLimits} {now : Time} {answers : List (Option String)}

/-- **The agent** keeps the requirements that the answer names which it uses. -/
theorem PRDAgent.keeps_iff {title : String} :
    (∀ prd, generatePrd limits now answers ex.requirements title = .ok prd →
        HasAll prd.allRequirements ex.requirements) ↔
      ∀ prdData, Used limits now answers ex.requirements prdData →
        Named ex.requirements prdData := by
  constructor
  · intro h prdData hused
    obtain ⟨⟨text, htext⟩, front, answer, back, prd, rfl, hfront, hread, hbuild⟩ := hused
    have hattempt : attempt limits now ex.requirements answer = some prd := by
      simp [attempt, hread, hbuild, Except.toOption]
    have hfound : (front ++ answer :: back).findSome? (attempt limits now ex.requirements)
        = some prd :=
      List.findSome?_eq_some_iff.mpr ⟨front, answer, back, rfl, hattempt, hfront⟩
    have hprd := h prd (by simp [generatePrd, htext, hfound])
    exact (hasAll_build_iff hbuild).mp hprd
  · intro h prd hprd
    obtain ⟨text, htext, hprd⟩ := bind_eq_ok.mp hprd
    cases hfound : answers.findSome? (attempt limits now ex.requirements) with
    | none =>
      simp only [hfound] at hprd
      obtain rfl := Except.ok.inj hprd
      exact hasAll_fallback ex now _ _
    | some found =>
      simp only [hfound] at hprd
      obtain rfl := Except.ok.inj hprd
      obtain ⟨front, answer, back, rfl, hattempt, hfront⟩ := List.findSome?_eq_some_iff.mp hfound
      obtain ⟨prdData, hread, hbuild⟩ := Option.bind_eq_some_iff.mp hattempt
      have hbuilt : buildPrdFromResponse ex.requirements false now "Untitled Project" prdData
          = .ok found := by
        cases hresult : buildPrdFromResponse ex.requirements false now "Untitled Project" prdData with
        | ok doc => simpa [hresult, Except.toOption] using hbuild
        | error e => simp [hresult, Except.toOption] at hbuild
      exact (hasAll_build_iff hbuilt).mpr
        (h prdData ⟨⟨text, htext⟩, front, answer, back, found, rfl, hfront, hread, hbuilt⟩)

theorem PRDGenerator.convertRequirement_eq {raw : PyValue} {r : Requirement} (h : Describes raw r)
    (i : ℕ) : convertRequirement raw i = .ok r := by
  obtain ⟨v, hpriority, hp⟩ := h.priority
  obtain ⟨w, htype, ht⟩ := h.type
  obtain ⟨id, description, priority, type, rationale, source, metadata⟩ := r
  have hmetadata : metadata = .dict [] := h.metadata
  simp only at hp ht
  simp only [convertRequirement, h.id, h.description, hpriority, hp, htype, ht, h.rationale,
    h.source, ok_bind, hmetadata]
  rfl

/-- The dictionaries are converted to the requirements. -/
theorem PRDGenerator.convertRequirements_eq (data : ExtractedData) :
    convertRequirements data.raws = .ok data.requirements := by
  have hconverted : ∀ {raws requirements}, List.Forall₂ Describes raws requirements → ∀ k,
      ((raws.zipIdx k).mapM fun (raw, i) =>
        match convertRequirement raw i with
        | .ok r => return some r
        | .error e => if e.cls ∈ [.valueError, .keyError] then return none else .error e)
      = (Except.ok (requirements.map some) : Except Error (List (Option Requirement))) := by
    intro raws requirements h
    induction h with
    | nil => exact fun _ => rfl
    | cons hfirst _ ih =>
      intro k
      rw [List.zipIdx_cons, List.mapM_cons, ih]
      simp only [convertRequirement_eq hfirst]
      rfl
  rw [convertRequirements, hconverted data.describes, ok_bind, reduceOption_map_some]
  rfl

theorem PRDGenerator.generate_eq_success {input : PRDGenerator.Input} {prd : PRDDocument} :
    generate limits now answers input = .success prd ↔
      input.extractedRequirements ≠ [] ∧ input.projectTitle ≠ "" ∧
        document limits now answers input = .ok prd := by
  rw [generate]
  split
  · next hnone => simp [hnone]
  · next hsome =>
    split
    · next htitle => simp [htitle]
    · next htitle => cases document limits now answers input <;> simp [hsome, htitle]

/-- **The generator** keeps the requirements that the answer names which it uses. -/
theorem PRDGenerator.keeps_iff {data : ExtractedData} {input : PRDGenerator.Input}
    (hinput : input.extractedRequirements = data.raws) :
    (∀ prd, generate limits now answers input = .success prd →
        HasAll prd.allRequirements data.requirements) ↔
      ∀ prdData, Used limits now answers input data.requirements prdData →
        Named data.requirements prdData := by
  have hconvert := convertRequirements_eq data
  rw [← hinput] at hconvert
  simp only [generate_eq_success]
  constructor
  · intro h prdData hused
    obtain ⟨hsome, htitle, ⟨text, htext⟩, hread, prd, hbuild⟩ := hused
    have hdocument : document limits now answers input = .ok prd := by
      rw [document, htext, hconvert]
      simp only [ok_bind, hread]
      exact hbuild
    have hprd := h prd ⟨hsome, htitle, hdocument⟩
    exact (@hasAll_build_iff data.toExtracted _ _ _ _ _ hbuild).mp hprd
  · intro h prd ⟨hsome, htitle, hdocument⟩
    obtain ⟨text, htext, hdocument⟩ := bind_eq_ok.mp hdocument
    simp only [hconvert, ok_bind] at hdocument
    cases hread : getPrdStructure limits answers with
    | none =>
      simp only [hread] at hdocument
      obtain rfl := Except.ok.inj hdocument
      exact hasAll_fallback data.toExtracted now _ _
    | some prdData =>
      simp only [hread] at hdocument
      exact (@hasAll_build_iff data.toExtracted _ _ _ _ _ hdocument).mpr
        (h prdData ⟨hsome, htitle, ⟨text, htext⟩, hread, prd, hdocument⟩)

/-- The agent and the generator keep what was extracted, and a document that is created has the
requirements of its sections and is read as it was written. -/
structure Kept (limits : Agents.LoadsLimits) (iso : Rlm.IsoFormat) (now : Time)
    (answers : List (Option String)) (ex : Extracted) (data : ExtractedData)
    (title summary : String) (objectives scope : PRDSection) (sections : List PRDSection)
    (doc : PRDDocument) : Prop where
  agent : ∀ prd, PRDAgent.generatePrd limits now answers ex.requirements title = .ok prd →
    HasAll prd.allRequirements ex.requirements
  generator : ∀ prd, PRDGenerator.generate limits now answers ⟨title, summary, data.raws⟩
    = .success prd → HasAll prd.allRequirements data.requirements
  flattened : doc.allRequirements =
    (PRDSection.nodesOf (objectives :: scope :: sections)).flatMap PRDSection.requirements
  comesBack : doc.ComesBack iso now

/-- **When requirements are kept**: where each answer that is used names every requirement once, and
the values of a document that is created are JSON values. -/
theorem requirementsKept_iff (limits : Agents.LoadsLimits) (iso : Rlm.IsoFormat) (now : Time)
    (answers : List (Option String)) (ex : Extracted) (data : ExtractedData)
    (title summary : String) (docTitle executiveSummary version : PyValue)
    (objectives scope : PRDSection) (sections : List PRDSection) :
    Kept limits iso now answers ex data title summary objectives scope sections
        (.create now docTitle executiveSummary objectives scope sections version) ↔
      (∀ prdData, PRDAgent.Used limits now answers ex.requirements prdData →
          Named ex.requirements prdData) ∧
        (∀ prdData, PRDGenerator.Used limits now answers ⟨title, summary, data.raws⟩
            data.requirements prdData → Named data.requirements prdData) ∧
        (PRDDocument.create now docTitle executiveSummary objectives scope sections version).Plain := by
  have hflattened : (PRDDocument.create now docTitle executiveSummary objectives scope sections
      version).allRequirements =
        (PRDSection.nodesOf (objectives :: scope :: sections)).flatMap PRDSection.requirements := by
    rw [← PRDSection.collects_eq, PRDDocument.create, PRDSection.collects, PRDSection.collects,
      List.append_assoc]
  have hagent := @PRDAgent.keeps_iff ex limits now answers title
  have hdocument := @PRDDocument.comesBack_iff iso now
  rw [← hdocument, ← hagent, ← PRDGenerator.keeps_iff rfl]
  exact ⟨fun h => ⟨h.agent, h.generator, h.comesBack⟩, fun h => ⟨h.1, h.2.1, hflattened, h.2.2⟩⟩

/-- A requirement that was extracted. -/
def extractedLogin : ExtractedData where
  requirements := [⟨.str "REQ-001", .str "Users log in", .shouldHave, .functional, .str "",
    .str "ideation", .dict []⟩]
  ids := ["REQ-001"]
  map_id := rfl
  nodup := by simp
  raws := [.record [("id", .str "REQ-001"), ("description", .str "Users log in"),
    ("source", .str "ideation")]]
  describes := by
    refine .cons ?_ .nil
    exact
      { id := fun _ => rfl
        description := rfl
        priority := ⟨_, rfl, rfl⟩
        type := ⟨_, rfl, rfl⟩
        rationale := rfl
        source := rfl
        metadata := rfl }

/-- An answer without sections. -/
def bareAnswer : PyValue := .dict [(.str "version", .bool true)]

theorem readAnswer_bare : readAnswer Agents.JsonExtraction.exampleLimits
    (some "\x7b\"version\": true\x7d") = some bareAnswer := by
  have hloads : JsonText.loads Agents.JsonExtraction.exampleLimits.maxDigits
      Agents.JsonExtraction.exampleLimits.depth "\x7b\"version\": true\x7d".toList
        = .ok (.obj [(some "version", .bool true)]) := by decide +kernel
  simp only [readAnswer, Agents.parseJsonFromResponse, Agents.JsonExtraction.loadsOr, hloads]
  rfl

theorem subsectionsOf_empty : ∃ l, subsectionsOf (.dict []) = .ok l ∧ l.val = [] :=
  ⟨⟨[], by simp⟩, rfl, rfl⟩

theorem fromDict_empty :
    PRDSection.fromDict (.dict []) = .ok ⟨.str "", .str "", [], []⟩ := by
  obtain ⟨l, hl, hval⟩ := subsectionsOf_empty
  rw [PRDSection.fromDict_eq, hl]
  simp only [ok_bind, hval]
  rfl

theorem sectionEntries_empty : sectionEntries (.dict []) = [] := by
  obtain ⟨l, hl, hval⟩ := subsectionsOf_empty
  rw [sectionEntries_eq, hl]
  simp only [hval]
  rfl

/-- A document is built of it, without entries. -/
theorem build_bare (requirements : List Requirement) (skipInvalid : Bool) (now : Time)
    (title : String) :
    ∃ prd, buildPrdFromResponse requirements skipInvalid now title bareAnswer = .ok prd := by
  refine ⟨.create now (.str title) (.str "") ⟨.str "", .str "", [], []⟩ ⟨.str "", .str "", [], []⟩
    [] (.bool true), ?_⟩
  have hobjectives : bareAnswer.get "objectives" (.dict []) = .ok (.dict []) := rfl
  have hscope : bareAnswer.get "scope" (.dict []) = .ok (.dict []) := rfl
  rw [buildPrdFromResponse, hobjectives, hscope]
  simp only [ok_bind, fromDict_empty]
  rfl

theorem entries_bare : entries bareAnswer = [] := by
  have hobjectives : field bareAnswer "objectives" (.dict []) = .dict [] := rfl
  have hscope : field bareAnswer "scope" (.dict []) = .dict [] := rfl
  have hsections : itemsOf bareAnswer "sections" = [] := rfl
  rw [entries, hobjectives, hscope, hsections, sectionEntries_empty]
  rfl

/-- It loses the requirement. -/
theorem not_kept_bare : ¬ ∃ iso, Kept Agents.JsonExtraction.exampleLimits iso 0
    [some "\x7b\"version\": true\x7d"] extractedLogin.toExtracted extractedLogin "Login" ""
    ⟨.str "", .str "", [], []⟩ ⟨.str "", .str "", [], []⟩ []
    (.create 0 (.str "Login") (.str "") ⟨.str "", .str "", [], []⟩ ⟨.str "", .str "", [], []⟩ []) := by
  intro ⟨iso, h⟩
  have hused : PRDAgent.Used Agents.JsonExtraction.exampleLimits 0
      [some "\x7b\"version\": true\x7d"] extractedLogin.requirements bareAnswer :=
    by
    obtain ⟨prd, hbuild⟩ := build_bare extractedLogin.requirements false 0 "Untitled Project"
    exact ⟨⟨_, rfl⟩, [], _, [], prd, rfl, by simp, readAnswer_bare, hbuild⟩
  have hnamed := PRDAgent.keeps_iff.mp h.agent _ hused _ List.mem_cons_self "REQ-001" rfl
  rw [entries_bare] at hnamed
  exact absurd hnamed.1 (by simp)

end DoxAsdlc.Discovery
