import DoxAsdlc.Core.Metadata
import DoxAsdlc.Rlm.Records

/-!
# Requirements documents

A document is a tree of sections with requirements, and has a list of all requirements besides.  It
is written as a dictionary of dictionaries and read back.  What is read has a default for each field
and may hold a value of any kind, but for the priority and the type of a requirement.

## Main definitions

* `Requirement`, `PRDSection`, `PRDDocument` — the documents.
* `PRDDocument.create` — a document with all requirements of its sections.
* `PRDDocument.toJson`, `PRDDocument.fromJson` — writing and reading.
* `PRDDocument.Plain` — a document of JSON values.

## Main results

* `collect_eq` — all requirements are those of the nodes of the tree.
* `comesBack_iff` — the documents that are read as they were written.
-/

namespace DoxAsdlc

open Rlm (Json)

/-! ## Values -/

/-- A key as a value. -/
def PyKey.value : PyKey → PyValue
  | .none => .none
  | .bool b => .bool b
  | .int n => .int n
  | .float _ => .other "float"
  | .str s => .str s
  | .other typeName => .other typeName

namespace PyValue

/-- The name of the type. -/
def typeName : PyValue → String
  | .none => "NoneType"
  | .bool _ => "bool"
  | .int _ => "int"
  | .float _ => "float"
  | .str _ => "str"
  | .list _ => "list"
  | .tuple _ => "tuple"
  | .dict _ => "dict"
  | .other typeName => typeName

/-- An `AttributeError`. -/
def attributeError (value : PyValue) (name : String) : Error :=
  ⟨.exception, "'" ++ value.typeName ++ "' object has no attribute '" ++ name ++ "'", []⟩

/-- `value.get(key, default)`. -/
def get (value : PyValue) (key : String) (default : PyValue) : Except Error PyValue :=
  match value with
  | .dict entries => .ok ((entries.lookup (.str key)).getD default)
  | v => .error (v.attributeError "get")

/-- The items of a loop over a value. -/
def elements : PyValue → Except Error (List PyValue)
  | .list items | .tuple items => .ok items
  | .dict entries => .ok (entries.map fun e => e.1.value)
  | .str s => .ok (s.toList.map fun c => .str (String.singleton c))
  | v => .error ⟨.exception, "'" ++ v.typeName ++ "' object is not iterable", []⟩

/-- A dictionary with texts as keys. -/
def record (fields : List (String × PyValue)) : PyValue :=
  .dict (fields.map fun f => (.str f.1, f.2))

theorem lookup_str (fields : List (String × PyValue)) (key : String) :
    (fields.map fun f => (PyKey.str f.1, f.2)).lookup (.str key) = fields.lookup key := by
  induction fields with
  | nil => rfl
  | cons f fields ih => simp [OrderedDict.lookup_cons_ite, ih]

@[simp] theorem get_record (fields : List (String × PyValue)) (key : String) (default : PyValue) :
    (record fields).get key default = .ok ((fields.lookup key).getD default) := by
  rw [record, get, lookup_str]

/-- What is in a dictionary is smaller. -/
theorem sizeOf_lt_of_lookup {entries : List (PyKey × PyValue)} {key : PyKey} {v : PyValue}
    (h : entries.lookup key = some v) : sizeOf v < sizeOf (dict entries) := by
  obtain ⟨front, back, rfl, -⟩ := List.lookup_eq_some_iff.mp h
  have hmem := List.sizeOf_lt_of_mem (List.mem_append_right front
    (List.mem_cons_self (a := (key, v)) (l := back)))
  simp only [Prod.mk.sizeOf_spec] at hmem
  simp only [dict.sizeOf_spec]
  omega

/-- So are the items of a list in it. -/
theorem sizeOf_lt_of_item {entries : List (PyKey × PyValue)} {key : PyKey} {v item : PyValue}
    {items : List PyValue} (h : entries.lookup key = some v) (hv : v = list items ∨ v = tuple items)
    (hitem : item ∈ items) : sizeOf item < sizeOf (dict entries) := by
  have hlookup := sizeOf_lt_of_lookup h
  have hmem := List.sizeOf_lt_of_mem hitem
  cases hv with
  | inl hlist =>
    rw [hlist, list.sizeOf_spec] at hlookup
    omega
  | inr htuple =>
    rw [htuple, tuple.sizeOf_spec] at hlookup
    omega

@[simp] theorem elements_list (items : List PyValue) : (list items).elements = .ok items := rfl

/-! ### Plain values -/

theorem plainItems_iff {items : List PyValue} :
    PlainItems items ↔ ∀ item ∈ items, item.Plain := by
  induction items with
  | nil => simp [PlainItems]
  | cons item items ih => simp [PlainItems, ih]

theorem plainEntries_iff {entries : List (PyKey × PyValue)} :
    PlainEntries entries ↔ ∀ e ∈ entries, (∃ s, e.1 = .str s) ∧ e.2.Plain := by
  induction entries with
  | nil => simp [PlainEntries]
  | cons e entries ih => simp [PlainEntries, ih, and_assoc]

mutual

/-- What is loaded is plain. -/
theorem plain_loads : ∀ j : Json, (loads j).Plain
  | .null | .bool _ | .int _ | .float _ | .str _ => trivial
  | .arr items => by
    rw [loads, Plain, plainItems_iff]
    exact plain_loadsItems items
  | .obj fields => by
    rw [loads, Plain, plainEntries_iff]
    refine ⟨OrderedDict.nodup_entriesOf _, fun e he => ?_⟩
    have hmem := OrderedDict.mem_of_mem_entriesOf he
    exact ⟨key_of_mem_loadsFields hmem, plain_loadsFields fields e hmem⟩

theorem plain_loadsItems : ∀ items : List Json, ∀ v ∈ loadsItems items, v.Plain
  | [] => by simp [loadsItems]
  | j :: items => by
    simp only [loadsItems, List.forall_mem_cons]
    exact ⟨plain_loads j, plain_loadsItems items⟩

theorem plain_loadsFields : ∀ fields : List (String × Json), ∀ e ∈ loadsFields fields, e.2.Plain
  | [] => by simp [loadsFields]
  | (_, j) :: fields => by
    simp only [loadsFields, List.forall_mem_cons]
    exact ⟨plain_loads j, plain_loadsFields fields⟩

end

theorem plain_record {fields : List (String × PyValue)} (hkeys : (fields.map Prod.fst).Nodup) :
    (record fields).Plain ↔ ∀ f ∈ fields, f.2.Plain := by
  have hnodup : ((fields.map fun f => (PyKey.str f.1, f.2)).map Prod.fst).Nodup := by
    have hinj := hkeys.map (f := PyKey.str) fun _ _ => PyKey.str.inj
    simpa [List.map_map, Function.comp_def] using hinj
  rw [record, Plain, plainEntries_iff, and_iff_right hnodup, List.forall_mem_map]
  exact forall₂_congr fun f _ => and_iff_right ⟨f.1, rfl⟩

theorem plain_of_lookup {entries : List (PyKey × PyValue)} {key : PyKey} {v : PyValue}
    (hplain : (dict entries).Plain) (h : entries.lookup key = some v) : v.Plain := by
  obtain ⟨front, back, rfl, -⟩ := List.lookup_eq_some_iff.mp h
  exact (plainEntries_iff.mp hplain.2 (key, v) (by simp)).2

theorem plain_get {data v default : PyValue} {key : String} (hplain : data.Plain)
    (h : data.get key default = .ok v) (hdefault : default.Plain) : v.Plain := by
  cases data with
  | dict entries =>
    obtain rfl := Except.ok.inj h
    cases hlookup : entries.lookup (.str key) with
    | none => exact hdefault
    | some found => exact plain_of_lookup hplain hlookup
  | _ => cases h

theorem plain_elements {v item : PyValue} {items : List PyValue} (hplain : v.Plain)
    (h : v.elements = .ok items) (hitem : item ∈ items) : item.Plain := by
  cases v with
  | list l =>
    obtain rfl := Except.ok.inj h
    exact plainItems_iff.mp hplain item hitem
  | tuple l => exact hplain.elim
  | str text =>
    obtain rfl := Except.ok.inj h
    obtain ⟨c, -, rfl⟩ := List.mem_map.mp hitem
    trivial
  | dict entries =>
    obtain rfl := Except.ok.inj h
    obtain ⟨e, he, rfl⟩ := List.mem_map.mp hitem
    obtain ⟨⟨s, hs⟩, -⟩ := plainEntries_iff.mp hplain.2 e he
    rw [hs]
    trivial
  | _ => cases h

/-- Is this the text `s`? -/
def isText (s : String) : PyValue → Bool
  | .str t => t = s
  | _ => false

end PyValue

namespace Discovery

/-! ## Requirements -/

/-- `RequirementPriority`. -/
inductive RequirementPriority where
  | mustHave | shouldHave | couldHave | wontHave
  deriving DecidableEq, Repr

/-- The text of a priority. -/
def RequirementPriority.value : RequirementPriority → String
  | .mustHave => "must_have"
  | .shouldHave => "should_have"
  | .couldHave => "could_have"
  | .wontHave => "wont_have"

/-- `RequirementType`. -/
inductive RequirementType where
  | functional | nonFunctional | constraint | assumption
  deriving DecidableEq, Repr

/-- The text of a type. -/
def RequirementType.value : RequirementType → String
  | .functional => "functional"
  | .nonFunctional => "non_functional"
  | .constraint => "constraint"
  | .assumption => "assumption"

/-- The member of an enumeration with a value: a `ValueError` without one. -/
def member {E : Type} (enumeration : String) (members : List E) (value : E → String)
    (v : PyValue) : Except Error E :=
  match members.find? fun m => v.isText (value m) with
  | some m => .ok m
  | none => .error ⟨.valueError, "not a valid " ++ enumeration, []⟩

/-- `RequirementPriority(value)`. -/
def RequirementPriority.of : PyValue → Except Error RequirementPriority :=
  member "RequirementPriority" [.mustHave, .shouldHave, .couldHave, .wontHave]
    RequirementPriority.value

/-- `RequirementType(value)`. -/
def RequirementType.of : PyValue → Except Error RequirementType :=
  member "RequirementType" [.functional, .nonFunctional, .constraint, .assumption]
    RequirementType.value

/-- `Requirement`. -/
structure Requirement where
  id : PyValue
  description : PyValue
  priority : RequirementPriority := .shouldHave
  type : RequirementType := .functional
  rationale : PyValue := .str ""
  source : PyValue := .str ""
  metadata : PyValue := .dict []

namespace Requirement

/-- `to_dict`. -/
def toDict (r : Requirement) : PyValue :=
  .record [("id", r.id), ("description", r.description), ("priority", .str r.priority.value),
    ("type", .str r.type.value), ("rationale", r.rationale), ("source", r.source),
    ("metadata", r.metadata)]

/-- `from_dict`. -/
def fromDict (data : PyValue) : Except Error Requirement := do
  return {
    id := ← data.get "id" (.str "")
    description := ← data.get "description" (.str "")
    priority := ← RequirementPriority.of (← data.get "priority" (.str "should_have"))
    type := ← RequirementType.of (← data.get "type" (.str "functional"))
    rationale := ← data.get "rationale" (.str "")
    source := ← data.get "source" (.str "")
    metadata := ← data.get "metadata" (.dict []) }

@[simp] theorem fromDict_toDict (r : Requirement) : fromDict r.toDict = .ok r := by
  have hpriority : RequirementPriority.of (.str r.priority.value) = .ok r.priority := by
    cases r.priority <;> rfl
  have htype : RequirementType.of (.str r.type.value) = .ok r.type := by
    cases r.type <;> rfl
  simp [fromDict, toDict, OrderedDict.lookup_cons_ite, ok_bind, hpriority, htype]

@[simp] theorem mapM_toDict (requirements : List Requirement) :
    requirements.mapM (fromDict ∘ toDict) = .ok requirements := by
  exact (mapM_eq_map fun r _ => r.fromDict_toDict).trans (by rw [List.map_id'])

/-- A requirement of JSON values. -/
structure Plain (r : Requirement) : Prop where
  id : r.id.Plain
  description : r.description.Plain
  rationale : r.rationale.Plain
  source : r.source.Plain
  metadata : r.metadata.Plain

theorem Plain.toDict {r : Requirement} (h : r.Plain) : r.toDict.Plain := by
  rw [Requirement.toDict, PyValue.plain_record (by simp)]
  simp only [List.forall_mem_cons]
  exact ⟨h.id, h.description, trivial, trivial, h.rationale, h.source, h.metadata, by simp⟩

theorem plain_fromDict {data : PyValue} {r : Requirement} (hplain : data.Plain)
    (h : fromDict data = .ok r) : r.Plain := by
  obtain ⟨id, hid, h⟩ := bind_eq_ok.mp h
  obtain ⟨description, hdescription, h⟩ := bind_eq_ok.mp h
  obtain ⟨_, -, h⟩ := bind_eq_ok.mp h
  obtain ⟨_, -, h⟩ := bind_eq_ok.mp h
  obtain ⟨_, -, h⟩ := bind_eq_ok.mp h
  obtain ⟨_, -, h⟩ := bind_eq_ok.mp h
  obtain ⟨rationale, hrationale, h⟩ := bind_eq_ok.mp h
  obtain ⟨source, hsource, h⟩ := bind_eq_ok.mp h
  obtain ⟨metadata, hmetadata, h⟩ := bind_eq_ok.mp h
  obtain rfl := Except.ok.inj h
  exact
    { id := PyValue.plain_get hplain hid trivial
      description := PyValue.plain_get hplain hdescription trivial
      rationale := PyValue.plain_get hplain hrationale trivial
      source := PyValue.plain_get hplain hsource trivial
      metadata := PyValue.plain_get hplain hmetadata ⟨List.nodup_nil, trivial⟩ }

/-- Requirements of a value are plain if it is. -/
theorem plain_of_mapM {v : PyValue} {items : List PyValue} {requirements : List Requirement}
    (hplain : v.Plain) (hitems : v.elements = .ok items)
    (h : items.mapM fromDict = .ok requirements) : ∀ r ∈ requirements, r.Plain := by
  intro r hr
  obtain ⟨item, hitem, hread⟩ := exists_of_forall₂ (forall₂_of_mapM h).flip hr
  exact plain_fromDict (PyValue.plain_elements hplain hitems hitem) hread

end Requirement

/-! ## Sections -/

/-- `PRDSection`. -/
structure PRDSection where
  title : PyValue
  content : PyValue
  requirements : List Requirement
  subsections : List PRDSection

/-- The subsections in a dictionary.  What is in a text or in a dictionary is no dictionary, so that
reading the first one of them raises. -/
def subsectionsOf (data : PyValue) :
    Except Error {items : List PyValue // ∀ item ∈ items, sizeOf item < sizeOf data} :=
  match data with
  | .dict entries =>
    match h : entries.lookup (.str "subsections") with
    | none => .ok ⟨[], by simp⟩
    | some (.list items) => .ok ⟨items, fun _ => PyValue.sizeOf_lt_of_item h (.inl rfl)⟩
    | some (.tuple items) => .ok ⟨items, fun _ => PyValue.sizeOf_lt_of_item h (.inr rfl)⟩
    | some v => do
        match ← v.elements with
        | [] => .ok ⟨[], by simp⟩
        | first :: _ => .error (first.attributeError "get")
  | v => .error (v.attributeError "get")

namespace PRDSection

mutual

/-- `to_dict`. -/
def toDict : PRDSection → PyValue
  | ⟨title, content, requirements, subsections⟩ =>
    .record [("title", title), ("content", content),
      ("requirements", .list (requirements.map Requirement.toDict)),
      ("subsections", .list (toDicts subsections))]

def toDicts : List PRDSection → List PyValue
  | [] => []
  | s :: ss => toDict s :: toDicts ss

end

/-- `from_dict`. -/
def fromDict (data : PyValue) : Except Error PRDSection := do
  let title ← data.get "title" (.str "")
  let content ← data.get "content" (.str "")
  let requirements ← (← (← data.get "requirements" (.list [])).elements).mapM Requirement.fromDict
  let items ← subsectionsOf data
  let subsections ← items.val.attach.mapM fun item => fromDict item.val
  return ⟨title, content, requirements, subsections⟩
termination_by sizeOf data
decreasing_by exact items.property item.val item.property

mutual

/-- `collect_requirements`. -/
def collect : PRDSection → List Requirement
  | ⟨_, _, requirements, subsections⟩ => requirements ++ collects subsections

def collects : List PRDSection → List Requirement
  | [] => []
  | s :: ss => collect s ++ collects ss

end

mutual

/-- The sections of a tree. -/
def nodes : PRDSection → List PRDSection
  | ⟨title, content, requirements, subsections⟩ =>
    ⟨title, content, requirements, subsections⟩ :: nodesOf subsections

def nodesOf : List PRDSection → List PRDSection
  | [] => []
  | s :: ss => nodes s ++ nodesOf ss

end

mutual

/-- **All requirements** are those of the nodes. -/
theorem collect_eq : ∀ s : PRDSection, s.collect = s.nodes.flatMap requirements
  | ⟨title, content, requirements, subsections⟩ => by
    rw [collect, nodes, List.flatMap_cons, collects_eq subsections]

theorem collects_eq : ∀ ss : List PRDSection, collects ss = (nodesOf ss).flatMap requirements
  | [] => rfl
  | s :: ss => by rw [collects, nodesOf, List.flatMap_append, collect_eq s, collects_eq ss]

end

/-- Reading, with the subsections one after another. -/
theorem fromDict_eq (data : PyValue) : fromDict data = do
    let title ← data.get "title" (.str "")
    let content ← data.get "content" (.str "")
    let requirements ←
      (← (← data.get "requirements" (.list [])).elements).mapM Requirement.fromDict
    let items ← subsectionsOf data
    let subsections ← items.val.mapM fromDict
    return ⟨title, content, requirements, subsections⟩ := by
  rw [fromDict]
  simp only [List.mapM_subtype, List.unattach_attach]

theorem subsectionsOf_record {fields : List (String × PyValue)} {items : List PyValue}
    (h : fields.lookup "subsections" = some (.list items)) :
    ∃ l, subsectionsOf (.record fields) = .ok l ∧ l.val = items := by
  rw [← PyValue.lookup_str] at h
  rw [PyValue.record, subsectionsOf]
  split
  · next hnone => simp [h] at hnone
  · next items' hlist =>
    rw [h, Option.some.injEq, PyValue.list.injEq] at hlist
    exact ⟨_, rfl, hlist.symm⟩
  · next htuple => simp [h] at htuple
  · next hlist _ hother =>
    rw [h, Option.some.injEq] at hother
    exact absurd hother.symm (hlist items)

mutual

theorem fromDict_toDict : ∀ s : PRDSection, fromDict s.toDict = .ok s
  | ⟨title, content, requirements, subsections⟩ => by
    obtain ⟨l, hl, hval⟩ := @subsectionsOf_record [("title", title), ("content", content),
      ("requirements", .list (requirements.map Requirement.toDict)),
      ("subsections", .list (toDicts subsections))] (toDicts subsections)
      (by simp [OrderedDict.lookup_cons_ite])
    rw [fromDict_eq, toDict, hl]
    simp [OrderedDict.lookup_cons_ite, ok_bind, hval, mapM_toDicts subsections]

theorem mapM_toDicts : ∀ ss : List PRDSection, (toDicts ss).mapM fromDict = .ok ss
  | [] => rfl
  | s :: ss => by
    rw [toDicts, List.mapM_cons, fromDict_toDict s, mapM_toDicts ss]
    rfl

end

/-- A section of JSON values. -/
def Plain (s : PRDSection) : Prop :=
  ∀ node ∈ s.nodes, node.title.Plain ∧ node.content.Plain ∧ ∀ r ∈ node.requirements, r.Plain

theorem plain_mk {title content : PyValue} {requirements : List Requirement}
    {subsections : List PRDSection} : Plain ⟨title, content, requirements, subsections⟩ ↔
      (title.Plain ∧ content.Plain ∧ ∀ r ∈ requirements, r.Plain) ∧
        ∀ s ∈ subsections, s.Plain := by
  have hnodes : ∀ ss : List PRDSection, ∀ node, node ∈ nodesOf ss ↔ ∃ s ∈ ss, node ∈ s.nodes := by
    intro ss node
    induction ss with
    | nil => simp [nodesOf]
    | cons s ss ih => simp [nodesOf, ih]
  simp only [Plain, nodes, List.forall_mem_cons, hnodes]
  grind

mutual

theorem Plain.toDict : ∀ {s : PRDSection}, s.Plain → s.toDict.Plain
  | ⟨title, content, requirements, subsections⟩, h => by
    obtain ⟨⟨htitle, hcontent, hrequirements⟩, hsubsections⟩ := plain_mk.mp h
    rw [PRDSection.toDict, PyValue.plain_record (by simp)]
    simp only [List.forall_mem_cons]
    refine ⟨htitle, hcontent, PyValue.plainItems_iff.mpr fun v hv => ?_,
      PyValue.plainItems_iff.mpr (plain_toDicts hsubsections), by simp⟩
    obtain ⟨r, hr, rfl⟩ := List.mem_map.mp hv
    exact (hrequirements r hr).toDict

theorem plain_toDicts : ∀ {ss : List PRDSection}, (∀ s ∈ ss, s.Plain) → ∀ v ∈ toDicts ss, v.Plain
  | [], _ => by simp [toDicts]
  | s :: ss, h => by
    rw [List.forall_mem_cons] at h
    rw [toDicts, List.forall_mem_cons]
    exact ⟨h.1.toDict, plain_toDicts h.2⟩

end

theorem plain_subsectionsOf {data item : PyValue}
    {items : {items : List PyValue // ∀ item ∈ items, sizeOf item < sizeOf data}}
    (hplain : data.Plain) (h : subsectionsOf data = .ok items) (hitem : item ∈ items.val) :
    item.Plain := by
  cases data with
  | dict entries =>
    rw [subsectionsOf] at h
    split at h
    · obtain rfl := Except.ok.inj h
      simp at hitem
    · next l hlist =>
      obtain rfl := Except.ok.inj h
      exact PyValue.plainItems_iff.mp (PyValue.plain_of_lookup hplain hlist) item hitem
    · next l htuple => exact (PyValue.plain_of_lookup hplain htuple).elim
    · obtain ⟨l, -, h⟩ := bind_eq_ok.mp h
      cases l with
      | nil =>
        obtain rfl := Except.ok.inj h
        simp at hitem
      | cons first rest => cases h
  | _ => cases h

/-- What is read of plain values is plain. -/
theorem plain_fromDict {data : PyValue} {s : PRDSection} (hplain : data.Plain)
    (h : fromDict data = .ok s) : s.Plain := by
  rw [fromDict_eq] at h
  obtain ⟨title, htitle, h⟩ := bind_eq_ok.mp h
  obtain ⟨content, hcontent, h⟩ := bind_eq_ok.mp h
  obtain ⟨v, hv, h⟩ := bind_eq_ok.mp h
  obtain ⟨l, hl, h⟩ := bind_eq_ok.mp h
  obtain ⟨requirements, hrequirements, h⟩ := bind_eq_ok.mp h
  obtain ⟨items, hitems, h⟩ := bind_eq_ok.mp h
  obtain ⟨subsections, hsubsections, h⟩ := bind_eq_ok.mp h
  obtain rfl := Except.ok.inj h
  have hlist : v.Plain := PyValue.plain_get hplain hv trivial
  have hrequirements := Requirement.plain_of_mapM hlist hl hrequirements
  refine plain_mk.mpr ⟨⟨PyValue.plain_get hplain htitle trivial,
    PyValue.plain_get hplain hcontent trivial, hrequirements⟩, ?_⟩
  intro sub hsub
  obtain ⟨item, hitem, hread⟩ := exists_of_forall₂ (forall₂_of_mapM hsubsections).flip hsub
  exact plain_fromDict (plain_subsectionsOf hplain hitems hitem) hread
termination_by sizeOf data
decreasing_by exact items.property item hitem

end PRDSection

/-! ## Documents -/

/-- `PRDDocument`. -/
structure PRDDocument where
  title : PyValue
  version : PyValue
  createdAt : Time
  executiveSummary : PyValue
  objectives : PRDSection
  scope : PRDSection
  sections : List PRDSection
  allRequirements : List Requirement
  metadata : PyValue := .dict []

namespace PRDDocument

/-- `create`. -/
def create (now : Time) (title executiveSummary : PyValue) (objectives scope : PRDSection)
    (sections : List PRDSection) (version : PyValue := .str "1.0.0") : PRDDocument where
  title := title
  version := version
  createdAt := now
  executiveSummary := executiveSummary
  objectives := objectives
  scope := scope
  sections := sections
  allRequirements := objectives.collect ++ scope.collect ++ PRDSection.collects sections

variable (iso : Rlm.IsoFormat)

/-- `to_dict`. -/
def toDict (doc : PRDDocument) : PyValue :=
  .record [("title", doc.title), ("version", doc.version),
    ("created_at", .str (iso.isoformat doc.createdAt)),
    ("executive_summary", doc.executiveSummary), ("objectives", doc.objectives.toDict),
    ("scope", doc.scope.toDict), ("sections", .list (PRDSection.toDicts doc.sections)),
    ("all_requirements", .list (doc.allRequirements.map Requirement.toDict)),
    ("metadata", doc.metadata)]

/-- `datetime.fromisoformat(value)`. -/
def instant (value : PyValue) : Except Error Time :=
  match value with
  | .str text =>
    match iso.fromisoformat text with
    | some t => .ok t
    | none => .error ⟨.valueError, "Invalid isoformat string: '" ++ text ++ "'", []⟩
  | _ => .error ⟨.exception, "fromisoformat: argument must be str", []⟩

/-- `from_dict`. -/
def fromDict (now : Time) (data : PyValue) : Except Error PRDDocument := do
  return {
    title := ← data.get "title" (.str "")
    version := ← data.get "version" (.str "1.0.0")
    createdAt := ← instant iso (← data.get "created_at" (.str (iso.isoformat now)))
    executiveSummary := ← data.get "executive_summary" (.str "")
    objectives := ← PRDSection.fromDict (← data.get "objectives" (.dict []))
    scope := ← PRDSection.fromDict (← data.get "scope" (.dict []))
    sections := ← (← (← data.get "sections" (.list [])).elements).mapM PRDSection.fromDict
    allRequirements :=
      ← (← (← data.get "all_requirements" (.list [])).elements).mapM Requirement.fromDict
    metadata := ← data.get "metadata" (.dict []) }

/-- `to_json`. -/
def toJson (doc : PRDDocument) : Except Error Json := (doc.toDict iso).dumps

/-- `from_json`. -/
def fromJson (now : Time) (text : Json) : Except Error PRDDocument :=
  fromDict iso now (PyValue.loads text)

/-- A document is read as it was written. -/
def ComesBack (now : Time) (doc : PRDDocument) : Prop :=
  ∃ text, doc.toJson iso = .ok text ∧ fromJson iso now text = .ok doc

@[simp] theorem instant_isoformat (t : Time) : instant iso (.str (iso.isoformat t)) = .ok t := by
  simp [instant, iso.fromisoformat_isoformat]

theorem fromDict_toDict (now : Time) (doc : PRDDocument) :
    fromDict iso now (doc.toDict iso) = .ok doc := by
  simp [fromDict, toDict, OrderedDict.lookup_cons_ite, ok_bind,
    PRDSection.mapM_toDicts, PRDSection.fromDict_toDict]

/-- A document of JSON values. -/
structure Plain (doc : PRDDocument) : Prop where
  title : doc.title.Plain
  version : doc.version.Plain
  executiveSummary : doc.executiveSummary.Plain
  objectives : doc.objectives.Plain
  scope : doc.scope.Plain
  sections : ∀ s ∈ doc.sections, s.Plain
  allRequirements : ∀ r ∈ doc.allRequirements, r.Plain
  metadata : doc.metadata.Plain

variable {iso}

theorem Plain.toDict {doc : PRDDocument} (h : doc.Plain) : (doc.toDict iso).Plain := by
  rw [PRDDocument.toDict, PyValue.plain_record (by simp)]
  simp only [List.forall_mem_cons]
  refine ⟨h.title, h.version, trivial, h.executiveSummary, h.objectives.toDict, h.scope.toDict,
    PyValue.plainItems_iff.mpr (PRDSection.plain_toDicts h.sections),
    PyValue.plainItems_iff.mpr fun v hv => ?_, h.metadata, by simp⟩
  obtain ⟨r, hr, rfl⟩ := List.mem_map.mp hv
  exact (h.allRequirements r hr).toDict

theorem plain_fromDict {now : Time} {data : PyValue} {doc : PRDDocument} (hplain : data.Plain)
    (h : fromDict iso now data = .ok doc) : doc.Plain := by
  have hempty : (PyValue.dict []).Plain := ⟨List.nodup_nil, trivial⟩
  obtain ⟨title, htitle, h⟩ := bind_eq_ok.mp h
  obtain ⟨version, hversion, h⟩ := bind_eq_ok.mp h
  obtain ⟨_, -, h⟩ := bind_eq_ok.mp h
  obtain ⟨_, -, h⟩ := bind_eq_ok.mp h
  obtain ⟨summary, hsummary, h⟩ := bind_eq_ok.mp h
  obtain ⟨v, hv, h⟩ := bind_eq_ok.mp h
  obtain ⟨objectives, hobjectives, h⟩ := bind_eq_ok.mp h
  obtain ⟨w, hw, h⟩ := bind_eq_ok.mp h
  obtain ⟨scope, hscope, h⟩ := bind_eq_ok.mp h
  obtain ⟨x, hx, h⟩ := bind_eq_ok.mp h
  obtain ⟨l, hl, h⟩ := bind_eq_ok.mp h
  obtain ⟨sections, hsections, h⟩ := bind_eq_ok.mp h
  obtain ⟨y, hy, h⟩ := bind_eq_ok.mp h
  obtain ⟨k, hk, h⟩ := bind_eq_ok.mp h
  obtain ⟨requirements, hrequirements, h⟩ := bind_eq_ok.mp h
  obtain ⟨metadata, hmetadata, h⟩ := bind_eq_ok.mp h
  obtain rfl := Except.ok.inj h
  refine
    { title := PyValue.plain_get hplain htitle trivial
      version := PyValue.plain_get hplain hversion trivial
      executiveSummary := PyValue.plain_get hplain hsummary trivial
      objectives := PRDSection.plain_fromDict (PyValue.plain_get hplain hv hempty) hobjectives
      scope := PRDSection.plain_fromDict (PyValue.plain_get hplain hw hempty) hscope
      sections := ?_
      allRequirements :=
        Requirement.plain_of_mapM (PyValue.plain_get hplain hy trivial) hk hrequirements
      metadata := PyValue.plain_get hplain hmetadata hempty }
  intro s hs
  obtain ⟨item, hitem, hread⟩ := exists_of_forall₂ (forall₂_of_mapM hsections).flip hs
  exact PRDSection.plain_fromDict
    (PyValue.plain_elements (PyValue.plain_get hplain hx trivial) hl hitem) hread

/-- **What is read as it was written**: the documents of JSON values. -/
theorem comesBack_iff {now : Time} {doc : PRDDocument} : doc.ComesBack iso now ↔ doc.Plain := by
  constructor
  · intro ⟨text, _, hread⟩
    exact plain_fromDict (PyValue.plain_loads text) hread
  · intro h
    have hplain : (doc.toDict iso).Plain := h.toDict
    obtain ⟨text, hdumps, hloads⟩ := (PyValue.survives_iff _).mpr hplain
    exact ⟨text, hdumps, by rw [fromJson, hloads, fromDict_toDict]⟩

end PRDDocument

end Discovery

end DoxAsdlc
