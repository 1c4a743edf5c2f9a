import DoxAsdlc.Core.Exceptions
import DoxAsdlc.Interaction.Pool

/-!
# The label taxonomy service

The taxonomy is one stored text.  Every operation that changes a label reads all of it and
writes all of it back; an operation that is given a whole taxonomy writes it without reading.
Where nothing is stored the default taxonomy is read.

## Main definitions

* `LabelDefinition`, `LabelTaxonomy`, `defaultLabels` — the data.
* `addLabel`, `updateLabel`, `deleteLabel`, `updateTaxonomy` — the operations.
* `Call`, `Call.program` — a call of one of them.
-/

namespace DoxAsdlc.Labels

open Interaction Interaction.Program

structure LabelDefinition where
  id : String
  name : String
  description : Option String := none
  keywords : List String := []
  color : Option String := none
  deriving DecidableEq, Repr

structure LabelTaxonomy where
  id : String
  name : String
  description : Option String := none
  labels : List LabelDefinition
  version : String
  createdAt : Time
  updatedAt : Time
  deriving DecidableEq, Repr

/-- The ids of labels. -/
abbrev ids (labels : List LabelDefinition) : List String := labels.map LabelDefinition.id

/-- `DEFAULT_LABELS`. -/
def defaultLabels : List LabelDefinition :=
  [{ id := "feature"
     name := "Feature"
     description := some "A new user-facing feature or capability"
     keywords := ["new", "add", "create", "implement", "build", "introduce"]
     color := some "#22c55e" },
   { id := "bug"
     name := "Bug"
     description := some "A defect or issue that needs fixing"
     keywords := ["fix", "bug", "error", "broken", "issue", "problem", "crash"]
     color := some "#ef4444" },
   { id := "improvement"
     name := "Improvement"
     description := some "Enhancement to an existing feature"
     keywords := ["improve", "enhance", "better", "optimize", "upgrade", "refine"]
     color := some "#3b82f6" },
   { id := "performance"
     name := "Performance"
     description := some "Performance optimization or improvement"
     keywords := ["speed", "fast", "slow", "performance", "optimize", "latency", "throughput"]
     color := some "#f59e0b" },
   { id := "security"
     name := "Security"
     description := some "Security-related concerns or improvements"
     keywords := ["security", "vulnerability", "auth", "permission", "access", "encrypt"]
     color := some "#dc2626" },
   { id := "documentation"
     name := "Documentation"
     description := some "Documentation updates or additions"
     keywords := ["doc", "documentation", "readme", "guide", "tutorial", "comment"]
     color := some "#8b5cf6" },
   { id := "api"
     name := "API"
     description := some "API-related changes or additions"
     keywords := ["api", "endpoint", "rest", "graphql", "request", "response"]
     color := some "#06b6d4" },
   { id := "ui"
     name := "UI"
     description := some "User interface changes"
     keywords := ["ui", "ux", "interface", "design", "layout", "style", "css", "visual"]
     color := some "#ec4899" },
   { id := "backend"
     name := "Backend"
     description := some "Backend/server-side changes"
     keywords := ["backend", "server", "database", "service", "worker", "queue"]
     color := some "#64748b" },
   { id := "infrastructure"
     name := "Infrastructure"
     description := some "Infrastructure and DevOps changes"
     keywords := ["infra", "devops", "deploy", "kubernetes", "docker", "ci", "cd", "pipeline"]
     color := some "#78716c" }]

/-- `_create_default_taxonomy`. -/
def createDefaultTaxonomy (now : Time) : LabelTaxonomy where
  id := "default"
  name := "Default Taxonomy"
  description := some "Standard label taxonomy for idea classification"
  labels := defaultLabels
  version := "1.0"
  createdAt := now
  updatedAt := now

theorem nodup_ids_defaultLabels : (ids defaultLabels).Nodup := by decide

/-! ## The store -/

/-- The commands on the key of the taxonomy. -/
inductive Cmd where
  | get
  | set (taxonomy : LabelTaxonomy)

abbrev Reply : Cmd → Type
  | .get => Option LabelTaxonomy
  | .set _ => Unit

abbrev interface : Interface := ⟨Cmd, Reply⟩

/-- What is stored under the key of the taxonomy. -/
abbrev Store := Option LabelTaxonomy

def serve : Server interface Store
  | .get, w => (w, w)
  | .set taxonomy, _ => (some taxonomy, ())

abbrev Async (α : Type) := Program interface Error α

abbrev send (c : Cmd) : Async (Reply c) := command (I := interface) c

/-! ## Operations -/

def getTaxonomy (now : Time) : Async LabelTaxonomy := do
  match ← send .get with
  | none => return createDefaultTaxonomy now
  | some taxonomy => return taxonomy

def updateTaxonomy (now : Time) (taxonomy : LabelTaxonomy) : Async LabelTaxonomy := do
  let updated := { taxonomy with updatedAt := now }
  send (.set updated)
  return updated

def addLabel (now : Time) (label : LabelDefinition) : Async LabelTaxonomy := do
  let taxonomy ← getTaxonomy now
  if taxonomy.labels.any (·.id = label.id) then
    throw { cls := .valueError, message := s!"Label with ID '{label.id}' already exists" }
  else
    updateTaxonomy now { taxonomy with labels := taxonomy.labels ++ [label] }

def updateLabel (now : Time) (labelId : String) (label : LabelDefinition) :
    Async LabelTaxonomy := do
  let taxonomy ← getTaxonomy now
  match taxonomy.labels.findIdx? (·.id = labelId) with
  | none => throw { cls := .keyError, message := s!"Label with ID '{labelId}' not found" }
  | some i => updateTaxonomy now { taxonomy with labels := taxonomy.labels.set i label }

def deleteLabel (now : Time) (labelId : String) : Async LabelTaxonomy := do
  let taxonomy ← getTaxonomy now
  let newLabels := taxonomy.labels.filter (·.id ≠ labelId)
  if newLabels.length = taxonomy.labels.length then
    throw { cls := .keyError, message := s!"Label with ID '{labelId}' not found" }
  else
    updateTaxonomy now { taxonomy with labels := newLabels }

/-- An operation and what it is given. -/
inductive Call where
  | getTaxonomy
  | updateTaxonomy (taxonomy : LabelTaxonomy)
  | addLabel (label : LabelDefinition)
  | updateLabel (labelId : String) (label : LabelDefinition)
  | deleteLabel (labelId : String)
  deriving DecidableEq

/-- The coroutine of a call. -/
def Call.program (now : Time) : Call → Async LabelTaxonomy
  | .getTaxonomy => Labels.getTaxonomy now
  | .updateTaxonomy taxonomy => Labels.updateTaxonomy now taxonomy
  | .addLabel label => Labels.addLabel now label
  | .updateLabel labelId label => Labels.updateLabel now labelId label
  | .deleteLabel labelId => Labels.deleteLabel now labelId

end DoxAsdlc.Labels
