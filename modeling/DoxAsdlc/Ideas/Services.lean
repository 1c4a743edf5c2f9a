import DoxAsdlc.Ideas.Classification
import DoxAsdlc.Interaction.Sum

/-!
# Updates of an idea and its classification

An update reads the idea, to see that it is there, and then writes the fields that it was given.
A classification reads the idea, the taxonomy twice, has the idea classified, stores the result,
and updates the idea with its classification and with the labels that it had when it was read
together with the assigned ones.

The stores are those of one idea, with the labels of the taxonomy beside them.

## Main definitions

* `Cmd`, `serve` — the commands on an idea and on its result.
* `updateIdea`, `classifyIdea` — the operations.
* `Stage`, `classification` — where a classification stands, and the machine that follows it.
-/

namespace DoxAsdlc.Ideas

open Interaction Interaction.Program
open Labels (LabelTaxonomy)

/-! ## The stores -/

inductive IdeaCmd where
  | getIdea
  | update (doc : UpdateData)
  | refresh
  | getResult
  | setResult (result : ClassificationResult)

/-- The answers: an update answers whether there is a document. -/
abbrev IdeaReply : IdeaCmd → Type
  | .getIdea => Option Idea
  | .update _ => Bool
  | .getResult => Option ClassificationResult
  | _ => Unit

/-- The document of an idea, and the result of its classification. -/
structure IdeaStore where
  idea : Option Idea := none
  result : Option ClassificationResult := none
  deriving DecidableEq

/-- What each command does. -/
def serveIdea : Server ⟨IdeaCmd, IdeaReply⟩ IdeaStore
  | .getIdea, w => (w, w.idea)
  | .update doc, w => ({ w with idea := w.idea.map doc.apply }, w.idea.isSome)
  | .refresh, w => (w, ())
  | .getResult, w => (w, w.result)
  | .setResult result, w => ({ w with result := some result }, ())

/-- Where there is no document, nothing is updated. -/
theorem serveIdea_update_none {w : IdeaStore} (hw : w.idea = none) (doc : UpdateData) :
    (serveIdea (.update doc) w).1 = w := by
  cases w with
  | mk idea result =>
    cases hw
    rfl

theorem serveIdea_update_some {w : IdeaStore} {idea : Idea} (hw : w.idea = some idea)
    (doc : UpdateData) :
    (serveIdea (.update doc) w).1 = { w with idea := some (doc.apply idea) } := by
  rw [serveIdea, hw]
  rfl

abbrev interface : Interface := Interface.sum ⟨IdeaCmd, IdeaReply⟩ Labels.interface

abbrev Store := IdeaStore × Labels.Store

def serve : Server interface Store := serveIdea.sum Labels.serve

abbrev Async (α : Type) := Program interface Error α

abbrev send (c : IdeaCmd) : Async (IdeaReply c) := command (I := interface) (.inl c)

/-! ## Operations -/

/-- `get_idea`. -/
def getIdea : Async (Option Idea) := do
  try send .getIdea
  catch _ => pure none

/-- The second half of `update_idea`. -/
def writeIdea (doc : UpdateData) : Async (Option Idea) := do
  match ← send (.update doc) with
  | true =>
    send .refresh
    getIdea
  | false => throw ⟨.exception, "document missing", []⟩

/-- `update_idea`. -/
def updateIdea (now : Time) (request : UpdateIdeaRequest) : Async (Option Idea) := do
  match ← getIdea with
  | none => return none
  | some _ =>
    let doc ← answer (request.updateData now)
    writeIdea doc

variable (env : Env)

/-- `get_taxonomy`. -/
def getTaxonomy : Async LabelTaxonomy := (Labels.getTaxonomy env.now).inr

/-- The update that a classification makes. -/
def updateRequest (idea : Idea) (result : ClassificationResult) : UpdateIdeaRequest where
  classification := some (.of result.classification)
  labels := some (mergedLabels env idea.labels result.labels)

/-- The part of `classify_idea` after the check for an earlier result. -/
def classifyAnew (idea : Idea) : Async ClassificationResult := do
  let taxonomy ← getTaxonomy env
  let prompted ← getTaxonomy env
  let result := classified env idea.content taxonomy prompted
  send (.setResult result)
  let _ ← updateIdea env.now (updateRequest env idea result)
  return result

/-- `classify_idea`, without `force`. -/
def classifyIdea : Async ClassificationResult := do
  match ← getIdea with
  | none => throw ⟨.valueError, "Idea not found: " ++ env.ideaId, []⟩
  | some idea =>
    if idea.classification = .undetermined then classifyAnew env idea
    else
      match ← send .getResult with
      | some existing => return existing
      | none => classifyAnew env idea

/-- What an operation answers. -/
inductive Answer where
  | updated (idea : Option Idea)
  | classified (result : ClassificationResult)

/-- An update as a client of the stores. -/
def editing (now : Time) (request : UpdateIdeaRequest) : Async Answer := do
  return .updated (← updateIdea now request)

/-- A classification as a client of the stores. -/
def classifying : Async Answer := do
  return .classified (← classifyIdea env)

/-! ## The stages of a classification -/

/-- The fields that a classification writes. -/
def assignment (idea : Idea) (result : ClassificationResult) : UpdateData where
  classification := some (.of result.classification)
  labels := some (mergedLabels env idea.labels result.labels)
  updatedAt := env.now

@[simp] theorem updateData_updateRequest (idea : Idea) (result : ClassificationResult) :
    (updateRequest env idea result).updateData env.now = .ok (assignment env idea result) := rfl

/-- Where a classification stands, by what it does next. -/
inductive Stage where
  | opening
  | checking (idea : Idea)
  | labelling (idea : Idea)
  | prompting (idea : Idea) (taxonomy : LabelTaxonomy)
  | storing (idea : Idea) (result : ClassificationResult)
  | rereading (idea : Idea) (result : ClassificationResult)
  | assigning (idea : Idea) (result : ClassificationResult)
  | refreshing (result : ClassificationResult)
  | closing (result : ClassificationResult)
  | assigned (result : ClassificationResult)
  | found (result : ClassificationResult)
  | unfound (result : ClassificationResult)
  | failed (e : Error)

namespace Stage

/-- A classification whose result is known, before its last operation. -/
def finish (result : ClassificationResult) (p : Async (Option Idea)) :
    Async ClassificationResult := do
  let _ ← p
  return result

/-- What is left of `classify_idea` at a stage. -/
def rest : Stage → Async ClassificationResult
  | opening => classifyIdea env
  | checking idea => do
      match ← send .getResult with
      | some existing => return existing
      | none => classifyAnew env idea
  | labelling idea => classifyAnew env idea
  | prompting idea taxonomy => do
      let prompted ← getTaxonomy env
      let result := classified env idea.content taxonomy prompted
      send (.setResult result)
      finish result (updateIdea env.now (updateRequest env idea result))
  | storing idea result => do
      send (.setResult result)
      finish result (updateIdea env.now (updateRequest env idea result))
  | rereading idea result => finish result (updateIdea env.now (updateRequest env idea result))
  | assigning idea result => finish result (writeIdea (assignment env idea result))
  | refreshing result => finish result (do
      send .refresh
      getIdea)
  | closing result => finish result getIdea
  | assigned result | found result | unfound result => .ret result
  | failed e => .raise e

/-- A classification from a stage on. -/
def program (p : Stage) : Async Answer := do
  return .classified (← p.rest env)

/-- The taxonomy that is read. -/
def readTaxonomy (stored : Option LabelTaxonomy) : LabelTaxonomy :=
  stored.getD (Labels.createDefaultTaxonomy env.now)

/-- The stage after an exchange. -/
def next : Stage → Exchange interface Error → Stage
  | opening, ⟨.inl .getIdea, .ok (some idea), _⟩ =>
    if idea.classification = .undetermined then labelling idea else checking idea
  | opening, ⟨.inl .getIdea, _, _⟩ => failed ⟨.valueError, "Idea not found: " ++ env.ideaId, []⟩
  | checking _, ⟨.inl .getResult, .ok (some result), _⟩ => found result
  | checking idea, ⟨.inl .getResult, .ok none, _⟩ => labelling idea
  | checking _, ⟨.inl .getResult, .error e, _⟩ => failed e
  | labelling idea, ⟨.inr .get, .ok stored, _⟩ => prompting idea (readTaxonomy env stored)
  | labelling _, ⟨.inr .get, .error e, _⟩ => failed e
  | prompting idea taxonomy, ⟨.inr .get, .ok stored, _⟩ =>
    storing idea (classified env idea.content taxonomy (readTaxonomy env stored))
  | prompting _ _, ⟨.inr .get, .error e, _⟩ => failed e
  | storing idea result, ⟨.inl (.setResult _), .ok _, _⟩ => rereading idea result
  | storing _ _, ⟨.inl (.setResult _), .error e, _⟩ => failed e
  | rereading idea result, ⟨.inl .getIdea, .ok (some _), _⟩ => assigning idea result
  | rereading _ result, ⟨.inl .getIdea, _, _⟩ => unfound result
  | assigning _ result, ⟨.inl (.update _), .ok true, _⟩ => refreshing result
  | assigning _ _, ⟨.inl (.update _), .ok false, _⟩ =>
    failed ⟨.exception, "document missing", []⟩
  | assigning _ _, ⟨.inl (.update _), .error e, _⟩ => failed e
  | refreshing result, ⟨.inl .refresh, .ok _, _⟩ => closing result
  | refreshing _, ⟨.inl .refresh, .error e, _⟩ => failed e
  | closing result, ⟨.inl .getIdea, _, _⟩ => assigned result
  | p, _ => p

/-- The command that comes next. -/
def command? : Stage → Option interface.Cmd
  | opening | rereading _ _ | closing _ => some (.inl .getIdea)
  | checking _ => some (.inl .getResult)
  | labelling _ | prompting _ _ => some (.inr .get)
  | storing _ result => some (.inl (.setResult result))
  | assigning idea result => some (.inl (.update (assignment env idea result)))
  | refreshing _ => some (.inl .refresh)
  | assigned _ | found _ | unfound _ | failed _ => none

theorem head?_program (p : Stage) : (p.program env).head? = p.command? env := by
  cases p <;> rfl

end Stage

/-- The machine that follows a classification. -/
def classification : Tracker interface Error Answer Stage where
  program := Stage.program env
  next := Stage.next env
  follows := by
    intro p c k h reply b
    cases p with
    | opening =>
      cases h
      rcases reply with e | _ | idea
      · rfl
      · rfl
      · by_cases hclass : idea.classification = .undetermined <;>
          simp [Stage.next, hclass, Stage.program, Stage.rest]
    | assigned result => cases h
    | found result => cases h
    | unfound result => cases h
    | failed e => cases h
    | _ =>
      cases h
      rcases reply with e | _ | _ <;> rfl

end DoxAsdlc.Ideas
