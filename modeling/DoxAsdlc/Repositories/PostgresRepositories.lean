import DoxAsdlc.Repositories.Models
import DoxAsdlc.Structures.Paging
import DoxAsdlc.Structures.Records

/-!
# The repositories in PostgreSQL

A table for each kind of entity, with the session of an entity as a foreign key.  A call is a
transaction: one that raises leaves the tables as they were.

## Main definitions

* `Column`, `Fits` — the values that columns take.
* `Database` — the tables.
* `Table.insert`, `Table.merge` — the statements that write a row.
* `PostgresSessionRepository`, `PostgresMessageRepository`, `PostgresRequirementRepository`,
  `PostgresMaturityRepository`, `PostgresPRDRepository` — the methods, under the names of their
  classes.
* `Database.perform` — a call.
-/

namespace DoxAsdlc.Repositories

open Paging
open Rlm (Json)

/-! ## Columns -/

/-- A text that PostgreSQL can store: it has no character with the code zero. -/
def Storable (s : String) : Prop := Char.ofNat 0 ∉ s.toList

instance (s : String) : Decidable (Storable s) := inferInstanceAs (Decidable (_ ∉ _))

/-- A value with the type of its column; of a JSON value, the texts in it. -/
inductive Column where
  | varchar (n : ℕ) (s : String)
  | text (s : String)
  | integer (z : ℤ)
  | jsonb (texts : List String)

/-- The column takes the value. -/
def Column.Admits : Column → Prop
  | varchar n s => s.length ≤ n ∧ Storable s
  | text s => Storable s
  | integer z => -2 ^ 31 ≤ z ∧ z < 2 ^ 31
  | jsonb texts => ∀ s ∈ texts, Storable s

instance (c : Column) : Decidable c.Admits :=
  match c with
  | .varchar _ _ => inferInstanceAs (Decidable (_ ∧ _))
  | .text s => inferInstanceAs (Decidable (Storable s))
  | .integer _ => inferInstanceAs (Decidable (_ ∧ _))
  | .jsonb texts => inferInstanceAs (Decidable (∀ s ∈ texts, Storable s))

/-- A row whose columns take their values. -/
def Fits (columns : List Column) : Prop := ∀ c ∈ columns, c.Admits

instance (columns : List Column) : Decidable (Fits columns) :=
  inferInstanceAs (Decidable (∀ c ∈ columns, c.Admits))

mutual

/-- The texts in a JSON value. -/
def texts : Json → List String
  | .str s => [s]
  | .arr elements => textsOfElements elements
  | .obj fields => textsOfFields fields
  | _ => []

def textsOfElements : List Json → List String
  | [] => []
  | j :: js => texts j ++ textsOfElements js

def textsOfFields : List (String × Json) → List String
  | [] => []
  | (key, j) :: fields => key :: texts j ++ textsOfFields fields

end

/-- The columns of `ideation_sessions`. -/
def IdeationSession.columns (s : IdeationSession) : List Column :=
  [.varchar 64 s.id, .varchar 255 s.projectName, .varchar 64 s.userId,
    .varchar 32 s.status.value, .varchar 32 s.dataSource.value, .integer s.version]

/-- The columns of `ideation_messages`. -/
def ChatMessage.columns (m : ChatMessage) : List Column :=
  [.varchar 64 m.id, .varchar 64 m.sessionId, .varchar 32 m.role.value, .text m.content,
    .integer m.maturityDelta, .jsonb (m.metadata.elim [] textsOfFields)]

/-- The columns of `ideation_requirements`. -/
def ExtractedRequirement.columns (r : ExtractedRequirement) : List Column :=
  [.varchar 64 r.id, .varchar 64 r.sessionId, .text r.description, .varchar 32 r.type.value,
    .varchar 32 r.priority.value, .varchar 32 (r.categoryId.getD "")]

/-- The columns of `ideation_maturity`. -/
def MaturityState.columns (m : MaturityState) : List Column :=
  [.varchar 64 m.sessionId, .integer m.score, .varchar 32 m.level,
    .jsonb (m.categories.flatMap fun c => [c.id, c.name]), .jsonb m.gaps]

/-- The columns of `ideation_prd_drafts`. -/
def PRDDraft.columns (d : PRDDraft) : List Column :=
  [.varchar 64 d.id, .varchar 64 d.sessionId, .varchar 255 d.title, .varchar 32 d.version,
    .jsonb (d.sections.flatMap fun s => [s.id, s.heading, s.content]), .varchar 32 d.status]

/-- The columns of `ideation_user_stories`. -/
def UserStory.columns (s : UserStory) : List Column :=
  [.varchar 64 s.id, .varchar 64 s.sessionId, .varchar 255 s.title, .text s.asA, .text s.iWant,
    .text s.soThat, .jsonb s.acceptanceCriteria, .jsonb s.linkedRequirements,
    .varchar 32 s.priority.value]

/-! ## Tables -/

structure Database where
  sessions : Records IdeationSession.id := .empty
  messages : Records ChatMessage.id := .empty
  requirements : Records ExtractedRequirement.id := .empty
  maturity : Records MaturityState.sessionId := .empty
  prdDrafts : Records PRDDraft.id := .empty
  userStories : Records UserStory.id := .empty

/-- A value that a column or a parameter does not take. -/
def dataError : Error := ⟨.exception, "DBAPIError", []⟩

/-- A key that is there already, or a foreign key that is not there. -/
def integrityError : Error := ⟨.exception, "IntegrityError", []⟩

/-- There is a session with the id. -/
def Database.hasSession (db : Database) (sessionId : String) : Bool :=
  (db.sessions.find? sessionId).isSome

/-- A text as a parameter of a statement. -/
def parameter (s : String) : Except Error Unit := if Storable s then .ok () else .error dataError

/-- A number as a parameter of `LIMIT` or `OFFSET`. -/
def bigint (n : ℕ) : Except Error Unit := if n < int64Bound then .ok () else .error dataError

namespace Table

variable {R : Type} {key : R → String}

/-- `INSERT`, with the columns of the row and whether its session is there. -/
def insert (columns : List Column) (parent : Bool) (r : R) (t : Records key) :
    Except Error (Records key) :=
  if ¬ Fits columns then .error dataError
  else if (t.find? (key r)).isSome || !parent then .error integrityError
  else .ok (t.put r)

/-- `merge`: a row with the key is updated where it differs, and else the row is inserted.
`stamped` is what `onupdate` makes of the update of a row. -/
def merge [DecidableEq R] (columns : List Column) (parent : Bool) (stamped : R → R → R) (r : R)
    (t : Records key) : Except Error (Records key) :=
  match t.find? (key r) with
  | some old =>
    if r = old then .ok t
    else if ¬ Fits columns then .error dataError
    else if !parent then .error integrityError
    else .ok (t.put (stamped old r))
  | none => insert columns parent r t

end Table

namespace PostgresSessionRepository

/-- `onupdate` of `updated_at`, which is left out of the update if it does not change. -/
def stamped (now : Time) (old new : IdeationSession) : IdeationSession :=
  if new.updatedAt = old.updatedAt then { new with updatedAt := now } else new

/-- `create`. -/
def create (session : IdeationSession) (db : Database) :
    Except Error (IdeationSession × Database) := do
  let sessions ← Table.insert session.columns true session db.sessions
  return (session, { db with sessions })

/-- `get_by_id`. -/
def getById (sessionId : String) (db : Database) : Except Error (Option IdeationSession) := do
  validateId sessionId "session_id"
  parameter sessionId
  return db.sessions.find? sessionId

/-- `update`. -/
def update (now : Time) (session : IdeationSession) (db : Database) : Except Error Database := do
  let sessions ← Table.merge session.columns true (stamped now) session db.sessions
  return { db with sessions }

/-- The rows without a session, and without those that refer to it. -/
def cascade (sessionId : String) (db : Database) : Database where
  sessions := db.sessions.discard fun s => s.id = sessionId
  messages := db.messages.discard fun m => m.sessionId = sessionId
  requirements := db.requirements.discard fun r => r.sessionId = sessionId
  maturity := db.maturity.discard fun m => m.sessionId = sessionId
  prdDrafts := db.prdDrafts.discard fun d => d.sessionId = sessionId
  userStories := db.userStories.discard fun s => s.sessionId = sessionId

/-- `delete`. -/
def delete (sessionId : String) (db : Database) : Except Error Database := do
  validateId sessionId "session_id"
  parameter sessionId
  return cascade sessionId db

/-- `list_by_user`. -/
def listByUser (c : Circumstances) (userId : String) (limit offset : ℕ) (db : Database) :
    Except Error (List IdeationSession) := do
  validateId userId "user_id"
  parameter userId
  bigint limit
  bigint offset
  let rows := c.sessions.list (db.sessions.rows.filter fun s => s.userId = userId)
  return page offset limit (sortedBy (fun s => OrderDual.toDual s.updatedAt) rows)

end PostgresSessionRepository

namespace PostgresMessageRepository

/-- `create`. -/
def create (message : ChatMessage) (db : Database) : Except Error (ChatMessage × Database) := do
  let messages ←
    Table.insert message.columns (db.hasSession message.sessionId) message db.messages
  return (message, { db with messages })

/-- `get_by_session`. -/
def getBySession (c : Circumstances) (sessionId : String) (limit offset : ℕ) (db : Database) :
    Except Error (List ChatMessage) := do
  validateId sessionId "session_id"
  parameter sessionId
  bigint limit
  bigint offset
  let rows := c.messages.list (db.messages.rows.filter fun m => m.sessionId = sessionId)
  return page offset limit (sortedBy ChatMessage.timestamp rows)

/-- `delete_by_session`. -/
def deleteBySession (sessionId : String) (db : Database) : Except Error Database := do
  validateId sessionId "session_id"
  parameter sessionId
  return { db with messages := db.messages.discard fun m => m.sessionId = sessionId }

end PostgresMessageRepository

namespace PostgresRequirementRepository

/-- `create`. -/
def create (requirement : ExtractedRequirement) (db : Database) :
    Except Error (ExtractedRequirement × Database) := do
  let requirements ← Table.insert requirement.columns (db.hasSession requirement.sessionId)
    requirement db.requirements
  return (requirement, { db with requirements })

/-- `get_by_session`. -/
def getBySession (c : Circumstances) (sessionId : String) (db : Database) :
    Except Error (List ExtractedRequirement) := do
  validateId sessionId "session_id"
  parameter sessionId
  return c.requirements.list (db.requirements.rows.filter fun r => r.sessionId = sessionId)

/-- `update`. -/
def update (requirement : ExtractedRequirement) (db : Database) : Except Error Database := do
  let requirements ← Table.merge requirement.columns (db.hasSession requirement.sessionId)
    (fun _ new => new) requirement db.requirements
  return { db with requirements }

/-- `delete`. -/
def delete (requirementId : String) (db : Database) : Except Error Database := do
  validateId requirementId "requirement_id"
  parameter requirementId
  return { db with requirements := db.requirements.discard fun r => r.id = requirementId }

end PostgresRequirementRepository

namespace PostgresMaturityRepository

/-- `onupdate` of `updated_at`. -/
def stamped (now : Time) (old new : MaturityState) : MaturityState :=
  if new.updatedAt = old.updatedAt then { new with updatedAt := now } else new

/-- `save`. -/
def save (now : Time) (maturity : MaturityState) (db : Database) : Except Error Database := do
  let rows ← Table.merge maturity.columns (db.hasSession maturity.sessionId) (stamped now) maturity
    db.maturity
  return { db with maturity := rows }

/-- `get_by_session`. -/
def getBySession (sessionId : String) (db : Database) : Except Error (Option MaturityState) := do
  validateId sessionId "session_id"
  parameter sessionId
  return db.maturity.find? sessionId

end PostgresMaturityRepository

namespace PostgresPRDRepository

/-- `save_draft`. -/
def saveDraft (draft : PRDDraft) (db : Database) : Except Error (PRDDraft × Database) := do
  let prdDrafts ← Table.insert draft.columns (db.hasSession draft.sessionId) draft db.prdDrafts
  return (draft, { db with prdDrafts })

/-- `get_draft`. -/
def getDraft (c : Circumstances) (sessionId : String) (db : Database) :
    Except Error (Option PRDDraft) := do
  validateId sessionId "session_id"
  parameter sessionId
  let rows := c.drafts.list (db.prdDrafts.rows.filter fun d => d.sessionId = sessionId)
  return (page 0 1 (sortedBy (fun d => OrderDual.toDual d.createdAt) rows)).head?

/-- `save_user_stories`. -/
def saveUserStories (sessionId : String) (stories : List UserStory) (db : Database) :
    Except Error Database := do
  validateId sessionId "session_id"
  parameter sessionId
  let rest := db.userStories.discard fun s => s.sessionId = sessionId
  let userStories ← stories.foldlM
    (fun rows story => Table.insert story.columns (db.hasSession story.sessionId) story rows) rest
  return { db with userStories }

/-- `get_user_stories`. -/
def getUserStories (c : Circumstances) (sessionId : String) (db : Database) :
    Except Error (List UserStory) := do
  validateId sessionId "session_id"
  parameter sessionId
  return c.stories.list (db.userStories.rows.filter fun s => s.sessionId = sessionId)

end PostgresPRDRepository

/-! ## Calls -/

namespace Database

/-- The answer to a call that writes, and the tables after it. -/
def written (db : Database) : Except Error (Answer × Database) → Except Error Answer × Database
  | .ok (answer, db') => (.ok answer, db')
  | .error e => (.error e, db)

/-- The answer to a call that returns nothing. -/
def done (r : Except Error Database) : Except Error (Answer × Database) :=
  r.map fun db => (.nothing, db)

/-- The answer to a call that reads. -/
def read (db : Database) (r : Except Error Answer) : Except Error Answer × Database := (r, db)

/-- A call. -/
def perform (db : Database) (t : Call × Circumstances) : Except Error Answer × Database :=
  match t.1 with
  | .createSession session =>
    db.written ((PostgresSessionRepository.create session db).map fun r =>
      (.session (some r.1), r.2))
  | .getSession sessionId =>
    db.read ((PostgresSessionRepository.getById sessionId db).map .session)
  | .updateSession session =>
    db.written (done (PostgresSessionRepository.update t.2.now session db))
  | .deleteSession sessionId => db.written (done (PostgresSessionRepository.delete sessionId db))
  | .listSessions userId limit offset =>
    db.read ((PostgresSessionRepository.listByUser t.2 userId limit offset db).map .sessions)
  | .createMessage message =>
    db.written ((PostgresMessageRepository.create message db).map fun r => (.message r.1, r.2))
  | .getMessages sessionId limit offset =>
    db.read ((PostgresMessageRepository.getBySession t.2 sessionId limit offset db).map .messages)
  | .deleteMessages sessionId =>
    db.written (done (PostgresMessageRepository.deleteBySession sessionId db))
  | .createRequirement requirement =>
    db.written ((PostgresRequirementRepository.create requirement db).map fun r =>
      (.requirement r.1, r.2))
  | .getRequirements sessionId =>
    db.read ((PostgresRequirementRepository.getBySession t.2 sessionId db).map .requirements)
  | .updateRequirement requirement =>
    db.written (done (PostgresRequirementRepository.update requirement db))
  | .deleteRequirement requirementId =>
    db.written (done (PostgresRequirementRepository.delete requirementId db))
  | .saveMaturity maturity =>
    db.written (done (PostgresMaturityRepository.save t.2.now maturity db))
  | .getMaturity sessionId =>
    db.read ((PostgresMaturityRepository.getBySession sessionId db).map .maturity)
  | .saveDraft draft =>
    db.written ((PostgresPRDRepository.saveDraft draft db).map fun r => (.draft (some r.1), r.2))
  | .getDraft sessionId =>
    db.read ((PostgresPRDRepository.getDraft t.2 sessionId db).map .draft)
  | .saveUserStories sessionId stories =>
    db.written (done (PostgresPRDRepository.saveUserStories sessionId stories db))
  | .getUserStories sessionId =>
    db.read ((PostgresPRDRepository.getUserStories t.2 sessionId db).map .stories)

end Database

/-! ## Statements that succeed -/

section

variable {R : Type} {key : R → String} {t : Records key} {r : R} {columns : List Column}

theorem parameter_of_storable {s : String} (h : Storable s) : parameter s = .ok () := if_pos h

theorem bigint_of_lt {n : ℕ} (h : n < int64Bound) : bigint n = .ok () := if_pos h

theorem Table.insert_of_new (hfits : Fits columns) (hnew : ∀ x ∈ t, key x ≠ key r) :
    Table.insert columns true r t = .ok (t.put r) := by
  have hnone : t.find? (key r) = none := Records.find?_eq_none.mpr hnew
  simp [Table.insert, hfits, hnone]

/-- What is inserted is put, and new. -/
theorem Table.insert_eq_ok {parent : Bool} {t' : Records key}
    (h : Table.insert columns parent r t = .ok t') : (∀ x ∈ t, key x ≠ key r) ∧ t' = t.put r := by
  rw [Table.insert] at h
  split at h
  case isTrue => cases h
  case isFalse =>
    split at h
    case isTrue => cases h
    case isFalse hkey =>
      cases h
      have hnone : t.find? (key r) = none := by
        cases hfind : t.find? (key r) <;> simp_all
      exact ⟨Records.find?_eq_none.mp hnone, rfl⟩

/-- A row that is merged is put, where `onupdate` leaves it as it is. -/
theorem Table.merge_of_fits [DecidableEq R] {stamped : R → R → R} (hfits : Fits columns)
    (hstamped : ∀ old ∈ t, key old = key r → r = old ∨ stamped old r = r) :
    Table.merge columns true stamped r t = .ok (t.put r) := by
  cases hfind : t.find? (key r) with
  | none =>
    have hnew := Records.find?_eq_none.mp hfind
    simp [Table.merge, hfind, Table.insert_of_new hfits hnew]
  | some old =>
    obtain ⟨hold, hkey⟩ := Records.find?_eq_some.mp hfind
    by_cases heq : r = old
    · subst heq
      simp [Table.merge, hfind, Records.put_of_mem hold]
    · have hr : stamped old r = r := (hstamped old hold hkey).resolve_left heq
      simp [Table.merge, hfind, heq, hfits, hr]

end

end DoxAsdlc.Repositories
