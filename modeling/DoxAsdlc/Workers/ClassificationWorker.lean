import DoxAsdlc.Core.Events
import DoxAsdlc.Interaction.Pool
import Mathlib.Data.Rat.Init

/-!
# The classification worker

Ideas are classified by workers that take them off one queue.  A job is a record with
counters, kept as one JSON text: whoever changes it reads all of it, and writes all of it
back.  An idea whose classification failed for a passing reason is put back on the queue.

One turn of a worker's loop is one coroutine here, with the outcome of the classification
as an argument; a worker that goes round several times is several of them.

## Main definitions

* `JobMeta`, `QueueItem` — the record of a job, and what is on the queue.
* `enqueue`, `enqueueBatch` — what puts ideas on the queue.
* `processJob`, `processNext` — what a worker does with an idea.
* `Phase`, `worker` — where a coroutine stands, and the machine that follows it.
-/

namespace DoxAsdlc.Classification

open Interaction Interaction.Program

inductive ClassificationType where
  | functional | nonFunctional | undetermined
  deriving DecidableEq, Repr

inductive ClassificationJobStatus where
  | pending | processing | completed | failed
  deriving DecidableEq, Repr

/-- Of a result, what is stored. -/
structure ClassificationResult where
  classification : ClassificationType
  confidence : ℚ
  deriving DecidableEq, Repr

/-- An entry of `results`. -/
structure ResultEntry where
  ideaId : String
  classification : ClassificationType
  confidence : ℚ
  deriving DecidableEq, Repr

/-- An entry of `errors`. -/
structure ErrorEntry where
  ideaId : String
  error : String
  deriving DecidableEq, Repr

/-- The record of a job. -/
structure JobMeta where
  jobId : String
  status : ClassificationJobStatus
  total : ℕ
  completed : ℕ
  failed : ℕ
  ideaIds : List String
  results : Option (List ResultEntry) := none
  errors : Option (List ErrorEntry) := none
  createdAt : Time
  deriving DecidableEq, Repr

/-- What a queue entry says. -/
structure QueueItem where
  jobId : String
  ideaId : String
  force : Bool := false
  retryCount : ℕ := 0
  batchJobId : Option String := none
  queuedAt : Time
  deriving DecidableEq, Repr

/-- `batch_job_id or job_id`. -/
def QueueItem.job (item : QueueItem) : String := (given item.batchJobId).getD item.jobId

/-! ## The store -/

/-- What the workers share. The head of the queue is what was pushed last. -/
structure Store where
  jobs : Redis.Keys String JobMeta
  queue : List QueueItem

def Store.empty : Store := ⟨fun _ => none, []⟩

inductive Cmd where
  | get (key : String)
  | set (key : String) (value : JobMeta)
  | lpush (item : QueueItem)
  | brpop

/-- The answers: `brpop` answers with nothing when the queue stays empty. -/
abbrev Reply : Cmd → Type
  | .get _ => Option JobMeta
  | .brpop => Option QueueItem
  | _ => Unit

abbrev interface : Interface := ⟨Cmd, Reply⟩

/-- What each command does. -/
def Store.serve : Server interface Store
  | .get key, w => (w, w.jobs key)
  | .set key value, w => ({ w with jobs := Function.update w.jobs key (some value) }, ())
  | .lpush item, w => ({ w with queue := item :: w.queue }, ())
  | .brpop, w => ({ w with queue := w.queue.dropLast }, w.queue.getLast?)

abbrev Async (α : Type) := Program interface Error α

abbrev send (c : Cmd) : Async (Reply c) := command (I := interface) c

/-- `f"{REDIS_JOB_KEY_PREFIX}{job_id}"`. -/
def jobKey (jobId : String) : String := "classification:job:" ++ jobId

@[simp] theorem jobKey_inj {j j' : String} : jobKey j = jobKey j' ↔ j = j' :=
  String.append_right_inj _

/-! ## Enqueueing -/

/-- The record of a job for one idea. -/
def singleMeta (now : Time) (jobId ideaId : String) : JobMeta where
  jobId := jobId
  status := .pending
  total := 1
  completed := 0
  failed := 0
  ideaIds := [ideaId]
  createdAt := now

/-- What is queued for it. -/
def singleItem (now : Time) (jobId ideaId : String) (force : Bool) : QueueItem where
  jobId := jobId
  ideaId := ideaId
  force := force
  queuedAt := now

/-- Add one idea to the queue. -/
def enqueue (now : Time) (jobId ideaId : String) (force : Bool) : Async String := do
  send (.set (jobKey jobId) (singleMeta now jobId ideaId))
  send (.lpush (singleItem now jobId ideaId force))
  return jobId

/-- The record of a batch. -/
def batchMeta (now : Time) (jobId : String) (ideaIds : List String) : JobMeta where
  jobId := jobId
  status := .pending
  total := ideaIds.length
  completed := 0
  failed := 0
  ideaIds := ideaIds
  results := some []
  createdAt := now

/-- What is queued for each idea of a batch. -/
def batchItem (now : Time) (jobId : String) (force : Bool) (ideaId : String) : QueueItem where
  jobId := jobId
  ideaId := ideaId
  force := force
  batchJobId := some jobId
  queuedAt := now

/-- Push the entries one after the other. -/
def pushAll : List QueueItem → Async Unit
  | [] => pure ()
  | item :: items => do
      send (.lpush item)
      pushAll items

/-- Add several ideas to the queue as one job. -/
def enqueueBatch (now : Time) (jobId : String) (ideaIds : List String) (force : Bool) :
    Async String := do
  send (.set (jobKey jobId) (batchMeta now jobId ideaIds))
  pushAll (ideaIds.map (batchItem now jobId force))
  return jobId

/-! ## Processing -/

def maxRetries : ℕ := 3

/-- `isinstance(error, (ConnectionError, TimeoutError, OSError))`. -/
def shouldRetry (e : Error) : Bool := e.cls == .osError

/-- The record with one more idea classified. -/
def JobMeta.withSuccess (data : JobMeta) (ideaId : String) (result : ClassificationResult) :
    JobMeta :=
  let counted := { data with
    completed := data.completed + 1
    results := data.results.map (· ++ [⟨ideaId, result.classification, result.confidence⟩]) }
  if counted.total ≤ counted.completed + counted.failed then
    { counted with status := .completed }
  else counted

/-- The record with one more idea failed. -/
def JobMeta.withFailure (data : JobMeta) (ideaId error : String) : JobMeta :=
  let counted := { data with
    failed := data.failed + 1
    errors := some (data.errors.getD [] ++ [⟨ideaId, error⟩]) }
  if counted.total ≤ counted.completed + counted.failed then
    { counted with status := if counted.failed = counted.total then .failed else .completed }
  else counted

/-- Read the record of a job, and write it back changed. -/
def changeJob (jobId : String) (change : JobMeta → JobMeta) : Async Unit := do
  match ← send (.get (jobKey jobId)) with
  | none => pure ()
  | some data => send (.set (jobKey jobId) (change data))

def updateJobStatus (jobId : String) (status : ClassificationJobStatus) : Async Unit :=
  changeJob jobId fun data => { data with status }

def markJobSuccess (jobId ideaId : String) (result : ClassificationResult) : Async Unit :=
  changeJob jobId fun data => data.withSuccess ideaId result

def markJobFailed (jobId ideaId error : String) : Async Unit :=
  changeJob jobId fun data => data.withFailure ideaId error

/-- Put an idea back on the queue; the delay before is left out. -/
def retryJob (item : QueueItem) (retryCount : ℕ) : Async Unit :=
  send (.lpush { item with retryCount })

/-- What follows a failure: another try, or the idea is marked as failed. -/
def handleFailure (item : QueueItem) (e : Error) : Async Unit :=
  if shouldRetry e && item.retryCount < maxRetries then retryJob item (item.retryCount + 1)
  else markJobFailed item.job item.ideaId e.str

/-- The outcome of `classify_idea` on an idea, forced or not. -/
abbrev Classifier := String → Bool → Except Error ClassificationResult

variable (classify : Classifier)

/-- Process one idea. -/
def processJob (item : QueueItem) : Async Unit :=
  try do
    updateJobStatus item.job .processing
    let result ← answer (classify item.ideaId item.force)
    markJobSuccess item.job item.ideaId result
  catch e => handleFailure item e

/-- One turn of `process_queue`. -/
def processNext : Async Unit :=
  try do
    match ← send .brpop with
    | none => pure ()
    | some item => processJob classify item
  catch _ => pure ()

/-! ## Where a coroutine stands -/

/-- What is to be counted for an idea. -/
abbrev Count := ClassificationResult ⊕ String

/-- The record with one more idea counted. -/
def JobMeta.counting (ideaId : String) : Count → JobMeta → JobMeta
  | .inl result, data => data.withSuccess ideaId result
  | .inr error, data => data.withFailure ideaId error

/-- The phases of a coroutine, each named for what it does next. -/
inductive Phase where
  | creating (jobId : String) (data : JobMeta) (items : List QueueItem)
  | pushing (items : List QueueItem)
  | popping
  | readingStatus (item : QueueItem)
  | writingStatus (item : QueueItem) (data : JobMeta)
  | readingCount (item : QueueItem) (count : Count)
  | writingCount (item : QueueItem) (count : Count) (data : JobMeta)
  | retrying (item : QueueItem)
  | closed (result : Except Error Unit)

namespace Phase

/-- After a failure: another try, or one more failed. -/
def failed (item : QueueItem) (e : Error) : Phase :=
  if shouldRetry e && item.retryCount < maxRetries then
    retrying { item with retryCount := item.retryCount + 1 }
  else readingCount item (.inr e.str)

/-- After the classification. -/
def classified (item : QueueItem) : Phase :=
  match classify item.ideaId item.force with
  | .ok result => readingCount item (.inl result)
  | .error e => failed item e

/-- All exceptions that reach the loop of a worker are dropped. -/
def dropping (p : Async Unit) : Async Unit := p.elim .ret fun _ => .ret ()

/-- What is left to do in a phase. -/
def program : Phase → Async Unit
  | creating jobId data items => do
      send (.set (jobKey jobId) data)
      pushAll items
  | pushing items => pushAll items
  | popping => processNext classify
  | readingStatus item => dropping (processJob classify item)
  | writingStatus item data => dropping <| (do
      send (.set (jobKey item.job) { data with status := .processing })
      let result ← answer (classify item.ideaId item.force)
      markJobSuccess item.job item.ideaId result).elim .ret (handleFailure item)
  | readingCount item (.inl result) =>
    dropping ((markJobSuccess item.job item.ideaId result).elim .ret (handleFailure item))
  | readingCount item (.inr error) => dropping (markJobFailed item.job item.ideaId error)
  | writingCount item (.inl result) data =>
    dropping ((send (.set (jobKey item.job) (data.withSuccess item.ideaId result))).elim .ret
      (handleFailure item))
  | writingCount item (.inr error) data =>
    dropping (send (.set (jobKey item.job) (data.withFailure item.ideaId error)))
  | retrying item => dropping (send (.lpush item))
  | closed result => answer result

/-- The phase after an exchange with the server. -/
def next : Phase → Exchange interface Error → Phase
  | creating _ _ items, ⟨.set _ _, .ok _, _⟩ => pushing items
  | creating _ _ _, ⟨.set _ _, .error e, _⟩ => closed (.error e)
  | pushing (_ :: items), ⟨.lpush _, .ok _, _⟩ => pushing items
  | pushing _, ⟨.lpush _, .error e, _⟩ => closed (.error e)
  | popping, ⟨.brpop, .ok (some item), _⟩ => readingStatus item
  | popping, ⟨.brpop, _, _⟩ => closed (.ok ())
  | readingStatus item, ⟨.get _, .ok (some data), _⟩ => writingStatus item data
  | readingStatus item, ⟨.get _, .ok none, _⟩ => classified classify item
  | readingStatus item, ⟨.get _, .error e, _⟩ => failed item e
  | writingStatus item _, ⟨.set _ _, .ok _, _⟩ => classified classify item
  | writingStatus item _, ⟨.set _ _, .error e, _⟩ => failed item e
  | readingCount item count, ⟨.get _, .ok (some data), _⟩ => writingCount item count data
  | readingCount _ _, ⟨.get _, .ok none, _⟩ => closed (.ok ())
  | readingCount item (.inl _), ⟨.get _, .error e, _⟩ => failed item e
  | readingCount _ (.inr _), ⟨.get _, .error _, _⟩ => closed (.ok ())
  | writingCount item (.inl _) _, ⟨.set _ _, .error e, _⟩ => failed item e
  | writingCount _ _ _, ⟨.set _ _, _, _⟩ => closed (.ok ())
  | retrying _, ⟨.lpush _, _, _⟩ => closed (.ok ())
  | phase, _ => phase

theorem program_failed (item : QueueItem) (e : Error) :
    (failed item e).program classify = dropping (handleFailure item e) := by
  unfold failed handleFailure
  split <;> rfl

theorem program_classified (item : QueueItem) :
    (classified classify item).program classify = dropping
      ((do
        let result ← answer (classify item.ideaId item.force)
        markJobSuccess item.job item.ideaId result).elim .ret (handleFailure item)) := by
  unfold classified
  cases classify item.ideaId item.force with
  | ok result => rfl
  | error e => exact program_failed classify item e

end Phase

/-- The machine that follows a coroutine. -/
def worker : Tracker interface Error Unit Phase where
  program := Phase.program classify
  next := Phase.next classify
  follows := by
    intro p c k h reply b
    cases p with
    | creating jobId data items =>
      cases h
      cases reply <;> rfl
    | pushing items =>
      cases items with
      | nil => cases h
      | cons item items =>
        cases h
        cases reply <;> rfl
    | popping =>
      cases h
      rcases reply with e | _ | item <;> rfl
    | readingStatus item =>
      cases h
      rcases reply with e | _ | data
      · exact (Phase.program_failed classify item e).symm
      · exact (Phase.program_classified classify item).symm
      · rfl
    | writingStatus item data =>
      cases h
      cases reply with
      | error e => exact (Phase.program_failed classify item e).symm
      | ok u => exact (Phase.program_classified classify item).symm
    | readingCount item count =>
      cases count with
      | inl result =>
        cases h
        rcases reply with e | _ | data
        · exact (Phase.program_failed classify item e).symm
        · rfl
        · rfl
      | inr error =>
        cases h
        rcases reply with e | _ | data <;> rfl
    | writingCount item count data =>
      cases count with
      | inl result =>
        cases h
        cases reply with
        | error e => exact (Phase.program_failed classify item e).symm
        | ok u => rfl
      | inr error =>
        cases h
        cases reply <;> rfl
    | retrying item =>
      cases h
      cases reply <;> rfl
    | closed result => cases result <;> cases h

/-! ## The calls -/

/-- What may run: an enqueueing, or a turn of a worker. -/
inductive Call where
  | enqueue (now : Time) (jobId ideaId : String) (force : Bool)
  | enqueueBatch (now : Time) (jobId : String) (ideaIds : List String) (force : Bool)
  | processNext (classify : Classifier)

namespace Call

/-- The program of a call. -/
def program : Call → Async Unit
  | .enqueue now jobId ideaId force => do
      let _ ← Classification.enqueue now jobId ideaId force
  | .enqueueBatch now jobId ideaIds force => do
      let _ ← Classification.enqueueBatch now jobId ideaIds force
  | .processNext classify => Classification.processNext classify

/-- The outcomes of the classification in a call. -/
def classifier : Call → Classifier
  | .processNext classify => classify
  | _ => fun _ _ => .error { cls := .exception, message := "" }

/-- Where a call begins. -/
def phase : Call → Phase
  | .enqueue now jobId ideaId force =>
    .creating jobId (singleMeta now jobId ideaId) [singleItem now jobId ideaId force]
  | .enqueueBatch now jobId ideaIds force =>
    .creating jobId (batchMeta now jobId ideaIds) (ideaIds.map (batchItem now jobId force))
  | .processNext _ => .popping

theorem program_phase (call : Call) : call.phase.program call.classifier = call.program := by
  cases call with
  | enqueue now jobId ideaId force =>
    simp only [phase, Phase.program, program, Classification.enqueue, send, command_eq, bind_eq,
      elim_call, elim_elim, pushAll, pure_eq, elim_ret, elim_raise]
  | enqueueBatch now jobId ideaIds force =>
    simp only [phase, Phase.program, program, Classification.enqueueBatch, send, command_eq,
      bind_eq, elim_call, elim_elim, pure_eq, elim_ret, elim_raise]
    congr 1
    funext r
    cases r with
    | error e => rfl
    | ok u => exact (elim_ret_raise _).symm
  | processNext classify => rfl

end Call

end DoxAsdlc.Classification
