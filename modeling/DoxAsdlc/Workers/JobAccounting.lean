import DoxAsdlc.Workers.ClassificationWorker
import Mathlib.Algebra.Order.BigOperators.Group.Finset

/-!
# The accounts of classification jobs

Every idea of a job is on the queue, or held by a coroutine that is to put it there or has
taken it off, or counted in the record of the job.  A turn moves an idea from one place to
another.  Since a record is read by one command and written by another, the count is right
as long as nobody has counted in between.

## Main definitions

* `Phase.held`, `outstanding` — the ideas of a job that are not counted.
* `Accounted` — the counts of all jobs are right, and a job that is through has ended.
* `Unraced` — a record that is written has the counts that were read.
-/

namespace DoxAsdlc.Classification

open Interaction Interaction.Program

namespace Phase

/-- How many ideas of a job are in the hands of a coroutine: still to be put on the queue,
or taken off it and not yet counted. -/
def held (jobId : String) : Phase → ℕ
  | pushing items => items.countP fun item => item.job = jobId
  | readingStatus item | writingStatus item _ | readingCount item _ | writingCount item _ _
  | retrying item => if item.job = jobId then 1 else 0
  | _ => 0

/-- The command that comes next. -/
def command : Phase → Option Cmd
  | creating jobId data _ => some (.set (jobKey jobId) data)
  | pushing [] => none
  | pushing (item :: _) => some (.lpush item)
  | popping => some .brpop
  | readingStatus item | readingCount item _ => some (.get (jobKey item.job))
  | writingStatus item data => some (.set (jobKey item.job) { data with status := .processing })
  | writingCount item count data => some (.set (jobKey item.job) (data.counting item.ideaId count))
  | retrying item => some (.lpush item)
  | closed _ => none

theorem head?_program (classify : Classifier) (p : Phase) :
    (p.program classify).head? = p.command := by
  cases p with
  | pushing items => cases items <;> rfl
  | readingCount item count => cases count <;> rfl
  | writingCount item count data => cases count <;> rfl
  | closed result => cases result <;> rfl
  | _ => rfl

/-- The store after the next command. -/
def effect (p : Phase) (w : Store) : Store :=
  match p.command with
  | some cmd => (Store.serve cmd w).1
  | none => w

/-- The phase after the next command. -/
def moved (classify : Classifier) (p : Phase) (w : Store) : Phase :=
  match p.command with
  | some cmd => p.next classify ⟨cmd, .ok (Store.serve cmd w).2, true⟩
  | none => p

theorem held_failed (item : QueueItem) (e : Error) (jobId : String) :
    (failed item e).held jobId = if item.job = jobId then 1 else 0 := by
  unfold failed
  split <;> rfl

theorem held_classified (classify : Classifier) (item : QueueItem) (jobId : String) :
    (classified classify item).held jobId = if item.job = jobId then 1 else 0 := by
  unfold classified
  cases classify item.ideaId item.force with
  | ok result => rfl
  | error e => exact held_failed item e jobId

end Phase

/-- Counting an idea adds one to the counters, and ends the job when it was the last. -/
theorem JobMeta.counting_spec (data : JobMeta) (ideaId : String) (count : Count) :
    (data.counting ideaId count).completed + (data.counting ideaId count).failed
        = data.completed + data.failed + 1 ∧
      (data.counting ideaId count).total = data.total ∧
      (data.total ≤ data.completed + data.failed + 1 →
        (data.counting ideaId count).status = .completed ∨
          (data.counting ideaId count).status = .failed) := by
  cases count with
  | inl result =>
    simp only [counting, withSuccess]
    split
    · exact ⟨Nat.add_right_comm _ _ _, rfl, fun _ => .inl rfl⟩
    · exact ⟨Nat.add_right_comm _ _ _, rfl, fun h => by omega⟩
  | inr error =>
    simp only [counting, withFailure]
    split
    · refine ⟨rfl, rfl, fun _ => ?_⟩
      split
      · exact .inr rfl
      · exact .inl rfl
    · exact ⟨rfl, rfl, fun h => by omega⟩

/-! ## The accounts -/

section

variable {ι : Type} [Fintype ι]

/-- The ideas of a job that are on the queue or held by a coroutine. -/
def outstanding (w : Store) (φ : ι → Phase) (jobId : String) : ℕ :=
  w.queue.countP (fun item => item.job = jobId) + ∑ j, (φ j).held jobId

/-- Every idea is counted once, unless it is outstanding; and a job without outstanding
ideas has ended. -/
structure Accounted (w : Store) (φ : ι → Phase) : Prop where
  counted : ∀ jobId data, w.jobs (jobKey jobId) = some data →
    data.completed + data.failed + outstanding w φ jobId = data.total
  ended : ∀ jobId data, w.jobs (jobKey jobId) = some data → outstanding w φ jobId = 0 →
    data.status = .completed ∨ data.status = .failed

/-- The turn of a coroutine that is about to write a record: it creates one for ideas of
which there are none yet, or the record has the counts that the coroutine has read. -/
def Unraced (w : Store) (φ : ι → Phase) (j : ι) : Prop :=
  match φ j with
  | .creating jobId _ items => outstanding w φ jobId = 0 ∧ items ≠ []
  | .writingStatus item data | .writingCount item _ data =>
    ∀ stored, w.jobs (jobKey item.job) = some stored →
      stored.completed + stored.failed = data.completed + data.failed
  | _ => True

/-- What a phase takes for granted: a new record counts nothing yet, and a record that was
read is still stored with its total. -/
def Phase.Sound (w : Store) : Phase → Prop
  | .creating jobId data items => data.completed = 0 ∧ data.failed = 0 ∧
      data.total = items.length ∧ data.status = .pending ∧ ∀ item ∈ items, item.job = jobId
  | .writingStatus item data | .writingCount item _ data =>
    ∃ stored, w.jobs (jobKey item.job) = some stored ∧ stored.total = data.total
  | _ => True

theorem Phase.sound_failed (item : QueueItem) (e : Error) (w : Store) :
    (failed item e).Sound w := by
  unfold failed
  split <;> trivial

theorem Phase.sound_classified (classify : Classifier) (item : QueueItem) (w : Store) :
    (classified classify item).Sound w := by
  unfold classified
  cases classify item.ideaId item.force with
  | ok result => trivial
  | error e => exact sound_failed item e w

/-- No idea is outstanding for a job without a record, and every phase is sound. -/
structure Consistent (w : Store) (φ : ι → Phase) : Prop where
  absent : ∀ jobId, w.jobs (jobKey jobId) = none → outstanding w φ jobId = 0
  sound : ∀ j, (φ j).Sound w

variable [DecidableEq ι] {w w' : Store} {φ : ι → Phase} {j : ι} {p : Phase}

variable (w w' φ j p) in
/-- What a turn changes of the outstanding ideas. -/
theorem outstanding_update (jobId : String) :
    outstanding w' (Function.update φ j p) jobId +
        (w.queue.countP (fun item => item.job = jobId) + (φ j).held jobId)
      = outstanding w φ jobId +
        (w'.queue.countP (fun item => item.job = jobId) + p.held jobId) := by
  have hrest : ∑ i ∈ Finset.univ.erase j, (Function.update φ j p i).held jobId
      = ∑ i ∈ Finset.univ.erase j, (φ i).held jobId := by
    refine Finset.sum_congr rfl fun i hi => ?_
    rw [Function.update_of_ne (Finset.ne_of_mem_erase hi)]
  have hnew := Finset.add_sum_erase Finset.univ
    (fun i => (Function.update φ j p i).held jobId) (Finset.mem_univ j)
  have hold := Finset.add_sum_erase Finset.univ (fun i => (φ i).held jobId) (Finset.mem_univ j)
  simp only [Function.update_self, hrest] at hnew
  unfold outstanding
  omega

omit [DecidableEq ι] in
/-- What one coroutine holds is outstanding. -/
theorem held_le_outstanding (w : Store) (φ : ι → Phase) (j : ι) (jobId : String) :
    (φ j).held jobId ≤ outstanding w φ jobId := by
  have hsum : (φ j).held jobId ≤ ∑ i, (φ i).held jobId :=
    Finset.single_le_sum (f := fun i => (φ i).held jobId) (fun _ _ => Nat.zero_le _)
      (Finset.mem_univ j)
  unfold outstanding
  omega

/-- A turn that leaves the records alone and the outstanding ideas outstanding leaves the
accounts as they are. -/
theorem accounted_quiet (hjobs : w'.jobs = w.jobs)
    (hheld : ∀ jobId, w'.queue.countP (fun item => item.job = jobId) + p.held jobId
      = w.queue.countP (fun item => item.job = jobId) + (φ j).held jobId) :
    (Accounted w' (Function.update φ j p) ↔ Accounted w φ) ∧
      ∀ jobId, outstanding w' (Function.update φ j p) jobId = outstanding w φ jobId := by
  have hsame : ∀ jobId, outstanding w' (Function.update φ j p) jobId
      = outstanding w φ jobId := by
    intro jobId
    have hturn := outstanding_update w w' φ j p jobId
    have hlaw := hheld jobId
    omega
  refine ⟨⟨fun h => ⟨fun r data hdata => ?_, fun r data hdata => ?_⟩,
    fun h => ⟨fun r data hdata => ?_, fun r data hdata => ?_⟩⟩, hsame⟩
  · rw [← hsame]; exact h.counted r data (by rw [hjobs]; exact hdata)
  · rw [← hsame]; exact h.ended r data (by rw [hjobs]; exact hdata)
  · rw [hjobs] at hdata; rw [hsame]; exact h.counted r data hdata
  · rw [hjobs] at hdata; rw [hsame]; exact h.ended r data hdata

omit [Fintype ι] [DecidableEq ι] in
/-- Soundness of a phase is about the records only. -/
theorem Phase.Sound.of_jobs_eq {q : Phase} (h : q.Sound w) (hjobs : w'.jobs = w.jobs) :
    q.Sound w' := by
  cases q with
  | writingStatus item data | writingCount item _ data =>
    obtain ⟨stored, hstored, htotal⟩ := h
    exact ⟨stored, by rw [hjobs]; exact hstored, htotal⟩
  | creating _ _ _ => exact h
  | _ => trivial

/-- A turn that is quiet keeps what is taken for granted. -/
theorem consistent_quiet (hI : Consistent w φ) (hjobs : w'.jobs = w.jobs)
    (hsame : ∀ jobId, outstanding w' (Function.update φ j p) jobId = outstanding w φ jobId)
    (hp : p.Sound w') : Consistent w' (Function.update φ j p) := by
  refine ⟨fun jobId hnone => ?_, fun i => ?_⟩
  · rw [hsame]
    exact hI.absent jobId (by rw [← hjobs]; exact hnone)
  · by_cases hi : i = j
    · rw [hi, Function.update_self]
      exact hp
    · rw [Function.update_of_ne hi]
      exact (hI.sound i).of_jobs_eq hjobs

/-- A turn that writes the record of a job, and may change what is outstanding of that job:
the accounts are right when those of this job are. -/
theorem accounted_write (hA : Accounted w φ) {jobId : String} {data : JobMeta}
    (hjobs : w'.jobs = Function.update w.jobs (jobKey jobId) (some data))
    (hother : ∀ r, r ≠ jobId →
      outstanding w' (Function.update φ j p) r = outstanding w φ r) :
    Accounted w' (Function.update φ j p) ↔
      data.completed + data.failed + outstanding w' (Function.update φ j p) jobId = data.total ∧
        (outstanding w' (Function.update φ j p) jobId = 0 →
          data.status = .completed ∨ data.status = .failed) := by
  have hself : w'.jobs (jobKey jobId) = some data := by rw [hjobs, Function.update_self]
  have hkeep : ∀ r, r ≠ jobId → w'.jobs (jobKey r) = w.jobs (jobKey r) := by
    intro r hr
    rw [hjobs, Function.update_of_ne (by simpa using hr)]
  constructor
  · intro h
    exact ⟨h.counted jobId data hself, h.ended jobId data hself⟩
  · rintro ⟨hcounted, hended⟩
    refine ⟨fun r data' hdata' => ?_, fun r data' hdata' => ?_⟩
    · by_cases hr : r = jobId
      · rw [hr, hself] at hdata'
        cases hdata'
        rw [hr]
        exact hcounted
      · rw [hkeep r hr] at hdata'
        rw [hother r hr]
        exact hA.counted r data' hdata'
    · by_cases hr : r = jobId
      · rw [hr, hself] at hdata'
        cases hdata'
        rw [hr]
        exact hended
      · rw [hkeep r hr] at hdata'
        rw [hother r hr]
        exact hA.ended r data' hdata'

/-- A write that keeps the total of the record keeps what is taken for granted. -/
theorem consistent_write (hI : Consistent w φ) {jobId : String} {data : JobMeta}
    (hjobs : w'.jobs = Function.update w.jobs (jobKey jobId) (some data))
    (hother : ∀ r, r ≠ jobId →
      outstanding w' (Function.update φ j p) r = outstanding w φ r)
    (htotal : ∀ i, i ≠ j → 0 < (φ i).held jobId → ∀ stored,
      w.jobs (jobKey jobId) = some stored → stored.total = data.total)
    (hp : p.Sound w') : Consistent w' (Function.update φ j p) := by
  have hkeep : ∀ r, r ≠ jobId → w'.jobs (jobKey r) = w.jobs (jobKey r) := by
    intro r hr
    rw [hjobs, Function.update_of_ne (by simpa using hr)]
  have hread : ∀ i, i ≠ j → ∀ (item : QueueItem) (read : JobMeta),
      (φ i).held item.job = 1 →
      (∃ stored, w.jobs (jobKey item.job) = some stored ∧ stored.total = read.total) →
      ∃ stored, w'.jobs (jobKey item.job) = some stored ∧ stored.total = read.total := by
    rintro i hi item read hheld ⟨stored, hstored, hread⟩
    by_cases hr : item.job = jobId
    · rw [hr] at hstored hheld
      refine ⟨data, by rw [hr, hjobs, Function.update_self], ?_⟩
      rw [← htotal i hi (by omega) stored hstored, hread]
    · exact ⟨stored, by rw [hkeep _ hr]; exact hstored, hread⟩
  refine ⟨fun r hnone => ?_, fun i => ?_⟩
  · by_cases hr : r = jobId
    · rw [hr, hjobs, Function.update_self] at hnone
      cases hnone
    · rw [hother r hr]
      exact hI.absent r (by rw [← hkeep r hr]; exact hnone)
  · by_cases hi : i = j
    · rw [hi, Function.update_self]
      exact hp
    · rw [Function.update_of_ne hi]
      have hsound := hI.sound i
      cases hφ : φ i with
      | writingStatus item read =>
        rw [hφ] at hsound
        exact hread i hi item read (by simp [hφ, Phase.held]) hsound
      | writingCount item count read =>
        rw [hφ] at hsound
        exact hread i hi item read (by simp [hφ, Phase.held]) hsound
      | creating _ _ _ =>
        rw [hφ] at hsound
        exact hsound
      | _ => trivial

/-! ## One turn -/

/-- The creation of a record. -/
theorem creating_iff (hI : Consistent w φ) (hA : Accounted w φ) {jobId : String}
    {data : JobMeta} {items : List QueueItem} (hj : φ j = .creating jobId data items)
    (hjobs : w'.jobs = Function.update w.jobs (jobKey jobId) (some data))
    (hqueue : w'.queue = w.queue) :
    (Accounted w' (Function.update φ j (.pushing items)) ↔
        outstanding w φ jobId = 0 ∧ items ≠ []) ∧
      (outstanding w φ jobId = 0 ∧ items ≠ [] →
        Consistent w' (Function.update φ j (.pushing items))) := by
  have hsound := hI.sound j
  rw [hj] at hsound
  obtain ⟨hcompleted, hfailed, htotal, hstatus, hitems⟩ := hsound
  have hturn := outstanding_update w w' φ j (.pushing items)
  have hself : outstanding w' (Function.update φ j (.pushing items)) jobId
      = outstanding w φ jobId + items.length := by
    have hall : items.countP (fun item => item.job = jobId) = items.length :=
      List.countP_eq_length.mpr fun item hitem => by simpa using hitems item hitem
    have h := hturn jobId
    rw [hj, hqueue] at h
    simp only [Phase.held, hall] at h
    omega
  have hother : ∀ r, r ≠ jobId →
      outstanding w' (Function.update φ j (.pushing items)) r = outstanding w φ r := by
    intro r hr
    have hnone : items.countP (fun item => item.job = r) = 0 :=
      List.countP_eq_zero.mpr fun item hitem => by simpa [hitems item hitem] using Ne.symm hr
    have h := hturn r
    rw [hj, hqueue] at h
    simp only [Phase.held, hnone] at h
    omega
  have hlength : items ≠ [] ↔ items.length ≠ 0 := by simp
  constructor
  · rw [accounted_write hA hjobs hother, hself, hcompleted, hfailed, htotal, hstatus, hlength]
    simp only [reduceCtorEq, or_self, imp_false]
    omega
  · rintro ⟨hnone, -⟩
    refine consistent_write hI hjobs hother (fun i _ hheld => ?_) trivial
    have hle := held_le_outstanding w φ i jobId
    omega

/-- The record with the status of an idea that is being processed. -/
theorem writingStatus_iff (hI : Consistent w φ) (hA : Accounted w φ) {item : QueueItem}
    {data : JobMeta} (hj : φ j = .writingStatus item data)
    (hheld : ∀ r, p.held r = if item.job = r then 1 else 0) (hp : p.Sound w')
    (hjobs : w'.jobs = Function.update w.jobs (jobKey item.job)
      (some { data with status := .processing }))
    (hqueue : w'.queue = w.queue) :
    (Accounted w' (Function.update φ j p) ↔ ∀ stored,
        w.jobs (jobKey item.job) = some stored →
          stored.completed + stored.failed = data.completed + data.failed) ∧
      Consistent w' (Function.update φ j p) := by
  have hsound := hI.sound j
  rw [hj] at hsound
  obtain ⟨stored, hstored, htotal⟩ := hsound
  have hsame : ∀ r, outstanding w' (Function.update φ j p) r = outstanding w φ r := by
    intro r
    have h := outstanding_update w w' φ j p r
    rw [hj, hqueue, hheld r] at h
    simp only [Phase.held] at h
    omega
  have hone : 1 ≤ outstanding w φ item.job := by
    have hle := held_le_outstanding w φ j item.job
    rw [hj] at hle
    simpa [Phase.held] using hle
  have hcounted := hA.counted item.job stored hstored
  constructor
  · rw [accounted_write hA hjobs fun r _ => hsame r, hsame]
    simp only [hstored, Option.some.injEq, forall_eq']
    omega
  · refine consistent_write hI hjobs (fun r _ => hsame r) (fun i _ _ stored' hstored' => ?_) hp
    rw [hstored] at hstored'
    cases hstored'
    exact htotal

/-- The record with one more idea counted. -/
theorem writingCount_iff (hI : Consistent w φ) (hA : Accounted w φ) {item : QueueItem}
    {count : Count} {data : JobMeta} (hj : φ j = .writingCount item count data)
    (hheld : ∀ r, p.held r = 0) (hp : p.Sound w')
    (hjobs : w'.jobs = Function.update w.jobs (jobKey item.job)
      (some (data.counting item.ideaId count)))
    (hqueue : w'.queue = w.queue) :
    (Accounted w' (Function.update φ j p) ↔ ∀ stored,
        w.jobs (jobKey item.job) = some stored →
          stored.completed + stored.failed = data.completed + data.failed) ∧
      Consistent w' (Function.update φ j p) := by
  have hsound := hI.sound j
  rw [hj] at hsound
  obtain ⟨stored, hstored, htotal⟩ := hsound
  obtain ⟨hsum, htotal', hended⟩ := data.counting_spec item.ideaId count
  have hself : outstanding w' (Function.update φ j p) item.job + 1 = outstanding w φ item.job := by
    have h := outstanding_update w w' φ j p item.job
    rw [hj, hqueue, hheld] at h
    simp only [Phase.held, if_true] at h
    omega
  have hother : ∀ r, r ≠ item.job →
      outstanding w' (Function.update φ j p) r = outstanding w φ r := by
    intro r hr
    have h := outstanding_update w w' φ j p r
    rw [hj, hqueue, hheld] at h
    simp only [Phase.held, if_neg (Ne.symm hr)] at h
    omega
  have hcounted := hA.counted item.job stored hstored
  constructor
  · rw [accounted_write hA hjobs hother, hsum, htotal']
    simp only [hstored, Option.some.injEq, forall_eq']
    constructor
    · intro h
      omega
    · intro h
      exact ⟨by omega, fun hnone => hended (by omega)⟩
  · refine consistent_write hI hjobs hother (fun i _ _ stored' hstored' => ?_) hp
    rw [hstored] at hstored'
    cases hstored'
    rw [htotal', htotal]

/-- **One turn** keeps the accounts exactly when it is not raced. -/
theorem moved_iff (classify : Classifier) (hI : Consistent w φ) (hA : Accounted w φ) (j : ι) :
    (Accounted ((φ j).effect w) (Function.update φ j ((φ j).moved classify w)) ↔ Unraced w φ j) ∧
      (Unraced w φ j →
        Consistent ((φ j).effect w) (Function.update φ j ((φ j).moved classify w))) := by
  -- A turn that leaves the records alone moves an idea from one place to another.
  have hquiet : ∀ {w' : Store} {p : Phase}, w'.jobs = w.jobs →
      (∀ r, w'.queue.countP (fun item => item.job = r) + p.held r
        = w.queue.countP (fun item => item.job = r) + (φ j).held r) → p.Sound w' →
      (Accounted w' (Function.update φ j p) ↔ True) ∧
        (True → Consistent w' (Function.update φ j p)) := by
    intro w' p hjobs hheld hp
    obtain ⟨haccounts, hsame⟩ := accounted_quiet (φ := φ) (j := j) hjobs hheld
    exact ⟨iff_of_true (haccounts.mpr hA) trivial, fun _ => consistent_quiet hI hjobs hsame hp⟩
  unfold Unraced
  cases hj : φ j with
  | creating jobId data items => exact creating_iff hI hA hj rfl rfl
  | pushing items =>
    cases items with
    | nil => exact hquiet rfl (fun r => by rw [hj]; rfl) trivial
    | cons item items =>
      refine hquiet rfl (fun r => ?_) trivial
      change (item :: w.queue).countP (fun item => item.job = r)
          + items.countP (fun item => item.job = r) = _
      rw [hj, Phase.held, List.countP_cons, List.countP_cons]
      omega
  | popping =>
    cases hlast : w.queue.getLast? with
    | none =>
      have hempty : w.queue = [] := List.getLast?_eq_none_iff.mp hlast
      have hmoved : Phase.popping.moved classify w = .closed (.ok ()) := by
        simp [Phase.moved, Phase.command, Store.serve, hlast, Phase.next]
      rw [hmoved]
      refine hquiet rfl (fun r => ?_) trivial
      simp [Phase.effect, Phase.command, Store.serve, hempty, hj, Phase.held]
    | some item =>
      have hmoved : Phase.popping.moved classify w = .readingStatus item := by
        simp [Phase.moved, Phase.command, Store.serve, hlast, Phase.next]
      rw [hmoved]
      refine hquiet rfl (fun r => ?_) trivial
      have hqueue : w.queue = w.queue.dropLast ++ [item] :=
        (List.dropLast_append_getLast? item hlast).symm
      change w.queue.dropLast.countP (fun item => item.job = r)
        + (if item.job = r then 1 else 0) = _
      rw [hj, hqueue, List.dropLast_concat, List.countP_append, List.countP_singleton]
      simp [Phase.held]
  | readingStatus item =>
    cases hread : w.jobs (jobKey item.job) with
    | none =>
      have hmoved : (Phase.readingStatus item).moved classify w
          = Phase.classified classify item := by
        simp [Phase.moved, Phase.command, Store.serve, hread, Phase.next]
      rw [hmoved]
      refine hquiet rfl (fun r => ?_) (Phase.sound_classified classify item _)
      rw [hj, Phase.held_classified]
      rfl
    | some data =>
      have hmoved : (Phase.readingStatus item).moved classify w
          = .writingStatus item data := by
        simp [Phase.moved, Phase.command, Store.serve, hread, Phase.next]
      rw [hmoved]
      exact hquiet rfl (fun r => by rw [hj]; rfl) ⟨data, hread, rfl⟩
  | writingStatus item data =>
    have h := writingStatus_iff hI hA hj (Phase.held_classified classify item)
      (Phase.sound_classified classify item _)
      (rfl : ((Phase.writingStatus item data).effect w).jobs = _) rfl
    exact ⟨h.1, fun _ => h.2⟩
  | readingCount item count =>
    cases hread : w.jobs (jobKey item.job) with
    | none =>
      -- An idea that is held belongs to a job with a record.
      have hle := held_le_outstanding w φ j item.job
      rw [hI.absent item.job hread, hj] at hle
      simp [Phase.held] at hle
    | some data =>
      have hmoved : (Phase.readingCount item count).moved classify w
          = .writingCount item count data := by
        cases count <;> simp [Phase.moved, Phase.command, Store.serve, hread, Phase.next]
      rw [hmoved]
      exact hquiet rfl (fun r => by rw [hj]; rfl) ⟨data, hread, rfl⟩
  | writingCount item count data =>
    have hmoved : (Phase.writingCount item count data).moved classify w = .closed (.ok ()) := by
      cases count <;> rfl
    have h := writingCount_iff (p := .closed (.ok ())) hI hA hj (fun _ => rfl) trivial
      (rfl : ((Phase.writingCount item count data).effect w).jobs = _) rfl
    rw [hmoved]
    exact ⟨h.1, fun _ => h.2⟩
  | retrying item =>
    refine hquiet rfl (fun r => ?_) trivial
    change (item :: w.queue).countP (fun item => item.job = r) + 0 = _
    rw [hj, Phase.held, List.countP_cons]
    simp
  | closed result => exact hquiet rfl (fun r => by rw [hj]; rfl) trivial

end

/-- A call begins with a new record and its ideas, or with a look at the queue. -/
theorem Call.sound_phase (call : Call) : call.phase.Sound Store.empty := by
  cases call with
  | enqueue now jobId ideaId force =>
    simp [phase, Phase.Sound, singleMeta, singleItem, QueueItem.job]
  | enqueueBatch now jobId ideaIds force =>
    have hjob : ∀ ideaId, (batchItem now jobId force ideaId).job = jobId := by
      intro ideaId
      by_cases hempty : jobId = ""
      · simp [QueueItem.job, batchItem, given_some, hempty]
      · simp [QueueItem.job, batchItem, given_some, hempty]
    simp [phase, Phase.Sound, batchMeta, hjob]
  | processNext classify => trivial

/-! ## Runs -/

variable {ι : Type} [Fintype ι] [DecidableEq ι]

/-- Coroutines that run together. -/
abbrev Pool (ι : Type) := Config interface Store Error Unit ι

/-- Where the coroutines stand. -/
def phases (calls : ι → Call) (cfg : Pool ι) (j : ι) : Phase :=
  (worker (calls j).classifier).after (calls j).phase (cfg.history j)

/-- The coroutines at their beginning. -/
def begin (calls : ι → Call) : Pool ι := Config.start Store.empty fun j => (calls j).program

omit [Fintype ι] in
/-- The store and the phases after a turn. -/
theorem turn_phases {calls : ι → Call} {cfg : Pool ι}
    (h : ∀ j, cfg.Follows (worker (calls j).classifier) (calls j).phase j) (j : ι) :
    (cfg.turn Store.serve j).store = (phases calls cfg j).effect cfg.store ∧
      phases calls (cfg.turn Store.serve j)
        = Function.update (phases calls cfg) j
          ((phases calls cfg j).moved (calls j).classifier cfg.store) ∧
      ∀ i, (cfg.turn Store.serve j).Follows (worker (calls i).classifier) (calls i).phase i := by
  obtain ⟨hstore, hphases, hfollows⟩ := Config.turn_after h Store.serve j
  refine ⟨?_, ?_, hfollows⟩
  · rw [hstore]
    change (((phases calls cfg j).program (calls j).classifier).head?).elim _ _ = _
    rw [Phase.head?_program, Phase.effect]
    cases (phases calls cfg j).command <;> rfl
  · refine hphases.trans (congrArg _ ?_)
    change (((phases calls cfg j).program (calls j).classifier).head?).elim _ _ = _
    rw [Phase.head?_program, Phase.moved]
    cases (phases calls cfg j).command <;> rfl

/-- **The accounts over runs.**  However the turns of any number of enqueueings and workers
are interleaved, and whatever the classifications come to: the accounts of all jobs are
right in every state exactly when no turn is raced. -/
theorem accounted_iff_unraced (calls : ι → Call) (js : List ι) :
    Along (Config.turn Store.serve) (fun cfg => Accounted cfg.store (phases calls cfg))
        (fun _ _ _ => True) (begin calls) js ↔
      Each (Config.turn Store.serve) (fun cfg j => Unraced cfg.store (phases calls cfg) j)
        (begin calls) js := by
  have hnone : ∀ r, outstanding (begin calls).store (phases calls (begin calls)) r = 0 := by
    intro r
    have hheld : ∀ j, ((calls j).phase).held r = 0 := by
      intro j
      cases calls j <;> rfl
    change outstanding Store.empty (fun j => (calls j).phase) r = 0
    simp [outstanding, Store.empty, hheld]
  refine along_iff_each (I := fun cfg => Consistent cfg.store (phases calls cfg) ∧
    ∀ j, cfg.Follows (worker (calls j).classifier) (calls j).phase j) ?_ ?_
    ⟨⟨fun r _ => hnone r, fun j => (calls j).sound_phase⟩,
      fun j => Config.follows_start _ _ (calls j).program_phase.symm⟩ ⟨nofun, nofun⟩ js
  · rintro cfg j ⟨hI, hfollows⟩ hA hunraced
    obtain ⟨hstore, hphases, hfollows'⟩ := turn_phases hfollows j
    rw [hstore, hphases]
    exact ⟨(moved_iff (calls j).classifier hI hA j).2 hunraced, hfollows'⟩
  · rintro cfg j ⟨hI, hfollows⟩ hA
    obtain ⟨hstore, hphases, -⟩ := turn_phases hfollows j
    rw [true_and, hstore, hphases]
    exact (moved_iff (calls j).classifier hI hA j).1

/-- A batch of two ideas, and two workers. -/
def twoWorkers : Fin 3 → Call
  | 0 => .enqueueBatch 0 "job" ["a", "b"] false
  | _ => .processNext fun _ _ => .ok ⟨.functional, 1⟩

/-- Both workers read the record, and then both write it. -/
def bothRead : List (Fin 3) :=
  [0, 0, 0, 1, 1, 1, 2, 2, 2, 1, 2, 1, 2].filterMap ((List.finRange 3)[·]?)

/-- All is done, and one idea is counted of two: the job never ends. -/
theorem one_of_two_counted :
    let cfg := run (Config.turn Store.serve) (begin twoWorkers) bothRead
    cfg.store.queue = [] ∧ (∀ j, (cfg.threads j).finished = true) ∧
      (cfg.store.jobs "classification:job:job").map
        (fun data => (data.completed, data.failed, data.total, data.status))
          = some (1, 0, 2, .processing) := by
  decide

end DoxAsdlc.Classification
