import DoxAsdlc.Swarm.Dispatcher

/-!
# Every reviewer in the report

The coroutine of a swarm waits for its reviewers for a limited time, and then goes on with
whatever results there are.  Under which condition every reviewer of the session ends up in
exactly one of the two lists of the report is said by `placed_iff_collected`, for every run.

## Main definitions

* `UnifiedReport.Places` — a reviewer is in one of the two lists and not in the other.
* `System.Finished` — the session is complete, with a report.
* `System.Collected` — when the results are fetched, they are all there.
-/

namespace DoxAsdlc.Swarm

open Interaction Interaction.Program

/-- A reviewer is among the completed or among the failed ones, and not among both. -/
def UnifiedReport.Places (report : UnifiedReport) (reviewerType : String) : Prop :=
  (reviewerType ∈ report.reviewersCompleted ∧ reviewerType ∉ report.reviewersFailed) ∨
    (reviewerType ∈ report.reviewersFailed ∧ reviewerType ∉ report.reviewersCompleted)

instance (report : UnifiedReport) (reviewerType : String) :
    Decidable (report.Places reviewerType) :=
  inferInstanceAs (Decidable (_ ∨ _))

/-- The keys of the entries that satisfy a condition. -/
theorem mem_keys_filter {results : Results} {p : ReviewerResult → Bool} {reviewerType : String} :
    reviewerType ∈ (results.entries.filter fun r => p r.2).map (fun r => r.1) ↔
      ∃ result, results.lookup reviewerType = some result ∧ p result = true := by
  simp only [List.mem_map, List.mem_filter]
  constructor
  · rintro ⟨⟨ty, result⟩, ⟨hmem, hp⟩, rfl⟩
    exact ⟨result, AList.mem_lookup_iff.mpr hmem, hp⟩
  · rintro ⟨result, hlookup, hp⟩
    exact ⟨⟨reviewerType, result⟩, ⟨AList.mem_lookup_iff.mp hlookup, hp⟩, rfl⟩

/-- A report places the reviewers that it was given results of. -/
theorem places_aggregate (config : SwarmConfig) (textSimilarity : Similarity)
    (session : SwarmSession) (results : Results) (now : Time) (reviewerType : String) :
    (aggregate config textSimilarity session results now).Places reviewerType ↔
      reviewerType ∈ results := by
  have hcompleted : reviewerType ∈
      (aggregate config textSimilarity session results now).reviewersCompleted ↔
        ∃ result, results.lookup reviewerType = some result ∧ result.status = "success" :=
    (mem_keys_filter (p := fun r => r.status = "success")).trans (by simp)
  have hfailed : reviewerType ∈
      (aggregate config textSimilarity session results now).reviewersFailed ↔
        ∃ result, results.lookup reviewerType = some result ∧ result.status ≠ "success" :=
    (mem_keys_filter (p := fun r => r.status ≠ "success")).trans (by simp)
  rw [UnifiedReport.Places, hcompleted, hfailed, ← AList.lookup_isSome]
  cases results.lookup reviewerType with
  | none => simp
  | some result =>
    by_cases hs : result.status = "success"
    · simp [hs]
    · simp [hs]

namespace System

variable {κ : Type} (sys : System κ)

/-- The reviewers of the session. -/
def listed : List String := sys.swarm.reviewers sys.config

/-- Whoever reads the session finds it complete, with this report. -/
def Finished (cfg : Pool κ) (session : SwarmSession) (report : UnifiedReport) : Prop :=
  (sys.stored cfg).read = .ok (some session) ∧ session.status = .complete ∧
    session.unifiedReport = some report

instance (cfg : Pool κ) (session : SwarmSession) (report : UnifiedReport) :
    Decidable (sys.Finished cfg session report) :=
  inferInstanceAs (Decidable (_ ∧ _))

/-- If this step fetches the results, every reviewer of the session has stored its own. -/
def Collected (cfg : Pool κ) (a : Happening κ) : Prop :=
  ∀ o, a = .run .dispatcher o →
    cfg.next? .dispatcher = some (.hgetallResults sys.swarm.sessionId) →
      ∀ reviewerType ∈ sys.listed, reviewerType ∈ (sys.stored cfg).results

/-! ## What is known along a run -/

/-- What the hash of the session holds: the reviewers that were asked for, and a report that
satisfies `P` if it holds one. -/
def Holds (P : UnifiedReport → Prop) (s : Stored) : Prop :=
  ∀ h, s.session = some h → (∀ l, h .reviewers = some l → l = sys.listed) ∧
    ∀ report, h .unifiedReport = some (some report) → P report

/-- Whether the reviewers are accounted for, in a phase of a run in which the results were
all there when they were fetched, if `b`. -/
def Accounts (b : Prop) : Phase → Prop
  | .rereading results => (∀ reviewerType ∈ sys.listed, reviewerType ∈ results) ↔ b
  | .completing report | .timing report | .reporting report | .publishing report =>
    (∀ reviewerType ∈ sys.listed, report.Places reviewerType) ↔ b
  | .failing _ | .publishingFailure _ | .closed _ => True
  | _ => b

/-- Which reports may be stored in a phase. -/
def Reported (b : Prop) : Phase → UnifiedReport → Prop
  | .publishing _, report | .failing _, report | .publishingFailure _, report
  | .closed _, report => (∀ reviewerType ∈ sys.listed, report.Places reviewerType) ↔ b
  | _, _ => False

variable {sys} {P P' : UnifiedReport → Prop} {s s' : Stored}

theorem Holds.mono (h : sys.Holds P s) (hP : ∀ report, P report → P' report) :
    sys.Holds P' s :=
  fun m hm => ⟨(h m hm).1, fun report hr => hP report ((h m hm).2 report hr)⟩

theorem Holds.aside (h : sys.Holds P s) (ha : Aside s s') : sys.Holds P s' := by
  intro m hm
  rcases ha.session with hsame | hnone
  · exact h m (hsame ▸ hm)
  · rw [hnone] at hm
    cases hm

/-- A write keeps what is known when what it writes is as it should be. -/
theorem Holds.write (h : sys.Holds P s) {m : SessionHash}
    (hreviewers : ∀ l, m .reviewers = some l → l = sys.listed)
    (hreport : ∀ report, m .unifiedReport = some (some report) → P report) :
    sys.Holds P (s.write m) := by
  intro m' hm'
  have hfield : ∀ f, m' f = (m f).or (Redis.hget s.session f) := by
    intro f
    rw [← Redis.hget_hset, ← Redis.hget_some m', ← hm']
    rfl
  have hbefore : ∀ f v, m' f = some v → m f = some v ∨ ∃ h', s.session = some h' ∧ h' f = some v := by
    intro f v hv
    rw [hfield, Option.or_eq_some_iff] at hv
    rcases hv with hm | ⟨-, hold⟩
    · exact .inl hm
    · cases hs : s.session with
      | none =>
        rw [hs] at hold
        cases hold
      | some h' =>
        rw [hs] at hold
        exact .inr ⟨h', rfl, hold⟩
  constructor
  · intro l hl
    rcases hbefore _ _ hl with hm | ⟨h', hs, hold⟩
    · exact hreviewers l hm
    · exact (h h' hs).1 l hold
  · intro report hr
    rcases hbefore _ _ hr with hm | ⟨h', hs, hold⟩
    · exact hreport report hm
    · exact (h h' hs).2 report hold

/-! ## What a command of the coroutine does to it -/

variable {b : Prop} {φ φ' : Phase} {o : Outcome Error}

theorem accounts_waiting (session : SwarmSession) (polls : ℕ) (hb : b) :
    sys.Accounts b (Phase.waiting session polls) := by
  cases polls <;> exact hb

/-- The accounts are kept, but for the results that are fetched. -/
theorem accounts_moves (h : sys.Accounts b φ)
    (hm : Moves sys.config sys.textSimilarity sys.flow sys.swarm s φ o φ')
    (hf : φ ≠ .fetching) : sys.Accounts b φ' := by
  cases hm with
  | read => exact accounts_waiting _ _ h
  | polled => exact accounts_waiting _ _ h
  | fetched => exact absurd rfl hf
  | aggregated => simpa [Accounts, places_aggregate] using h
  | _ => first | exact h | trivial

/-- What was fetched is judged. -/
theorem accounts_fetched
    (hb : (∀ reviewerType ∈ sys.listed, reviewerType ∈ s.results) ↔ b)
    (hm : Moves sys.config sys.textSimilarity sys.flow sys.swarm s .fetching o φ') :
    sys.Accounts b φ' := by
  cases hm with
  | fetched => exact hb
  | fails => trivial
  | undispatched hφ => cases hφ

/-- A stored report has been judged. -/
theorem Reported.places {report : UnifiedReport} (h : sys.Reported b φ report) :
    (∀ reviewerType ∈ sys.listed, report.Places reviewerType) ↔ b := by
  cases φ <;> first | exact h | exact h.elim

theorem reported_moves {report : UnifiedReport} (h : sys.Reported b φ report)
    (hm : Moves sys.config sys.textSimilarity sys.flow sys.swarm s φ o φ') :
    sys.Reported b φ' report := by
  cases hm with
  | published | recorded | unrecorded | failed => exact h
  | fails hφ => cases φ <;> first | exact h | exact h.elim
  | undispatched hφ => cases φ <;> first | exact h | exact h.elim
  | _ => exact h.elim

/-- What is known of the hash is kept. -/
theorem holds_written (h : sys.Holds (sys.Reported b φ) s) (hb : sys.Accounts b φ)
    (hm : Moves sys.config sys.textSimilarity sys.flow sys.swarm s φ o φ') :
    sys.Holds (sys.Reported b φ') (φ.written sys.config sys.swarm o s) := by
  have hkept : sys.Holds (sys.Reported b φ') s := h.mono fun report hr => reported_moves hr hm
  -- A single field that is neither the reviewers nor a report.
  have hfield : ∀ (f : SessionField) (v : f.Value), f ≠ .reviewers → f ≠ .unifiedReport →
      sys.Holds (sys.Reported b φ') (s.write (.field f v)) := by
    intro f v hreviewers hreport
    refine hkept.write (fun l hl => ?_) fun report hr => ?_
    · rw [Redis.Hash.field_of_ne v (Ne.symm hreviewers)] at hl
      cases hl
    · rw [Redis.Hash.field_of_ne v (Ne.symm hreport)] at hr
      cases hr
  unfold Phase.written
  cases o.effective with
  | false => exact hkept
  | true =>
    cases φ with
    | creating =>
      refine hkept.write (fun l hl => ?_) nofun
      cases hl
      rfl
    | starting | aggregating | completing _ | failing _ => exact hfield .status _ nofun nofun
    | timing _ => exact hfield .completedAt _ nofun nofun
    | reporting report =>
      refine hkept.write (fun l hl => ?_) fun report' hr => ?_
      · simp [Redis.Hash.field] at hl
      · rw [Redis.Hash.field_self] at hr
        cases hr
        cases hm with
        | reported => exact hb
        | fails => exact hb
        | undispatched hφ => cases hφ
    | _ => exact hkept

/-! ## Runs -/

variable [DecidableEq κ]

/-- What is known in a state, where `b` says whether all results were there when they were
fetched, if they were. -/
structure Judged (sys : System κ) (cfg : Pool κ) (b : Prop) : Prop where
  running : sys.Running cfg
  accounts : sys.Accounts b (sys.phase cfg)
  holds : sys.Holds (sys.Reported b (sys.phase cfg)) (sys.stored cfg)

omit [DecidableEq κ] in
theorem judged_start (sys : System κ) : Judged sys sys.start True where
  running := running_start
  accounts := trivial
  holds := by
    intro h hs
    have hnone : (sys.stored sys.start).session = none := congrArg Stored.session sys.fresh
    rw [hnone] at hs
    cases hs

omit [DecidableEq κ] in
/-- What a fetch is judged by. -/
theorem collected_iff {cfg : Pool κ}
    (hn : cfg.next? .dispatcher = some (.hgetallResults sys.swarm.sessionId)) :
    sys.Collected cfg (.run .dispatcher o) ↔
      ∀ reviewerType ∈ sys.listed, reviewerType ∈ (sys.stored cfg).results :=
  ⟨fun h => h o rfl hn, fun h _ _ _ => h⟩

theorem Judged.step {cfg : Pool κ} (h : Judged sys cfg b) (a : Happening κ) :
    Judged sys (System.step cfg a) (b ∧ sys.Collected cfg a) := by
  -- Nothing but the fetch of the results is judged.
  have hquiet : sys.Collected cfg a → sys.Accounts b (sys.phase (System.step cfg a)) →
      sys.Holds (sys.Reported b (sys.phase (System.step cfg a)))
        (sys.stored (System.step cfg a)) →
      Judged sys (System.step cfg a) (b ∧ sys.Collected cfg a) := by
    intro hC haccounts hholds
    have hb : (b ∧ sys.Collected cfg a) = b := propext (and_iff_left hC)
    rw [hb]
    exact ⟨h.running.step a, haccounts, hholds⟩
  obtain ⟨o, ha, hn, hm, hstored⟩ | ⟨hn, hphase, haside⟩ := h.running.step_cases a
  · by_cases hf : sys.phase cfg = .fetching
    · have haccounts := h.accounts
      have hholds := h.holds
      rw [hf] at hm hstored hn hholds haccounts
      have hb : b := haccounts
      have hC : (b ∧ sys.Collected cfg a) ↔
          ∀ reviewerType ∈ sys.listed, reviewerType ∈ (sys.stored cfg).results := by
        rw [and_iff_right hb, ha, collected_iff hn]
      have hsame : sys.stored (System.step cfg a) = sys.stored cfg := by
        rw [hstored]
        unfold Phase.written
        cases o.effective <;> rfl
      exact ⟨h.running.step a, accounts_fetched hC.symm hm,
        hsame ▸ hholds.mono fun _ hr => hr.elim⟩
    · refine hquiet ?_ (accounts_moves h.accounts hm hf)
        (hstored ▸ holds_written h.holds h.accounts hm)
      intro o' _ hfetch
      rw [hn] at hfetch
      cases hφ : sys.phase cfg with
      | fetching => exact absurd hφ hf
      | _ => rw [hφ] at hfetch; cases hfetch
  · refine hquiet ?_ (hphase ▸ h.accounts) (hphase ▸ h.holds.aside haside)
    intro o ho hfetch
    rw [hn o ho] at hfetch
    cases hfetch

/-- **Coverage.**  In every state of every run, whoever finds the session complete with a
report: the report has every reviewer of the session in exactly one of its two lists exactly
when the results of all of them were there as the results were fetched. -/
theorem placed_iff_collected (sys : System κ) (as : List (Happening κ)) (session : SwarmSession)
    (report : UnifiedReport) (h : sys.Finished (run System.step sys.start as) session report) :
    (∀ reviewerType ∈ session.reviewers, report.Places reviewerType) ↔
      Each System.step sys.Collected sys.start as := by
  have hrun := run_judged (fun _ a _ => Judged.step (a := a)) (judged_start sys) as
  rw [true_and] at hrun
  obtain ⟨hread, -, hreport⟩ := h
  obtain ⟨hash, hstored, hhash⟩ := Stored.read_eq_some hread
  obtain ⟨-, hreviewers, -, -, hjoin⟩ := SwarmSession.fromHash_eq_ok hhash
  obtain ⟨hlisted, hplaces⟩ := hrun.holds hash hstored
  rw [hlisted _ hreviewers]
  refine Reported.places (hplaces report ?_)
  rw [hreport] at hjoin
  exact Option.join_eq_some_iff.mp hjoin.symm

/-! ## A swarm with one reviewer -/

/-- A swarm that asks for a security review and waits for a second. -/
def oneReviewer : System Empty where
  config := {
    aggregateTimeoutSeconds := 1
    aggregateTimeoutSeconds_pos := Nat.one_pos
    maxConcurrentSwarms_pos := SwarmConfig.five_pos }
  textSimilarity := fun _ _ => 0
  flow := .direct
  swarm := {
    sessionId := "swarm-1"
    targetPath := "src/"
    reviewerTypes := some ["security"]
    createdAt := 0
    reportedAt := 1
    completedAt := 2 }
  registry := fun reviewerType => reviewerType == "security"
  outcomes := fun _ => .ok { reviewerType := "security", status := "success", durationSeconds := 0 }
  others := nofun
  store := fun _ => .empty
  fresh := rfl

/-- Its report, with these reviewers completed. -/
def emptyReport (completed : List String) : UnifiedReport where
  swarmId := "swarm-1"
  targetPath := "src/"
  createdAt := 1
  reviewersCompleted := completed
  reviewersFailed := []
  criticalFindings := []
  highFindings := []
  mediumFindings := []
  lowFindings := []
  infoFindings := []
  totalFindings := 0
  findingsByReviewer := ∅
  findingsByCategory := ∅
  duplicatesRemoved := 0

/-- The session at the end. -/
def completeSession (completed : List String) : SwarmSession where
  id := "swarm-1"
  targetPath := "src/"
  reviewers := ["security"]
  status := .complete
  createdAt := 0
  completedAt := some 2
  unifiedReport := some (emptyReport completed)

/-- Steps of a client that are answered. -/
def answered (j : Client Empty) (n : ℕ) : List (Happening Empty) :=
  List.replicate n (.run j .ok)

/-- The reviewer stores its result before the first poll. -/
def inTime : List (Happening Empty) :=
  answered .dispatcher 4 ++ answered (.reviewer 0) 5 ++ answered .dispatcher 9

/-- The reviewer is still at work when the time is over. -/
def tooLate : List (Happening Empty) := answered .dispatcher 13

theorem placed_iff_collected_inTime :
    (∀ reviewerType ∈ (completeSession ["security"]).reviewers,
        (emptyReport ["security"]).Places reviewerType) ↔
      Each System.step oneReviewer.Collected oneReviewer.start inTime :=
  placed_iff_collected oneReviewer inTime (completeSession ["security"])
    (emptyReport ["security"]) ⟨rfl, rfl, rfl⟩

/-- The reviewer that is too late is in neither list of the report. -/
theorem late_reviewer_in_no_list :
    oneReviewer.Finished (run System.step oneReviewer.start tooLate) (completeSession [])
        (emptyReport []) ∧
      "security" ∈ (completeSession []).reviewers ∧ ¬ (emptyReport []).Places "security" :=
  ⟨⟨rfl, rfl, rfl⟩, by decide, by decide⟩

end System

end DoxAsdlc.Swarm
