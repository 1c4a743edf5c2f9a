import DoxAsdlc.Swarm.Dispatcher

/-!
# The limit on swarms

A request for a review checks how many swarms are active, creates its session with several
commands of Redis, and registers the swarm only then.  Requests that pass the check together
are all admitted.  As long as none passes while those that are admitted and not yet
registered fill the places that are left, the limit is kept: `within_limit_of_unraced`.

The set of active swarms is kept by the process itself, under a lock that is never held
across an `await`, so that its three commands are answered at once.

## Main definitions

* `triggerSwarmReview` — a request, with the background task that it leaves behind.
* `Lawful` — what a request may have done to the set of active swarms.
* `Requests` — any number of requests, and the rest of the world.
* `Requests.Unraced` — there is a place for the request that passes the check.
-/

namespace DoxAsdlc.Swarm.Routes

open Interaction Interaction.Program

/-- The settings of the routes. -/
structure RouteConfig extends SwarmConfig where
  allowedPathPrefixes : List String := ["src/", "docker/", "tests/"]

/-- What a request is stopped by: an exception, an HTTP error, or a cancellation. -/
inductive Raised where
  | exception (e : Error)
  | http (statusCode : ℕ) (detail : String)
  | cancelled
  deriving DecidableEq, Repr

inductive Cmd where
  | redis (c : Swarm.Cmd)
  | connect
  | activeSwarms
  | registerSwarm (swarmId : String)
  | unregisterSwarm (swarmId : String)

abbrev Reply : Cmd → Type
  | .redis c => Swarm.Reply c
  | .activeSwarms => ℕ
  | _ => Unit

abbrev interface : Interface := ⟨Cmd, Reply⟩

/-- The commands on the set of active swarms. -/
def Cmd.isLocal : Cmd → Bool
  | .redis _ | .connect => false
  | _ => true

/-- The memory of the process, and Redis. -/
structure Service where
  active : Finset String
  redis : Store

def Service.serve : Server interface Service
  | .redis c, w => ({ w with redis := (Store.serve c w.redis).1 }, (Store.serve c w.redis).2)
  | .connect, w => (w, ())
  | .activeSwarms, w => (w, w.active.card)
  | .registerSwarm swarmId, w => ({ w with active := insert swarmId w.active }, ())
  | .unregisterSwarm swarmId, w => ({ w with active := w.active.erase swarmId }, ())

abbrev Handler (α : Type) := Program interface Raised α

abbrev send (c : Cmd) : Handler (Reply c) := command (I := interface) c

/-- Go on with an answer as the handlers of the dispatcher see it: a cancellation goes
through all of them. -/
def resume {α β : Type} : Except Raised α → (Except Error α → Handler β) → Handler β
  | .ok a, k => k (.ok a)
  | .error (.exception e), k => k (.error e)
  | .error raised, _ => .raise raised

/-- A part of the dispatcher within a request. -/
def lift {α : Type} : Async α → Handler α
  | .ret a => .ret a
  | .raise e => .raise (.exception e)
  | .call c k => .call (.redis c) fun reply => resume reply fun seen => lift (k seen)

theorem resume_cases {α β : Type} {P : Handler β → Prop} {k : Except Error α → Handler β}
    (hk : ∀ seen, P (k seen)) (hraise : ∀ raised, P (.raise raised)) (reply : Except Raised α) :
    P (resume reply k) := by
  cases reply with
  | ok a => exact hk _
  | error raised =>
    cases raised with
    | exception e => exact hk _
    | http statusCode detail => exact hraise _
    | cancelled => exact hraise _

section

variable (config : RouteConfig) (textSimilarity : Similarity) (registry : List String)
  (r : SwarmRun)

/-- `check_rate_limit`. -/
def checkRateLimit : Handler Unit := do
  let active ← send .activeSwarms
  if config.maxConcurrentSwarms ≤ active then
    throw (.http 429 ("Too many concurrent swarms. Max: " ++ toString config.maxConcurrentSwarms))

/-- `get_swarm_dispatcher`: is there one? -/
def getSwarmDispatcher : Handler Bool :=
  try do
    send .connect
    return true
  catch raised => match raised with
    | .cancelled => throw .cancelled
    | _ => return false

/-- `validate_target_path`. -/
def validateTargetPath (path : String) : Except Raised String :=
  if "http://".toList <+: path.toList ∨ "https://".toList <+: path.toList then .ok path
  else if "/".toList <+: path.toList then .error (.http 400 "Absolute paths not allowed")
  else if "..".toList <:+: path.toList then .error (.http 400 "Path traversal not allowed")
  else if config.allowedPathPrefixes.any (·.toList.isPrefixOf path.toList) then .ok path
  else .error (.http 400
    ("Path must start with one of: " ++ listText config.allowedPathPrefixes))

/-- `validate_reviewer_types`. -/
def validateReviewerTypes : Option (List String) → Except Raised (Option (List String))
  | none => .ok none
  | some types =>
    match types.find? (· ∉ registry) with
    | some t => .error (.http 400
        ("Unknown reviewer type: " ++ t ++ ". Valid types: " ++ listText registry))
    | none => .ok (some types)

/-- `run_swarm_background`; its `finally` is run whatever happens. -/
def runSwarmBackground : Handler Unit :=
  (lift (processSwarm config.toSwarmConfig textSimilarity r)).elim
    (fun _ => do
      send (.unregisterSwarm r.sessionId)
      return ())
    fun raised => do
      send (.unregisterSwarm r.sessionId)
      throw raised

/-- The swarm of a request that is in order, from its session to the background task. -/
def startSwarm : Handler Unit := do
  let swarmId ← lift (dispatchSwarm config.toSwarmConfig r)
  send (.registerSwarm swarmId)
  runSwarmBackground config textSimilarity r

/-- `trigger_swarm_review`, from its dependencies to the background task. -/
def triggerSwarmReview : Handler Unit := do
  checkRateLimit config
  let dispatcher ← getSwarmDispatcher
  let targetPath ← answer (validateTargetPath config r.targetPath)
  let reviewerTypes ← answer (validateReviewerTypes registry r.reviewerTypes)
  if dispatcher = false then
    throw (.http 503 "Swarm dispatcher not available")
  else
    startSwarm config textSimilarity
      { r with targetPath := targetPath, reviewerTypes := reviewerTypes }

end

/-! ## What a request does to the set of active swarms -/

/-- What is left of an exchange when only the set of active swarms matters. -/
inductive Mark where
  | checked (active : ℕ)
  | registered (swarmId : String)
  | unregistered (swarmId : String)
  deriving DecidableEq, Repr

def mark : Exchange interface Raised → Option Mark
  | ⟨.activeSwarms, .ok n, _⟩ => some (.checked n)
  | ⟨.registerSwarm swarmId, .ok _, _⟩ => some (.registered swarmId)
  | ⟨.unregisterSwarm swarmId, .ok _, _⟩ => some (.unregistered swarmId)
  | _ => none

def marks (h : List (Exchange interface Raised)) : List Mark := h.filterMap mark

theorem marks_snoc (h : List (Exchange interface Raised)) (x : Exchange interface Raised) :
    marks (h ++ [x]) = marks h ++ (mark x).toList := by
  rw [marks, List.filterMap_append]
  cases hx : mark x <;> simp [marks, hx]

/-- What a request for a swarm may have done so far. -/
inductive Lawful (limit : ℕ) (swarmId : String) : List Mark → Prop where
  | waiting : Lawful limit swarmId []
  | checked (n : ℕ) : Lawful limit swarmId [.checked n]
  | registered {n : ℕ} (hn : n < limit) : Lawful limit swarmId [.checked n, .registered swarmId]
  | unregistered {n : ℕ} (hn : n < limit) :
      Lawful limit swarmId [.checked n, .registered swarmId, .unregistered swarmId]

/-- What it has done at its end. -/
inductive Settled (limit : ℕ) (swarmId : String) : List Mark → Prop where
  | checked (n : ℕ) : Settled limit swarmId [.checked n]
  | unregistered {n : ℕ} (hn : n < limit) :
      Settled limit swarmId [.checked n, .registered swarmId, .unregistered swarmId]

theorem Settled.count_unregistered {limit : ℕ} {swarmId : String} {l : List Mark}
    (h : Settled limit swarmId l) :
    l.count (.unregistered swarmId) = if Mark.registered swarmId ∈ l then 1 else 0 := by
  cases h with
  | checked n => simp
  | unregistered hn => simp

/-- The check is all that has happened, and there was a place. -/
def passed (limit : ℕ) : List Mark → Bool
  | [.checked n] => n < limit
  | _ => false

theorem passed_snoc {limit : ℕ} {l : List Mark} {m : Mark} (h : passed limit (l ++ [m]) = true) :
    ∃ n, m = .checked n := by
  cases l with
  | nil =>
    cases m with
    | checked n => exact ⟨n, rfl⟩
    | _ => cases h
  | cons a l => cases l <;> cases a <;> cases h

/-- A check comes first. -/
theorem Lawful.checked_last {limit n : ℕ} {swarmId : String} {l : List Mark}
    (h : Lawful limit swarmId (l ++ [.checked n])) : l = [] := by
  generalize hl : l ++ [Mark.checked n] = l' at h
  cases h with
  | waiting => exact absurd hl (by simp)
  | checked m => exact (snoc_eq_iff.mp hl).1
  | registered hn => cases (snoc_eq_iff.mp hl).2
  | unregistered hn => cases (snoc_eq_iff.mp hl).2

/-- A registration comes after a check that was passed. -/
theorem Lawful.registered_last {limit : ℕ} {swarmId id : String} {l : List Mark}
    (h : Lawful limit swarmId (l ++ [.registered id])) : passed limit l = true := by
  generalize hl : l ++ [Mark.registered id] = l' at h
  cases h with
  | waiting => exact absurd hl (by simp)
  | checked m => cases (snoc_eq_iff.mp hl).2
  | registered hn =>
    rw [(snoc_eq_iff.mp hl).1]
    exact decide_eq_true hn
  | unregistered hn => cases (snoc_eq_iff.mp hl).2

/-- The commands on the set of active swarms are answered. -/
def Allowed (x : Exchange interface Raised) : Prop :=
  x.cmd.isLocal = true → ∃ a, x.reply = .ok a

section

variable {limit : ℕ} {swarmId : String} {α : Type} {l : List Mark}

theorem mark_of_remote {x : Exchange interface Raised} (hx : x.cmd.isLocal = false) :
    mark x = none := by
  obtain ⟨c, reply, b⟩ := x
  cases c with
  | redis c => rfl
  | connect => rfl
  | _ => cases hx

theorem marks_snoc_remote {h : List (Exchange interface Raised)} {x : Exchange interface Raised}
    (hx : x.cmd.isLocal = false) : marks (h ++ [x]) = marks h := by
  rw [marks_snoc, mark_of_remote hx, Option.toList_none, List.append_nil]

/-- The dispatcher does nothing to the set of active swarms. -/
theorem obeys_lift {V : α → Prop} (p : Async α) {h₀ : List (Exchange Swarm.interface Error)}
    (hp : p.Obeys (fun _ => True) (fun _ => True) (fun res _ => ∀ a, res = .ok a → V a) h₀)
    (h : List (Exchange interface Raised)) (hl : marks h = l) :
    (lift p).Obeys Allowed (fun h => marks h = l)
      (fun res h => marks h = l ∧ ∀ a, res = .ok a → V a) h := by
  induction p generalizing h h₀ with
  | ret a => exact ⟨hl, hl, fun b hb => by cases hb; exact hp.2 a rfl⟩
  | raise e => exact ⟨hl, hl, nofun⟩
  | call c k ih =>
    refine ⟨hl, fun reply b _ => ?_⟩
    have hmarks : marks (h ++ [⟨.redis c, reply, b⟩]) = l := (marks_snoc_remote rfl).trans hl
    exact resume_cases
      (P := fun q => q.Obeys Allowed (fun h => marks h = l)
        (fun res h => marks h = l ∧ ∀ a, res = .ok a → V a) _)
      (fun seen => ih seen (hp.2 seen b trivial) _ hmarks)
      (fun raised => ⟨hmarks, hmarks, nofun⟩) reply

theorem uses_lift (p : Async α) : (lift p).Uses fun c => Cmd.isLocal c = false := by
  induction p with
  | ret a => trivial
  | raise e => trivial
  | call c k ih => exact ⟨rfl, fun reply => resume_cases ih (fun _ => trivial) reply⟩

/-- The session has the id that was drawn for it. -/
theorem returns_dispatchSwarm (config : SwarmConfig) (r : SwarmRun) :
    (dispatchSwarm config r).Obeys (fun _ => True) (fun _ => True)
      (fun res _ => ∀ a, res = .ok a → a = r.sessionId) [] := by
  refine ⟨trivial, fun created _ _ => ?_⟩
  cases created with
  | error e => exact ⟨trivial, nofun⟩
  | ok _ =>
    refine ⟨trivial, fun expires _ _ => ?_⟩
    cases expires with
    | error e => exact ⟨trivial, nofun⟩
    | ok _ =>
      refine ⟨trivial, fun started _ _ => ?_⟩
      cases started with
      | error e => exact ⟨trivial, nofun⟩
      | ok _ =>
        refine ⟨trivial, fun announced _ _ => ?_⟩
        cases announced with
        | error e => exact ⟨trivial, nofun⟩
        | ok _ => exact ⟨trivial, fun a ha => (Except.ok.inj ha).symm⟩

theorem obeys_true (p : Async α) (h : List (Exchange Swarm.interface Error)) :
    p.Obeys (fun _ => True) (fun _ => True) (fun _ _ => True) h := by
  induction p generalizing h with
  | ret a => exact ⟨trivial, trivial⟩
  | raise e => exact ⟨trivial, trivial⟩
  | call c k ih => exact ⟨trivial, fun reply _ _ => ih reply _⟩

variable (config : RouteConfig) (textSimilarity : Similarity) (registry : List String)
  (r : SwarmRun)

/-- The deregistration, and what is left to do after it. -/
theorem obeys_unregister {n : ℕ} (hn : n < limit) {p : Handler Unit} (hp : p.finished = true)
    {h : List (Exchange interface Raised)} (hl : marks h = [.checked n, .registered swarmId]) :
    ((send (.unregisterSwarm swarmId)).elim (fun _ => p) .raise).Obeys Allowed
      (fun h => Lawful limit swarmId (marks h)) (fun _ h => Settled limit swarmId (marks h)) h := by
  have hlawful : Lawful limit swarmId (marks h) := by
    rw [hl]
    exact .registered hn
  refine ⟨hlawful, fun reply b hb => ?_⟩
  obtain ⟨a, ha⟩ : ∃ a, reply = .ok a := hb rfl
  subst ha
  have hend : marks (h ++ [⟨.unregisterSwarm swarmId, .ok a, b⟩])
      = [.checked n, .registered swarmId, .unregistered swarmId] := by
    rw [marks_snoc, hl]
    rfl
  have hdone : Lawful limit swarmId (marks (h ++ [⟨.unregisterSwarm swarmId, .ok a, b⟩])) := by
    rw [hend]
    exact .unregistered hn
  have hsettled :
      Settled limit swarmId (marks (h ++ [⟨.unregisterSwarm swarmId, .ok a, b⟩])) := by
    rw [hend]
    exact .unregistered hn
  cases p with
  | ret u => exact ⟨hdone, hsettled⟩
  | raise e => exact ⟨hdone, hsettled⟩
  | call c k => cases hp

/-- The background task deregisters its swarm at its end. -/
theorem obeys_runSwarmBackground {n : ℕ} (hn : n < limit)
    {h : List (Exchange interface Raised)}
    (hl : marks h = [.checked n, .registered r.sessionId]) :
    (runSwarmBackground config textSimilarity r).Obeys Allowed
      (fun h => Lawful limit r.sessionId (marks h))
      (fun _ h => Settled limit r.sessionId (marks h)) h := by
  have hrun := obeys_lift (V := fun _ => True) (processSwarm config.toSwarmConfig textSimilarity r)
    ((obeys_true _ []).mono (fun _ hJ => hJ) fun _ _ _ _ _ _ => trivial) h hl
  refine obeys_elim _ _ _ _ (hrun.mono (fun h hh => ?_) fun res h _ hq => ?_)
  · rw [hh]
    exact .registered hn
  · cases res with
    | ok _ => exact obeys_unregister hn (p := .ret ()) rfl hq.1
    | error raised => exact obeys_unregister hn (p := .raise raised) rfl hq.1

theorem obeys_checkRateLimit :
    (checkRateLimit config).Obeys Allowed (fun h => Lawful config.maxConcurrentSwarms swarmId (marks h))
      (fun res h => ∃ n, marks h = [.checked n] ∧ (res = .ok () → n < config.maxConcurrentSwarms))
      [] := by
  refine ⟨.waiting, fun reply b hb => ?_⟩
  obtain ⟨n, hn⟩ : ∃ n, reply = .ok n := hb rfl
  subst hn
  change Program.Obeys _ _ _ (if config.maxConcurrentSwarms ≤ n then _ else _) _
  split
  · exact ⟨.checked n, n, rfl, nofun⟩
  · next h => exact ⟨.checked n, n, rfl, fun _ => Nat.lt_of_not_le h⟩

theorem obeys_getSwarmDispatcher {h : List (Exchange interface Raised)} (hl : marks h = l) :
    getSwarmDispatcher.Obeys Allowed (fun h => marks h = l) (fun _ h => marks h = l) h := by
  refine ⟨hl, fun reply b _ => ?_⟩
  have hmarks : marks (h ++ [⟨.connect, reply, b⟩]) = l := (marks_snoc_remote rfl).trans hl
  cases reply with
  | ok _ => exact ⟨hmarks, hmarks⟩
  | error raised => cases raised <;> exact ⟨hmarks, hmarks⟩

/-- What a request does to the set of active swarms: it checks how many there are, and if
there is a place it may register its swarm, and then deregisters it. -/
theorem obeys_triggerSwarmReview :
    (triggerSwarmReview config textSimilarity registry r).Obeys Allowed
      (fun h => Lawful config.maxConcurrentSwarms r.sessionId (marks h))
      (fun _ h => Settled config.maxConcurrentSwarms r.sessionId (marks h)) [] := by
  -- From a history on, in which the check is all there is.
  have hlawful : ∀ {n h}, marks h = [.checked n] →
      Lawful config.maxConcurrentSwarms r.sessionId (marks h) := by
    intro n h hl
    rw [hl]
    exact .checked n
  have hsettled : ∀ {n h}, marks h = [.checked n] →
      Settled config.maxConcurrentSwarms r.sessionId (marks h) := by
    intro n h hl
    rw [hl]
    exact .checked n
  refine obeys_bind _ _ _ ((obeys_checkRateLimit config).mono (fun _ hJ => hJ) ?_)
  rintro (raised | ⟨⟩) h hJ ⟨n, hl, hn⟩
  · exact ⟨hJ, hsettled hl⟩
  refine obeys_bind _ _ _ ((obeys_getSwarmDispatcher hl).mono (fun _ => hlawful) ?_)
  rintro (raised | dispatcher) h hl -
  · exact ⟨hlawful hl, hsettled hl⟩
  cases validateTargetPath config r.targetPath with
  | error raised => exact ⟨hlawful hl, hsettled hl⟩
  | ok targetPath =>
  cases validateReviewerTypes registry r.reviewerTypes with
  | error raised => exact ⟨hlawful hl, hsettled hl⟩
  | ok reviewerTypes =>
  cases dispatcher with
  | false => exact ⟨hlawful hl, hsettled hl⟩
  | true =>
  change (startSwarm config textSimilarity _).Obeys _ _ _ _
  refine obeys_bind _ _ _
    ((obeys_lift _ (returns_dispatchSwarm _ _) h hl).mono (fun _ => hlawful) ?_)
  rintro (raised | swarmId) h - ⟨hl, hid⟩
  · exact ⟨hlawful hl, hsettled hl⟩
  refine ⟨hlawful hl, fun reply b hb => ?_⟩
  obtain ⟨a, ha⟩ : ∃ a, reply = .ok a := hb rfl
  subst ha
  refine obeys_runSwarmBackground config textSimilarity _ (hn rfl) ?_
  rw [marks_snoc, hl, hid swarmId rfl]
  rfl

/-- A deregistration. -/
def Releases : Cmd → Prop
  | .unregisterSwarm _ => True
  | _ => False

theorem exists_releases {h : List (Exchange interface Raised)}
    (hm : Mark.unregistered swarmId ∈ marks h) : ∃ x ∈ h, Releases x.cmd := by
  obtain ⟨x, hx, hmark⟩ := List.mem_filterMap.mp hm
  refine ⟨x, hx, ?_⟩
  unfold mark at hmark
  split at hmark
  · cases hmark
  · cases hmark
  · trivial
  · cases hmark

theorem not_releases_of_remote {c : Cmd} (hc : c.isLocal = false) : ¬ Releases c := by
  cases c with
  | redis c => exact id
  | connect => exact id
  | _ => cases hc

/-- Nothing is left to do after a deregistration. -/
theorem closes_startSwarm : (startSwarm config textSimilarity r).Closes Releases := by
  have hquiet : ∀ {β : Type} (p : Async β), (lift p).Uses fun c => ¬ Releases c :=
    fun p => (uses_lift p).mono fun c hc => not_releases_of_remote hc
  refine closes_bind (hquiet _) fun swarmId => closes_bind (uses_command id) fun _ => ?_
  refine closes_elim (hquiet _) (fun _ => ?_) fun raised => ?_
  · refine ⟨fun _ reply => ?_, fun reply => ?_⟩
    · cases reply <;> rfl
    · cases reply <;> trivial
  · refine ⟨fun _ reply => ?_, fun reply => ?_⟩
    · cases reply <;> rfl
    · cases reply <;> trivial

theorem closes_triggerSwarmReview :
    (triggerSwarmReview config textSimilarity registry r).Closes Releases := by
  have hcheck : (checkRateLimit config).Uses fun c => ¬ Releases c := by
    refine uses_bind (uses_command id) fun n => ?_
    change Program.Uses _ (if config.maxConcurrentSwarms ≤ n then _ else _)
    split <;> trivial
  have hdispatcher : getSwarmDispatcher.Uses fun c => ¬ Releases c := by
    refine ⟨id, fun reply => ?_⟩
    cases reply with
    | ok _ => trivial
    | error raised => cases raised <;> trivial
  refine closes_bind hcheck fun _ => closes_bind hdispatcher fun dispatcher =>
    closes_bind (uses_answer _) fun targetPath => closes_bind (uses_answer _) fun types => ?_
  cases dispatcher with
  | false => trivial
  | true => exact closes_startSwarm config textSimilarity _

end

/-! ## Requests together -/

/-- Any number of requests, to a process that has just been started. -/
structure Requests (ι : Type) where
  config : RouteConfig
  textSimilarity : Similarity
  registry : List String
  runs : ι → SwarmRun
  redis : Store

/-- What may happen: the next command of a request, or whatever the rest of the world, with
the reviewers, does to Redis. -/
inductive Happening (ι : Type) where
  | run (j : ι) (o : Outcome Raised)
  | world (redis : Store)

/-- The requests together. -/
abbrev Pool (ι : Type) := Config interface Service Raised Unit ι

namespace Requests

variable {ι : Type} (sys : Requests ι)

/-- The places for swarms. -/
def limit : ℕ := sys.config.maxConcurrentSwarms

/-- The id of the swarm of a request. -/
def swarmId (j : ι) : String := (sys.runs j).sessionId

/-- All requests at their beginning. -/
def start : Pool ι := Config.start ⟨∅, sys.redis⟩ fun j =>
  triggerSwarmReview sys.config sys.textSimilarity sys.registry (sys.runs j)

/-- What comes of the next command of a request: those on the set of active swarms are
answered. -/
def outcome (cfg : Pool ι) (j : ι) (o : Outcome Raised) : Outcome Raised :=
  if (cfg.next? j).any Cmd.isLocal then .ok else o

/-- One step. -/
def step [DecidableEq ι] (cfg : Pool ι) : Happening ι → Pool ι
  | .run j o => cfg.step Service.serve (fun redis w => { w with redis := redis })
      (.run j (outcome cfg j o))
  | .world redis => { cfg with store := { cfg.store with redis := redis } }

/-- A request that has passed the check, goes on, and has not registered a swarm yet. -/
def Flying (cfg : Pool ι) (j : ι) : Prop :=
  (cfg.threads j).finished = false ∧ passed sys.limit (marks (cfg.history j)) = true

instance (cfg : Pool ι) : DecidablePred (sys.Flying cfg) := fun _ =>
  inferInstanceAs (Decidable (_ ∧ _))

/-- How many of them there are. -/
def flying [Fintype ι] (cfg : Pool ι) : ℕ := (Finset.univ.filter (sys.Flying cfg)).card

/-- A request that passes the check finds a place that no other one is about to take. -/
def Unraced [Fintype ι] (cfg : Pool ι) (a : Happening ι) : Prop :=
  ∀ j o, a = .run j o → cfg.next? j = some .activeSwarms → cfg.store.active.card < sys.limit →
    cfg.store.active.card + sys.flying cfg < sys.limit

/-- The swarm of a request is deregistered when its background task ends, once, and never if
it was not registered. -/
def Released (cfg : Pool ι) (j : ι) : Prop :=
  (marks (cfg.history j)).count (.unregistered (sys.swarmId j))
    = if Mark.registered (sys.swarmId j) ∈ marks (cfg.history j) ∧
        (cfg.threads j).finished = true then 1 else 0

/-- What is known in a state of a run without races. -/
structure Within [Fintype ι] (cfg : Pool ι) : Prop where
  obeying : cfg.Obeying Allowed (fun j h => Lawful sys.limit (sys.swarmId j) (marks h))
    fun j _ h => Settled sys.limit (sys.swarmId j) (marks h)
  closing : ∀ j, cfg.Closing Releases j
  places : cfg.store.active.card + sys.flying cfg ≤ sys.limit

variable {sys} [DecidableEq ι]

/-- **What one step can do**: it is a command of a request, or it is nothing to any. -/
theorem step_cases (cfg : Pool ι) (a : Happening ι) :
    (∃ j o o' c k, a = .run j o ∧ cfg.threads j = .call c k ∧ cfg.next? j = some c ∧
      (c.isLocal = true → o' = .ok) ∧ step cfg a = cfg.exchange Service.serve j o' c k) ∨
    ((step cfg a).threads = cfg.threads ∧ (step cfg a).history = cfg.history ∧
      (step cfg a).store.active = cfg.store.active) := by
  cases a with
  | world redis => exact .inr ⟨rfl, rfl, rfl⟩
  | run j o =>
    obtain ⟨i, o', c, k, hi, -, hp, hn, he⟩ | ⟨i, o', -, -, he⟩ | ⟨i, hi, -⟩ | ⟨e, he, -⟩ :=
      Config.step_cases Service.serve (fun redis w => { w with redis := redis }) cfg
        (.run j (outcome cfg j o))
    · cases hi
      refine .inl ⟨j, o, _, c, k, rfl, hp, hn, fun hc => ?_, he⟩
      simp [outcome, hn, hc]
    · exact .inr ⟨by rw [step, he], by rw [step, he], by rw [step, he]⟩
    · cases hi
    · cases he

section

variable [Fintype ι] {cfg : Pool ι} {j : ι} {o : Outcome Raised} {c : Cmd}
  {k : Except Raised (Reply c) → Handler Unit}

omit [Fintype ι] in
theorem flying_of_ne {i : ι} (hi : i ≠ j) :
    sys.Flying (cfg.exchange Service.serve j o c k) i ↔ sys.Flying cfg i := by
  simp [Flying, Config.exchange, hi]

theorem flying_le_succ :
    sys.flying (cfg.exchange Service.serve j o c k) ≤ sys.flying cfg + 1 := by
  refine (Finset.card_le_card fun i hi => ?_).trans (Finset.card_insert_le j _)
  by_cases hij : i = j
  · exact Finset.mem_insert.mpr (.inl hij)
  · rw [Finset.mem_filter, flying_of_ne hij] at hi
    exact Finset.mem_insert_of_mem (Finset.mem_filter.mpr hi)

theorem flying_le (h : sys.Flying (cfg.exchange Service.serve j o c k) j → sys.Flying cfg j) :
    sys.flying (cfg.exchange Service.serve j o c k) ≤ sys.flying cfg := by
  refine Finset.card_le_card fun i hi => ?_
  rw [Finset.mem_filter] at hi ⊢
  by_cases hij : i = j
  · exact ⟨hi.1, hij ▸ h (hij ▸ hi.2)⟩
  · exact ⟨hi.1, (flying_of_ne hij).mp hi.2⟩

theorem flying_lt (h : sys.Flying cfg j)
    (h' : ¬ sys.Flying (cfg.exchange Service.serve j o c k) j) :
    sys.flying (cfg.exchange Service.serve j o c k) < sys.flying cfg := by
  refine Finset.card_lt_card (Finset.ssubset_iff_of_subset ?_ |>.mpr ⟨j, ?_, ?_⟩)
  · intro i hi
    rw [Finset.mem_filter] at hi ⊢
    by_cases hij : i = j
    · exact absurd (hij ▸ hi.2) h'
    · exact ⟨hi.1, (flying_of_ne hij).mp hi.2⟩
  · exact Finset.mem_filter.mpr ⟨Finset.mem_univ j, h⟩
  · intro hj
    exact h' (Finset.mem_filter.mp hj).2

/-- The places after the next command of a request. -/
theorem places_exchange (h : sys.Within cfg) (hp : cfg.threads j = .call c k)
    (ho : c.isLocal = true → o = .ok)
    (hlawful : Lawful sys.limit (sys.swarmId j)
      (marks (cfg.history j ++ [Service.serve.exchange o c cfg.store])))
    (hrace : c = .activeSwarms → cfg.store.active.card < sys.limit →
      cfg.store.active.card + sys.flying cfg < sys.limit) :
    (cfg.exchange Service.serve j o c k).store.active.card
      + sys.flying (cfg.exchange Service.serve j o c k) ≤ sys.limit := by
  have hplaces := h.places
  have hhistory : (cfg.exchange Service.serve j o c k).history j
      = cfg.history j ++ [Service.serve.exchange o c cfg.store] := by
    simp [Config.exchange]
  have hunfinished : (cfg.threads j).finished = false := by
    rw [hp]
    rfl
  -- The marks after the command, where it is answered.
  have hmarks : ∀ l, marks (cfg.history j ++ [Service.serve.exchange o c cfg.store]) = l →
      sys.Flying (cfg.exchange Service.serve j o c k) j → passed sys.limit l = true := by
    intro l hl hfly
    rw [← hl, ← hhistory]
    exact hfly.2
  -- A command that leaves the active swarms alone, and is no mark.
  have hremote (hactive : (cfg.exchange Service.serve j o c k).store.active = cfg.store.active)
      (hsame : marks (cfg.history j ++ [Service.serve.exchange o c cfg.store])
        = marks (cfg.history j)) :
      (cfg.exchange Service.serve j o c k).store.active.card
        + sys.flying (cfg.exchange Service.serve j o c k) ≤ sys.limit := by
    have hle : sys.flying (cfg.exchange Service.serve j o c k) ≤ sys.flying cfg :=
      flying_le fun hfly => ⟨hunfinished, hmarks _ hsame hfly⟩
    rw [hactive]
    omega
  cases c with
  | redis c => exact hremote (by cases o <;> rfl) (marks_snoc_remote rfl)
  | connect => exact hremote (by cases o <;> rfl) (marks_snoc_remote rfl)
  | activeSwarms =>
    obtain rfl := ho rfl
    change cfg.store.active.card + _ ≤ _
    by_cases hroom : cfg.store.active.card < sys.limit
    · have hfree := hrace rfl hroom
      have hle : sys.flying (cfg.exchange Service.serve j .ok .activeSwarms k)
          ≤ sys.flying cfg + 1 := flying_le_succ
      omega
    · have hchecked : marks (cfg.history j ++ [Service.serve.exchange .ok .activeSwarms cfg.store])
          = marks (cfg.history j) ++ [.checked cfg.store.active.card] := marks_snoc _ _
      rw [hchecked] at hlawful hmarks
      rw [hlawful.checked_last] at hmarks
      have hle : sys.flying (cfg.exchange Service.serve j .ok .activeSwarms k) ≤ sys.flying cfg :=
        flying_le fun hfly => absurd (of_decide_eq_true (hmarks _ rfl hfly)) hroom
      omega
  | registerSwarm swarmId =>
    obtain rfl := ho rfl
    have hregistered : marks (cfg.history j ++
        [Service.serve.exchange .ok (.registerSwarm swarmId) cfg.store])
          = marks (cfg.history j) ++ [.registered swarmId] := marks_snoc _ _
    rw [hregistered] at hlawful hmarks
    have hlt : sys.flying (cfg.exchange Service.serve j .ok (.registerSwarm swarmId) k)
        < sys.flying cfg := by
      refine flying_lt ⟨hunfinished, hlawful.registered_last⟩ fun hfly => ?_
      cases passed_snoc (hmarks _ rfl hfly)
      contradiction
    have hinsert := Finset.card_insert_le swarmId cfg.store.active
    change (insert swarmId cfg.store.active).card + _ ≤ _
    omega
  | unregisterSwarm swarmId =>
    obtain rfl := ho rfl
    have hunregistered : marks (cfg.history j ++
        [Service.serve.exchange .ok (.unregisterSwarm swarmId) cfg.store])
          = marks (cfg.history j) ++ [.unregistered swarmId] := marks_snoc _ _
    rw [hunregistered] at hmarks
    have hle : sys.flying (cfg.exchange Service.serve j .ok (.unregisterSwarm swarmId) k)
        ≤ sys.flying cfg := by
      refine flying_le fun hfly => ?_
      cases passed_snoc (hmarks _ rfl hfly)
      contradiction
    have herase := Finset.card_erase_le (s := cfg.store.active) (a := swarmId)
    change (cfg.store.active.erase swarmId).card + _ ≤ _
    omega

theorem Within.step (h : sys.Within cfg) {a : Happening ι} (ha : sys.Unraced cfg a) :
    sys.Within (Requests.step cfg a) := by
  obtain ⟨j, o', o, c, k, hj, hp, hn, ho, he⟩ | ⟨hthreads, hhistory, hactive⟩ := step_cases cfg a
  · have hallowed : Allowed (Service.serve.exchange o c cfg.store) := by
      intro hc
      rw [ho hc]
      exact ⟨_, rfl⟩
    rw [he]
    refine ⟨h.obeying.exchange _ hp hallowed, fun i => (h.closing i).exchange _ o hp, ?_⟩
    refine places_exchange h hp ho (h.obeying.next hp _ hallowed) fun hc => ?_
    exact ha j o' hj (hc ▸ hn)
  · have hflying : sys.flying (Requests.step cfg a) = sys.flying cfg := by
      refine congrArg Finset.card (Finset.filter_congr fun i _ => ?_)
      rw [Flying, Flying, hthreads, hhistory]
    refine ⟨fun i => ?_, fun i => ?_, ?_⟩
    · rw [hthreads, hhistory]
      exact h.obeying i
    · have hclosing := h.closing i
      rw [Config.Closing] at hclosing ⊢
      rwa [hthreads, hhistory]
    · rw [hactive, hflying]
      exact h.places

omit [DecidableEq ι] in
theorem within_start (sys : Requests ι) : sys.Within sys.start where
  obeying := Config.obeying_start _ _ fun j => obeys_triggerSwarmReview _ _ _ (sys.runs j)
  closing := fun j => Config.closing_start _ (closes_triggerSwarmReview _ _ _ (sys.runs j))
  places := by
    have hnone : sys.flying sys.start = 0 := by
      refine Finset.card_eq_zero.mpr (Finset.filter_eq_empty_iff.mpr fun j _ hfly => ?_)
      cases hfly.2
    rw [hnone]
    exact Nat.zero_le _

omit [DecidableEq ι] in
theorem Within.released (h : sys.Within cfg) (j : ι) : sys.Released cfg j := by
  rw [Released]
  cases hfinished : (cfg.threads j).finished with
  | true =>
    have hsettled : Settled sys.limit (sys.swarmId j) (marks (cfg.history j)) := by
      obtain ⟨_, _, hq⟩ | ⟨_, _, hq⟩ := (h.obeying j).finished hfinished
      · exact hq
      · exact hq
    simpa using hsettled.count_unregistered
  | false =>
    have hnever : Mark.unregistered (sys.swarmId j) ∉ marks (cfg.history j) := by
      intro hmem
      have hend := (h.closing j).2 (exists_releases hmem)
      rw [hfinished] at hend
      cases hend
    simpa using List.count_eq_zero.mpr hnever

/-- **The limit.**  In every run in which each request that passes the check finds a place
that no other one is about to take, there are never more active swarms than places; and every
registered swarm is deregistered once, as its background task ends. -/
theorem within_limit_of_unraced (sys : Requests ι) (as : List (Happening ι))
    (h : Each Requests.step sys.Unraced sys.start as) :
    Along Requests.step
      (fun cfg => cfg.store.active.card ≤ sys.limit ∧ ∀ j, sys.Released cfg j)
      (fun _ _ _ => True) sys.start as :=
  along_of_each (fun _ _ hcfg ha => hcfg.step ha)
    (fun _ hcfg => ⟨le_of_add_le_left hcfg.places, hcfg.released⟩) (fun _ _ _ _ => trivial)
    (within_start sys) h

end

/-! ## Two requests for one place -/

/-- Two requests, and a place for one swarm. -/
def two : Requests Bool where
  config := {
    aggregateTimeoutSeconds_pos := SwarmConfig.sixty_pos
    maxConcurrentSwarms := 1
    maxConcurrentSwarms_pos := Nat.one_pos }
  textSimilarity := fun _ _ => 0
  registry := []
  runs := fun j => {
    sessionId := if j then "swarm-1" else "swarm-2"
    targetPath := "src/"
    createdAt := 0
    reportedAt := 1
    completedAt := 2 }
  redis := fun _ => .empty

/-- Steps of a request that are answered. -/
def answered (j : Bool) (n : ℕ) : List (Happening Bool) := List.replicate n (.run j .ok)

/-- The second request comes when the first swarm is active. -/
def inTurn : List (Happening Bool) := answered true 7 ++ answered false 1

/-- Both requests check before either has registered. -/
def together : List (Happening Bool) :=
  answered true 1 ++ answered false 1 ++ answered true 6 ++ answered false 6

theorem unraced_of_next {ι : Type} [Fintype ι] {sys : Requests ι} {cfg : Pool ι} {j : ι}
    {c : Cmd} (hn : cfg.next? j = some c) (hc : c ≠ .activeSwarms) {o : Outcome Raised} :
    sys.Unraced cfg (.run j o) := by
  intro i o' hi hnext
  cases hi
  rw [hn] at hnext
  exact absurd (Option.some.inj hnext) hc

theorem unraced_inTurn : Each Requests.step two.Unraced two.start inTurn := by
  refine ⟨fun j o _ _ _ => ?_, ?_⟩
  · change 0 + 0 < 1
    decide
  refine ⟨unraced_of_next (c := .connect) rfl nofun, unraced_of_next (c := .redis _) rfl nofun,
    unraced_of_next (c := .redis _) rfl nofun, unraced_of_next (c := .redis _) rfl nofun,
    unraced_of_next (c := .redis _) rfl nofun, unraced_of_next (c := .registerSwarm _) rfl nofun,
    fun j o _ _ hroom => ?_, trivial⟩
  exact absurd hroom (Nat.lt_irrefl 1)

theorem within_limit_of_unraced_inTurn :
    Along Requests.step
      (fun cfg => cfg.store.active.card ≤ two.limit ∧ ∀ j, two.Released cfg j)
      (fun _ _ _ => True) two.start inTurn :=
  within_limit_of_unraced two inTurn unraced_inTurn

/-- Requests that pass the check together are both admitted. -/
theorem together_over_limit :
    two.limit = 1 ∧ (run Requests.step two.start together).store.active.card = 2 :=
  ⟨rfl, rfl⟩

end Requests

end DoxAsdlc.Swarm.Routes
