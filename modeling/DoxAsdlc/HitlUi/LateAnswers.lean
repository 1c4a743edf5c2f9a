import Mathlib.Data.List.Nodup
import DoxAsdlc.HitlUi.IdeationStore

/-!
# Late answers and the session in view

A request is issued in one session; by the time its answer comes the user may have started or
loaded another one.  The store does not look which session it is answered for, so the answer
to a message goes into whatever session is in view.

Two sessions may be told apart by when they were entered or by their ids; what is proved holds
for either reading.

## Main definitions

* `Visited` — the store with the number of sessions entered so far, and `watched`.
* `Another` — the session in view is another one than that of a request.
* `Separate` — answers change no other session, and requirements have distinct ids.
* `separate_iff` — exactly when.
-/

namespace DoxAsdlc.HitlUi

open Interaction IdeationState

/-- The store, and how many sessions have been entered. -/
structure Visited where
  store : IdeationState
  entries : ℕ

/-- A request, with the number of the session it was issued in. -/
structure Issued where
  request : Request
  entry : ℕ

/-- The action enters a session. -/
def Action.enters : Action → Bool
  | .startSession .. => true
  | .loadSession _ => true
  | _ => false

/-- The store with the sessions counted beside it. -/
def watched : Client Visited Action Issued fun issued => Answer issued.request where
  act a v :=
    let next := ideationStore.act a v.store
    ({ store := next.1, entries := v.entries + if a.enters then 1 else 0 },
      next.2.map fun request => ⟨request, v.entries⟩)
  resume issued answer v := { v with store := ideationStore.resume issued.request answer v.store }

/-- How sessions are told apart. -/
inductive Telling
  | byEntry | byId

/-- There is a session in view, and it is another one than that of the request: it was entered
after the request was issued, or it has another id. -/
def Another (telling : Telling) (issued : Issued) (v : Visited) : Prop :=
  v.store.sessionId ≠ none ∧
    match telling with
    | .byEntry => issued.entry < v.entries
    | .byId => v.store.sessionId ≠ some issued.request.sessionId

instance (telling : Telling) (issued : Issued) (v : Visited) :
    Decidable (Another telling issued v) := by
  cases telling <;> (unfold Another; infer_instance)

/-- The ids of requirements are pairwise distinct. -/
def DistinctIds (requirements : List Requirement) : Prop := (requirements.map (·.id)).Nodup

instance (requirements : List Requirement) : Decidable (DistinctIds requirements) :=
  inferInstanceAs (Decidable (List.Nodup _))

/-- Every loaded session has requirements with distinct ids. -/
def Action.LoadsDistinct : Action → Prop
  | .loadSession data => DistinctIds data.requirements
  | _ => True

/-- The runs of the store. -/
abbrev History := List (Turn Action Issued fun issued => Answer issued.request)

/-- The page before anything has happened. -/
def opened : Awaiting Visited Issued := ⟨⟨defaultState, 0⟩, []⟩

/-- What is promised of a run. -/
structure Separate (telling : Telling) (turns : History) : Prop where
  /-- No answer changes a session other than that of its request. -/
  apart : Along watched.step (fun _ => True)
    (Turn.Shows fun issued _ v v' => Another telling issued v → SameContent v.store v'.store)
    opened turns
  /-- Where loaded sessions have distinct ids of requirements, so has every state. -/
  distinct : (∀ a, .act a ∈ turns → a.LoadsDistinct) →
    Along watched.step (fun w => DistinctIds w.state.store.extractedRequirements)
      (fun _ _ _ => True) opened turns

/-! ## When the promise is kept -/

/-- An answer in another session brings nothing: it is none to a message, or a document that is
there already. -/
def Idle (issued : Issued) (answer : Answer issued.request) (v : Visited) : Prop :=
  match issued, answer with
  | ⟨.send _, _⟩, answer => Except.isOk answer = false
  | ⟨.submit _, _⟩, answer =>
    ∀ result, answer = .ok result → result.success = true → result.prdDraft = v.store.prdDraft

/-- The requirements that an answer brings for the first time have distinct ids. -/
def BringsDistinct (issued : Issued) (answer : Answer issued.request) (v : Visited) : Prop :=
  match issued, answer with
  | ⟨.send _, _⟩, answer => ∀ response, answer = .ok response →
    DistinctIds (v.store.newRequirements response.extractedRequirements)
  | ⟨.submit _, _⟩, _ => True

/-- What the turns of a run have to be like. -/
structure Careful (telling : Telling) (turns : History) : Prop where
  idle : Each watched.step
    (Turn.Meets (fun _ _ => True) fun issued answer v => Another telling issued v →
      Idle issued answer v) opened turns
  brings : (∀ a, .act a ∈ turns → a.LoadsDistinct) → Each watched.step
    (Turn.Meets (fun _ _ => True) BringsDistinct) opened turns

theorem sameContent_resume (issued : Issued) (answer : Answer issued.request) (v : Visited) :
    SameContent v.store (watched.resume issued answer v).store ↔ Idle issued answer v := by
  obtain ⟨request, entry⟩ := issued
  cases request with
  | send request => exact sameContent_sendAnswered
  | submit request => exact sameContent_submitAnswered

/-- The ids of new requirements are not among the known ones. -/
theorem disjoint_newRequirements (s : IdeationState) (extracted : List Requirement) :
    (s.extractedRequirements.map (·.id)).Disjoint ((s.newRequirements extracted).map (·.id)) := by
  intro id hold hnew
  obtain ⟨existing, hexisting, rfl⟩ := List.mem_map.mp hold
  obtain ⟨req, hreq, hid⟩ := List.mem_map.mp hnew
  have hfresh := (List.mem_filter.mp hreq).2
  simp only [Bool.not_eq_true', List.any_eq_false, decide_eq_true_eq] at hfresh
  exact hfresh existing hexisting hid.symm

theorem distinctIds_sendAnswered {s : IdeationState} (h : DistinctIds s.extractedRequirements)
    (answer : Except (Option String) IdeationChatResponse) :
    DistinctIds (s.sendAnswered answer).extractedRequirements ↔
      ∀ response, answer = .ok response →
        DistinctIds (s.newRequirements response.extractedRequirements) := by
  cases answer with
  | ok response =>
    have hdisjoint := disjoint_newRequirements s response.extractedRequirements
    have happend : (s.sendAnswered (.ok response)).extractedRequirements.map (·.id)
        = s.extractedRequirements.map (·.id) ++
          (s.newRequirements response.extractedRequirements).map (·.id) := by
      simp [sendAnswered]
    constructor
    · rintro hall _ ⟨⟩
      rw [DistinctIds, happend] at hall
      exact hall.of_append_right
    · intro hnew
      rw [DistinctIds, happend]
      exact List.Nodup.append h (hnew response rfl) hdisjoint
  | error message => simpa [sendAnswered] using h

theorem distinctIds_resume {v : Visited} (h : DistinctIds v.store.extractedRequirements)
    (issued : Issued) (answer : Answer issued.request) :
    DistinctIds (watched.resume issued answer v).store.extractedRequirements ↔
      BringsDistinct issued answer v := by
  obtain ⟨request, entry⟩ := issued
  cases request with
  | send request => exact distinctIds_sendAnswered h answer
  | submit request =>
    refine iff_of_true ?_ trivial
    have hsame : (v.store.submitAnswered answer).extractedRequirements
        = v.store.extractedRequirements := by
      cases answer with
      | ok result =>
        by_cases hsuccess : result.success = true <;> simp [submitAnswered, hsuccess]
      | error message => rfl
    rwa [← hsame] at h

theorem distinctIds_act {v : Visited} (h : DistinctIds v.store.extractedRequirements)
    (a : Action) :
    DistinctIds (watched.act a v).1.store.extractedRequirements ↔ a.LoadsDistinct := by
  cases a with
  | startSession projectName sessionId messageId timestamp =>
    exact iff_of_true List.nodup_nil trivial
  | loadSession data => exact Iff.rfl
  | sendMessage content messageId timestamp =>
    refine iff_of_true ?_ trivial
    have hsame : (v.store.sendMessage content messageId timestamp).1.extractedRequirements
        = v.store.extractedRequirements := by
      cases hactive : v.store.activeSession <;>
        simp [IdeationState.sendMessage, hactive, addMessage]
    rwa [← hsame] at h
  | submitForPRD =>
    refine iff_of_true ?_ trivial
    have hsame : v.store.submitForPRD.1.extractedRequirements
        = v.store.extractedRequirements := by
      cases hactive : v.store.activeSession <;> simp [IdeationState.submitForPRD, hactive]
    rwa [← hsame] at h
  | resetSession => exact iff_of_true List.nodup_nil trivial

/-- **When late answers stay out of other sessions.** -/
theorem separate_iff (telling : Telling) (turns : History) :
    Separate telling turns ↔ Careful telling turns := by
  have hidle := watched.along_iff_each (P := fun _ => True)
    (R := fun issued _ v v' => Another telling issued v → SameContent v.store v'.store)
    (A := fun _ _ => True)
    (B := fun issued answer v => Another telling issued v → Idle issued answer v)
    (fun _ _ _ => Iff.rfl) (fun issued answer v _ => by simp [sameContent_resume])
    (w := opened) trivial turns
  have hdistinct := watched.always_iff_each
    (P := fun v => DistinctIds v.store.extractedRequirements)
    (A := fun a _ => a.LoadsDistinct) (B := BringsDistinct)
    (fun a v h => distinctIds_act h a) (fun issued answer v h => distinctIds_resume h issued answer)
    (w := opened) List.nodup_nil turns
  rw [watched.each_meets_iff] at hdistinct
  constructor
  · intro h
    refine ⟨hidle.mp h.apart, ?_⟩
    intro hloaded
    exact (hdistinct.mp (h.distinct hloaded)).2
  · intro h
    refine ⟨hidle.mpr h.idle, ?_⟩
    intro hloaded
    exact hdistinct.mpr ⟨hloaded, h.brings hloaded⟩

/-- A message is sent in one project, and answered in the next. -/
def exampleTurns : History :=
  [.act (.startSession "Alpha" "ideation-1" "msg-1" "t1"), .act (.sendMessage "hello" "msg-2" "t2"),
    .act (.startSession "Beta" "ideation-2" "msg-3" "t3"),
    .arrive 0 fun
      | ⟨.send _, _⟩ => .ok ⟨⟨"msg-4", .assistant, "About Alpha", "t4", []⟩, ⟨20, false⟩, []⟩
      | ⟨.submit _, _⟩ => .error none]

/-- **An answer for another session**: what is said about Alpha ends up among the messages of
Beta, and Beta's maturity with it. -/
theorem not_separate_exampleTurns :
    ¬ Separate .byEntry exampleTurns ∧ ¬ Separate .byId exampleTurns := by
  constructor
  · intro h
    have hsame := h.apart.2.2.2.2.2.2.2.1 _ rfl (by decide)
    exact absurd hsame.maturity (by decide)
  · intro h
    have hsame := h.apart.2.2.2.2.2.2.2.1 _ rfl (by decide)
    exact absurd hsame.maturity (by decide)

end DoxAsdlc.HitlUi
