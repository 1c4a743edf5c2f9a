import DoxAsdlc.Interaction.Awaiting
import DoxAsdlc.Structures.ListEdits

/-!
# The store of the Brainflare hub

The page shows the ideas that match its filters, as the server lists them, with the number of
them that the server reports.  It edits its list as its own requests are answered, and replaces
it when a fetch is.

Of the store only what these actions touch is kept; the counts for the filter panel and the form
are left out.

## Main definitions

* `BrainflareState` — the store, with `BrainflareState.initial`.
* `Action`, `ApiCall`, `Request` — what the user does, what the server is asked, and what the
  store awaits.
* `brainflareStore` — the store with the requests it awaits.
-/

namespace DoxAsdlc.HitlUi.Brainflare

open Interaction

inductive IdeaStatus
  | active | archived
  deriving DecidableEq

inductive IdeaClassification
  | functional | nonFunctional | undetermined
  deriving DecidableEq

structure Idea where
  id : String
  content : String
  authorId : String
  authorName : String
  status : IdeaStatus
  classification : IdeaClassification
  labels : List String
  createdAt : String
  updatedAt : String
  wordCount : ℕ
  deriving DecidableEq

structure CreateIdeaRequest where
  content : String
  authorId : Option String
  authorName : Option String
  classification : Option IdeaClassification
  labels : Option (List String)
  deriving DecidableEq

structure UpdateIdeaRequest where
  content : Option String
  status : Option IdeaStatus
  classification : Option IdeaClassification
  labels : Option (List String)
  deriving DecidableEq

structure IdeaFilters where
  status : Option IdeaStatus
  classification : Option IdeaClassification
  search : Option String
  deriving DecidableEq

def IdeaFilters.none : IdeaFilters := ⟨.none, .none, .none⟩

/-- Some of the filters, each of which may be set or taken away. -/
structure PartialFilters where
  status : Option (Option IdeaStatus)
  classification : Option (Option IdeaClassification)
  search : Option (Option String)
  deriving DecidableEq

/-- `{...filters, ...changes}`. -/
def IdeaFilters.spread (filters : IdeaFilters) (changes : PartialFilters) : IdeaFilters :=
  ⟨changes.status.getD filters.status, changes.classification.getD filters.classification,
    changes.search.getD filters.search⟩

/-- A page of ideas, with the number of all that match. -/
abbrev IdeaListResponse := Listing Idea

/-- The store of the page. -/
structure BrainflareState where
  ideas : List Idea
  selectedIdea : Option Idea
  total : ℤ
  filters : IdeaFilters
  isLoading : Bool
  error : Option String
  deriving DecidableEq

def BrainflareState.initial : BrainflareState := ⟨[], none, 0, .none, false, none⟩

/-- What the page shows of the ideas. -/
def BrainflareState.shown (s : BrainflareState) : IdeaListResponse := ⟨s.ideas, s.total⟩

/-! ## Requests and answers -/

/-- What the server is asked. -/
inductive ApiCall
  | fetchIdeas (filters : IdeaFilters)
  | createIdea (request : CreateIdeaRequest)
  | updateIdea (id : String) (request : UpdateIdeaRequest)
  | deleteIdea (id : String)
  deriving DecidableEq

/-- What comes back, or the message of the error. -/
def ApiAnswer : ApiCall → Type
  | .fetchIdeas _ => Except String IdeaListResponse
  | .createIdea _ => Except String Idea
  | .updateIdea .. => Except String Idea
  | .deleteIdea _ => Except String Unit

/-- What the store awaits: `archiveIdea` goes on where `updateIdea` ends. -/
inductive Request
  | fetchIdeas (filters : IdeaFilters)
  | createIdea (request : CreateIdeaRequest)
  | updateIdea (id : String) (request : UpdateIdeaRequest)
  | deleteIdea (id : String)
  | archiveIdea (id : String)
  deriving DecidableEq

def Request.call : Request → ApiCall
  | fetchIdeas filters => .fetchIdeas filters
  | createIdea request => .createIdea request
  | updateIdea id request => .updateIdea id request
  | deleteIdea id => .deleteIdea id
  | archiveIdea id => .updateIdea id ⟨none, some .archived, none, none⟩

abbrev Answer (r : Request) : Type := ApiAnswer r.call

/-! ## Actions -/

inductive Action
  | fetchIdeas
  | setFilters (filters : PartialFilters)
  | clearFilters
  | createIdea (request : CreateIdeaRequest)
  | updateIdea (id : String) (request : UpdateIdeaRequest)
  | deleteIdea (id : String)
  | archiveIdea (id : String)
  deriving DecidableEq

namespace BrainflareState

def fetchIdeas (s : BrainflareState) : BrainflareState × Request :=
  ({ s with isLoading := true, error := none }, .fetchIdeas s.filters)

def ideasFetched (answer : Except String IdeaListResponse) (s : BrainflareState) :
    BrainflareState :=
  match answer with
  | .ok response => { s with ideas := response.items, total := response.total, isLoading := false }
  | .error message => { s with error := some message, isLoading := false }

def ideaCreated (answer : Except String Idea) (s : BrainflareState) : BrainflareState :=
  match answer with
  | .ok idea => { s with ideas := idea :: s.ideas, total := s.total + 1 }
  | .error _ => s

/-- The selected idea, unless it has the id. -/
def reselect (id : String) (instead : Option Idea) (s : BrainflareState) : Option Idea :=
  if s.selectedIdea.map (·.id) = some id then instead else s.selectedIdea

def ideaUpdated (id : String) (answer : Except String Idea) (s : BrainflareState) :
    BrainflareState :=
  match answer with
  | .ok updated =>
    { s with
      ideas := s.ideas.map fun i => if i.id = id then updated else i
      selectedIdea := s.reselect id (some updated) }
  | .error _ => s

def ideaDeleted (id : String) (answer : Except String Unit) (s : BrainflareState) :
    BrainflareState :=
  match answer with
  | .ok _ =>
    { s with
      ideas := s.ideas.filter fun i => i.id ≠ id
      total := s.total - 1
      selectedIdea := s.reselect id none }
  | .error _ => s

/-- Archived ideas are not to be seen with these filters. -/
def hidesArchived (filters : IdeaFilters) : Bool :=
  filters.status = none || filters.status = some .active

def ideaArchived (id : String) (answer : Except String Idea) (s : BrainflareState) :
    BrainflareState :=
  match answer with
  | .ok updated =>
    let s' := s.ideaUpdated id (.ok updated)
    if hidesArchived s'.filters then
      { s' with
        ideas := s'.ideas.filter fun i => i.id ≠ id
        selectedIdea := s'.reselect id none }
    else s'
  | .error _ => s

end BrainflareState

open BrainflareState

/-- What an action does before anything else runs. -/
def act : Action → BrainflareState → BrainflareState × Request
  | .fetchIdeas, s => s.fetchIdeas
  | .setFilters filters, s => { s with filters := s.filters.spread filters }.fetchIdeas
  | .clearFilters, s => { s with filters := .none }.fetchIdeas
  | .createIdea request, s => (s, .createIdea request)
  | .updateIdea id request, s => (s, .updateIdea id request)
  | .deleteIdea id, s => (s, .deleteIdea id)
  | .archiveIdea id, s => (s, .archiveIdea id)

/-- What the store does when it is answered. -/
def resume : (r : Request) → Answer r → BrainflareState → BrainflareState
  | .fetchIdeas _, answer, s => s.ideasFetched answer
  | .createIdea _, answer, s => s.ideaCreated answer
  | .updateIdea id _, answer, s => s.ideaUpdated id answer
  | .deleteIdea id, answer, s => s.ideaDeleted id answer
  | .archiveIdea id, answer, s => s.ideaArchived id answer

/-- The store with the requests it awaits. -/
def brainflareStore : Client BrainflareState Action Request Answer where
  act a s := ((act a s).1, some (act a s).2)
  resume := resume

/-! ## Answers as edits of the list -/

/-- What an answer does to the list, with the filters set when it arrives. -/
def editOf (filters : IdeaFilters) : (r : Request) → Answer r → Listing.Edit Idea String
  | .fetchIdeas _, .ok response => .replace response
  | .fetchIdeas _, .error _ => .keep
  | .createIdea _, .ok idea => .insert idea
  | .createIdea _, .error _ => .keep
  | .updateIdea _ _, .ok updated => .put updated
  | .updateIdea _ _, .error _ => .keep
  | .deleteIdea id, .ok _ => .remove id true
  | .deleteIdea _, .error _ => .keep
  | .archiveIdea id, .ok updated => if hidesArchived filters then .remove id false else .put updated
  | .archiveIdea _, .error _ => .keep

/-- An updated idea is the one that was asked for. -/
def NamedAlike : (r : ApiCall) → ApiAnswer r → Prop
  | .updateIdea id _, .ok updated => updated.id = id
  | _, _ => True

/-- Answers leave the filters alone. -/
@[simp] theorem filters_resume (r : Request) (answer : Answer r) (s : BrainflareState) :
    (resume r answer s).filters = s.filters := by
  cases r with
  | fetchIdeas filters => cases answer <;> rfl
  | createIdea request => cases answer <;> rfl
  | updateIdea id request => cases answer <;> rfl
  | deleteIdea id => cases answer <;> rfl
  | archiveIdea id =>
    cases answer with
    | ok updated =>
      by_cases hhides : hidesArchived s.filters = true <;>
        simp [resume, ideaArchived, ideaUpdated, hhides]
    | error message => rfl

/-- **An answer edits the list.** -/
theorem shown_resume {r : Request} {answer : Answer r} (h : NamedAlike r.call answer)
    (s : BrainflareState) :
    (resume r answer s).shown = (editOf s.filters r answer).apply (·.id) s.shown := by
  cases r with
  | fetchIdeas filters => cases answer <;> rfl
  | createIdea request => cases answer <;> rfl
  | updateIdea id request =>
    cases answer with
    | ok updated =>
      obtain rfl : updated.id = id := h
      rfl
    | error message => rfl
  | deleteIdea id => cases answer <;> rfl
  | archiveIdea id =>
    cases answer with
    | ok updated =>
      obtain rfl : updated.id = id := h
      by_cases hhides : hidesArchived s.filters = true
      · have hfilter := Listing.Edit.filter_map_put Idea.id updated s.ideas
        simpa [resume, ideaArchived, ideaUpdated, editOf, hhides, Listing.Edit.apply, shown]
          using hfilter
      · simp [resume, ideaArchived, ideaUpdated, editOf, hhides, Listing.Edit.apply, shown]
    | error message => rfl

/-- An action leaves the list as it is until it is answered. -/
@[simp] theorem shown_act (a : Action) (s : BrainflareState) : (act a s).1.shown = s.shown := by
  cases a <;> rfl

end DoxAsdlc.HitlUi.Brainflare
