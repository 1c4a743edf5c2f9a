import DoxAsdlc.HitlUi.BrainflareStore

/-!
# The list of ideas and the server's

The server takes requests in the order they are issued; its answers reach the page in any order.
Each of them edits the page's list in its own way, with the filters that are set by then.

The list ends up as the server's when every edit does to the server's list what the request has
done to it, and the answers that are awaited together may come in any order.

## Main definitions

* `Server` — what the page knows of the server.
* `World`, `world` — the page and the server; a request is served when it is issued.
* `Truthful` — nothing is awaited, and the page shows what the server lists.
* `Harmless` — the condition on an action; `truthful_of_harmless` — it is enough.
-/

namespace DoxAsdlc.HitlUi.Brainflare

open Interaction Listing

/-- A server: what it does on a call, and what it lists for filters.  A fetch changes nothing
and brings what is listed; an updated idea keeps its id. -/
structure Server (S : Type) where
  serve : (call : ApiCall) → S → S × ApiAnswer call
  listing : S → IdeaFilters → IdeaListResponse
  unchanged : ∀ filters s, (serve (.fetchIdeas filters) s).1 = s
  listed : ∀ filters s response, (serve (.fetchIdeas filters) s).2 = .ok response →
    response = listing s filters
  namedAlike : ∀ call s, NamedAlike call (serve call s).2

variable {S : Type}

/-- The server, the page, and whether anything has been asked yet. -/
structure World (S : Type) where
  server : S
  page : BrainflareState
  asked : Bool

/-- A request and its answer, on the way. -/
structure Answered where
  request : Request
  answer : Answer request

/-- What the answer does to the list when it arrives with these filters set. -/
def Answered.edit (filters : IdeaFilters) (q : Answered) : Edit Idea String :=
  editOf filters q.request q.answer

/-- The answer to the request of an action. -/
def Server.answered (srv : Server S) (a : Action) (w : World S) : Answered :=
  ⟨(act a w.page).2, (srv.serve (act a w.page).2.call w.server).2⟩

/-- The page and the server.  A request is served when it is issued, and its answer is what is
awaited. -/
def world (srv : Server S) : Client (World S) Action Answered fun _ => Unit where
  act a w :=
    ({ server := (srv.serve (act a w.page).2.call w.server).1
       page := (act a w.page).1
       asked := true }, some (srv.answered a w))
  resume q _ w := { w with page := resume q.request q.answer w.page }

/-- What happens: actions, and arrivals in any order. -/
abbrev History := List (Turn Action Answered fun _ => Unit)

/-- The page before anything has been asked. -/
def opened (s : S) : Awaiting (World S) Answered := ⟨⟨s, .initial, false⟩, []⟩

/-- Once something has been asked and everything is answered, the page shows what the server
lists for the filters that are set. -/
def Truthful (srv : Server S) (w : Awaiting (World S) Answered) : Prop :=
  w.state.asked = true → w.pending = [] →
    w.state.page.shown = srv.listing w.state.server w.state.page.filters

/-! ## A condition on actions -/

/-- The edits of the answers that are awaited. -/
def edits (filters : IdeaFilters) (pending : List Answered) : List (Edit Idea String) :=
  pending.map (Answered.edit filters)

/-- The request does to the server's list what its answer does to the page's.  The page has to
have the server's list for that: something has been asked before, or there is nothing to list. -/
structure Mirrored (srv : Server S) (w : Awaiting (World S) Answered) (a : Action) : Prop where
  shown : w.state.asked = true ∨ srv.listing w.state.server w.state.page.filters = ⟨[], 0⟩
  filters : edits (act a w.state.page).1.filters w.pending = edits w.state.page.filters w.pending
  listing : srv.listing ((world srv).act a w.state).1.server (act a w.state.page).1.filters
    = ((srv.answered a w.state).edit (act a w.state.page).1.filters).apply (·.id)
      (srv.listing w.state.server w.state.page.filters)

/-- The answer brings the whole list. -/
def BringsAll : Edit Idea String → Prop
  | .replace _ => True
  | _ => False

/-- An action does no harm: the order of its answer and those that are awaited does not matter,
and it is answered with the whole list, or with what has been done to the list. -/
structure Harmless (srv : Server S) (w : Awaiting (World S) Answered) (a : Action) : Prop where
  compatible : (edits (act a w.state.page).1.filters
    (w.pending ++ [srv.answered a w.state])).Pairwise (Edit.Compatible (·.id))
  mirrored : BringsAll ((srv.answered a w.state).edit (act a w.state.page).1.filters) ∨
    Mirrored srv w a

/-- Every action of a turn does no harm. -/
def HarmlessTurn (srv : Server S) (w : Awaiting (World S) Answered) :
    Turn Action Answered (fun _ => Unit) → Prop
  | .act a => Harmless srv w a
  | .arrive .. => True

/-! ## The invariant -/

/-- In whatever order the awaited answers come, the page ends up with the server's list. -/
structure Settling (srv : Server S) (w : Awaiting (World S) Answered) : Prop where
  named : ∀ q ∈ w.pending, NamedAlike q.request.call q.answer
  compatible : (edits w.state.page.filters w.pending).Pairwise (Edit.Compatible (·.id))
  unasked : w.state.asked = false → w.pending = [] ∧ w.state.page.shown = ⟨[], 0⟩
  settled : w.state.asked = true → applyAll (·.id) (edits w.state.page.filters w.pending)
    w.state.page.shown = srv.listing w.state.server w.state.page.filters

variable {srv : Server S} {w : Awaiting (World S) Answered}

theorem Settling.opened (s : S) : Settling srv (opened s) := by
  refine ⟨?_, List.Pairwise.nil, fun _ => ⟨rfl, rfl⟩, ?_⟩
  · intro q hq
    simp [Brainflare.opened] at hq
  · intro h
    cases h

theorem Settling.truthful (h : Settling srv w) : Truthful srv w := by
  intro hasked hpending
  have hsettled := h.settled hasked
  rwa [hpending] at hsettled

@[simp] theorem edits_append (filters : IdeaFilters) (pending pending' : List Answered) :
    edits filters (pending ++ pending') = edits filters pending ++ edits filters pending' :=
  List.map_append

/-- A fetch is answered with what is listed, if at all. -/
theorem editOf_fetchIdeas (srv : Server S) (s : S) (filters filters' : IdeaFilters) :
    editOf filters' (.fetchIdeas filters) (srv.serve (.fetchIdeas filters) s).2 = .keep ∨
      editOf filters' (.fetchIdeas filters) (srv.serve (.fetchIdeas filters) s).2
        = .replace (srv.listing (srv.serve (.fetchIdeas filters) s).1 filters) := by
  cases hanswer : (srv.serve (.fetchIdeas filters) s).2 with
  | ok response =>
    refine .inr ?_
    rw [srv.unchanged, ← srv.listed filters s response hanswer]
    rfl
  | error message => exact .inl rfl

/-- An answer that brings the whole list brings what the server lists. -/
theorem edit_answered {a : Action} {s : World S}
    (h : BringsAll ((srv.answered a s).edit (act a s.page).1.filters)) :
    (srv.answered a s).edit (act a s.page).1.filters
      = .replace (srv.listing ((world srv).act a s).1.server (act a s.page).1.filters) := by
  have hfetch : ∀ filters, BringsAll (editOf filters (.fetchIdeas filters)
      (srv.serve (.fetchIdeas filters) s.server).2) → editOf filters (.fetchIdeas filters)
        (srv.serve (.fetchIdeas filters) s.server).2
      = .replace (srv.listing (srv.serve (.fetchIdeas filters) s.server).1 filters) := by
    intro filters hall
    rcases editOf_fetchIdeas srv s.server filters filters with hedit | hedit
    · rw [hedit] at hall
      cases hall
    · exact hedit
  have hother : ∀ (r : Request) (answer : Answer r) (filters : IdeaFilters),
      BringsAll (editOf filters r answer) → ∃ filters', r = .fetchIdeas filters' := by
    intro r answer filters hall
    cases r with
    | fetchIdeas filters' => exact ⟨filters', rfl⟩
    | createIdea request => cases answer <;> cases hall
    | updateIdea id request => cases answer <;> cases hall
    | deleteIdea id => cases answer <;> cases hall
    | archiveIdea id =>
      cases answer with
      | ok updated => by_cases hhides : BrainflareState.hidesArchived filters = true <;>
          simp [editOf, hhides, BringsAll] at hall
      | error message => cases hall
  obtain ⟨filters', hr⟩ := hother _ _ _ h
  cases a with
  | fetchIdeas => exact hfetch _ h
  | setFilters filters => exact hfetch _ h
  | clearFilters => exact hfetch _ h
  | _ => cases hr

/-! ## Turns -/

/-- **A harmless action keeps the page settling.** -/
theorem Settling.issue (h : Settling srv w) {a : Action} (ha : Harmless srv w a) :
    Settling srv ((world srv).step w (.act a)) := by
  have hpending : ((world srv).step w (.act a)).pending
      = w.pending ++ [srv.answered a w.state] := rfl
  refine ⟨?_, ha.compatible, ?_, ?_⟩
  · intro q hq
    rw [hpending] at hq
    rcases List.mem_append.mp hq with hq | hq
    · exact h.named q hq
    · obtain rfl := List.mem_singleton.mp hq
      exact srv.namedAlike _ _
  · intro hasked
    exact absurd hasked (by simp [world])
  · intro _
    have hshown : ((world srv).step w (.act a)).state.page.shown = w.state.page.shown :=
      shown_act a w.state.page
    rw [hpending, hshown]
    change applyAll (·.id) (edits (act a w.state.page).1.filters
      (w.pending ++ [srv.answered a w.state])) w.state.page.shown
        = srv.listing ((world srv).act a w.state).1.server (act a w.state.page).1.filters
    rw [edits_append, applyAll, List.foldl_append]
    rcases ha.mirrored with hall | hmirrored
    · simp [edits, edit_answered hall, Edit.apply]
    · have hbefore : applyAll (·.id) (edits w.state.page.filters w.pending) w.state.page.shown
          = srv.listing w.state.server w.state.page.filters := by
        cases hasked : w.state.asked with
        | true => exact h.settled hasked
        | false =>
          obtain ⟨hnone, hempty⟩ := h.unasked hasked
          have hlisting := hmirrored.shown.resolve_left (by simp [hasked])
          rw [hnone, hempty, hlisting]
          rfl
      rw [hmirrored.filters, hmirrored.listing, ← hbefore]
      rfl

/-- **An arrival keeps the page settling**, whichever answer it is. -/
theorem Settling.settle (h : Settling srv w) (i : ℕ) (answer : Answered → Unit) :
    Settling srv ((world srv).step w (.arrive i answer)) := by
  cases hi : w.pending[i]? with
  | none => rwa [(world srv).step_arrive_none hi]
  | some q =>
    rw [(world srv).step_arrive hi]
    obtain ⟨hlt, hq⟩ := List.getElem?_eq_some_iff.mp hi
    have hnamed : NamedAlike q.request.call q.answer := h.named q (List.mem_of_getElem? hi)
    have hfilters : ((world srv).resume q (answer q) w.state).page.filters
        = w.state.page.filters := filters_resume q.request q.answer w.state.page
    have hperm : (q :: w.pending.eraseIdx i).Perm w.pending := hq ▸ List.getElem_cons_eraseIdx_perm hlt
    refine ⟨?_, ?_, ?_, ?_⟩
    · intro q' hq'
      exact h.named q' (List.mem_of_mem_eraseIdx hq')
    · rw [hfilters]
      exact h.compatible.sublist ((List.eraseIdx_sublist w.pending i).map _)
    · intro hasked
      have hnone := (h.unasked hasked).1
      simp [hnone] at hi
    · intro hasked
      rw [hfilters]
      have hshown : ((world srv).resume q (answer q) w.state).page.shown
          = (q.edit w.state.page.filters).apply (·.id) w.state.page.shown :=
        shown_resume hnamed w.state.page
      rw [hshown]
      have hsettled := h.settled hasked
      have hcompatible := h.compatible.perm (hperm.map (Answered.edit w.state.page.filters)).symm
        Edit.Compatible.comm
      rwa [edits, ← applyAll_perm hcompatible (hperm.map _)] at hsettled

/-- **One request at a time the condition is exact**: on a page that shows the server's list, the
answer to an action leaves it so exactly if the action does no harm. -/
theorem truthful_iff_harmless (h : Settling srv w) (hpending : w.pending = [])
    (hasked : w.state.asked = true) (a : Action) :
    Truthful srv ((world srv).step ((world srv).step w (.act a)) (.arrive 0 fun _ => ())) ↔
      Harmless srv w a := by
  set filters := (act a w.state.page).1.filters with hfilters
  have hafter : (world srv).step ((world srv).step w (.act a)) (.arrive 0 fun _ => ())
      = ⟨(world srv).resume (srv.answered a w.state) () ((world srv).act a w.state).1, []⟩ := by
    simp [Client.step, world, hpending]
  have hshown : ((world srv).resume (srv.answered a w.state) ()
      ((world srv).act a w.state).1).page.shown = ((srv.answered a w.state).edit filters).apply
        (·.id) (srv.listing w.state.server w.state.page.filters) := by
    have hbefore := h.truthful hasked hpending
    have hedit := shown_resume (srv.namedAlike _ _ : NamedAlike _ (srv.answered a w.state).answer)
      (act a w.state.page).1
    rw [shown_act, hbefore] at hedit
    exact hedit
  have htruthful : Truthful srv ((world srv).step ((world srv).step w (.act a))
      (.arrive 0 fun _ => ())) ↔ ((srv.answered a w.state).edit filters).apply (·.id)
        (srv.listing w.state.server w.state.page.filters)
        = srv.listing ((world srv).act a w.state).1.server filters := by
    rw [hafter, Truthful, hshown]
    simp [world, hfilters]
  rw [htruthful]
  constructor
  · intro hlisting
    refine ⟨by simp [hpending, edits], .inr ⟨.inl hasked, by simp [hpending, edits], ?_⟩⟩
    exact hlisting.symm
  · intro ha
    rcases ha.mirrored with hall | hmirrored
    · rw [edit_answered hall]
      rfl
    · exact hmirrored.listing.symm

/-- An action, and its answer before the next action. -/
def round (srv : Server S) (w : Awaiting (World S) Answered) (a : Action) :
    Awaiting (World S) Answered :=
  (world srv).step ((world srv).step w (.act a)) (.arrive 0 fun _ => ())

/-- **When the list settles to the truth.** -/
theorem truthful_of_harmless (srv : Server S) (s : S) (turns : History)
    (h : Each (world srv).step (HarmlessTurn srv) (opened s) turns) :
    Along (world srv).step (Truthful srv) (fun _ _ _ => True) (opened s) turns := by
  refine along_of_each (I := Settling srv) ?_ (fun _ hw => hw.truthful) (fun _ _ _ _ => trivial)
    (Settling.opened s) h
  intro w t hw ht
  cases t with
  | act a => exact hw.issue ht
  | arrive i answer => exact hw.settle i answer

section Decide

instance : DecidablePred BringsAll := fun e => by
  cases e <;> (unfold BringsAll; infer_instance)

instance (srv : Server S) (w : Awaiting (World S) Answered) (a : Action) :
    Decidable (Mirrored srv w a) :=
  decidable_of_iff
    ((w.state.asked = true ∨ srv.listing w.state.server w.state.page.filters = ⟨[], 0⟩) ∧
      edits (act a w.state.page).1.filters w.pending = edits w.state.page.filters w.pending ∧
      srv.listing ((world srv).act a w.state).1.server (act a w.state.page).1.filters
        = ((srv.answered a w.state).edit (act a w.state.page).1.filters).apply (·.id)
          (srv.listing w.state.server w.state.page.filters))
    ⟨fun h => ⟨h.1, h.2.1, h.2.2⟩, fun h => ⟨h.shown, h.filters, h.listing⟩⟩

instance (srv : Server S) (w : Awaiting (World S) Answered) (a : Action) :
    Decidable (Harmless srv w a) :=
  decidable_of_iff (_ ∧ _) ⟨fun h => ⟨h.1, h.2⟩, fun h => ⟨h.compatible, h.mirrored⟩⟩

instance (srv : Server S) (w : Awaiting (World S) Answered)
    (t : Turn Action Answered fun _ => Unit) : Decidable (HarmlessTurn srv w t) := by
  cases t <;> (unfold HarmlessTurn; infer_instance)

end Decide

/-! ## A server -/

/-- The idea matches the filters. -/
def IdeaFilters.accepts (filters : IdeaFilters) (idea : Idea) : Bool :=
  filters.status.all (· = idea.status) &&
    filters.classification.all (· = idea.classification) &&
    filters.search.all fun q => idea.content.toList.tails.any (q.toList.isPrefixOf ·)

/-- An idea with the changes of a request. -/
def Idea.changed (idea : Idea) (request : UpdateIdeaRequest) : Idea :=
  { idea with
    content := request.content.getD idea.content
    status := request.status.getD idea.status
    classification := request.classification.getD idea.classification
    labels := request.labels.getD idea.labels }

/-- What a server with these ideas lists, the newest first. -/
def listIdeas (ideas : List Idea) (filters : IdeaFilters) : IdeaListResponse :=
  ⟨(ideas.filter filters.accepts).take 50, (ideas.filter filters.accepts).length⟩

/-- What a server with these ideas does on a call. -/
def serveIdeas : (call : ApiCall) → List Idea → List Idea × ApiAnswer call
  | .fetchIdeas filters, ideas => (ideas, .ok (listIdeas ideas filters))
  | .createIdea request, ideas =>
    let idea : Idea := ⟨"idea-" ++ toString (ideas.length + 1), request.content,
      request.authorId.getD "anonymous", request.authorName.getD "Anonymous", .active,
      request.classification.getD .undetermined, request.labels.getD [], "", "", 0⟩
    (idea :: ideas, .ok idea)
  | .updateIdea id request, ideas =>
    match ideas.find? (·.id = id) with
    | some idea => (ideas.map fun i => if i.id = id then i.changed request else i,
        .ok (idea.changed request))
    | none => (ideas, .error "Failed to update idea: Not Found")
  | .deleteIdea id, ideas =>
    if ideas.any (·.id = id) then (ideas.filter (·.id ≠ id), .ok ())
    else (ideas, .error "Failed to delete idea: Not Found")

/-- A server that keeps its ideas in a list. -/
def ideaServer : Server (List Idea) where
  serve := serveIdeas
  listing := listIdeas
  unchanged := fun _ _ => rfl
  listed := fun _ _ _ h => by cases h; rfl
  namedAlike := by
    intro call ideas
    cases call with
    | updateIdea id request =>
      cases hfind : ideas.find? (·.id = id) with
      | none => simp [serveIdeas, hfind, NamedAlike]
      | some idea =>
        have hid : idea.id = id := by simpa using List.find?_some hfind
        simpa [serveIdeas, hfind, NamedAlike, Idea.changed] using hid
    | _ => trivial

/-- An idea of a text. -/
def exampleIdea (id content : String) (status : IdeaStatus) : Idea :=
  ⟨id, content, "anonymous", "Anonymous", status, .undetermined, [], "", "", 0⟩

/-- A created and an updated idea, answered in the other order, and a deleted one. -/
theorem truthful_createIdea :
    Along (world ideaServer).step (Truthful ideaServer) (fun _ _ _ => True)
      (opened [exampleIdea "idea-1" "dark mode" .active])
      [.act .fetchIdeas, .arrive 0 fun _ => (),
        .act (.createIdea ⟨"offline mode", none, none, none, none⟩),
        .act (.updateIdea "idea-1" ⟨some "darker mode", none, none, none⟩),
        .arrive 1 fun _ => (), .arrive 0 fun _ => (),
        .act (.deleteIdea "idea-2"), .arrive 0 fun _ => ()] :=
  truthful_of_harmless ideaServer _ _ (by decide)

/-- **A list for other filters**: the answer for the archived ideas comes last, and is shown as
that for the active ones. -/
theorem not_truthful_setFilters :
    ¬ Along (world ideaServer).step (Truthful ideaServer) (fun _ _ _ => True)
      (opened [exampleIdea "idea-1" "dark mode" .active,
        exampleIdea "idea-2" "fax support" .archived])
      [.act (.setFilters ⟨some (some .archived), none, none⟩),
        .act (.setFilters ⟨some (some .active), none, none⟩),
        .arrive 1 fun _ => (), .arrive 0 fun _ => ()] := by
  intro h
  have hlast := h.last (by decide) (by decide)
  revert hlast
  decide

end DoxAsdlc.HitlUi.Brainflare
