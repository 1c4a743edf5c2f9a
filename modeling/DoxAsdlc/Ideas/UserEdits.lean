import DoxAsdlc.Ideas.Services

/-!
# Whether a classification respects user edits

One classification of an idea and any number of updates of it by users, interleaved command by
command.  The classification updates the idea with labels that it made from those that it read,
so what users have done to the idea since then is lost unless it fits.

## Main definitions

* `Watched` — the operations at work, and when users have edited the idea.
* `Respects` — what is promised of the idea.
* `Spared` — the edits that do not collide with the classification.

## Main results

* `respects_iff_spared` — when the promise is kept.
-/

namespace DoxAsdlc.Ideas

open Interaction Interaction.Program
open Labels (LabelTaxonomy)

/-! ## Edits -/

/-- An update of a user that has been written, and the idea that it was written over. -/
structure Edit where
  request : UpdateIdeaRequest
  found : Idea
  deriving DecidableEq

/-- The labels that were set last, and the idea that they were set on. -/
def lastLabels (edits : List Edit) : Option (List String × Idea) :=
  edits.findSome? fun e => e.request.labels.map fun labels => (labels, e.found)

/-- The classification that was set last. -/
def lastClassification (edits : List Edit) : Option IdeaClassification :=
  edits.findSome? fun e => e.request.classification

/-- The labels that edits leave, the latest edit first. -/
def labelsAfter (labels : List String) (edits : List Edit) : List String :=
  ((lastLabels edits).map Prod.fst).getD labels

/-- The classification that edits leave. -/
def classificationAfter (c : IdeaClassification) (edits : List Edit) : IdeaClassification :=
  (lastClassification edits).getD c

section

variable (labels : List String) (c : IdeaClassification) (e : Edit) (edits : List Edit)

@[simp] theorem labelsAfter_nil : labelsAfter labels [] = labels := rfl

@[simp] theorem classificationAfter_nil : classificationAfter c [] = c := rfl

@[simp] theorem labelsAfter_cons :
    labelsAfter labels (e :: edits) = e.request.labels.getD (labelsAfter labels edits) := by
  cases h : e.request.labels <;> simp [labelsAfter, lastLabels, h]

@[simp] theorem classificationAfter_cons :
    classificationAfter c (e :: edits)
      = e.request.classification.getD (classificationAfter c edits) := by
  cases h : e.request.classification <;> simp [classificationAfter, lastClassification, h]

end

theorem lastLabels_append (l l' : List Edit) :
    lastLabels (l ++ l') = (lastLabels l).or (lastLabels l') := List.findSome?_append

theorem lastLabels_eq_none {edits : List Edit} :
    lastLabels edits = none ↔ ∀ e ∈ edits, e.request.labels = none := by
  simp [lastLabels]

theorem lastClassification_eq_none {edits : List Edit} :
    lastClassification edits = none ↔ ∀ e ∈ edits, e.request.classification = none := by
  simp [lastClassification]

/-! ## Operations together -/

/-- The update of an idea by a classification: its result, and the idea before and after. -/
structure Assignment where
  result : ClassificationResult
  before : Idea
  after : Idea
  deriving DecidableEq

/-- The operations at work on an idea: a classification, and updates by users.  Beside them, the
idea as the classification read it, its update, and the edits before it read the idea, since
then, and after its update, the latest first. -/
structure Watched (ι : Type) where
  cfg : Config interface Store Error Answer (Option ι)
  read : Option Idea := none
  assigned : Option Assignment := none
  earlier : List Edit := []
  waiting : List Edit := []
  later : List Edit := []

/-- A classification, and updates by users on an idea. -/
structure Scene (ι : Type) where
  env : Env
  now : ι → Time
  request : ι → UpdateIdeaRequest
  before : IdeaStore
  taxonomy : Labels.Store

/-- The next command of an operation is answered. -/
def turn {ι : Type} [DecidableEq ι] (cfg : Config interface Store Error Answer (Option ι))
    (j : Option ι) : Config interface Store Error Answer (Option ι) :=
  cfg.step serve Empty.elim (.run j .ok)

namespace Watched

variable {ι : Type}

/-- The idea that is stored. -/
def idea (w : Watched ι) : Option Idea := w.cfg.store.1.idea

/-- The result that is stored. -/
def result (w : Watched ι) : Option ClassificationResult := w.cfg.store.1.result

/-- All edits. -/
def edits (w : Watched ι) : List Edit := w.later ++ w.waiting ++ w.earlier

/-- A user has edited the idea. -/
def edit (w : Watched ι) (e : Edit) : Watched ι :=
  match w.read, w.assigned with
  | none, _ => { w with earlier := e :: w.earlier }
  | some _, none => { w with waiting := e :: w.waiting }
  | some _, some _ => { w with later := e :: w.later }

end Watched

namespace Scene

variable {ι : Type} (scene : Scene ι)

/-- The programs. -/
def program : Option ι → Async Answer
  | none => classifying scene.env
  | some i => editing (scene.now i) (scene.request i)

/-- Every operation at its beginning. -/
def begin : Watched ι where
  cfg := Config.start (scene.before, scene.taxonomy) scene.program

/-- The stage of the classification. -/
def stage (cfg : Config interface Store Error Answer (Option ι)) : Stage :=
  (classification scene.env).after .opening (cfg.history none)

/-- One step: the next command of the classification, or of an update. -/
def step [DecidableEq ι] (w : Watched ι) : Option ι → Watched ι
  | none =>
    let after := { w with cfg := turn w.cfg none }
    match scene.stage w.cfg, w.idea with
    | .opening, some idea => { after with read := some idea }
    | .assigning _ result, some idea =>
      { after with assigned := some ⟨result, idea, after.idea.getD idea⟩ }
    | _, _ => after
  | some i =>
    let after := { w with cfg := turn w.cfg (some i) }
    match w.cfg.next? (some i), w.idea with
    | some (.inl (.update _)), some idea => after.edit ⟨scene.request i, idea⟩
    | _, _ => after

/-! ## The promise -/

/-- What is promised of an idea that is classified while users edit it. -/
structure Respects (w : Watched ι) : Prop where
  /-- The labels that a user set last are there. -/
  contains : ∀ idea labels found, w.idea = some idea → lastLabels w.edits = some (labels, found) →
    ∀ label ∈ labels, label ∈ idea.labels
  /-- A label that was removed with them is not, unless the classification assigns it. -/
  removes : ∀ idea labels found, w.idea = some idea → lastLabels w.edits = some (labels, found) →
    ∀ label ∈ found.labels, label ∉ labels → label ∈ idea.labels →
      ∃ a, w.assigned = some a ∧ label ∈ a.result.labels
  /-- The update of the classification does not change what a user has set while it waited. -/
  keeps : ∀ a, w.assigned = some a → (∃ e ∈ w.waiting, e.request.classification ≠ none) →
    a.after.classification = a.before.classification
  /-- The result that it has stored is the one that it assigned. -/
  stores : (w.cfg.threads none).finished = true →
    w.result = (w.assigned.map Assignment.result).or scene.before.result
  /-- The idea has what was assigned, where no user has set it. -/
  agrees : ∀ a idea, w.assigned = some a → w.idea = some idea →
    ((∀ e ∈ w.later ++ w.waiting, e.request.classification = none) →
      idea.classification = .of a.result.classification) ∧
    ((∀ e ∈ w.later, e.request.labels = none) → ∀ label ∈ a.result.labels, label ∈ idea.labels)

/-- The taxonomy as it is read. -/
def labelling : LabelTaxonomy := Stage.readTaxonomy scene.env scene.taxonomy

/-- What the language model, or the rules, make of an idea. -/
def resultFor (idea : Idea) : ClassificationResult :=
  classified scene.env idea.content scene.labelling scene.labelling

/-- What users have done while the classification waited fits what it has made of the idea that it
read. -/
def Spared (w : Watched ι) : Prop :=
  ∀ read, w.read = some read → w.assigned ≠ none →
    (∀ c, lastClassification w.waiting = some c → c = .of (scene.resultFor read).classification) ∧
    (lastLabels w.later = none → ∀ labels found, lastLabels w.waiting = some (labels, found) →
      (∀ label ∈ labels, label ∈ read.labels ∨ label ∈ (scene.resultFor read).labels) ∧
      ∀ label ∈ found.labels, label ∉ labels → label ∈ read.labels →
        label ∈ (scene.resultFor read).labels)

/-! ## What holds in every state -/

/-- A stage of a classification that has read an idea and has not updated it. -/
def Waits (read : Idea) : Stage → Prop
  | .checking idea | .labelling idea => idea = read
  | .prompting idea taxonomy => idea = read ∧ taxonomy = scene.labelling
  | .storing idea result | .rereading idea result | .assigning idea result =>
    idea = read ∧ result = scene.resultFor read
  | .found _ => True
  | _ => False

/-- The result that is stored at a stage before the update. -/
def resultAt (read : Idea) : Stage → Option ClassificationResult
  | .rereading _ _ | .assigning _ _ => some (scene.resultFor read)
  | _ => scene.before.result

/-- A stage of a classification that has updated the idea. -/
def HasWritten (read : Idea) : Stage → Prop
  | .refreshing result | .closing result | .assigned result => result = scene.resultFor read
  | _ => False

/-- The idea that was read has the labels that were set last before. -/
def Shows (w : Watched ι) (idea : Idea) : Prop :=
  ∀ e, lastLabels w.earlier = some e → idea.labels = e.1

/-- What is stored at a stage of the classification: there is no idea; it has not been read; it has
been read, and has been edited since; or it has been updated. -/
inductive Stands (w : Watched ι) (p : Stage) : Prop
  | absent (hp : p = .opening ∨ ∃ e, p = .failed e) (hidea : w.idea = none)
      (hassigned : w.assigned = none) (hresult : w.result = scene.before.result)
  | unread (idea : Idea) (hp : p = .opening) (hidea : w.idea = some idea) (hread : w.read = none)
      (hassigned : w.assigned = none) (hwaiting : w.waiting = []) (hlater : w.later = [])
      (hresult : w.result = scene.before.result) (hshows : Shows w idea)
  | waits (read idea : Idea) (hp : scene.Waits read p) (hidea : w.idea = some idea)
      (hread : w.read = some read) (hassigned : w.assigned = none) (hlater : w.later = [])
      (hresult : w.result = scene.resultAt read p) (hshows : Shows w read)
      (hlabels : idea.labels = labelsAfter read.labels w.waiting)
      (hclass : idea.classification = classificationAfter read.classification w.waiting)
  | written (read idea before : Idea) (hp : scene.HasWritten read p) (hidea : w.idea = some idea)
      (hread : w.read = some read)
      (hassigned : w.assigned = some ⟨scene.resultFor read, before,
        (assignment scene.env read (scene.resultFor read)).apply before⟩)
      (hresult : w.result = some (scene.resultFor read)) (hshows : Shows w read)
      (hbefore : before.classification = classificationAfter read.classification w.waiting)
      (hlabels : idea.labels
        = labelsAfter (mergedLabels scene.env read.labels (scene.resultFor read).labels) w.later)
      (hclass : idea.classification
        = classificationAfter (.of (scene.resultFor read).classification) w.later)

/-- The commands of an update. -/
def UserCmd (i : ι) : interface.Cmd → Prop
  | .inl .getIdea | .inl .refresh => True
  | .inl (.update doc) => (scene.request i).updateData (scene.now i) = .ok doc
  | _ => False

theorem uses_editing (i : ι) :
    (editing (scene.now i) (scene.request i)).Uses (scene.UserCmd i) := by
  have hget : getIdea.Uses (scene.UserCmd i) := by
    apply uses_tryCatch
    · exact uses_command trivial
    · exact fun _ => trivial
  refine uses_bind (uses_bind hget ?_) fun _ => trivial
  intro idea
  cases idea with
  | none => trivial
  | some idea =>
    cases hdoc : (scene.request i).updateData (scene.now i) with
    | error e => trivial
    | ok doc =>
      simp only [answer_ok, bind_eq, elim_ret]
      refine uses_bind (uses_command hdoc) ?_
      intro there
      cases there with
      | false => trivial
      | true => exact uses_bind (uses_command trivial) fun _ => hget

/-- What holds in every state that is reached. -/
structure Inv (w : Watched ι) : Prop where
  running : w.cfg.stopped none = false
  follows : w.cfg.Follows (classification scene.env) .opening none
  users : ∀ i, (w.cfg.threads (some i)).Uses (scene.UserCmd i)
  taxonomy : w.cfg.store.2 = scene.taxonomy
  stands : scene.Stands w (scene.stage w.cfg)

variable {scene} {w : Watched ι} {p : Stage}

theorem inv_begin : scene.Inv scene.begin where
  running := rfl
  follows := Config.follows_start _ _ rfl
  users := scene.uses_editing
  taxonomy := rfl
  stands := by
    cases hidea : scene.before.idea with
    | none => exact .absent (.inl rfl) hidea rfl rfl
    | some idea => exact .unread idea rfl hidea rfl rfl rfl rfl rfl (by simp [Shows, begin, lastLabels])

/-- **An edit by a user**, wherever the classification stands. -/
theorem Stands.edit (h : scene.Stands w p) {idea : Idea} (hidea : w.idea = some idea)
    {request : UpdateIdeaRequest} {now : Time} {doc : UpdateData}
    (hdoc : request.updateData now = .ok doc)
    {cfg : Config interface Store Error Answer (Option ι)}
    (hcfg : cfg.store.1 = { w.cfg.store.1 with idea := some (doc.apply idea) }) :
    scene.Stands (({ w with cfg := cfg } : Watched ι).edit ⟨request, idea⟩) p := by
  obtain ⟨hdl, hdc⟩ := updateData_eq_ok hdoc
  have hidea' : cfg.store.1.idea = some (doc.apply idea) := by rw [hcfg]
  have hresult' : cfg.store.1.result = w.result := by rw [hcfg]; rfl
  cases h with
  | absent hp hnone =>
    rw [hidea] at hnone
    cases hnone
  | unread idea' hp hidea'' hread hassigned hwaiting hlater hresult hshows =>
    obtain rfl : idea' = idea := Option.some.inj (hidea''.symm.trans hidea)
    have hedit : ({ w with cfg := cfg } : Watched ι).edit ⟨request, idea'⟩
        = { w with cfg := cfg, earlier := ⟨request, idea'⟩ :: w.earlier } := by
      simp [Watched.edit, hread]
    rw [hedit]
    refine .unread _ hp hidea' hread hassigned hwaiting hlater (hresult'.trans hresult) ?_
    intro e he
    cases hlabels : request.labels with
    | none =>
      have hold : lastLabels w.earlier = some e := by simpa [lastLabels, hlabels] using he
      simpa [hdl, hlabels] using hshows e hold
    | some labels =>
      have hnew : (labels, idea') = e := by simpa [lastLabels, hlabels] using he
      simp [← hnew, hdl, hlabels]
  | waits read idea' hp hidea'' hread hassigned hlater hresult hshows hlabels hclass =>
    obtain rfl : idea' = idea := Option.some.inj (hidea''.symm.trans hidea)
    have hedit : ({ w with cfg := cfg } : Watched ι).edit ⟨request, idea'⟩
        = { w with cfg := cfg, waiting := ⟨request, idea'⟩ :: w.waiting } := by
      simp [Watched.edit, hread, hassigned]
    rw [hedit]
    refine .waits read _ hp hidea' hread hassigned hlater (hresult'.trans hresult) hshows ?_ ?_
    · simp [hdl, hlabels]
    · simp [hdc, hclass]
  | written read idea' before hp hidea'' hread hassigned hresult hshows hbefore hlabels hclass =>
    obtain rfl : idea' = idea := Option.some.inj (hidea''.symm.trans hidea)
    have hedit : ({ w with cfg := cfg } : Watched ι).edit ⟨request, idea'⟩
        = { w with cfg := cfg, later := ⟨request, idea'⟩ :: w.later } := by
      simp [Watched.edit, hread, hassigned]
    rw [hedit]
    refine .written read _ before hp hidea' hread hassigned (hresult'.trans hresult) hshows hbefore
      ?_ ?_
    · simp [hdl, hlabels]
    · simp [hdc, hclass]

/-- Nothing is stored. -/
theorem Stands.frame (h : scene.Stands w p)
    {cfg : Config interface Store Error Answer (Option ι)} (hcfg : cfg.store.1 = w.cfg.store.1) :
    scene.Stands { w with cfg := cfg } p := by
  have hidea : ({ w with cfg := cfg } : Watched ι).idea = w.idea := congrArg IdeaStore.idea hcfg
  have hresult : ({ w with cfg := cfg } : Watched ι).result = w.result :=
    congrArg IdeaStore.result hcfg
  cases h with
  | absent hp h1 h2 h3 => exact .absent hp (hidea.trans h1) h2 (hresult.trans h3)
  | unread idea hp h1 h2 h3 h4 h5 h6 h7 =>
    exact .unread idea hp (hidea.trans h1) h2 h3 h4 h5 (hresult.trans h6) h7
  | waits read idea hp h1 h2 h3 h4 h5 h6 h7 h8 =>
    exact .waits read idea hp (hidea.trans h1) h2 h3 h4 (hresult.trans h5) h6 h7 h8
  | written read idea before hp h1 h2 h3 h4 h5 h6 h7 h8 =>
    exact .written read idea before hp (hidea.trans h1) h2 h3 (hresult.trans h4) h5 h6 h7 h8

variable [DecidableEq ι]

/-- Only the operation whose turn it is goes on. -/
theorem cfg_step (w : Watched ι) (j : Option ι) : (scene.step w j).cfg = turn w.cfg j := by
  have hedit (w : Watched ι) (e : Edit) : (w.edit e).cfg = w.cfg := by
    rw [Watched.edit]
    split <;> rfl
  cases j with
  | none =>
    simp only [step]
    split <;> rfl
  | some i =>
    simp only [step]
    split
    · rw [hedit]
    · rfl

/-- What a turn of an operation comes to. -/
theorem turn_cases (cfg : Config interface Store Error Answer (Option ι)) (j : Option ι) :
    (∃ c k, cfg.threads j = .call c k ∧ cfg.next? j = some c ∧
      turn cfg j = cfg.exchange serve j .ok c k) ∨ (cfg.next? j = none ∧ turn cfg j = cfg) := by
  obtain ⟨j', o, c, k, ha, -, hp, hn, he⟩ | ⟨j', o, ha, hn, he⟩ | ⟨j', ha, -⟩ | ⟨e, -⟩ :=
    Config.step_cases serve Empty.elim cfg (.run j .ok)
  · cases ha
    exact .inl ⟨c, k, hp, hn, he⟩
  · cases ha
    exact .inr ⟨hn, he⟩
  · cases ha
  · exact e.elim

theorem stopped_turn (cfg : Config interface Store Error Answer (Option ι)) (j : Option ι) :
    (turn cfg j).stopped = cfg.stopped := by
  obtain ⟨c, k, -, -, he⟩ | ⟨-, he⟩ := turn_cases cfg j <;> rw [he]
  rfl

/-- The operations go on as their programs say. -/
theorem Inv.of (h : scene.Inv w) {j : Option ι} {w' : Watched ι} (hcfg : w'.cfg = turn w.cfg j)
    (htaxonomy : w'.cfg.store.2 = scene.taxonomy)
    (hstands : scene.Stands w' (scene.stage w'.cfg)) : scene.Inv w' where
  running := by
    rw [hcfg, stopped_turn]
    exact h.running
  follows := by
    rw [hcfg]
    exact h.follows.step serve Empty.elim _
  users := by
    intro i
    rw [hcfg]
    exact Config.uses_step (h.users i) serve Empty.elim _
  taxonomy := htaxonomy
  stands := hstands

/-- What a user's next command does. -/
theorem Inv.step_user (h : scene.Inv w) (i : ι) : scene.Inv (scene.step w (some i)) := by
  obtain ⟨c, k, hp, hn, he⟩ | ⟨hn, he⟩ := turn_cases w.cfg (some i)
  · have hstage : scene.stage (turn w.cfg (some i)) = scene.stage w.cfg := by
      simp [he, stage, Config.exchange]
    have hstore : (turn w.cfg (some i)).store = (serve c w.cfg.store).1 := by rw [he]; rfl
    have huses := h.users i
    rw [hp] at huses
    have hframe (hsame : (serve c w.cfg.store).1 = w.cfg.store)
        (hstep : scene.step w (some i) = { w with cfg := turn w.cfg (some i) }) :
        scene.Inv (scene.step w (some i)) := by
      have hkept : (turn w.cfg (some i)).store = w.cfg.store := hstore.trans hsame
      rw [hstep]
      apply h.of rfl
      · exact (congrArg Prod.snd hkept).trans h.taxonomy
      · rw [show scene.stage _ = _ from hstage]
        exact h.stands.frame (congrArg Prod.fst hkept)
    have hcmd : scene.UserCmd i c := huses.1
    rcases c with (_ | doc | _ | _ | _) | c
    · exact hframe rfl (by simp [step, hn])
    · cases hidea : w.idea with
      | none =>
        apply hframe
        · exact Prod.ext (serveIdea_update_none hidea doc) rfl
        · simp [step, hn, hidea]
      | some idea =>
        have hcfg := scene.cfg_step w (some i)
        apply h.of hcfg
        · rw [hcfg, hstore]
          exact h.taxonomy
        · have hstep : scene.step w (some i)
              = ({ w with cfg := turn w.cfg (some i) } : Watched ι).edit
                ⟨scene.request i, idea⟩ := by simp [step, hn, hidea]
          rw [hcfg, hstage, hstep]
          apply h.stands.edit hidea hcmd
          rw [hstore]
          exact serveIdea_update_some hidea doc
    · exact hframe rfl (by simp [step, hn])
    · exact hcmd.elim
    · exact hcmd.elim
    · exact hcmd.elim
  · have hstep : scene.step w (some i) = w := by simp [step, hn, he]
    rw [hstep]
    exact h

/-- What the next command of the classification does to the stores and to its stage. -/
theorem Inv.turn_classification (h : scene.Inv w) :
    (∃ c, (scene.stage w.cfg).command? scene.env = some c ∧
      (turn w.cfg none).store = (serve c w.cfg.store).1 ∧
      scene.stage (turn w.cfg none)
        = (scene.stage w.cfg).next scene.env ⟨c, .ok (serve c w.cfg.store).2, true⟩) ∨
    ((scene.stage w.cfg).command? scene.env = none ∧ turn w.cfg none = w.cfg) := by
  have hhead : (w.cfg.threads none).head? = (scene.stage w.cfg).command? scene.env := by
    rw [← Stage.head?_program]
    exact congrArg Program.head? h.follows
  obtain ⟨c, k, hp, -, he⟩ | ⟨hn, he⟩ := turn_cases w.cfg none
  · refine .inl ⟨c, ?_, ?_, ?_⟩
    · rw [← hhead, hp]
      rfl
    · rw [he]
      rfl
    · simp [he, stage, Config.exchange, classification]
  · refine .inr ⟨?_, he⟩
    rw [← hhead]
    simpa [Config.next?, h.running] using hn

omit [DecidableEq ι] in
/-- A classification leaves the taxonomy alone. -/
theorem taxonomy_kept {c : interface.Cmd} (hc : p.command? scene.env = some c) (store : Store) :
    (serve c store).1.2 = store.2 := by
  cases p <;> cases hc <;> rfl

/-- A turn of the classification of which the record takes no notice. -/
theorem step_of_quiet (hopening : p ≠ .opening ∨ w.idea = none)
    (hassigning : ∀ idea result, p ≠ .assigning idea result) (hp : scene.stage w.cfg = p) :
    scene.step w none = { w with cfg := turn w.cfg none } := by
  subst hp
  simp only [step]
  split
  · rename_i hs hidea
    rw [hs, hidea] at hopening
    simp at hopening
  · rename_i hs hidea
    exact absurd hs (hassigning _ _)
  · rfl

/-- What a turn of the classification does while it waits. -/
theorem Stands.step_waits {read idea : Idea} (hwaits : scene.Waits read p)
    (hidea : w.idea = some idea) (hread : w.read = some read) (hassigned : w.assigned = none)
    (hlater : w.later = []) (hresult : w.result = scene.resultAt read p) (hshows : Shows w read)
    (hlabels : idea.labels = labelsAfter read.labels w.waiting)
    (hclass : idea.classification = classificationAfter read.classification w.waiting)
    (hp : scene.stage w.cfg = p) (htaxonomy : w.cfg.store.2 = scene.taxonomy) {c : interface.Cmd}
    (hc : p.command? scene.env = some c)
    (hstore : (turn w.cfg none).store = (serve c w.cfg.store).1) :
    scene.Stands (scene.step w none) (p.next scene.env ⟨c, .ok (serve c w.cfg.store).2, true⟩) := by
  have hmoved {p' : Stage} (hp' : scene.Waits read p')
      (hsame : scene.resultAt read p' = scene.resultAt read p) : scene.Stands w p' :=
    .waits read idea hp' hidea hread hassigned hlater (hresult.trans hsame.symm) hshows hlabels
      hclass
  cases p with
  | checking i =>
    cases hc
    rw [step_of_quiet (.inl (by simp)) (by simp) hp]
    apply Stands.frame _ (congrArg Prod.fst hstore)
    have hreply : (serve (.inl .getResult) w.cfg.store).2 = scene.before.result := hresult
    rw [hreply]
    cases hbefore : scene.before.result with
    | none => exact hmoved hwaits rfl
    | some existing => exact hmoved trivial rfl
  | labelling i =>
    cases hc
    rw [step_of_quiet (.inl (by simp)) (by simp) hp]
    apply Stands.frame _ (congrArg Prod.fst hstore)
    refine hmoved ⟨hwaits, ?_⟩ rfl
    exact congrArg (Stage.readTaxonomy scene.env) htaxonomy
  | prompting i taxonomy =>
    obtain ⟨rfl, rfl⟩ := hwaits
    cases hc
    rw [step_of_quiet (.inl (by simp)) (by simp) hp]
    apply Stands.frame _ (congrArg Prod.fst hstore)
    refine hmoved ⟨rfl, ?_⟩ rfl
    have hprompted : Stage.readTaxonomy scene.env w.cfg.store.2 = scene.labelling :=
      congrArg (Stage.readTaxonomy scene.env) htaxonomy
    exact congrArg (classified scene.env i.content scene.labelling) hprompted
  | storing i result =>
    obtain ⟨rfl, rfl⟩ := hwaits
    cases hc
    rw [step_of_quiet (.inl (by simp)) (by simp) hp]
    refine .waits i idea ⟨rfl, rfl⟩ ?_ hread hassigned hlater ?_ hshows hlabels hclass
    · exact (congrArg (fun store : Store => store.1.idea) hstore).trans hidea
    · exact congrArg (fun store : Store => store.1.result) hstore
  | rereading i result =>
    cases hc
    rw [step_of_quiet (.inl (by simp)) (by simp) hp]
    apply Stands.frame _ (congrArg Prod.fst hstore)
    have hreply : (serve (.inl .getIdea) w.cfg.store).2 = some idea := hidea
    rw [hreply]
    exact hmoved hwaits rfl
  | assigning i result =>
    obtain ⟨rfl, rfl⟩ := hwaits
    cases hc
    have hreply : (serve (.inl (.update (assignment scene.env i (scene.resultFor i)))) w.cfg.store).2
        = true := congrArg Option.isSome hidea
    have hwritten : (turn w.cfg none).store.1
        = { w.cfg.store.1 with
            idea := some ((assignment scene.env i (scene.resultFor i)).apply idea) } :=
      (congrArg Prod.fst hstore).trans (serveIdea_update_some hidea _)
    have hnew : (turn w.cfg none).store.1.idea
        = some ((assignment scene.env i (scene.resultFor i)).apply idea) :=
      congrArg IdeaStore.idea hwritten
    have hstep : scene.step w none = { w with
        cfg := turn w.cfg none
        assigned := some ⟨scene.resultFor i, idea,
          (assignment scene.env i (scene.resultFor i)).apply idea⟩ } := by
      simp [Scene.step, hp, hidea]
      exact congrArg (fun stored : Option Idea => stored.getD idea) hnew
    rw [hstep, hreply]
    refine .written i _ idea rfl hnew hread rfl ?_ hshows hclass ?_ ?_
    · exact (congrArg IdeaStore.result hwritten).trans hresult
    · simp [hlater, assignment]
    · simp [hlater, assignment]
  | found result => cases hc
  | _ => exact hwaits.elim

/-- What a turn of the classification does. -/
theorem Stands.step (h : scene.Stands w p) (hp : scene.stage w.cfg = p)
    (htaxonomy : w.cfg.store.2 = scene.taxonomy) {c : interface.Cmd}
    (hc : p.command? scene.env = some c)
    (hstore : (turn w.cfg none).store = (serve c w.cfg.store).1) :
    scene.Stands (scene.step w none) (p.next scene.env ⟨c, .ok (serve c w.cfg.store).2, true⟩) := by
  cases h with
  | absent hopening hidea hassigned hresult =>
    rcases hopening with rfl | ⟨e, rfl⟩
    · cases hc
      have hreply : (serve (.inl .getIdea) w.cfg.store).2 = (none : Option Idea) := hidea
      rw [step_of_quiet (.inr hidea) (by simp) hp, hreply]
      apply Stands.frame _ (congrArg Prod.fst hstore)
      exact .absent (.inr ⟨_, rfl⟩) hidea hassigned hresult
    · cases hc
  | unread idea hopening hidea hread hassigned hwaiting hlater hresult hshows =>
    subst hopening
    cases hc
    have hreply : (serve (.inl .getIdea) w.cfg.store).2 = some idea := hidea
    have hstep : scene.step w none = { w with cfg := turn w.cfg none, read := some idea } := by
      simp [Scene.step, hp, hidea]
    rw [hstep, hreply]
    have hnext : ∃ p', (p' = .labelling idea ∨ p' = .checking idea) ∧ Stage.next scene.env .opening
        ⟨.inl .getIdea, .ok (some idea), true⟩ = p' := by
      by_cases hclass : idea.classification = .undetermined
      · exact ⟨.labelling idea, .inl rfl, by simp [Stage.next, hclass]⟩
      · exact ⟨.checking idea, .inr rfl, by simp [Stage.next, hclass]⟩
    obtain ⟨p', hp', hnext⟩ := hnext
    rw [hnext]
    have hread : scene.Stands { w with read := some idea } p' := by
      refine .waits idea idea ?_ hidea rfl hassigned hlater (hresult.trans ?_) hshows ?_ ?_
      · rcases hp' with rfl | rfl <;> rfl
      · rcases hp' with rfl | rfl <;> rfl
      · simp [hwaiting]
      · simp [hwaiting]
    exact hread.frame (congrArg Prod.fst hstore)
  | waits read idea hwaits hidea hread hassigned hlater hresult hshows hlabels hclass =>
    exact Stands.step_waits hwaits hidea hread hassigned hlater hresult hshows hlabels hclass hp
      htaxonomy hc hstore
  | written read idea before hwritten hidea hread hassigned hresult hshows hbefore hlabels hclass =>
    have hmoved {p' : Stage} (hp' : scene.HasWritten read p') : scene.Stands w p' :=
      .written read idea before hp' hidea hread hassigned hresult hshows hbefore hlabels hclass
    cases p with
    | refreshing result =>
      cases hc
      rw [step_of_quiet (.inl (by simp)) (by simp) hp]
      apply Stands.frame _ (congrArg Prod.fst hstore)
      exact hmoved hwritten
    | closing result =>
      cases hc
      rw [step_of_quiet (.inl (by simp)) (by simp) hp]
      apply Stands.frame _ (congrArg Prod.fst hstore)
      exact hmoved hwritten
    | assigned result => cases hc
    | _ => exact hwritten.elim

/-- What the next command of the classification does. -/
theorem Inv.step_classification (h : scene.Inv w) : scene.Inv (scene.step w none) := by
  have hcfg := scene.cfg_step w none
  obtain ⟨c, hc, hstore, hnext⟩ | ⟨hc, he⟩ := h.turn_classification
  · apply h.of hcfg
    · rw [hcfg, hstore, taxonomy_kept hc]
      exact h.taxonomy
    · rw [hcfg, hnext]
      exact h.stands.step rfl h.taxonomy hc hstore
  · have hstep : scene.step w none = { w with cfg := turn w.cfg none } := by
      cases hp : scene.stage w.cfg <;> simp_all [step, Stage.command?]
    rw [hstep, he]
    exact h

theorem inv_run (turns : List (Option ι)) : scene.Inv (run scene.step scene.begin turns) := by
  refine run_invariant' ?_ inv_begin turns
  intro w j h
  cases j with
  | none => exact h.step_classification
  | some i => exact h.step_user i

/-! ## When the promise is kept -/

omit [DecidableEq ι]

/-- As long as the classification has not updated the idea, it has the labels that were set
last. -/
theorem respects_of_unassigned (hassigned : w.assigned = none)
    (hresult : (w.cfg.threads none).finished = true → w.result = scene.before.result)
    (hlabels : ∀ idea e, w.idea = some idea → lastLabels w.edits = some e → idea.labels = e.1) :
    scene.Respects w where
  contains := by
    intro idea labels found hidea hlast label hlabel
    rwa [hlabels idea _ hidea hlast]
  removes := by
    intro idea labels found hidea hlast label _ hnot hlabel
    rw [hlabels idea _ hidea hlast] at hlabel
    exact absurd hlabel hnot
  keeps := by
    intro a ha
    rw [hassigned] at ha
    cases ha
  stores := by
    intro hfinished
    rw [hassigned]
    exact hresult hfinished
  agrees := by
    intro a idea ha
    rw [hassigned] at ha
    cases ha

theorem spared_of_unassigned (hassigned : w.assigned = none) : scene.Spared w := by
  intro read _ hwritten
  exact absurd hassigned hwritten

section

/-! A state in which the classification has updated the idea. -/

variable {read idea before : Idea} (hidea : w.idea = some idea) (hread : w.read = some read)
  (hassigned : w.assigned = some ⟨scene.resultFor read, before,
    (assignment scene.env read (scene.resultFor read)).apply before⟩)
  (hresult : w.result = some (scene.resultFor read)) (hshows : Shows w read)
  (hbefore : before.classification = classificationAfter read.classification w.waiting)
  (hlabels : idea.labels
    = labelsAfter (mergedLabels scene.env read.labels (scene.resultFor read).labels) w.later)
  (hclass : idea.classification
    = classificationAfter (.of (scene.resultFor read).classification) w.later)

theorem lastLabels_edits : lastLabels w.edits
    = ((lastLabels w.later).or (lastLabels w.waiting)).or (lastLabels w.earlier) := by
  rw [Watched.edits, lastLabels_append, lastLabels_append]

include hlabels in
theorem mem_labels_of_written (hlater : lastLabels w.later = none) (label : String) :
    label ∈ idea.labels ↔ label ∈ read.labels ∨ label ∈ (scene.resultFor read).labels := by
  rw [hlabels, labelsAfter, hlater]
  exact mem_mergedLabels scene.env

include hidea hread hassigned hbefore hlabels in
theorem Respects.spared (h : scene.Respects w) : scene.Spared w := by
  intro read' hread' _
  obtain rfl : read' = read := Option.some.inj (hread'.symm.trans hread)
  constructor
  · intro c hc
    have hset : ∃ e ∈ w.waiting, e.request.classification ≠ none := by
      by_contra hnone
      have hlast : lastClassification w.waiting = none :=
        lastClassification_eq_none.mpr (by simpa using hnone)
      rw [hlast] at hc
      cases hc
    have hkept := h.keeps _ hassigned hset
    simp only [UpdateData.classification_apply, assignment, Option.getD_some] at hkept
    rw [hkept, hbefore, classificationAfter, hc]
    rfl
  · intro hlater labels found hwaiting
    have hmerged := mem_labels_of_written hlabels hlater
    have hlast : lastLabels w.edits = some (labels, found) := by
      simp [lastLabels_edits, hlater, hwaiting]
    constructor
    · intro label hlabel
      exact (hmerged label).mp (h.contains idea labels found hidea hlast label hlabel)
    · intro label hfound hnot hkept
      obtain ⟨a, ha, hlabel⟩ := h.removes idea labels found hidea hlast label hfound hnot
        ((hmerged label).mpr (.inl hkept))
      rw [hassigned] at ha
      cases ha
      exact hlabel

include hread hassigned hshows hlabels in
/-- What was set last is there, and what was removed with it is not, unless it is assigned. -/
theorem Spared.last (h : scene.Spared w) {labels : List String} {found : Idea}
    (hedit : lastLabels w.edits = some (labels, found)) :
    (∀ label ∈ labels, label ∈ idea.labels) ∧
      ∀ label ∈ found.labels, label ∉ labels → label ∈ idea.labels →
        label ∈ (scene.resultFor read).labels := by
  obtain ⟨-, hspared⟩ := h read hread (by simp [hassigned])
  rw [lastLabels_edits] at hedit
  cases hlater : lastLabels w.later with
  | some e =>
    have he : e = (labels, found) := by simpa [hlater] using hedit
    have hset : idea.labels = labels := by simp [hlabels, labelsAfter, hlater, he]
    rw [hset]
    exact ⟨fun label hlabel => hlabel, fun label _ hnot hlabel => absurd hlabel hnot⟩
  | none =>
    simp only [mem_labels_of_written hlabels hlater]
    cases hwaiting : lastLabels w.waiting with
    | some e =>
      have he : e = (labels, found) := by simpa [hlater, hwaiting] using hedit
      obtain ⟨hset, hremoved⟩ := hspared hlater labels found (hwaiting.trans (congrArg some he))
      refine ⟨hset, ?_⟩
      intro label hfound hnot hlabel
      exact hlabel.elim (hremoved label hfound hnot) id
    | none =>
      have hearlier : lastLabels w.earlier = some (labels, found) := by
        simpa [hlater, hwaiting] using hedit
      have hshown : read.labels = labels := hshows _ hearlier
      rw [hshown]
      exact ⟨fun label hlabel => .inl hlabel,
        fun label _ hnot hlabel => hlabel.resolve_left hnot⟩

include hidea hread hassigned hresult hshows hbefore hlabels hclass in
theorem Spared.respects (h : scene.Spared w) : scene.Respects w where
  contains := by
    intro idea' labels found hidea' hedit
    obtain rfl : idea' = idea := Option.some.inj (hidea'.symm.trans hidea)
    exact (h.last hread hassigned hshows hlabels hedit).1
  removes := by
    intro idea' labels found hidea' hedit label hfound hnot hlabel
    obtain rfl : idea' = idea := Option.some.inj (hidea'.symm.trans hidea)
    exact ⟨_, hassigned,
      (h.last hread hassigned hshows hlabels hedit).2 label hfound hnot hlabel⟩
  keeps := by
    intro a ha hset
    obtain rfl := Option.some.inj (hassigned.symm.trans ha)
    cases hc : lastClassification w.waiting with
    | none =>
      obtain ⟨e, he, hne⟩ := hset
      exact absurd (lastClassification_eq_none.mp hc e he) hne
    | some c =>
      have hfit := (h read hread (by simp [hassigned])).1 c hc
      simp [assignment, hbefore, classificationAfter, hc, hfit]
  stores := by
    intro _
    rw [hassigned, hresult]
    rfl
  agrees := by
    intro a idea' ha hidea'
    obtain rfl := Option.some.inj (hassigned.symm.trans ha)
    obtain rfl : idea' = idea := Option.some.inj (hidea'.symm.trans hidea)
    constructor
    · intro hnone
      have hlater : lastClassification w.later = none := by
        apply lastClassification_eq_none.mpr
        intro e he
        exact hnone e (List.mem_append_left _ he)
      simp [hclass, classificationAfter, hlater]
    · intro hnone label hlabel
      exact (mem_labels_of_written hlabels (lastLabels_eq_none.mpr hnone) label).mpr (.inr hlabel)

end

/-- **When a classification respects user edits.**  In every state of every run, the promise is kept
exactly if what users have set while the classification waited fits what it makes of the idea that
it read. -/
theorem respects_iff_spared [DecidableEq ι] (scene : Scene ι) (turns : List (Option ι)) :
    scene.Respects (run scene.step scene.begin turns)
      ↔ scene.Spared (run scene.step scene.begin turns) := by
  have hinv := scene.inv_run turns
  generalize run scene.step scene.begin turns = w at hinv ⊢
  cases hstands : hinv.stands with
  | absent hp hidea hassigned hresult =>
    refine iff_of_true (respects_of_unassigned hassigned (fun _ => hresult) ?_)
      (spared_of_unassigned hassigned)
    intro idea e hidea'
    rw [hidea] at hidea'
    cases hidea'
  | unread idea hp hidea hread hassigned hwaiting hlater hresult hshows =>
    refine iff_of_true (respects_of_unassigned hassigned (fun _ => hresult) ?_)
      (spared_of_unassigned hassigned)
    intro idea' e hidea' hlast
    obtain rfl : idea' = idea := Option.some.inj (hidea'.symm.trans hidea)
    rw [Watched.edits, hwaiting, hlater] at hlast
    exact hshows e hlast
  | waits read idea hp hidea hread hassigned hlater hresult hshows hlabels hclass =>
    refine iff_of_true (respects_of_unassigned hassigned ?_ ?_) (spared_of_unassigned hassigned)
    · intro hfinished
      rw [hresult]
      have hhead : (scene.stage w.cfg).command? scene.env = none := by
        rw [← Stage.head?_program]
        rw [hinv.follows] at hfinished
        exact Program.head?_of_finished hfinished
      cases hstage : scene.stage w.cfg <;> simp_all [Stage.command?, resultAt]
    · intro idea' e hidea' hlast
      obtain rfl : idea' = idea := Option.some.inj (hidea'.symm.trans hidea)
      rw [Watched.edits, hlater, List.nil_append, lastLabels_append] at hlast
      rw [hlabels, labelsAfter]
      cases hwaiting : lastLabels w.waiting with
      | some e' =>
        rw [hwaiting] at hlast
        cases hlast
        rfl
      | none =>
        rw [hwaiting] at hlast
        exact hshows e hlast
  | written read idea before hp hidea hread hassigned hresult hshows hbefore hlabels hclass =>
    constructor
    · exact fun h => h.spared hidea hread hassigned hbefore hlabels
    · exact fun h => h.respects hidea hread hassigned hresult hshows hbefore hlabels hclass

/-- A user sets labels and a classification on an idea that is being classified without a language
model. -/
def relabelled : Scene Unit where
  env := {
    ideaId := "idea-1"
    now := 3
    generate := fun _ => .error ⟨.llmClientError, "unavailable", []⟩
    classificationPrompt := fun content taxonomy => content ++ taxonomy
    limits := ⟨4300, 1000⟩
    lower := id
    parseFloat := fun _ => none
    loneSurrogates := []
    order := .asAnswered }
  now := fun _ => 2
  request := fun _ => { classification := some .nonFunctional, labels := some ["accessibility"] }
  before := { idea := some {
    id := "idea-1"
    content := "add a login page"
    authorId := "anonymous"
    authorName := "Anonymous"
    createdAt := 1
    updatedAt := 1
    wordCount := 4 } }
  taxonomy := none

/-- The user updates the idea after the classification has read it. -/
def whileWaiting : List (Option Unit) :=
  [none, none, none, some (), some (), some (), some (), none, none, none, none, none]

/-- **Edits are lost**: the labels and the classification of the user are not there in the end. -/
theorem not_respects_overwritten :
    (run relabelled.step relabelled.begin whileWaiting).cfg.Done ∧
      ¬ relabelled.Respects (run relabelled.step relabelled.begin whileWaiting) ∧
      (run relabelled.step relabelled.begin whileWaiting).idea.map
        (fun idea => (idea.classification, idea.labels)) = some (.functional, ["feature"]) := by
  have hend : (run relabelled.step relabelled.begin whileWaiting).idea.map
      (fun idea => (idea.classification, idea.labels)) = some (.functional, ["feature"]) := by
    decide +kernel
  refine ⟨?_, ?_, hend⟩
  · intro j
    cases j with
    | none => decide +kernel
    | some i =>
      cases i
      decide +kernel
  · intro h
    have hedit : (lastLabels (run relabelled.step relabelled.begin whileWaiting).edits).map Prod.fst
        = some ["accessibility"] := by decide +kernel
    obtain ⟨idea, hidea, hfields⟩ := Option.map_eq_some_iff.mp hend
    obtain ⟨⟨labels, found⟩, hlast, rfl⟩ := Option.map_eq_some_iff.mp hedit
    have hkept := h.contains idea _ found hidea hlast "accessibility" (by simp)
    have hlabels : idea.labels = ["feature"] := congrArg Prod.snd hfields
    rw [hlabels] at hkept
    simp at hkept

end Scene
end DoxAsdlc.Ideas
