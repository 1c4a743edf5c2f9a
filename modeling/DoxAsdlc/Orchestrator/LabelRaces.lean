import DoxAsdlc.Orchestrator.LabelTaxonomy

/-!
# Labels kept by racing operations

Any number of calls of the label taxonomy service, interleaved command by command.  A call
that writes replaces whatever has been written since it read: it is harmless exactly when it
read, or was given, every added label that it does not name.  The ids stay distinct exactly
when a label never takes the id of another one and a given taxonomy has no id twice.

## Main definitions

* `Watched` — the calls, and the labels that have to be there.
* `Kept` — distinct ids, and no added label lost.
* `Call.Harmless` — what a call may have read when it writes.

## Main results

* `kept_iff_harmless` — when labels are kept throughout a run.
-/

namespace DoxAsdlc.Labels

open Interaction Interaction.Program

/-- The labels of the stored taxonomy. -/
def Store.labels (w : Store) : List LabelDefinition :=
  match w with
  | none => defaultLabels
  | some taxonomy => taxonomy.labels

/-- Does a call delete or replace the label with this id, by naming it? -/
def Call.names : Call → String → Bool
  | .updateLabel labelId _, id | .deleteLabel labelId, id => id = labelId
  | .updateTaxonomy taxonomy, id => id ∈ ids taxonomy.labels
  | _, _ => false

/-- The label that a call has added once its write is answered. -/
def Call.adds (o : Outcome Error) : Call → List LabelDefinition
  | .addLabel label => if o = .ok then [label] else []
  | _ => []

/-- The added labels after the write of a call. -/
def Call.addedAfter (call : Call) (o : Outcome Error) (added : List LabelDefinition) :
    List LabelDefinition :=
  added.filter (fun label => !call.names label.id) ++ call.adds o

/-- The calls at work, and the labels that a call has added and no call that names them has
deleted or replaced since. -/
structure Watched (ι : Type) where
  cfg : Config interface Store Error LabelTaxonomy ι
  added : List LabelDefinition

variable {ι : Type} (clock : ι → Time) (calls : ι → Call)

/-- Every call at its beginning, and nothing stored. -/
def Watched.begin : Watched ι where
  cfg := Config.start none fun j => (calls j).program (clock j)
  added := []

/-- The labels that a call has read. -/
def readBy : List (Exchange interface Error) → List LabelDefinition
  | [⟨.get, .ok data, _⟩] => Store.labels data
  | _ => []

/-- The write that a step of the calls performs, if any. -/
def Watched.writes? (s : Watched ι) : Action ι Error Empty → Option (ι × Outcome Error)
  | .run j o =>
    match s.cfg.next? j with
    | some (.set _) => if o.effective then some (j, o) else none
    | _ => none
  | _ => none

/-- One step. -/
def Watched.step [DecidableEq ι] (s : Watched ι) (a : Action ι Error Empty) : Watched ι where
  cfg := s.cfg.step serve (fun e _ => e.elim) a
  added :=
    match s.writes? a with
    | none => s.added
    | some (j, o) => (calls j).addedAfter o s.added

/-- Distinct ids, and no added label lost. -/
structure Watched.Kept (s : Watched ι) : Prop where
  distinct : (ids s.cfg.store.labels).Nodup
  present : ∀ label ∈ s.added, label ∈ s.cfg.store.labels

/-- What a call read, or was given, lets it write without harm to the labels added so far. -/
def Call.Harmless (read added : List LabelDefinition) : Call → Prop
  | .getTaxonomy => True
  | .updateTaxonomy taxonomy =>
    (ids taxonomy.labels).Nodup ∧ ∀ kept ∈ added, kept.id ∈ ids taxonomy.labels
  | .addLabel label => ∀ kept ∈ added, kept ∈ read ∨ kept = label
  | .updateLabel labelId label =>
    (label.id = labelId ∨ label.id ∉ ids read) ∧
      ∀ kept ∈ added, kept.id ≠ labelId → kept ∈ read ∨ kept = label
  | .deleteLabel labelId => ∀ kept ∈ added, kept.id ≠ labelId → kept ∈ read

/-- The write of a step does no harm. -/
def Watched.Harmless (s : Watched ι) (a : Action ι Error Empty) : Prop :=
  ∀ j o, s.writes? a = some (j, o) → (calls j).Harmless (readBy (s.cfg.history j)) s.added

/-! ## What a call writes -/

/-- What a call makes of the labels that it has read. -/
def Call.Writes (read labels : List LabelDefinition) : Call → Prop
  | .getTaxonomy => False
  | .updateTaxonomy taxonomy => labels = taxonomy.labels
  | .addLabel label => label.id ∉ ids read ∧ labels = read ++ [label]
  | .updateLabel labelId label =>
    ∃ i, read.findIdx? (·.id = labelId) = some i ∧ labels = read.set i label
  | .deleteLabel labelId => labels = read.filter (·.id ≠ labelId)

variable {read labels added : List LabelDefinition} {label : LabelDefinition} {labelId : String}

/-- Where ids are distinct, a replaced label leaves them so exactly when it keeps its id or
takes a new one. -/
theorem nodup_ids_set {i : ℕ} (hread : (ids read).Nodup) (hi : i < read.length)
    (hid : read[i].id = labelId) :
    (ids (read.set i label)).Nodup ↔ label.id = labelId ∨ label.id ∉ ids read := by
  have hlength : i < (ids read).length := by simpa using hi
  have hget : (ids read)[i] = labelId := by simpa using hid
  rw [ids, List.map_set]
  constructor
  · intro hnodup
    by_contra hboth
    simp only [not_or, not_not] at hboth
    obtain ⟨j, hj, hjid⟩ := List.getElem_of_mem hboth.2
    have hne : i ≠ j := by
      intro heq
      subst heq
      exact hboth.1 (hjid.symm.trans hget)
    have hlength' : i < ((ids read).set i label.id).length := by simpa using hi
    have hj' : j < ((ids read).set i label.id).length := by simpa using hj
    have hsame : ((ids read).set i label.id)[i] = ((ids read).set i label.id)[j] := by
      simp [hne, hjid]
    exact hne (hnodup.getElem_inj_iff.mp hsame)
  · intro hnew
    cases hnew with
    | inl hsame =>
      have : (ids read).set i label.id = ids read := by
        rw [hsame, ← hget, List.set_getElem_self]
      rwa [this]
    | inr hnew => exact hread.set hnew

/-- Another label is there after a replacement exactly when it was there before. -/
theorem mem_set_iff {i : ℕ} {kept : LabelDefinition} (hi : i < read.length)
    (hid : read[i].id = labelId) (hkept : kept.id ≠ labelId) :
    kept ∈ read.set i label ↔ kept ∈ read ∨ kept = label := by
  constructor
  · exact List.mem_or_eq_of_mem_set
  · intro h
    cases h with
    | inr heq => exact heq ▸ List.mem_set hi label
    | inl hmem =>
      obtain ⟨j, hj, hget⟩ := List.getElem_of_mem hmem
      have hne : i ≠ j := by
        intro heq
        subst heq
        exact hkept (hget ▸ hid)
      rw [List.mem_iff_getElem]
      exact ⟨j, by simpa using hj, by simp [hne, hget]⟩

/-- **What a write does.**  The ids are distinct and the added labels are there after a write,
exactly when the call is harmless. -/
theorem Call.Writes.kept_iff {call : Call} (hwrites : call.Writes read labels)
    (hread : (ids read).Nodup) (o : Outcome Error) :
    ((ids labels).Nodup ∧ ∀ kept ∈ call.addedAfter o added, kept ∈ labels) ↔
      call.Harmless read added := by
  cases call with
  | getTaxonomy => exact hwrites.elim
  | updateTaxonomy taxonomy =>
    have heq : labels = taxonomy.labels := hwrites
    subst heq
    apply and_congr_right
    intro _
    simp only [Call.addedAfter, Call.names, Call.adds, List.append_nil, List.mem_filter]
    constructor
    · intro h kept hkept
      by_contra hmissing
      exact hmissing (List.mem_map_of_mem (h kept ⟨hkept, by simpa using hmissing⟩))
    · rintro h kept ⟨hkept, hmissing⟩
      exact absurd (h kept hkept) (by simpa using hmissing)
  | addLabel label =>
    obtain ⟨hnew, heq⟩ := hwrites
    subst heq
    have hdistinct : (ids (read ++ [label])).Nodup := by
      rw [ids, List.map_append, List.nodup_append]
      refine ⟨hread, by simp, ?_⟩
      intro a ha b hb
      rw [List.map_singleton, List.mem_singleton] at hb
      exact fun heq => hnew (hb ▸ heq ▸ ha)
    have hadds : ∀ kept ∈ (Call.addLabel label).adds o, kept ∈ read ++ [label] := by
      intro kept hkept
      rw [Call.adds] at hkept
      split at hkept
      · simp [List.mem_singleton.mp hkept]
      · cases hkept
    simp only [hdistinct, true_and, Call.addedAfter, Call.names, Call.Harmless, List.mem_append,
      Bool.not_false, List.filter_true]
    constructor
    · intro h kept hkept
      simpa using h kept (Or.inl hkept)
    · intro h kept hkept
      cases hkept with
      | inl hold => simpa using h kept hold
      | inr hnew => simpa using hadds kept hnew
  | updateLabel labelId label =>
    obtain ⟨i, hfind, heq⟩ := hwrites
    subst heq
    obtain ⟨hi, hid, _⟩ := List.findIdx?_eq_some_iff_getElem.mp hfind
    have hid : read[i].id = labelId := by simpa using hid
    rw [nodup_ids_set hread hi hid]
    apply and_congr_right
    intro _
    simp only [Call.addedAfter, Call.names, Call.adds, List.append_nil, List.mem_filter]
    constructor
    · intro h kept hkept hne
      exact (mem_set_iff hi hid hne).mp (h kept ⟨hkept, by simpa using hne⟩)
    · rintro h kept ⟨hkept, hne⟩
      have hne : kept.id ≠ labelId := by simpa using hne
      exact (mem_set_iff hi hid hne).mpr (h kept hkept hne)
  | deleteLabel labelId =>
    have heq : labels = read.filter (·.id ≠ labelId) := hwrites
    subst heq
    have hdistinct : (ids (read.filter (·.id ≠ labelId))).Nodup :=
      hread.sublist (List.filter_sublist.map _)
    simp only [hdistinct, true_and, Call.addedAfter, Call.names, Call.adds, Call.Harmless,
      List.append_nil, List.mem_filter]
    constructor
    · intro h kept hkept hne
      exact (h kept ⟨hkept, by simpa using hne⟩).1
    · rintro h kept ⟨hkept, hne⟩
      exact ⟨h kept hkept (by simpa using hne), by simpa using hne⟩

/-! ## Where the calls stand -/

/-- A call is at its beginning, before its write, or at its end. -/
inductive Standing (now : Time) (call : Call) :
    Async LabelTaxonomy → List (Exchange interface Error) → Prop
  | reads : (∀ taxonomy, call ≠ .updateTaxonomy taxonomy) →
      Standing now call (call.program now) []
  | writes {history : List (Exchange interface Error)} {taxonomy : LabelTaxonomy} :
      (ids (readBy history)).Nodup → call.Writes (readBy history) taxonomy.labels →
      Standing now call (updateTaxonomy now taxonomy) history
  | ended {p : Async LabelTaxonomy} {history : List (Exchange interface Error)} :
      p.finished = true → Standing now call p history

theorem standing_begin (now : Time) (call : Call) : Standing now call (call.program now) [] := by
  cases call with
  | updateTaxonomy taxonomy => exact .writes List.nodup_nil rfl
  | _ => exact .reads nofun

/-- A call that reads is over once it has read, or goes on to write what it makes of the
labels that it read. -/
theorem program_reads (now : Time) (call : Call)
    (hreads : ∀ taxonomy, call ≠ .updateTaxonomy taxonomy) :
    ∃ f, call.program now = getTaxonomy now >>= f ∧ ∀ taxonomy,
      (f taxonomy).finished = true ∨
        ∃ edited, f taxonomy = updateTaxonomy now edited ∧
          call.Writes taxonomy.labels edited.labels := by
  cases call with
  | updateTaxonomy taxonomy => exact absurd rfl (hreads taxonomy)
  | getTaxonomy => exact ⟨.ret, (elim_ret_raise _).symm, fun taxonomy => .inl rfl⟩
  | addLabel label =>
    refine ⟨_, rfl, ?_⟩
    intro taxonomy
    split
    · exact .inl rfl
    · next hnew => exact .inr ⟨_, rfl, by simpa using hnew, rfl⟩
  | updateLabel labelId label =>
    refine ⟨_, rfl, ?_⟩
    intro taxonomy
    split
    · exact .inl rfl
    · next i hfind => exact .inr ⟨_, rfl, i, hfind, rfl⟩
  | deleteLabel labelId =>
    refine ⟨_, rfl, ?_⟩
    intro taxonomy
    dsimp only
    split
    · exact .inl rfl
    · exact .inr ⟨_, rfl, rfl⟩

/-- Where a call stands that has read. -/
theorem standing_read {now : Time} {call : Call} {f : LabelTaxonomy → Async LabelTaxonomy}
    (hrest : ∀ taxonomy, (f taxonomy).finished = true ∨
      ∃ edited, f taxonomy = updateTaxonomy now edited ∧
        call.Writes taxonomy.labels edited.labels) :
    ∃ k, getTaxonomy now >>= f = .call .get k ∧ ∀ (o : Outcome Error) (w : Store),
      (ids w.labels).Nodup →
        Standing now call (k (serve.perform o .get w).2) [serve.exchange o .get w] := by
  refine ⟨_, rfl, ?_⟩
  intro o w hw
  cases o with
  | refused e => exact .ended rfl
  | lost e => exact .ended rfl
  | ok =>
    have hgo : ∀ taxonomy : LabelTaxonomy, taxonomy.labels = w.labels →
        Standing now call (f taxonomy) [serve.exchange .ok .get w] := by
      intro taxonomy hlabels
      cases hrest taxonomy with
      | inl hfinished => exact .ended hfinished
      | inr hedits =>
        obtain ⟨edited, heq, hwrites⟩ := hedits
        have hwrites' : call.Writes w.labels edited.labels := hlabels ▸ hwrites
        rw [heq]
        exact .writes hw hwrites'
    cases w with
    | none => exact hgo (createDefaultTaxonomy now) rfl
    | some taxonomy => exact hgo taxonomy rfl

/-! ## Runs -/

variable {clock calls} {s : Watched ι}

/-- Every call stands where it can. -/
def Watched.Standing (clock : ι → Time) (calls : ι → Call) (s : Watched ι) : Prop :=
  ∀ j, Labels.Standing (clock j) (calls j) (s.cfg.threads j) (s.cfg.history j)

/-- A step of a call that stands where it can: it reads, or it writes what it has made of what
it read. -/
theorem Watched.Standing.exchange (hs : s.Standing clock calls)
    (hdistinct : (ids s.cfg.store.labels).Nodup) {j : ι} {c : Cmd}
    {k : Except Error (Reply c) → Async LabelTaxonomy} (hp : s.cfg.threads j = .call c k)
    (o : Outcome Error) :
    Labels.Standing (clock j) (calls j) (k (serve.perform o c s.cfg.store).2)
        (s.cfg.history j ++ [serve.exchange o c s.cfg.store]) ∧
      (c = .get ∨ ∃ taxonomy, c = .set taxonomy ∧
        (ids (readBy (s.cfg.history j))).Nodup ∧
        (calls j).Writes (readBy (s.cfg.history j)) taxonomy.labels) := by
  have hj := hs j
  generalize s.cfg.threads j = thread at hj hp
  generalize s.cfg.history j = history at hj ⊢
  cases hj with
  | reads hreads =>
    obtain ⟨f, hprogram, hrest⟩ := program_reads (clock j) (calls j) hreads
    obtain ⟨k', hget, hstanding⟩ := standing_read hrest
    rw [hprogram, hget] at hp
    cases hp
    exact ⟨hstanding o s.cfg.store hdistinct, .inl rfl⟩
  | @writes history taxonomy hread hwrites =>
    cases hp
    refine ⟨.ended ?_, .inr ⟨_, rfl, hread, hwrites⟩⟩
    cases o <;> rfl
  | ended hfinished =>
    rw [hp] at hfinished
    cases hfinished

variable [DecidableEq ι]

/-- What a step changes: nothing that is watched, or it is a write that has reached the
store. -/
theorem Watched.Standing.step_spec (hs : s.Standing clock calls)
    (hdistinct : (ids s.cfg.store.labels).Nodup) (a : Action ι Error Empty) :
    (s.step calls a).Standing clock calls ∧
      ((s.writes? a = none ∧ (s.step calls a).cfg.store = s.cfg.store) ∨
        ∃ j o taxonomy, s.writes? a = some (j, o) ∧
          (s.step calls a).cfg.store = some taxonomy ∧
          (ids (readBy (s.cfg.history j))).Nodup ∧
          (calls j).Writes (readBy (s.cfg.history j)) taxonomy.labels) := by
  obtain ⟨j, o, c, k, rfl, -, hp, hnext, hstep⟩ | ⟨j, o, rfl, hnext, hstep⟩ | ⟨j, rfl, hstep⟩ |
    ⟨e, rfl, -⟩ := Config.step_cases serve (fun e _ => e.elim) s.cfg a
  · obtain ⟨hafter, hcmd⟩ := hs.exchange hdistinct hp o
    have hcfg : (s.step calls (.run j o)).cfg = s.cfg.exchange serve j o c k := hstep
    constructor
    · intro i
      rw [hcfg]
      by_cases hi : i = j
      · subst hi
        simpa [Config.exchange] using hafter
      · simpa [Config.exchange, hi] using hs i
    · rw [hcfg]
      cases hcmd with
      | inl hget =>
        subst hget
        refine .inl ⟨by simp [writes?, hnext], ?_⟩
        cases o <;> rfl
      | inr hset =>
        obtain ⟨taxonomy, rfl, hread, hwrites⟩ := hset
        cases o with
        | refused e => exact .inl ⟨by simp [writes?, hnext, Outcome.effective], rfl⟩
        | ok =>
          exact .inr ⟨j, .ok, taxonomy, by simp [writes?, hnext, Outcome.effective], rfl, hread,
            hwrites⟩
        | lost e =>
          exact .inr ⟨j, .lost e, taxonomy, by simp [writes?, hnext, Outcome.effective], rfl,
            hread, hwrites⟩
  · have hcfg : (s.step calls (.run j o)).cfg = s.cfg := hstep
    exact ⟨fun i => hcfg ▸ hs i, .inl ⟨by simp [writes?, hnext], congrArg Config.store hcfg⟩⟩
  · have hcfg : (s.step calls (.stop j)).cfg = _ := hstep
    exact ⟨fun i => hcfg ▸ hs i, .inl ⟨rfl, (congrArg Config.store hcfg).trans rfl⟩⟩
  · exact e.elim

/-- A step keeps the labels exactly when its write does no harm. -/
theorem Watched.Standing.kept_step_iff (hs : s.Standing clock calls) (hkept : s.Kept)
    (a : Action ι Error Empty) : (s.step calls a).Kept ↔ s.Harmless calls a := by
  obtain ⟨-, ⟨hnone, hstore⟩ | ⟨j, o, taxonomy, hwrite, hstore, hread, hwrites⟩⟩ :=
    hs.step_spec hkept.distinct a
  · have hadded : (s.step calls a).added = s.added := by simp [Watched.step, hnone]
    constructor
    · intro _ j o hwrite
      rw [hnone] at hwrite
      cases hwrite
    · intro _
      exact ⟨hstore ▸ hkept.distinct, by rw [hadded, hstore]; exact hkept.present⟩
  · have hadded : (s.step calls a).added = (calls j).addedAfter o s.added := by
      simp [Watched.step, hwrite]
    have hiff : _ ↔ (calls j).Harmless _ s.added := hwrites.kept_iff hread o
    constructor
    · intro hafter j' o' hwrite'
      rw [hwrite] at hwrite'
      cases hwrite'
      apply hiff.mp
      have hdistinct := hafter.distinct
      have hpresent := hafter.present
      rw [hstore] at hdistinct
      rw [hstore, hadded] at hpresent
      exact ⟨hdistinct, hpresent⟩
    · intro hharmless
      obtain ⟨hdistinct, hpresent⟩ := hiff.mpr (hharmless j o hwrite)
      exact ⟨by rw [hstore]; exact hdistinct, by rw [hstore, hadded]; exact hpresent⟩

variable (clock calls)

/-- **Labels over runs.**  However any calls are interleaved, and whatever becomes of their
commands: the ids are distinct and no added label is lost in every state reached, exactly when
every write that reaches the store is harmless. -/
theorem kept_iff_harmless (as : List (Action ι Error Empty)) :
    Along (Watched.step calls) Watched.Kept (fun _ _ _ => True) (Watched.begin clock calls) as ↔
      Each (Watched.step calls) (Watched.Harmless calls) (Watched.begin clock calls) as := by
  apply along_iff_each (I := Watched.Standing clock calls)
  · intro s a hs hkept _
    exact (hs.step_spec hkept.distinct a).1
  · intro s a hs hkept
    rw [true_and]
    exact hs.kept_step_iff hkept a
  · exact fun j => standing_begin (clock j) (calls j)
  · exact ⟨nodup_ids_defaultLabels, nofun⟩

/-- One call after the other, or two that read before either writes. -/
def answered (turns : List (Fin 2)) : List (Action (Fin 2) Error Empty) :=
  turns.map fun j => .run j .ok

/-- Two labels that are added. -/
def twoAdds : Fin 2 → Call
  | 0 => .addLabel { id := "ux", name := "UX" }
  | 1 => .addLabel { id := "data", name := "Data" }

/-- A label that takes the id of another one, and a taxonomy with an id twice. -/
def twoClashes : Fin 2 → Call
  | 0 => .updateLabel "bug" { id := "feature", name := "Feature" }
  | 1 => .updateTaxonomy ⟨"t", "T", none, [{ id := "a", name := "A" }, { id := "a", name := "B" }],
      "1", 0, 0⟩

/-- The first of two labels is lost when both calls read before either writes; and a single
call can make two labels with one id. -/
theorem label_lost_or_doubled :
    (¬ (run (Watched.step twoAdds) (Watched.begin (fun _ => 0) twoAdds)
        (answered [0, 1, 0, 1])).Kept) ∧
      (¬ (run (Watched.step twoClashes) (Watched.begin (fun _ => 0) twoClashes)
        (answered [0, 0])).Kept) ∧
      ¬ (run (Watched.step twoClashes) (Watched.begin (fun _ => 0) twoClashes)
        (answered [1])).Kept := by
  refine ⟨?_, fun h => absurd h.distinct (by decide),
    fun h => absurd h.distinct (by decide)⟩
  intro h
  have hlost := h.present { id := "ux", name := "UX" } (by decide)
  revert hlost
  decide

end DoxAsdlc.Labels
