import DoxAsdlc.Interaction.Run

/-!
# The store of the model configurations

The page shows the configurations of the agents with the changes that have not been saved.  The
changes of an agent are an overlay of its configuration, and are put over it when they are read;
an update of settings also puts the settings of the configuration into the overlay, where they stay
when the configurations are loaded again, and an update with settings replaces those of the overlay.

A property of an object has any value of a type `V`.

## Main definitions

* `Obj`, `spread` — objects.
* `LLMConfigState`, `Action`, `step` — the store.
* `getPendingConfigForRole`, `selectPendingConfig`, `selectAllPendingConfigs` — what it shows.
* `Edits`, `Watched` — what has been edited, beside the store.
* `Consistent` — the store shows what has been edited.
* `Harmless` — the actions that keep it so.

## Main results

* `good_step` — what an action keeps.
* `consistent_of_harmless` — the store over runs.
-/

namespace DoxAsdlc.HitlUi.LlmConfig

open Interaction

/-! ## Objects -/

/-- An object: the values of the properties that it has. -/
abbrev Obj (K V : Type) := K → Option V

/-- An object without properties. -/
def Obj.empty {K V : Type} : Obj K V := fun _ => none

/-- `{...a, ...b}`. -/
def spread {K V : Type} (a b : Obj K V) : Obj K V := fun k => (b k).or (a k)

section

variable {K V : Type} {a b c : Obj K V} {k : K}

@[simp] theorem empty_apply : (Obj.empty : Obj K V) k = none := rfl

@[simp] theorem spread_empty : spread a Obj.empty = a := rfl

@[simp] theorem empty_spread : spread Obj.empty a = a := by
  ext k
  simp [spread]

@[simp] theorem spread_apply : spread a b k = (b k).or (a k) := rfl

end

/-! ## The store -/

inductive AgentRole where
  | discovery | design | utest | coding | debugger | reviewer | ideation
  deriving DecidableEq

/-- The properties of a configuration that are no objects. -/
inductive Field where
  | provider | model | apiKeyId | enabled
  deriving DecidableEq

/-- The properties of settings. -/
inductive Setting where
  | temperature | maxTokens | topP | topK
  deriving DecidableEq

structure AgentLLMConfig (V : Type) where
  role : AgentRole
  fields : Obj Field V
  settings : Obj Setting V

/-- `Partial<AgentLLMConfig>`; the settings may be there and undefined. -/
structure Changes (V : Type) where
  role : Option AgentRole := none
  fields : Obj Field V := Obj.empty
  settings : Option (Option (Obj Setting V)) := none

structure LLMConfigState (V : Type) where
  agentConfigs : List (AgentLLMConfig V) := []
  pendingChanges : Obj AgentRole (Changes V) := Obj.empty
  hasUnsavedChanges : Bool := false

variable {V : Type}

namespace Changes

/-- `{...p, ...q}`. -/
def spread (p q : Changes V) : Changes V where
  role := q.role.or p.role
  fields := LlmConfig.spread p.fields q.fields
  settings := q.settings.or p.settings

/-- `p.settings || {}`. -/
def kept (p : Changes V) : Obj Setting V := p.settings.join.getD Obj.empty

/-- A configuration with changes put over it. -/
def putOver (p : Changes V) (config : AgentLLMConfig V) : AgentLLMConfig V where
  role := p.role.getD config.role
  fields := LlmConfig.spread config.fields p.fields
  settings := LlmConfig.spread config.settings p.kept

end Changes

namespace LLMConfigState

variable (s : LLMConfigState V)

/-- `state.agentConfigs.find((c) => c.role === role)`. -/
def config? (role : AgentRole) : Option (AgentLLMConfig V) := s.agentConfigs.find? (·.role = role)

/-- `state.pendingChanges[role] || {}`. -/
def changes (role : AgentRole) : Changes V := (s.pendingChanges role).getD {}

/-- `getPendingConfigForRole`. -/
def getPendingConfigForRole (role : AgentRole) : Option (AgentLLMConfig V) :=
  match s.config? role, s.pendingChanges role with
  | none, _ => none
  | some baseConfig, none => some baseConfig
  | some baseConfig, some pendingChanges => some (pendingChanges.putOver baseConfig)

/-- `selectPendingConfig`. -/
def selectPendingConfig (role : AgentRole) : Option (AgentLLMConfig V) :=
  match s.config? role, s.pendingChanges role with
  | none, _ => none
  | some baseConfig, none => some baseConfig
  | some baseConfig, some pending => some (pending.putOver baseConfig)

/-- `selectAllPendingConfigs`. -/
def selectAllPendingConfigs : List (AgentLLMConfig V) :=
  s.agentConfigs.map fun config =>
    match s.pendingChanges config.role with
    | none => config
    | some pending => pending.putOver config

end LLMConfigState

inductive Action (V : Type) where
  | setAgentConfigs (configs : List (AgentLLMConfig V))
  | updateAgentConfigLocal (role : AgentRole) (updates : Changes V)
  | updateAgentSettings (role : AgentRole) (settings : Obj Setting V)
  | clearPendingChanges
  | revertChanges

/-- Change what is pending for a role. -/
def LLMConfigState.setChanges (s : LLMConfigState V) (role : AgentRole) (p : Changes V) :
    LLMConfigState V :=
  { s with
    pendingChanges := Function.update s.pendingChanges role (some p)
    hasUnsavedChanges := true }

/-- The store after an action. -/
def step (s : LLMConfigState V) : Action V → LLMConfigState V
  | .setAgentConfigs configs => { s with agentConfigs := configs }
  | .updateAgentConfigLocal role updates => s.setChanges role ((s.changes role).spread updates)
  | .updateAgentSettings role settings =>
    let existingChanges := s.changes role
    let baseSettings := ((s.config? role).map AgentLLMConfig.settings).getD Obj.empty
    s.setChanges role { existingChanges with
      settings := some (some (spread (spread baseSettings existingChanges.kept) settings)) }
  | .clearPendingChanges => { s with pendingChanges := Obj.empty, hasUnsavedChanges := false }
  | .revertChanges => { s with pendingChanges := Obj.empty, hasUnsavedChanges := false }

/-! ## What has been edited -/

/-- The last values that were edited for a role. -/
structure Edits (V : Type) where
  role : Option AgentRole := none
  fields : Obj Field V := Obj.empty
  settings : Obj Setting V := Obj.empty

/-- A configuration with the values that were edited; the other ones are its own. -/
def Edits.shown (e : Edits V) (config : AgentLLMConfig V) : AgentLLMConfig V where
  role := e.role.getD config.role
  fields := fun field => (e.fields field).or (config.fields field)
  settings := fun setting => (e.settings setting).or (config.settings setting)

/-- What is edited by an action. -/
def edit (edits : AgentRole → Edits V) : Action V → AgentRole → Edits V
  | .setAgentConfigs _ => edits
  | .updateAgentConfigLocal role updates => Function.update edits role
      { role := updates.role.or (edits role).role
        fields := spread (edits role).fields updates.fields
        settings := spread (edits role).settings updates.kept }
  | .updateAgentSettings role settings => Function.update edits role
      { edits role with settings := spread (edits role).settings settings }
  | .clearPendingChanges => fun _ => {}
  | .revertChanges => fun _ => {}

/-- The store, and what has been edited since the changes were last cleared or reverted. -/
structure Watched (V : Type) where
  store : LLMConfigState V := {}
  edits : AgentRole → Edits V := fun _ => {}

def watched (w : Watched V) (action : Action V) : Watched V :=
  ⟨step w.store action, edit w.edits action⟩

/-- For every role that has a configuration, the values are the last edited ones, or those of the
configuration; there are unsaved changes exactly if a role has pending ones; and the three ways of
reading agree. -/
structure Consistent (w : Watched V) : Prop where
  values : ∀ role config, w.store.config? role = some config →
    w.store.getPendingConfigForRole role = some ((w.edits role).shown config)
  unsaved : w.store.hasUnsavedChanges = true ↔ ∃ role, (w.store.pendingChanges role).isSome
  selected : ∀ role, w.store.selectPendingConfig role = w.store.getPendingConfigForRole role
  all : w.store.selectAllPendingConfigs.map some =
    w.store.agentConfigs.map fun config => w.store.getPendingConfigForRole config.role

/-- Configurations that are loaded are one for each role, and have the values of the settings that
the overlay holds without their having been edited, and of those that were edited and are no longer
held.  An update with settings has all settings that were edited, but for those with the value of
the configuration. -/
def Harmless (w : Watched V) : Action V → Prop
  | .setAgentConfigs configs =>
    (∀ config ∈ configs, ∀ other ∈ configs, config.role = other.role → config = other) ∧
    ∀ config ∈ configs, ∀ setting value,
      ((w.store.changes config.role).kept setting = some value →
        (w.edits config.role).settings setting = none → config.settings setting = some value) ∧
      ((w.store.changes config.role).kept setting = none →
        (w.edits config.role).settings setting = some value →
          config.settings setting = some value)
  | .updateAgentConfigLocal role updates =>
    updates.settings.isSome → ∀ config, w.store.config? role = some config →
      ∀ setting value, updates.kept setting = none →
        (w.edits role).settings setting = some value → config.settings setting = some value
  | _ => True

/-! ## What an action keeps -/

variable {s : LLMConfigState V} {role : AgentRole} {config : AgentLLMConfig V}

theorem mem_of_config? (h : s.config? role = some config) :
    config ∈ s.agentConfigs ∧ config.role = role :=
  ⟨List.mem_of_find?_eq_some h, by simpa using List.find?_some h⟩

/-- No changes over a configuration. -/
@[simp] theorem putOver_none : ({} : Changes V).putOver config = config := rfl

/-- A pending configuration is the one with the changes over it. -/
theorem getPendingConfigForRole_eq :
    s.getPendingConfigForRole role = (s.config? role).map (s.changes role).putOver := by
  rw [LLMConfigState.getPendingConfigForRole, LLMConfigState.changes]
  cases s.config? role <;> cases s.pendingChanges role <;> rfl

/-- What changes are kept of settings once others are put over them. -/
theorem kept_spread (p q : Changes V) :
    (p.spread q).kept = if q.settings.isSome then q.kept else p.kept := by
  cases h : q.settings <;> simp [Changes.kept, Changes.spread, h]

/-- What is kept for a role, against what was edited for it, beside its configuration. -/
structure RoleGood (p : Changes V) (e : Edits V) (config : Option (AgentLLMConfig V)) : Prop where
  role : p.role = e.role
  fields : p.fields = e.fields
  same : ∀ setting value value', p.kept setting = some value →
    e.settings setting = some value' → value = value'
  shown : ∀ c, config = some c → ∀ setting,
    (p.kept setting).or (c.settings setting) = (e.settings setting).or (c.settings setting)

namespace RoleGood

variable {p : Changes V} {e : Edits V} {config? : Option (AgentLLMConfig V)}

theorem empty : RoleGood ({} : Changes V) {} config? where
  role := rfl
  fields := rfl
  same := by simp
  shown := by simp [Changes.kept]

/-- The changes show what was edited. -/
theorem putOver_eq (h : RoleGood p e (some config)) : p.putOver config = e.shown config := by
  have hsettings : spread config.settings p.kept =
      fun setting => (e.settings setting).or (config.settings setting) :=
    funext (h.shown config rfl)
  simp only [Changes.putOver, Edits.shown, h.role, h.fields, hsettings]
  rfl

/-- An update of the configuration, where its settings have what was edited. -/
theorem update (h : RoleGood p e config?) (updates : Changes V)
    (hsettings : updates.settings.isSome → ∀ c, config? = some c → ∀ setting value,
      updates.kept setting = none → e.settings setting = some value →
        c.settings setting = some value) :
    RoleGood (p.spread updates)
      { role := updates.role.or e.role
        fields := spread e.fields updates.fields
        settings := spread e.settings updates.kept } config? := by
  have hrole := h.role
  have hfields := h.fields
  cases hnew : updates.settings with
  | none =>
    have hkept : updates.kept = Obj.empty := by simp [Changes.kept, hnew]
    have hold : (p.spread updates).kept = p.kept := by simp [kept_spread, hnew]
    constructor
    · simp [Changes.spread, hrole]
    · simp [Changes.spread, hfields]
    · simpa [hkept, hold] using h.same
    · simpa [hkept, hold] using h.shown
  | some new =>
    have hkept : (p.spread updates).kept = updates.kept := by simp [kept_spread, hnew]
    constructor
    · simp [Changes.spread, hrole]
    · simp [Changes.spread, hfields]
    · intro setting value value' hvalue hvalue'
      rw [hkept] at hvalue
      simpa [hvalue] using hvalue'
    · intro c hc setting
      rw [hkept]
      cases hupdate : updates.kept setting with
      | some value => simp [hupdate]
      | none =>
        cases hedit : e.settings setting with
        | none => simp [hupdate, hedit]
        | some value =>
          have hbase := hsettings (by simp [hnew]) c hc setting value hupdate hedit
          simp [hupdate, hedit, hbase]

/-- An update of settings, which also keeps those of the configuration. -/
theorem updateSettings (h : RoleGood p e config?) (settings : Obj Setting V) :
    RoleGood
      { p with settings := some (some (spread
          (spread ((config?.map AgentLLMConfig.settings).getD Obj.empty) p.kept) settings)) }
      { e with settings := spread e.settings settings } config? := by
  have hkept : ∀ setting, Changes.kept { p with settings := some (some (spread
      (spread ((config?.map AgentLLMConfig.settings).getD Obj.empty) p.kept) settings)) } setting =
      (settings setting).or ((p.kept setting).or
        ((config?.map AgentLLMConfig.settings).getD Obj.empty setting)) := fun _ => rfl
  constructor
  · exact h.role
  · exact h.fields
  · intro setting value value' hvalue hvalue'
    rw [hkept] at hvalue
    cases hnew : settings setting with
    | some new => simp_all
    | none =>
      have hedit : e.settings setting = some value' := by simpa [hnew] using hvalue'
      cases hold : p.kept setting with
      | some old =>
        have heq : old = value := by simpa [hnew, hold] using hvalue
        exact heq ▸ h.same setting old value' hold hedit
      | none =>
        cases config? with
        | none => simp [hnew, hold] at hvalue
        | some c =>
          have hbase : c.settings setting = some value := by simpa [hnew, hold] using hvalue
          have hshown := h.shown c rfl setting
          simpa [hold, hedit, hbase] using hshown
  · intro c hc setting
    subst hc
    rw [hkept]
    cases hnew : settings setting with
    | some new => simp [hnew]
    | none => simpa [hnew, Option.or_assoc] using h.shown c rfl setting

/-- A configuration that is loaded, with the values that are kept or were edited. -/
theorem load (h : RoleGood p e config?) (c : AgentLLMConfig V)
    (hkept : ∀ setting value, p.kept setting = some value → e.settings setting = none →
      c.settings setting = some value)
    (hedited : ∀ setting value, p.kept setting = none → e.settings setting = some value →
      c.settings setting = some value) : RoleGood p e (some c) where
  role := h.role
  fields := h.fields
  same := h.same
  shown := by
    intro c' hc' setting
    obtain rfl := Option.some.inj hc'
    cases hold : p.kept setting with
    | none =>
      cases hedit : e.settings setting with
      | none => rfl
      | some value => simp [hedited setting value hold hedit]
    | some value =>
      cases hedit : e.settings setting with
      | none => simp [hkept setting value hold hedit]
      | some value' => simp [h.same setting value value' hold hedit]

end RoleGood

/-- The invariant of a run. -/
structure Good (w : Watched V) : Prop where
  roles : ∀ role, RoleGood (w.store.changes role) (w.edits role) (w.store.config? role)
  single : ∀ config ∈ w.store.agentConfigs, ∀ other ∈ w.store.agentConfigs,
    config.role = other.role → config = other
  unsaved : w.store.hasUnsavedChanges = true ↔ ∃ role, (w.store.pendingChanges role).isSome

variable {w : Watched V}

theorem good_initial : Good ({} : Watched V) where
  roles := fun _ => RoleGood.empty
  single := by simp
  unsaved := by simp

/-- Changes for one role. -/
theorem Good.setChanges (hw : Good w) {p : Changes V} {e : Edits V}
    (h : RoleGood p e (w.store.config? role)) :
    Good ⟨w.store.setChanges role p, Function.update w.edits role e⟩ where
  roles := by
    intro other
    by_cases hother : other = role
    · subst hother
      simpa [LLMConfigState.changes, LLMConfigState.setChanges, LLMConfigState.config?] using h
    · simpa [LLMConfigState.changes, LLMConfigState.setChanges, LLMConfigState.config?, hother]
        using hw.roles other
  single := hw.single
  unsaved := by
    simp only [LLMConfigState.setChanges, true_iff]
    exact ⟨role, by simp⟩

/-- All changes are gone. -/
theorem Good.clear (hw : Good w) :
    Good ⟨{ w.store with pendingChanges := Obj.empty, hasUnsavedChanges := false }, fun _ => {}⟩ where
  roles := fun _ => RoleGood.empty
  single := hw.single
  unsaved := by simp

/-- Configurations are loaded. -/
theorem Good.load (hw : Good w) {configs : List (AgentLLMConfig V)}
    (h : Harmless w (.setAgentConfigs configs)) :
    Good ⟨{ w.store with agentConfigs := configs }, w.edits⟩ where
  roles := by
    intro role
    cases hconfig : LLMConfigState.config? { w.store with agentConfigs := configs } role with
    | none =>
      have hrole := hw.roles role
      exact ⟨hrole.role, hrole.fields, hrole.same, by simp⟩
    | some c =>
      obtain ⟨hmem, rfl⟩ := mem_of_config? hconfig
      exact (hw.roles c.role).load c (fun setting value => (h.2 c hmem setting value).1)
        fun setting value => (h.2 c hmem setting value).2
  single := h.1
  unsaved := hw.unsaved

/-- **What an action keeps.** -/
theorem good_step (hw : Good w) (action : Action V) (h : Harmless w action) :
    Good (watched w action) := by
  cases action with
  | setAgentConfigs configs => exact hw.load h
  | updateAgentConfigLocal role updates => exact hw.setChanges ((hw.roles role).update updates h)
  | updateAgentSettings role settings =>
    exact hw.setChanges ((hw.roles role).updateSettings settings)
  | clearPendingChanges => exact hw.clear
  | revertChanges => exact hw.clear

theorem Good.consistent (hw : Good w) : Consistent w where
  values := by
    intro role config hconfig
    have hrole := hw.roles role
    rw [hconfig] at hrole
    rw [getPendingConfigForRole_eq, hconfig, Option.map_some, hrole.putOver_eq]
  unsaved := hw.unsaved
  selected := fun _ => rfl
  all := by
    rw [LLMConfigState.selectAllPendingConfigs, List.map_map]
    apply List.map_congr_left
    intro config hmem
    have hconfig : w.store.config? config.role = some config := by
      cases hfind : w.store.config? config.role with
      | none => simpa using List.find?_eq_none.mp hfind config hmem
      | some other =>
        obtain ⟨hother, hrole⟩ := mem_of_config? hfind
        rw [hw.single other hother config hmem hrole]
    rw [getPendingConfigForRole_eq, hconfig, LLMConfigState.changes]
    cases hpending : w.store.pendingChanges config.role <;> simp [hpending]

/-- **The store over runs.**  Over every sequence of harmless actions the page shows what has been
edited. -/
theorem consistent_of_harmless (actions : List (Action V))
    (h : Each watched Harmless ({} : Watched V) actions) :
    Along watched Consistent (fun _ _ _ => True) ({} : Watched V) actions :=
  along_of_each (fun _ action hw h => good_step hw action h) (fun _ hw => hw.consistent)
    (fun _ _ _ _ => trivial) good_initial h

/-- A configuration of the coding agent. -/
def coding (maxTokens : ℕ) : AgentLLMConfig ℕ where
  role := .coding
  fields := Obj.empty
  settings := fun
    | .temperature => some 7
    | .maxTokens => some maxTokens
    | _ => none

/-- The coding agent is loaded, and its temperature is edited. -/
def edited : List (Action ℕ) :=
  [.setAgentConfigs [coding 4096],
    .updateAgentSettings .coding fun
      | .temperature => some 2
      | _ => none]

theorem consistent_edited :
    Each watched Harmless ({} : Watched ℕ) edited ∧
      Along watched Consistent (fun _ _ _ => True) ({} : Watched ℕ) edited :=
  have h : Each watched Harmless ({} : Watched ℕ) edited := by
    simp [edited, Harmless, Changes.kept, LLMConfigState.changes]
  ⟨h, consistent_of_harmless edited h⟩

/-- Then it is loaded again, and the page shows the maximal tokens of before. -/
theorem not_consistent_reloaded :
    ¬ Along watched Consistent (fun _ _ _ => True) ({} : Watched ℕ)
      (edited ++ [.setAgentConfigs [coding 8192]]) := by
  intro h
  have hvalues := h.last.values .coding (coding 8192) rfl
  have htokens := congrArg (Option.map fun config => config.settings .maxTokens) hvalues
  exact absurd htokens (by decide)

end DoxAsdlc.HitlUi.LlmConfig
