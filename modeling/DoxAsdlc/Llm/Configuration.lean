import DoxAsdlc.Credentials.Services
import DoxAsdlc.Development.Models
import DoxAsdlc.Interaction.Stateful
import Mathlib.Tactic.NormNum

/-!
# The configuration of the agents' language models

For each role of an agent a provider, a model, a key and the settings of the generation are
stored; a role without a stored configuration has the default one.  Configurations are replaced,
updated in part, and imported from a dictionary, entry after entry.  The keys are those of the
LLM configuration service.

What pydantic makes of the values in an imported dictionary is a parameter.

## Main definitions

* `AgentRole`, `AgentSettings`, `AgentLLMConfig`, `AgentConfigUpdate` — the configurations.
* `ConfigStore` — what is stored.
* `getAgentConfig`, `updateAgentConfig`, `partialUpdateAgentConfig`, `importConfig` — the
  operations on them.
* `onKeys` — the operations on keys.
-/

namespace DoxAsdlc.Llm

open Credentials Interaction Interaction.Act Redis Rlm

/-! ## Configurations -/

/-- `AgentRole`. -/
inductive AgentRole where
  | discovery | design | utest | coding | debugger | reviewer | ideation
  deriving DecidableEq, Repr

namespace AgentRole

/-- The text that stands for a role. -/
def value : AgentRole → String
  | discovery => "discovery"
  | design => "design"
  | utest => "utest"
  | coding => "coding"
  | debugger => "debugger"
  | reviewer => "reviewer"
  | ideation => "ideation"

/-- The roles in the order of their definition. -/
def all : List AgentRole := [discovery, design, utest, coding, debugger, reviewer, ideation]

/-- The role that a text stands for. -/
def ofValue? (value : String) : Option AgentRole := all.find? (·.value = value)

theorem value_of_ofValue? {value : String} {role : AgentRole} (h : ofValue? value = some role) :
    role.value = value := by
  simpa using List.find?_some h

@[simp] theorem ofValue?_value (role : AgentRole) : ofValue? role.value = some role := by
  cases role <;> rfl

end AgentRole

/-- `AgentSettings`. -/
structure AgentSettings where
  temperature : ℚ := 1 / 5
  maxTokens : ℕ := 16384
  topP : Option ℚ := none
  topK : Option ℕ := none
  temperature_mem : 0 ≤ temperature ∧ temperature ≤ 1 := by norm_num
  maxTokens_mem : 1024 ≤ maxTokens ∧ maxTokens ≤ 32768 := by norm_num
  topP_mem : ∀ x ∈ topP, 0 ≤ x ∧ x ≤ 1 := by simp
  topK_mem : ∀ k ∈ topK, 1 ≤ k ∧ k ≤ 100 := by simp
  deriving DecidableEq

/-- `AgentLLMConfig`. -/
structure AgentLLMConfig where
  role : AgentRole
  provider : LLMProvider
  model : String
  apiKeyId : String
  settings : AgentSettings := {}
  enabled : Bool := true
  deriving DecidableEq

/-- `AgentConfigUpdate`. -/
structure AgentConfigUpdate where
  provider : Option LLMProvider := none
  model : Option String := none
  apiKeyId : Option String := none
  enabled : Option Bool := none
  settings : Option AgentSettings := none

/-- `_get_default_config`. -/
def getDefaultConfig (role : AgentRole) : AgentLLMConfig where
  role := role
  provider := .anthropic
  model := "claude-sonnet-4-20250514"
  apiKeyId := ""

/-- What pydantic makes of the values of an imported entry. -/
structure Validators where
  settings : (temperature maxTokens topP topK : Json) → Except Error AgentSettings
  /-- The model, the key and whether the agent is enabled. -/
  config : (model apiKeyId enabled : Json) → Except Error (String × String × Bool)

/-! ## What is stored -/

/-- `f"{REDIS_AGENT_PREFIX}{role.value}"`. -/
def agentKey (role : AgentRole) : String := "llm:agents:" ++ role.value

theorem agentKey_inj {role role' : AgentRole} (h : agentKey role = agentKey role') :
    role = role' := by
  have hvalue : role.value = role'.value := by simpa [agentKey] using h
  have hofValue := congrArg AgentRole.ofValue? hvalue
  simpa using hofValue

/-- The stored configurations and keys. -/
structure ConfigStore where
  agents : Keyspace AgentLLMConfig
  keys : Credentials.Store

/-- Nothing is stored. -/
def ConfigStore.empty : ConfigStore := ⟨∅, ∅⟩

/-- The configuration of a role. -/
def configOf (store : ConfigStore) (role : AgentRole) : AgentLLMConfig :=
  (store.agents.lookup (agentKey role)).getD (getDefaultConfig role)

/-- Sequential code of the service. -/
abbrev Service (α : Type) := Act ConfigStore Error α

/-- An operation on keys. -/
def onKeys {α : Type} (order : IterationOrder String) (p : Credentials.Async α) :
    Service α := fun s =>
  let r := p.eval (Credentials.serve order) s.keys
  (r.1, { s with keys := r.2 })

/-- `get_agent_config`. -/
def getAgentConfig (role : AgentRole) : Service AgentLLMConfig :=
  read fun s => (s.agents.lookup (agentKey role)).getD (getDefaultConfig role)

/-- `update_agent_config`. -/
def updateAgentConfig (config : AgentLLMConfig) : Service AgentLLMConfig := do
  update fun s => { s with agents := s.agents.insert (agentKey config.role) config }
  return config

/-- A configuration with the parts of an update that are given. -/
def AgentLLMConfig.merge (existing : AgentLLMConfig) (updates : AgentConfigUpdate) :
    AgentLLMConfig where
  role := existing.role
  provider := updates.provider.getD existing.provider
  model := updates.model.getD existing.model
  apiKeyId := updates.apiKeyId.getD existing.apiKeyId
  settings := updates.settings.getD existing.settings
  enabled := updates.enabled.getD existing.enabled

/-- `partial_update_agent_config`. -/
def partialUpdateAgentConfig (role : AgentRole) (updates : AgentConfigUpdate) :
    Service AgentLLMConfig := do
  let existing ← getAgentConfig role
  updateAgentConfig (existing.merge updates)

/-! ## Importing -/

/-- `ValueError(message)`. -/
def valueError (message : String) : Error := { cls := .valueError, message := message }

/-- `LLMProvider(value)`. -/
def providerOf : Json → Except Error LLMProvider
  | .str s => LLMProvider.ofValue s
  | other => .error (valueError (other.typeName ++ " is not a valid LLMProvider"))

/-- The configuration of one imported entry. -/
def importedConfig (V : Validators) (role : AgentRole) (entry : Json) :
    Except Error AgentLLMConfig := do
  let provider ← providerOf (← entry.get "provider" (.str "anthropic"))
  let settings ← V.settings (← entry.get "temperature" (.float (1 / 5)))
    (← entry.get "max_tokens" (.int 16384)) (← entry.get "top_p" .null) (← entry.get "top_k" .null)
  let (model, apiKeyId, enabled) ← V.config
    (← entry.get "model" (.str "claude-sonnet-4-20250514")) (← entry.get "api_key_id" (.str ""))
    (← entry.get "enabled" (.bool true))
  return {
    role := role
    provider := provider
    model := model
    apiKeyId := apiKeyId
    settings := settings
    enabled := enabled }

/-- A `ValueError` or a `KeyError` in an entry is raised as a `ValueError` that names its role. -/
def invalidConfig (role : String) (e : Error) : Error :=
  if e.cls = .valueError ∨ e.cls = .keyError then
    valueError ("Invalid config for " ++ role ++ ": " ++ e.str)
  else e

/-- Import the entries one after another; those before an invalid one stay imported. -/
def importEntries (V : Validators) : List (String × Json) → ℕ → Service ℕ
  | [], imported => return imported
  | (roleStr, entry) :: entries, imported =>
    match AgentRole.ofValue? roleStr with
    | none => throw (valueError ("Invalid agent role: " ++ roleStr))
    | some role => do
        let config ← answer ((importedConfig V role entry).mapError (invalidConfig roleStr))
        let _ ← updateAgentConfig config
        importEntries V entries (imported + 1)

/-- `import_config`; the number of the imported agents. -/
def importConfig (V : Validators) (config : List (String × Json)) : Service ℕ :=
  match Json.field? config "agents" with
  | none => throw (valueError "Config must contain 'agents' section")
  | some (.obj entries) => importEntries V entries 0
  | some other => throw (Json.attributeError other "items")

end DoxAsdlc.Llm
