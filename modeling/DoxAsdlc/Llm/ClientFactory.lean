import DoxAsdlc.Llm.Configuration
import DoxAsdlc.Structures.Memo

/-!
# The factory of language model clients

A client is made for a role from its stored configuration and the decrypted key, and kept; the
next request for the role is answered with it.

Configurations and keys change while the factory keeps clients.  The factory is a memo of what it
makes of the stored configuration for a role, so a kept client reflects what is stored exactly if
what went into it is still what is stored.

## Main definitions

* `LLMClient`, `createClient` — clients.
* `System` — the stored configuration, and the clients that are kept.
* `makeClient`, `getClient`, `clearCache`, `removeFromCache` — the factory.
* `Action`, `step` — everything that happens to the configuration, the keys and the factory.
* `HasKey`, `BuiltFrom`, `Reflects` — what is promised of a client.
* `Unchanged` — what went into a client is still what is stored.
* `madeOf` — what was stored when a client was made.

## Main results

* `alwaysReflects_iff` — when clients reflect the configuration.
-/

namespace DoxAsdlc.Llm

open Credentials Interaction Interaction.Act Redis

/-- A client, with the provider that its class is for. -/
structure LLMClient where
  provider : LLMProvider
  apiKey : String
  model : String
  temperature : ℚ
  maxTokens : ℕ
  topP : Option ℚ
  topK : Option ℕ
  deriving DecidableEq

/-- `LLMClientError(message)`. -/
def llmClientError (message : String) : Error := { cls := .llmClientError, message := message }

/-- `_create_client`; OpenAI has no `top_k`. -/
def createClient (config : AgentLLMConfig) (apiKey : String) : LLMClient where
  provider := config.provider
  apiKey := apiKey
  model := config.model
  temperature := config.settings.temperature
  maxTokens := config.settings.maxTokens
  topP := config.settings.topP
  topK :=
    match config.provider with
    | .openai => none
    | .anthropic | .google => config.settings.topK

/-- The stored configuration, and the clients that the factory keeps. -/
structure System where
  store : ConfigStore
  clients : AgentRole → Option LLMClient

/-- A new factory. -/
def System.start (store : ConfigStore) : System := ⟨store, fun _ => none⟩

/-- Sequential code of the factory. -/
abbrev Factory (α : Type) := Act System Error α

/-- A call of the service. -/
def onStore {α : Type} (x : Service α) : Factory α := fun s =>
  ((x s.store).1, { s with store := (x s.store).2 })

variable (order : IterationOrder String) (env : Credentials.Env)

/-- The part of `get_client` that makes a client. -/
def makeClient (role : AgentRole) : Service LLMClient := do
  let config ← getAgentConfig role
  if config.enabled = false then
    throw (llmClientError ("Agent " ++ role.value ++ " is disabled in configuration"))
  else if config.apiKeyId = "" then
    throw (llmClientError ("No API key configured for agent " ++ role.value))
  else
    match ← onKeys order (getDecryptedKey env config.apiKeyId) with
    | none => throw (llmClientError ("API key not found: " ++ config.apiKeyId))
    | some apiKey =>
      if apiKey = "" then throw (llmClientError ("API key not found: " ++ config.apiKeyId))
      else return createClient config apiKey

/-- `get_client`. -/
def getClient (roleStr : String) : Factory LLMClient :=
  match AgentRole.ofValue? roleStr with
  | none => throw (llmClientError ("Invalid agent role: " ++ roleStr))
  | some role => do
      match ← read fun s => s.clients role with
      | some client => return client
      | none =>
        let client ← onStore (makeClient order env role)
        update fun s => { s with clients := Function.update s.clients role (some client) }
        return client

/-- `clear_cache`. -/
def clearCache : Factory Unit := update fun s => { s with clients := fun _ => none }

/-- `remove_from_cache`. -/
def removeFromCache (role : AgentRole) : Factory Bool := do
  match ← read fun s => s.clients role with
  | none => return false
  | some _ =>
    update fun s => { s with clients := Function.update s.clients role none }
    return true

end DoxAsdlc.Llm

/-! ## Whether clients reflect the stored configuration -/

namespace DoxAsdlc.Llm

open Credentials Interaction Interaction.Act Redis Rlm

/-- A configuration is updated, a key is added or deleted, a client is requested, or kept clients
are forgotten. -/
inductive Action where
  | update (config : AgentLLMConfig)
  | partialUpdate (role : AgentRole) (updates : AgentConfigUpdate)
  | importConfig (config : List (String × Json))
  | addKey (now : Time) (uuid : String) (provider : LLMProvider) (name key : String)
  | deleteKey (keyId : String)
  | getClient (roleStr : String)
  | clearCache
  | removeFromCache (role : AgentRole)

variable (order : IterationOrder String) (env : Credentials.Env) (V : Validators)

/-- What an action does to the stored configuration. -/
def Action.write : Action → ConfigStore → ConfigStore
  | .update config, s => (updateAgentConfig config s).2
  | .partialUpdate role updates, s => (partialUpdateAgentConfig role updates s).2
  | .importConfig config, s => (Llm.importConfig V config s).2
  | .addKey now uuid provider name key, s =>
    (onKeys order (Credentials.addKey { env with now := now, uuid := uuid } provider name key) s).2
  | .deleteKey keyId, s => (onKeys order (Credentials.deleteKey keyId) s).2
  | _, s => s

/-- One step. -/
def step (s : System) : Action → System
  | .getClient roleStr => (getClient order env roleStr s).2
  | .clearCache => (clearCache s).2
  | .removeFromCache role => (removeFromCache role s).2
  | a => { s with store := a.write order env V s.store }

/-- What is reached with a new factory. -/
def reached (store : ConfigStore) (actions : List Action) : System :=
  run (step order env V) (.start store) actions

/-! ## What is promised of a client -/

/-- The key of a configuration is stored, and decrypts to a text that is not empty. -/
def HasKey (store : ConfigStore) (config : AgentLLMConfig) (apiKey : String) : Prop :=
  config.apiKeyId ≠ "" ∧ apiKey ≠ "" ∧
    ∃ record, store.keys.lookup (llmKey config.apiKeyId) = some record ∧
      record.keyEncrypted ≠ "" ∧ env.decrypt record.keyEncrypted = .ok apiKey

/-- A client has what a configuration says. -/
structure BuiltFrom (client : LLMClient) (config : AgentLLMConfig) (apiKey : String) : Prop where
  provider : client.provider = config.provider
  model : client.model = config.model
  apiKey : client.apiKey = apiKey
  temperature : client.temperature = config.settings.temperature
  maxTokens : client.maxTokens = config.settings.maxTokens
  topP : client.topP = config.settings.topP
  topK : config.provider ≠ .openai → client.topK = config.settings.topK

/-- What a request for a client comes to: a client is built from what is stored, and there is none
for an agent that is disabled or whose key is not stored. -/
structure Reflects (store : ConfigStore) (roleStr : String) (result : Except Error LLMClient) :
    Prop where
  built : ∀ client, result = .ok client → ∃ role apiKey, AgentRole.ofValue? roleStr = some role ∧
    HasKey env store (configOf store role) apiKey ∧
      BuiltFrom client (configOf store role) apiKey
  refused : ∀ role, AgentRole.ofValue? roleStr = some role →
    (configOf store role).enabled = false ∨
      llmKey (configOf store role).apiKeyId ∉ store.keys →
        ∃ message, result = .error (llmClientError message)

/-- Every request of a run is answered as promised. -/
def AlwaysReflects (store : ConfigStore) (actions : List Action) : Prop :=
  ∀ before roleStr after, actions = before ++ .getClient roleStr :: after →
    let s := reached order env V store before
    Reflects env s.store roleStr (getClient order env roleStr s).1

/-- The agent is enabled, and the key and what the client has of the configuration are what they
were in another store. -/
structure Unchanged (store store' : ConfigStore) (role : AgentRole) : Prop where
  enabled : (configOf store' role).enabled = true
  apiKey : ∃ apiKey, HasKey env store (configOf store role) apiKey ∧
    HasKey env store' (configOf store' role) apiKey
  provider : (configOf store role).provider = (configOf store' role).provider
  model : (configOf store role).model = (configOf store' role).model
  temperature :
    (configOf store role).settings.temperature = (configOf store' role).settings.temperature
  maxTokens : (configOf store role).settings.maxTokens = (configOf store' role).settings.maxTokens
  topP : (configOf store role).settings.topP = (configOf store' role).settings.topP
  topK : (configOf store' role).provider ≠ .openai →
    (configOf store role).settings.topK = (configOf store' role).settings.topK

/-! ## Making a client -/

variable {order env V} {store store' : ConfigStore} {role : AgentRole}

theorem HasKey.unique {config : AgentLLMConfig} {apiKey apiKey' : String}
    (h : HasKey env store config apiKey) (h' : HasKey env store config apiKey') :
    apiKey = apiKey' := by
  obtain ⟨-, -, record, hrecord, -, hdecrypt⟩ := h
  obtain ⟨-, -, record', hrecord', -, hdecrypt'⟩ := h'
  rw [hrecord] at hrecord'
  cases hrecord'
  rw [hdecrypt] at hdecrypt'
  exact Except.ok.inj hdecrypt'

theorem createClient_builtFrom (config : AgentLLMConfig) (apiKey : String) :
    BuiltFrom (createClient config apiKey) config apiKey := by
  refine ⟨rfl, rfl, rfl, rfl, rfl, rfl, ?_⟩
  intro hprovider
  simp only [createClient]
  cases h : config.provider with
  | openai => exact absurd h hprovider
  | anthropic => rfl
  | google => rfl

/-- The key that is stored under an id, decrypted. -/
def storedKey (env : Credentials.Env) (keys : Credentials.Store) (keyId : String) :
    Except Error (Option String) :=
  match keys.lookup (llmKey keyId) with
  | none => .ok none
  | some record =>
    if record.keyEncrypted = "" then .ok none else some <$> env.decrypt record.keyEncrypted

theorem onKeys_getDecryptedKey (keyId : String) (store : ConfigStore) :
    onKeys order (getDecryptedKey env keyId) store
      = (storedKey env store.keys keyId, store) := by
  cases hlookup : store.keys.lookup (llmKey keyId) with
  | none => simp [onKeys, getDecryptedKey, storedKey, hlookup]
  | some record =>
    by_cases hempty : record.keyEncrypted = ""
    · simp [onKeys, getDecryptedKey, storedKey, hlookup, hempty]
    · cases hdecrypt : env.decrypt record.keyEncrypted <;>
        simp [onKeys, getDecryptedKey, storedKey, hlookup, hempty, hdecrypt, Functor.map,
          Except.map, Program.bind]

/-- What is made for a role of what is stored. -/
def newClient (env : Credentials.Env) (store : ConfigStore) (role : AgentRole) :
    Except Error LLMClient :=
  let config := configOf store role
  if config.enabled = false then
    .error (llmClientError ("Agent " ++ role.value ++ " is disabled in configuration"))
  else if config.apiKeyId = "" then
    .error (llmClientError ("No API key configured for agent " ++ role.value))
  else
    match storedKey env store.keys config.apiKeyId with
    | .error e => .error e
    | .ok none => .error (llmClientError ("API key not found: " ++ config.apiKeyId))
    | .ok (some apiKey) =>
      if apiKey = "" then .error (llmClientError ("API key not found: " ++ config.apiKeyId))
      else .ok (createClient config apiKey)

/-- Making a client leaves what is stored. -/
theorem makeClient_apply :
    makeClient order env role store = (newClient env store role, store) := by
  have hconfig : getAgentConfig role store = (.ok (configOf store role), store) := rfl
  by_cases henabled : (configOf store role).enabled = false
  · simp [makeClient, newClient, hconfig, henabled]
  · by_cases hid : (configOf store role).apiKeyId = ""
    · simp [makeClient, newClient, hconfig, henabled, hid]
    · rcases hstored : storedKey env store.keys (configOf store role).apiKeyId with e | _ | apiKey
      · simp [makeClient, newClient, hconfig, henabled, hid, onKeys_getDecryptedKey, hstored]
      · simp [makeClient, newClient, hconfig, henabled, hid, onKeys_getDecryptedKey, hstored]
      · by_cases hempty : apiKey = "" <;>
          simp [makeClient, newClient, hconfig, henabled, hid, onKeys_getDecryptedKey, hstored,
            hempty]

theorem storedKey_eq_some_iff {keys : Credentials.Store} {keyId apiKey : String} :
    storedKey env keys keyId = .ok (some apiKey) ↔
      ∃ record, keys.lookup (llmKey keyId) = some record ∧ record.keyEncrypted ≠ "" ∧
        env.decrypt record.keyEncrypted = .ok apiKey := by
  cases hlookup : keys.lookup (llmKey keyId) with
  | none => simp [storedKey, hlookup]
  | some record =>
    by_cases hempty : record.keyEncrypted = ""
    · simp [storedKey, hlookup, hempty]
    · cases hdecrypt : env.decrypt record.keyEncrypted <;>
        simp [storedKey, hlookup, hempty, hdecrypt, Functor.map, Except.map]

/-- When a client is made, and of what. -/
theorem newClient_eq_ok_iff {client : LLMClient} :
    newClient env store role = .ok client ↔
      (configOf store role).enabled = true ∧ ∃ apiKey,
        HasKey env store (configOf store role) apiKey ∧
          client = createClient (configOf store role) apiKey := by
  simp only [HasKey, ← storedKey_eq_some_iff]
  by_cases henabled : (configOf store role).enabled = false
  · simp [newClient, henabled]
  · by_cases hid : (configOf store role).apiKeyId = ""
    · simp [newClient, henabled, hid]
    · rcases hstored : storedKey env store.keys (configOf store role).apiKeyId with e | _ | apiKey
      · simp [newClient, henabled, hid, hstored]
      · simp [newClient, henabled, hid, hstored]
      · by_cases hempty : apiKey = ""
        · simp [newClient, henabled, hid, hstored, hempty]
        · simp [newClient, henabled, hid, hstored, hempty, eq_comm]

/-- No client is made for an agent that is disabled or whose key is not stored. -/
theorem newClient_refused (h : (configOf store role).enabled = false ∨
    llmKey (configOf store role).apiKeyId ∉ store.keys) :
    ∃ message, newClient env store role = .error (llmClientError message) := by
  by_cases henabled : (configOf store role).enabled = false
  · simp only [newClient, henabled, ↓reduceIte]
    exact ⟨_, rfl⟩
  · by_cases hid : (configOf store role).apiKeyId = ""
    · simp only [newClient, henabled, hid, ↓reduceIte]
      exact ⟨_, rfl⟩
    · have hlookup := AList.lookup_eq_none.mpr (h.resolve_left henabled)
      simp only [newClient, henabled, hid, storedKey, hlookup, ↓reduceIte]
      exact ⟨_, rfl⟩

/-! ## The factory as a memo -/

/-- What the factory keeps, and the store that it makes clients of. -/
def System.memo (s : System) : Memo ConfigStore AgentRole LLMClient := ⟨s.store, s.clients⟩

/-- What an action is to the memo. -/
def Action.event (order : IterationOrder String) (env : Credentials.Env) (V : Validators) :
    Action → Memo.Event ConfigStore AgentRole
  | .getClient roleStr =>
    match AgentRole.ofValue? roleStr with
    | some role => .lookUp role
    | none => .change id
  | .clearCache => .clear
  | .removeFromCache role => .forget role
  | a => .change (a.write order env V)

theorem getClient_apply {roleStr : String} (s : System)
    (hrole : AgentRole.ofValue? roleStr = some role) :
    (getClient order env roleStr s).1 = (s.memo.lookUp (newClient env) role).1 ∧
      (getClient order env roleStr s).2.memo = (s.memo.lookUp (newClient env) role).2 := by
  cases hkept : s.clients role with
  | some client => simp [getClient, hrole, hkept, Memo.lookUp, System.memo]
  | none =>
    cases hnew : newClient env s.store role <;>
      simp [getClient, hrole, hkept, Memo.lookUp, System.memo, onStore, makeClient_apply, hnew]

theorem memo_step (s : System) (a : Action) :
    (step order env V s a).memo = s.memo.step (newClient env) (a.event order env V) := by
  cases a with
  | getClient roleStr =>
    cases hrole : AgentRole.ofValue? roleStr with
    | none => simp [step, getClient, Action.event, hrole, Memo.step]
    | some role => simpa [step, Action.event, hrole, Memo.step] using (getClient_apply s hrole).2
  | removeFromCache role =>
    cases hkept : s.clients role with
    | none =>
      have hforget : Function.update s.clients role none = s.clients := by
        rw [← hkept, Function.update_eq_self]
      simp [step, removeFromCache, Action.event, Memo.step, hkept, System.memo, hforget]
    | some client => simp [step, removeFromCache, Action.event, Memo.step, hkept, System.memo]
  | _ => rfl

theorem memo_reached (actions : List Action) :
    (reached order env V store actions).memo =
      run (Memo.step (newClient env)) (.start store) (actions.map (Action.event order env V)) := by
  induction actions using List.reverseRecOn with
  | nil => rfl
  | append_singleton actions a ih =>
    rw [reached, run_append, List.map_append, run_append, ← ih]
    exact memo_step _ a

/-- What was stored when the client that is kept for a role was made. -/
def madeOf (order : IterationOrder String) (env : Credentials.Env) (V : Validators)
    (store : ConfigStore) (actions : List Action) (role : AgentRole) : Option ConfigStore :=
  (run (Memo.record (newClient env)) (.start store)
    (actions.map (Action.event order env V))).madeOf role

variable {actions : List Action}

theorem traces_reached :
    Memo.Traces (newClient env)
      ⟨(reached order env V store actions).store, madeOf order env V store actions⟩
      (reached order env V store actions).memo := by
  have htraces : Memo.Traces (newClient env) _ _ :=
    Memo.traces_run store (actions.map (Action.event order env V))
  rw [← memo_reached] at htraces
  exact ⟨rfl, htraces.kept⟩

theorem getClient_answer {roleStr : String} (hrole : AgentRole.ofValue? roleStr = some role) :
    (getClient order env roleStr (reached order env V store actions)).1 =
      newClient env ((madeOf order env V store actions role).getD
        (reached order env V store actions).store) role := by
  rw [(getClient_apply _ hrole).1, traces_reached.answer]

/-- A client made of one store reflects another one exactly if what went into it is unchanged. -/
theorem reflects_iff {roleStr : String} {client : LLMClient}
    (hrole : AgentRole.ofValue? roleStr = some role)
    (hnew : newClient env store role = .ok client) :
    Reflects env store' roleStr (newClient env store role) ↔ Unchanged env store store' role := by
  rw [hnew]
  obtain ⟨-, apiKey, hkey, rfl⟩ := newClient_eq_ok_iff.mp hnew
  have hself := createClient_builtFrom (configOf store role) apiKey
  constructor
  · intro hreflects
    obtain ⟨role', apiKey', hrole', hkey', hbuilt⟩ := hreflects.built _ rfl
    cases hrole.symm.trans hrole'
    have heq : apiKey = apiKey' := hself.apiKey.symm.trans hbuilt.apiKey
    subst heq
    refine ⟨?_, ⟨apiKey, hkey, hkey'⟩, hbuilt.provider, hbuilt.model, hbuilt.temperature,
      hbuilt.maxTokens, hbuilt.topP, ?_⟩
    · by_contra henabled
      obtain ⟨message, herror⟩ :=
        hreflects.refused role hrole (.inl (Bool.eq_false_iff.mpr henabled))
      cases herror
    · intro hprovider
      have hsame : (createClient (configOf store role) apiKey).provider ≠ .openai :=
        hbuilt.provider ▸ hprovider
      exact (hself.topK hsame).symm.trans (hbuilt.topK hprovider)
  · intro hsame
    obtain ⟨apiKey', hkey', hstored⟩ := hsame.apiKey
    cases hkey.unique hkey'
    constructor
    · intro client hclient
      cases hclient
      refine ⟨role, apiKey, hrole, hstored, hsame.provider, hsame.model, rfl, hsame.temperature,
        hsame.maxTokens, hsame.topP, ?_⟩
      intro hprovider
      rw [hself.topK (hsame.provider ▸ hprovider), hsame.topK hprovider]
    · intro role' hrole' hgone
      cases hrole.symm.trans hrole'
      obtain ⟨-, -, record, hrecord, -⟩ := hstored
      rcases hgone with hdisabled | hmissing
      · simp [hsame.enabled] at hdisabled
      · simp [AList.lookup_eq_none.mpr hmissing] at hrecord

/-- What is made of the present store reflects it. -/
theorem reflects_newClient {roleStr : String} (hrole : AgentRole.ofValue? roleStr = some role) :
    Reflects env store roleStr (newClient env store role) := by
  cases hnew : newClient env store role with
  | ok client =>
    obtain ⟨henabled, apiKey, hkey, -⟩ := newClient_eq_ok_iff.mp hnew
    rw [← hnew, reflects_iff hrole hnew]
    exact ⟨henabled, ⟨apiKey, hkey, hkey⟩, rfl, rfl, rfl, rfl, rfl, fun _ => rfl⟩
  | error e =>
    constructor
    · intro client hclient
      cases hclient
    · intro role' hrole' hgone
      cases hrole.symm.trans hrole'
      rw [← hnew]
      exact newClient_refused hgone

/-- **When clients reflect the configuration.**  Every request of a run is answered as promised
exactly if, at every request for a role with a client that is kept, the agent is enabled, and the
key, the provider, the model and the settings are what they were when that client was made. -/
theorem alwaysReflects_iff (order : IterationOrder String) (env : Credentials.Env) (V : Validators)
    (store : ConfigStore) (actions : List Action) :
    AlwaysReflects order env V store actions ↔
      ∀ before role after, actions = before ++ .getClient role.value :: after →
        ∀ made ∈ madeOf order env V store before role,
          Unchanged env made (reached order env V store before).store role := by
  constructor
  · intro h before role after heq made hmade
    have hmade' : madeOf order env V store before role = some made := hmade
    have hrole := AgentRole.ofValue?_value role
    obtain ⟨client, hnew, -⟩ := traces_reached.kept_some hmade'
    have hreflects := h before role.value after heq
    simp only [getClient_answer hrole, hmade', Option.getD_some] at hreflects
    exact (reflects_iff hrole hnew).mp hreflects
  · intro h before roleStr after heq
    cases hrole : AgentRole.ofValue? roleStr with
    | none =>
      constructor
      · intro client hclient
        simp [getClient, hrole] at hclient
      · intro role hrole'
        simp [hrole] at hrole'
    | some role =>
      simp only [getClient_answer hrole]
      cases hmade : madeOf order env V store before role with
      | none => exact reflects_newClient hrole
      | some made =>
        obtain ⟨client, hnew, -⟩ := traces_reached.kept_some hmade
        have hvalue := AgentRole.value_of_ofValue? hrole
        exact (reflects_iff hrole hnew).mpr (h before role after (hvalue ▸ heq) made hmade)

/-! ## A revoked key -/

/-- Keys are stored as they are. -/
def plain : Credentials.Env where
  now := 0
  uuid := "1"
  encrypt := id
  decrypt := .ok
  discoverModels _ _ := .ok 0
  slackAuthTest _ := .ok { ok := false }
  githubUser _ := .ok { statusCode := 401 }

/-- Every value is refused. -/
def refusing : Validators where
  settings _ _ _ _ := .error (valueError "refused")
  config _ _ _ := .error (valueError "refused")

/-- A key is added and configured, a client is requested, and the key is deleted. -/
def revocation : List Action :=
  [.addKey 0 "1" .anthropic "main" "sk-1", .partialUpdate .coding { apiKeyId := some "key-1" },
    .getClient "coding", .deleteKey "key-1"]

/-- The client of a deleted key is still returned. -/
theorem not_alwaysReflects_of_revocation :
    ¬ AlwaysReflects .asAnswered plain refusing .empty (revocation ++ [.getClient "coding"]) := by
  intro h
  have hreflects := h revocation "coding" [] rfl
  obtain ⟨message, hrefused⟩ := hreflects.refused .coding rfl (.inr (by decide))
  have hok : (getClient .asAnswered plain "coding"
      (reached .asAnswered plain refusing .empty revocation)).1.isOk = true := by
    decide
  rw [hrefused] at hok
  cases hok

end DoxAsdlc.Llm
