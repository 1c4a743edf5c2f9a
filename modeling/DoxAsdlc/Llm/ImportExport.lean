import DoxAsdlc.Llm.Configuration

/-!
# Export and import of the configuration of the agents

The exported configuration has an entry for each role, and importing it leaves every configuration
as it is.  An import stores each entry before it looks at the next one, so that one that raises
leaves what stands before the invalid entry stored.

## Main definitions

* `exportConfig` — the exported configuration.
* `entryConfig` — the configuration of an imported entry.
* `ServiceCall`, `Reachable` — what the service can come to have stored.
* `Atomic`, `RoundTrips` — what is to hold of an import.
* `Spared` — what stands before the first invalid entry is stored already.

## Main results

* `atomic_iff` — when an import that raises changes nothing.
* `roundTrips` — what is exported can be imported.
* `importExport_iff` — both.
-/

namespace DoxAsdlc.Llm

open Credentials Interaction Interaction.Act Redis Rlm

/-! ## Exporting -/

/-- A value, or `None`. -/
def optional {A : Type} (f : A → Json) : Option A → Json
  | none => .null
  | some a => f a

/-- The exported entry of a configuration. -/
def exportedConfig (config : AgentLLMConfig) : Json :=
  .obj [("provider", .str config.provider.value), ("model", .str config.model),
    ("api_key_id", .str config.apiKeyId), ("temperature", .float config.settings.temperature),
    ("max_tokens", .int config.settings.maxTokens), ("top_p", optional .float config.settings.topP),
    ("top_k", optional (fun k : ℕ => .int k) config.settings.topK), ("enabled", .bool config.enabled)]

/-- The entries of some roles. -/
def exportAgents : List AgentRole → Service (List (String × Json))
  | [] => return []
  | role :: roles => do
      let config ← getAgentConfig role
      let agents ← exportAgents roles
      return (role.value, exportedConfig config) :: agents

/-- `export_config`. -/
def exportConfig (order : IterationOrder String) (exportedAt : String) :
    Service (List (String × Json)) := do
  let keys ← onKeys order getKeys
  let agents ← exportAgents AgentRole.all
  return [("agents", .obj agents), ("keys", .arr (keys.map fun key => .str key.id)),
    ("exported_at", .str exportedAt)]

/-! ## Entries -/

variable {order : IterationOrder String} {V : Validators} {s : ConfigStore}

/-- The configuration of an imported entry, with the role that it is for. -/
def entryConfig (V : Validators) (entry : String × Json) : Except Error AgentLLMConfig :=
  match AgentRole.ofValue? entry.1 with
  | none => .error (valueError ("Invalid agent role: " ++ entry.1))
  | some role => (importedConfig V role entry.2).mapError (invalidConfig entry.1)

/-- Configurations are stored one after another. -/
def ConfigStore.write (s : ConfigStore) (configs : List AgentLLMConfig) : ConfigStore :=
  configs.foldl (fun s config => (updateAgentConfig config s).2) s

theorem entryConfig_role {entry : String × Json} {config : AgentLLMConfig}
    (h : entryConfig V entry = .ok config) : config.role.value = entry.1 := by
  cases hrole : AgentRole.ofValue? entry.1 with
  | none => simp [entryConfig, hrole] at h
  | some role =>
    cases himported : importedConfig V role entry.2 with
    | error e => simp [entryConfig, hrole, himported, Except.mapError] at h
    | ok imported =>
      obtain rfl : imported = config := by
        simpa [entryConfig, hrole, himported, Except.mapError] using h
      have hsame : imported.role = role := by
        simp only [importedConfig, bind_eq_ok] at himported
        obtain ⟨_, _, _, _, _, _, _, _, _, _, _, _, _, _, _, _, _, _, _, _, _, _, heq⟩ := himported
        cases heq
        rfl
      rw [hsame, AgentRole.value_of_ofValue? hrole]

theorem importEntries_cons (entry : String × Json) (entries : List (String × Json)) (n : ℕ)
    (s : ConfigStore) : importEntries V (entry :: entries) n s =
      match entryConfig V entry with
      | .error e => (.error e, s)
      | .ok config => importEntries V entries (n + 1) (s.write [config]) := by
  cases hrole : AgentRole.ofValue? entry.1 with
  | none => simp [importEntries, entryConfig, hrole]
  | some role =>
    cases himported : importedConfig V role entry.2 with
    | error e => simp [importEntries, entryConfig, hrole, himported, Except.mapError]
    | ok imported =>
      simp [importEntries, entryConfig, hrole, himported, Except.mapError, ConfigStore.write,
        updateAgentConfig]

/-- Valid entries are stored. -/
theorem importEntries_append {before : List (String × Json)} {configs : List AgentLLMConfig}
    (h : before.mapM (entryConfig V) = .ok configs) (entries : List (String × Json)) (n : ℕ)
    (s : ConfigStore) : importEntries V (before ++ entries) n s =
      importEntries V entries (n + before.length) (s.write configs) := by
  induction before generalizing configs n s with
  | nil =>
    cases h
    rfl
  | cons entry before ih =>
    rw [List.mapM_cons] at h
    obtain ⟨config, hconfig, hrest⟩ := bind_eq_ok.mp h
    obtain ⟨later, hlater, heq⟩ := bind_eq_ok.mp hrest
    cases heq
    rw [List.cons_append, importEntries_cons, hconfig]
    change importEntries V (before ++ entries) (n + 1) (s.write [config]) = _
    rw [ih hlater, List.length_cons, Nat.add_assoc, Nat.add_comm 1]
    rfl

/-! ## What is stored after a write -/

section

variable {configs : List AgentLLMConfig} {role : AgentRole}

theorem write_cons (config : AgentLLMConfig) (configs : List AgentLLMConfig) (s : ConfigStore) :
    s.write (config :: configs) = (s.write [config]).write configs := rfl

theorem lookup_write_one (config : AgentLLMConfig) (s : ConfigStore) (role : AgentRole) :
    (s.write [config]).agents.lookup (agentKey role) =
      if config.role = role then some config else s.agents.lookup (agentKey role) := by
  by_cases hrole : config.role = role
  · simp [ConfigStore.write, updateAgentConfig, hrole]
  · have hkey : agentKey role ≠ agentKey config.role := fun h => hrole (agentKey_inj h).symm
    simp [ConfigStore.write, updateAgentConfig, hrole, hkey]

theorem lookup_write_of_not_mem (h : ∀ config ∈ configs, config.role ≠ role) (s : ConfigStore) :
    (s.write configs).agents.lookup (agentKey role) = s.agents.lookup (agentKey role) := by
  induction configs generalizing s with
  | nil => rfl
  | cons config configs ih =>
    rw [write_cons, ih fun c hc => h c (List.mem_cons_of_mem _ hc), lookup_write_one,
      if_neg (h config List.mem_cons_self)]

/-- Each of several configurations for different roles is stored. -/
theorem lookup_write (hroles : (configs.map AgentLLMConfig.role).Nodup) {config : AgentLLMConfig}
    (h : config ∈ configs) (s : ConfigStore) :
    (s.write configs).agents.lookup (agentKey config.role) = some config := by
  induction configs generalizing s with
  | nil => cases h
  | cons first configs ih =>
    rw [List.map_cons, List.nodup_cons] at hroles
    rw [write_cons]
    rcases List.mem_cons.mp h with rfl | hlater
    · rw [lookup_write_of_not_mem, lookup_write_one, if_pos rfl]
      intro c hc heq
      exact hroles.1 (List.mem_map.mpr ⟨c, hc, heq⟩)
    · exact ih hroles.2 hlater _

/-- What is stored already may be stored again. -/
theorem lookup_write_of_stored
    (h : ∀ config ∈ configs, s.agents.lookup (agentKey config.role) = some config)
    (role : AgentRole) :
    (s.write configs).agents.lookup (agentKey role) = s.agents.lookup (agentKey role) := by
  induction configs generalizing s with
  | nil => rfl
  | cons config configs ih =>
    have hone : ∀ role, (s.write [config]).agents.lookup (agentKey role) =
        s.agents.lookup (agentKey role) := by
      intro role
      rw [lookup_write_one]
      split
      · next hrole => rw [← hrole, h config List.mem_cons_self]
      · rfl
    rw [write_cons, ih fun c hc => ?_, hone]
    rw [hone]
    exact h c (List.mem_cons_of_mem _ hc)

end

/-! ## Imports that raise -/

/-- An import that raises leaves what is stored for every agent. -/
def Atomic (V : Validators) (config : List (String × Json)) (s : ConfigStore) : Prop :=
  ∀ e, (importConfig V config s).1 = .error e →
    ∀ role, (importConfig V config s).2.agents.lookup (agentKey role) =
      s.agents.lookup (agentKey role)

/-- The entries of an imported dictionary. -/
def entriesOf (config : List (String × Json)) : List (String × Json) :=
  match Json.field? config "agents" with
  | some (.obj entries) => entries
  | _ => []

/-- The configurations of the entries before the first invalid one are stored already. -/
def Spared (V : Validators) (config : List (String × Json)) (s : ConfigStore) : Prop :=
  ∀ before invalid after configs, entriesOf config = before ++ invalid :: after →
    before.mapM (entryConfig V) = .ok configs → (∃ e, entryConfig V invalid = .error e) →
      ∀ c ∈ configs, s.agents.lookup (agentKey c.role) = some c

theorem roles_of_entries {entries : List (String × Json)} {configs : List AgentLLMConfig}
    (h : entries.mapM (entryConfig V) = .ok configs) :
    configs.map (fun config => config.role.value) = entries.map Prod.fst := by
  have hpairs := forall₂_of_mapM h
  clear h
  induction hpairs with
  | nil => rfl
  | cons hconfig _ ih => rw [List.map_cons, List.map_cons, entryConfig_role hconfig, ih]

/-- An import with an invalid entry stores what stands before the first one, and raises. -/
theorem importEntries_invalid {before after : List (String × Json)} {invalid : String × Json}
    {configs : List AgentLLMConfig} {e : Error} (hbefore : before.mapM (entryConfig V) = .ok configs)
    (hinvalid : entryConfig V invalid = .error e) (s : ConfigStore) :
    importEntries V (before ++ invalid :: after) 0 s = (.error e, s.write configs) := by
  rw [importEntries_append hbefore, importEntries_cons, hinvalid]

theorem importEntries_valid {entries : List (String × Json)} {configs : List AgentLLMConfig}
    (h : entries.mapM (entryConfig V) = .ok configs) (s : ConfigStore) :
    importEntries V entries 0 s = (.ok entries.length, s.write configs) := by
  have happend := importEntries_append h [] 0 s
  rw [List.append_nil] at happend
  rw [happend, Nat.zero_add]
  rfl

/-- A dictionary without entries changes nothing. -/
theorem importConfig_cases (V : Validators) (config : List (String × Json)) :
    importConfig V config = importEntries V (entriesOf config) 0 ∨
      entriesOf config = [] ∧ ∀ s, (importConfig V config s).2 = s := by
  cases hagents : Json.field? config "agents" with
  | none => exact .inr ⟨by simp [entriesOf, hagents], fun s => by simp [importConfig, hagents]⟩
  | some agents =>
    cases agents with
    | obj entries => exact .inl (by simp [importConfig, entriesOf, hagents])
    | _ => exact .inr ⟨by simp [entriesOf, hagents], fun s => by simp [importConfig, hagents]⟩

/-- **When an import that raises changes nothing**: when what stands before the first invalid entry
is stored already. -/
theorem atomic_iff {config : List (String × Json)}
    (hkeys : ((entriesOf config).map Prod.fst).Nodup) : Atomic V config s ↔ Spared V config s := by
  rcases importConfig_cases V config with himport | ⟨hnone, hsame⟩
  · constructor
    · intro h before invalid after configs hentries hbefore ⟨e, hinvalid⟩ c hc
      have hrun : importConfig V config s = (.error e, s.write configs) := by
        rw [himport, hentries, importEntries_invalid hbefore hinvalid]
      have hunchanged := h e (by rw [hrun]) c.role
      have hroles : (configs.map AgentLLMConfig.role).Nodup := by
        have hvalues : ((configs.map AgentLLMConfig.role).map AgentRole.value).Nodup := by
          rw [List.map_map]
          change (configs.map fun config => config.role.value).Nodup
          rw [roles_of_entries hbefore]
          rw [hentries, List.map_append] at hkeys
          exact hkeys.of_append_left
        exact hvalues.of_map
      rw [← hunchanged, hrun]
      exact lookup_write hroles hc s
    · intro h e he role
      cases hall : (entriesOf config).mapM (entryConfig V) with
      | ok configs =>
        rw [himport, importEntries_valid hall] at he
        cases he
      | error e' =>
        obtain ⟨before, invalid, after, configs, hentries, hbefore, hinvalid⟩ :=
          exists_of_mapM_eq_error hall
        have hstored := h before invalid after configs hentries hbefore ⟨e', hinvalid⟩
        rw [himport, hentries, importEntries_invalid hbefore hinvalid]
        exact lookup_write_of_stored hstored role
  · constructor
    · intro _ before invalid after configs hentries
      rw [hnone] at hentries
      simp at hentries
    · intro _ e _ role
      rw [hsame]

/-! ## What the service can come to have stored -/

/-- The calls of the service that write. -/
inductive ServiceCall where
  | update (config : AgentLLMConfig)
  | partialUpdate (role : AgentRole) (updates : AgentConfigUpdate)
  | importConfig (config : List (String × Json))
  | addKey (env : Credentials.Env) (provider : LLMProvider) (name key : String)
  | deleteKey (keyId : String)
  | testApiKey (env : Credentials.Env) (keyId : String)

/-- What is stored after a call. -/
def ServiceCall.apply (order : IterationOrder String) (V : Validators) (s : ConfigStore) :
    ServiceCall → ConfigStore
  | .update config => (updateAgentConfig config s).2
  | .partialUpdate role updates => (partialUpdateAgentConfig role updates s).2
  | .importConfig config => (Llm.importConfig V config s).2
  | .addKey env provider name key => (onKeys order (Credentials.addKey env provider name key) s).2
  | .deleteKey keyId => (onKeys order (Credentials.deleteKey keyId) s).2
  | .testApiKey env keyId => (onKeys order (Credentials.testApiKey env keyId) s).2

/-- What is stored after calls from an empty store on. -/
def Reachable (order : IterationOrder String) (V : Validators) (s : ConfigStore) : Prop :=
  ∃ calls, s = run (ServiceCall.apply order V) .empty calls

/-- A configuration is stored under its own role, and each key is of a provider. -/
structure Sound (s : ConfigStore) : Prop where
  role : ∀ role config, s.agents.lookup (agentKey role) = some config → config.role = role
  provider : ∀ name record, s.keys.lookup name = some record →
    ∃ provider : LLMProvider, record.provider = some provider.value

theorem Sound.write_one (h : Sound s) (config : AgentLLMConfig) : Sound (s.write [config]) := by
  refine ⟨fun role found hfound => ?_, h.provider⟩
  rw [lookup_write_one] at hfound
  split at hfound
  · next hrole =>
    cases hfound
    exact hrole
  · exact h.role role found hfound

theorem Sound.importEntries (h : Sound s) (entries : List (String × Json)) (n : ℕ) :
    Sound (importEntries V entries n s).2 := by
  induction entries generalizing n s with
  | nil => exact h
  | cons entry entries ih =>
    rw [importEntries_cons]
    cases entryConfig V entry with
    | error e => exact h
    | ok config => exact ih (h.write_one config) (n + 1)

theorem Sound.insert (h : Sound s) (name : String) {record : Credential} {provider : LLMProvider}
    (hrecord : record.provider = some provider.value) :
    Sound { s with keys := s.keys.insert name record } := by
  refine ⟨h.role, fun other found hfound => ?_⟩
  by_cases hother : other = name
  · rw [hother] at hfound
    simp only [AList.lookup_insert, Option.some.injEq] at hfound
    exact ⟨provider, hfound ▸ hrecord⟩
  · rw [AList.lookup_insert_ne hother] at hfound
    exact h.provider other found hfound

/-- A test of a key leaves what is stored, or writes the record of the key back. -/
theorem onKeys_testApiKey (env : Credentials.Env) (keyId : String) (s : ConfigStore) :
    (onKeys order (testApiKey env keyId) s).2 = s ∨
      ∃ record isValid, s.keys.lookup (llmKey keyId) = some record ∧
        (onKeys order (testApiKey env keyId) s).2 =
          { s with keys := s.keys.insert (llmKey keyId) { record with isValid := isValid } } := by
  cases hlookup : s.keys.lookup (llmKey keyId) with
  | none => exact .inl (by simp [onKeys, testApiKey, hlookup])
  | some record =>
    by_cases hempty : record.keyEncrypted = ""
    · exact .inl (by simp [onKeys, testApiKey, hlookup, hempty])
    · cases hdecrypt : env.decrypt record.keyEncrypted with
      | error e => exact .inl (by simp [onKeys, testApiKey, hlookup, hempty, hdecrypt])
      | ok decrypted =>
        refine .inr ⟨record, ?_⟩
        cases hcount : env.discoverModels (record.provider.getD "") decrypted with
        | error e =>
          exact ⟨false, rfl, by
            simp [onKeys, testApiKey, hlookup, hempty, hdecrypt, hcount]⟩
        | ok count =>
          exact ⟨decide (0 < count), rfl, by
            simp [onKeys, testApiKey, hlookup, hempty, hdecrypt, hcount]⟩

theorem Sound.apply (h : Sound s) (call : ServiceCall) : Sound (call.apply order V s) := by
  cases call with
  | update config => exact h.write_one config
  | partialUpdate role updates => exact h.write_one _
  | importConfig config =>
    rcases importConfig_cases V config with himport | ⟨_, hsame⟩
    · rw [ServiceCall.apply, himport]
      exact h.importEntries _ _
    · rw [ServiceCall.apply, hsame]
      exact h
  | addKey env provider name key =>
    exact h.insert _ rfl
  | deleteKey keyId =>
    refine ⟨h.role, fun name record hrecord => ?_⟩
    exact h.provider name record (Keyspace.lookup_erase_eq_some.mp hrecord).2
  | testApiKey env keyId =>
    rw [ServiceCall.apply]
    rcases @onKeys_testApiKey order env keyId s with hsame | ⟨record, isValid, hlookup, hwritten⟩
    · rw [hsame]
      exact h
    · obtain ⟨provider, hprovider⟩ := h.provider _ record hlookup
      rw [hwritten]
      exact h.insert _ hprovider

theorem Reachable.sound (h : Reachable order V s) : Sound s := by
  obtain ⟨calls, rfl⟩ := h
  have hempty : Sound .empty := ⟨by simp [ConfigStore.empty], by simp [ConfigStore.empty]⟩
  exact run_invariant' (I := Sound) (fun _ call hs => hs.apply call) hempty calls

/-! ## Round trips -/

/-- Values that a configuration has are validated to themselves. -/
structure Validators.Faithful (V : Validators) : Prop where
  settings : ∀ settings : AgentSettings, V.settings (.float settings.temperature)
    (.int settings.maxTokens) (optional .float settings.topP)
    (optional (fun k : ℕ => .int k) settings.topK) = .ok settings
  config : ∀ model apiKeyId enabled,
    V.config (.str model) (.str apiKeyId) (.bool enabled) = .ok (model, apiKeyId, enabled)

/-- The keys can be listed. -/
theorem onKeys_getKeys (h : Sound s) : ∃ keys, onKeys order getKeys s = (.ok keys, s) := by
  have hread : ∀ names, ∃ keys, (readAll (fun record => some <$> record.apiKey) names).eval
      (Credentials.serve order) s.keys = (.ok keys, s.keys) := by
    intro names
    induction names with
    | nil => exact ⟨[], rfl⟩
    | cons name names ih =>
      obtain ⟨keys, hkeys⟩ := ih
      cases hlookup : s.keys.lookup name with
      | none => exact ⟨keys, by simpa [readAll, hlookup] using hkeys⟩
      | some record =>
        obtain ⟨provider, hprovider⟩ := h.provider name record hlookup
        have hkey : ∃ key, record.apiKey = .ok key := by
          rw [Credential.apiKey, hprovider]
          exact ⟨_, by simp [required, LLMProvider.ofValue_value, ok_bind]; rfl⟩
        obtain ⟨key, hkey⟩ := hkey
        refine ⟨key :: keys, ?_⟩
        simp [readAll, hlookup, hkey, Program.eval_elim, hkeys]
  obtain ⟨keys, hkeys⟩ := hread (s.keys.matching order "llm:keys:*")
  have hlisted : getKeys.eval (Credentials.serve order) s.keys = (.ok keys, s.keys) := hkeys
  exact ⟨keys, by simp [onKeys, hlisted]⟩

theorem exportAgents_apply (roles : List AgentRole) (s : ConfigStore) :
    exportAgents roles s =
      (.ok (roles.map fun role => (role.value, exportedConfig (configOf s role))), s) := by
  induction roles with
  | nil => rfl
  | cons role roles ih => simp [exportAgents, getAgentConfig, configOf, ih]

/-- An exported configuration is imported as it is. -/
theorem entryConfig_exported (hV : V.Faithful) (config : AgentLLMConfig) :
    entryConfig V (config.role.value, exportedConfig config) = .ok config := by
  simp [entryConfig, importedConfig, exportedConfig, Json.get, Json.field?, providerOf,
    LLMProvider.ofValue_value, hV.settings, hV.config, ok_bind]
  rfl

/-- What is exported is imported, and every configuration is what it was. -/
def RoundTrips (order : IterationOrder String) (V : Validators) (exportedAt : String)
    (s : ConfigStore) : Prop :=
  ∃ exported count s', exportConfig order exportedAt s = (.ok exported, s) ∧
    importConfig V exported s = (.ok count, s') ∧ ∀ role, configOf s' role = configOf s role

theorem Sound.configOf_role (h : Sound s) (role : AgentRole) : (configOf s role).role = role := by
  cases hlookup : s.agents.lookup (agentKey role) with
  | none => simp [configOf, hlookup, getDefaultConfig]
  | some config => simp [configOf, hlookup, h.role role config hlookup]

/-- **What is exported can be imported**, and leaves every configuration. -/
theorem Sound.roundTrips (h : Sound s) (hV : V.Faithful) (exportedAt : String) :
    RoundTrips order V exportedAt s := by
  obtain ⟨keys, hkeys⟩ := @onKeys_getKeys order s h
  let entries := AgentRole.all.map fun role => (role.value, exportedConfig (configOf s role))
  have hvalid : entries.mapM (entryConfig V) = .ok (AgentRole.all.map (configOf s)) := by
    rw [List.mapM_map]
    refine mapM_eq_map fun role _ => ?_
    have hentry := entryConfig_exported hV (configOf s role)
    rwa [h.configOf_role] at hentry
  refine ⟨[("agents", .obj entries), ("keys", .arr (keys.map fun key => .str key.id)),
    ("exported_at", .str exportedAt)], entries.length, s.write (AgentRole.all.map (configOf s)),
    ?_, ?_, fun role => ?_⟩
  · simp [exportConfig, hkeys, exportAgents_apply, entries]
  · simpa [importConfig, Json.field?] using importEntries_valid hvalid s
  · have hroles : ((AgentRole.all.map (configOf s)).map AgentLLMConfig.role).Nodup := by
      have hself : AgentLLMConfig.role ∘ configOf s = id := funext h.configOf_role
      rw [List.map_map, hself]
      decide
    have hmem : configOf s role ∈ AgentRole.all.map (configOf s) :=
      List.mem_map.mpr ⟨role, by cases role <;> decide, rfl⟩
    have hstored := lookup_write hroles hmem s
    rw [h.configOf_role] at hstored
    rw [configOf, hstored, Option.getD_some]

/-- **When imports are atomic and round trips leave what is stored**: round trips always do, and
an import that raises changes nothing if and only if what stands before the first invalid entry
is stored already. -/
theorem importExport_iff (hV : V.Faithful) (hs : Reachable order V s)
    {config : List (String × Json)} (hkeys : ((entriesOf config).map Prod.fst).Nodup)
    (exportedAt : String) :
    (Atomic V config s ∧ RoundTrips order V exportedAt s) ↔ Spared V config s := by
  rw [and_iff_left (hs.sound.roundTrips hV exportedAt)]
  exact atomic_iff hkeys

/-! ## An invalid entry behind a valid one -/

/-- A number or nothing. -/
private def numberOf : Json → Option (Option ℚ)
  | .null => some none
  | .float x => some (some x)
  | _ => none

/-- A count or nothing. -/
private def countOf : Json → Option (Option ℕ)
  | .null => some none
  | .int n => some (some n.toNat)
  | _ => none

/-- Values are accepted if they are of the type of their field and in its bounds. -/
def checking : Validators where
  settings
    | .float t, .int n, p, k =>
      match numberOf p, countOf k with
      | some topP, some topK =>
        if h : (0 ≤ t ∧ t ≤ 1) ∧ (1024 ≤ n.toNat ∧ n.toNat ≤ 32768) ∧
            (∀ x ∈ topP, 0 ≤ x ∧ x ≤ 1) ∧ ∀ k ∈ topK, 1 ≤ k ∧ k ≤ 100 then
          .ok ⟨t, n.toNat, topP, topK, h.1, h.2.1, h.2.2.1, h.2.2.2⟩
        else .error (valueError "out of bounds")
      | _, _ => .error (valueError "not a number")
    | _, _, _, _ => .error (valueError "not a number")
  config
    | .str model, .str apiKeyId, .bool enabled => .ok (model, apiKeyId, enabled)
    | _, _, _ => .error (valueError "not a text")

theorem checking_faithful : checking.Faithful where
  settings := by
    intro settings
    have hp : numberOf (optional .float settings.topP) = some settings.topP := by
      cases settings.topP <;> rfl
    have hk : countOf (optional (fun k : ℕ => .int k) settings.topK) = some settings.topK := by
      cases settings.topK <;> rfl
    simp only [checking, hp, hk, Int.toNat_natCast]
    rw [dif_pos ⟨settings.temperature_mem, settings.maxTokens_mem, settings.topP_mem,
      settings.topK_mem⟩]
  config _ _ _ := rfl

/-- A valid entry, and one for a role that does not exist. -/
def halfValid : List (String × Json) :=
  [("agents", .obj [("discovery", .obj [("model", .str "claude-opus-4")]), ("tester", .obj [])])]

/-- With nothing stored, an import of them is atomic only if the valid one is spared. -/
theorem importExport_halfValid :
    (Atomic checking halfValid .empty ∧ RoundTrips .asAnswered checking "" .empty) ↔
      Spared checking halfValid .empty :=
  importExport_iff checking_faithful ⟨[], rfl⟩ (by decide) ""

/-- The valid entry stays stored. -/
theorem not_atomic_halfValid : ¬ ∀ (order : IterationOrder String) (V : Validators)
    (s : ConfigStore) (config : List (String × Json)) (exportedAt : String), V.Faithful →
      Reachable order V s → ((entriesOf config).map Prod.fst).Nodup →
        Atomic V config s ∧ RoundTrips order V exportedAt s := by
  intro h
  obtain ⟨hatomic, _⟩ := h .asAnswered checking .empty halfValid "" checking_faithful ⟨[], rfl⟩
    (by decide)
  have hraised : (importConfig checking halfValid .empty).1.toOption = none := by decide +kernel
  cases himport : (importConfig checking halfValid .empty).1 with
  | ok count => simp [himport, Except.toOption] at hraised
  | error e =>
    have hsame := hatomic e himport .discovery
    have hstored : ((importConfig checking halfValid .empty).2.agents.lookup
        (agentKey .discovery)).isSome = true := by decide +kernel
    rw [hsame] at hstored
    exact absurd hstored (by decide)

end DoxAsdlc.Llm
