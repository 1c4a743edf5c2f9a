import DoxAsdlc.Llm.ImportExport

/-!
# Validation before an import

A configuration can be validated before it is imported.  Both look at each field of each entry in
the same way.  The validation takes any text for a role and for a provider, and does not miss the
section with the agents, while the import knows some roles and some providers, and needs the
section.

## Main definitions

* `FieldForms`, `FieldForms.validators` — what pydantic makes of the values of fields.
* `validateConfig` — the validation.
* `Predicts` — the validation tells whether the import succeeds.

## Main results

* `predicts_iff` — when it does.
-/

namespace DoxAsdlc.Llm

open Credentials Interaction Interaction.Act Redis Rlm

/-! ## Fields -/

/-- The numbers and the truth values that pydantic reads in texts. -/
structure FieldForms where
  float : String → Option ℚ
  int : String → Option ℤ
  bool : String → Option Bool

/-- A field that is a `str`. -/
def textField : Json → Except Error String
  | .str s => .ok s
  | _ => .error (valueError "Input should be a valid string")

/-- A field that is a value of a kind, or nothing. -/
def optionalField {A : Type} (check : Json → Except Error A) : Json → Except Error (Option A)
  | .null => .ok none
  | value => (check value).map some

namespace FieldForms

variable (forms : FieldForms)

/-- A field that is a `float`. -/
def floatField : Json → Except Error ℚ
  | .bool b => .ok (if b then 1 else 0)
  | .int n => .ok n
  | .float x => .ok x
  | .str s =>
    match forms.float s with
    | some x => .ok x
    | none => .error (valueError "Input should be a valid number")
  | _ => .error (valueError "Input should be a valid number")

/-- A field that is an `int`. -/
def intField : Json → Except Error ℤ
  | .bool b => .ok (if b then 1 else 0)
  | .int n => .ok n
  | .float x =>
    if x.den = 1 then .ok x.num
    else .error (valueError "Input should be a valid integer")
  | .str s =>
    match forms.int s with
    | some n => .ok n
    | none => .error (valueError "Input should be a valid integer")
  | _ => .error (valueError "Input should be a valid integer")

/-- A field that is a `bool`. -/
def boolField : Json → Except Error Bool
  | .bool b => .ok b
  | .int n =>
    if n = 0 then .ok false
    else if n = 1 then .ok true
    else .error (valueError "Input should be a valid boolean")
  | .float x =>
    if x = 0 then .ok false
    else if x = 1 then .ok true
    else .error (valueError "Input should be a valid boolean")
  | .str s =>
    match forms.bool s with
    | some b => .ok b
    | none => .error (valueError "Input should be a valid boolean")
  | _ => .error (valueError "Input should be a valid boolean")

/-- A number from 0 to 1. -/
abbrev Share := {x : ℚ // 0 ≤ x ∧ x ≤ 1}

/-- A whole number within bounds. -/
abbrev Count (low high : ℕ) := {n : ℕ // low ≤ n ∧ n ≤ high}

/-- `Field(ge=0.0, le=1.0)`. -/
def shareField (value : Json) : Except Error Share := do
  let x ← forms.floatField value
  if h : 0 ≤ x ∧ x ≤ 1 then return ⟨x, h⟩
  else throw (valueError "Input should be between 0 and 1")

/-- `Field(ge=low, le=high)`. -/
def countField (low high : ℕ) (value : Json) : Except Error (Count low high) := do
  let n ← forms.intField value
  if h : low ≤ n.toNat ∧ n.toNat ≤ high ∧ 0 ≤ n then return ⟨n.toNat, h.1, h.2.1⟩
  else throw (valueError ("Input should be between " ++ toString low ++ " and " ++ toString high))

/-- The fields of `AgentSettings` and of `AgentLLMConfig`. -/
def validators : Validators where
  settings temperature maxTokens topP topK := do
    let temperature ← forms.shareField temperature
    let maxTokens ← forms.countField 1024 32768 maxTokens
    let topP ← optionalField forms.shareField topP
    let topK ← optionalField (forms.countField 1 100) topK
    return {
      temperature := temperature
      maxTokens := maxTokens
      topP := topP.map Subtype.val
      topK := topK.map Subtype.val
      temperature_mem := temperature.2
      maxTokens_mem := maxTokens.2
      topP_mem := by
        intro x hx
        obtain ⟨share, -, rfl⟩ := Option.map_eq_some_iff.mp hx
        exact share.2
      topK_mem := by
        intro k hk
        obtain ⟨count, -, rfl⟩ := Option.map_eq_some_iff.mp hk
        exact count.2 }
  config model apiKeyId enabled := do
    let model ← textField model
    let apiKeyId ← textField apiKeyId
    let enabled ← forms.boolField enabled
    return (model, apiKeyId, enabled)

end FieldForms

/-! ## The validation -/

open FieldForms (Share Count)

/-- `AgentConfigImport`. -/
structure AgentConfigImport where
  provider : String
  model : String
  apiKeyId : String
  temperature : Share
  maxTokens : Count 1024 32768
  topP : Option Share
  topK : Option (Count 1 100)
  enabled : Bool

/-- A field of a dictionary, or the default value where it is missing. -/
def fieldOr {A : Type} (fields : List (String × Json)) (key : String)
    (check : Json → Except Error A) (default : A) : Except Error A :=
  match Json.field? fields key with
  | some value => check value
  | none => .ok default

variable (forms : FieldForms)

theorem defaultTemperature_mem : 0 ≤ (1 / 5 : ℚ) ∧ (1 / 5 : ℚ) ≤ 1 := by norm_num

theorem defaultMaxTokens_mem : 1024 ≤ 16384 ∧ 16384 ≤ 32768 := by norm_num

/-- `AgentConfigImport(**entry)`. -/
def agentConfigImport : Json → Except Error AgentConfigImport
  | .obj fields => do
      let provider ← fieldOr fields "provider" textField "anthropic"
      let model ← fieldOr fields "model" textField "claude-sonnet-4-20250514"
      let apiKeyId ← fieldOr fields "api_key_id" textField ""
      let temperature ← fieldOr fields "temperature" forms.shareField
        ⟨1 / 5, defaultTemperature_mem⟩
      let maxTokens ← fieldOr fields "max_tokens" (forms.countField 1024 32768)
        ⟨16384, defaultMaxTokens_mem⟩
      let topP ← fieldOr fields "top_p" (optionalField forms.shareField) none
      let topK ← fieldOr fields "top_k" (optionalField (forms.countField 1 100)) none
      let enabled ← fieldOr fields "enabled" forms.boolField true
      return { provider, model, apiKeyId, temperature, maxTokens, topP, topK, enabled }
  | _ => .error (valueError "Input should be a valid dictionary")

/-- `LLMConfigImport(**config)`. -/
def llmConfigImport (config : List (String × Json)) :
    Except Error (List (String × AgentConfigImport)) :=
  match Json.field? config "agents" with
  | none => .ok []
  | some (.obj entries) => entries.mapM fun entry =>
    (agentConfigImport forms entry.2).map fun agent => (entry.1, agent)
  | some _ => .error (valueError "Input should be a valid dictionary")

/-- `ValidationResponse`. -/
structure ValidationResponse where
  valid : Bool
  errors : List String := []
  deriving DecidableEq, Repr

/-- `validate_config`. -/
def validateConfig (config : List (String × Json)) : ValidationResponse :=
  match llmConfigImport forms config with
  | .ok _ => { valid := true }
  | .error e => { valid := false, errors := [e.str] }

/-! ## What both accept -/

/-- A field is missing, or has a value that is accepted. -/
def Accepted {A : Type} (fields : List (String × Json)) (key : String)
    (check : Json → Except Error A) : Prop :=
  ∀ value, Json.field? fields key = some value → ∃ a, check value = .ok a

section

variable {A : Type} {fields : List (String × Json)} {key : String} {check : Json → Except Error A}

theorem exists_fieldOr {default : A} :
    (∃ a, fieldOr fields key check default = .ok a) ↔ Accepted fields key check := by
  cases h : Json.field? fields key with
  | none => simp [fieldOr, Accepted, h]
  | some value => simp [fieldOr, Accepted, h]

/-- A default that is given as a value, and is accepted. -/
theorem exists_check_getD {default : Json} {a : A} (hdefault : check default = .ok a) :
    (∃ a, check ((Json.field? fields key).getD default) = .ok a) ↔ Accepted fields key check := by
  cases h : Json.field? fields key with
  | none => simp [Accepted, h, hdefault]
  | some value => simp [Accepted, h]

end

/-- The fields of an entry, other than the provider, have values that are accepted. -/
@[mk_iff] structure FieldsFit (fields : List (String × Json)) : Prop where
  model : Accepted fields "model" textField
  apiKeyId : Accepted fields "api_key_id" textField
  temperature : Accepted fields "temperature" forms.shareField
  maxTokens : Accepted fields "max_tokens" (forms.countField 1024 32768)
  topP : Accepted fields "top_p" (optionalField forms.shareField)
  topK : Accepted fields "top_k" (optionalField (forms.countField 1 100))
  enabled : Accepted fields "enabled" forms.boolField

/-- An entry is a dictionary whose fields have values that are accepted. -/
def WellFormed (entry : Json) : Prop :=
  ∃ fields, entry = .obj fields ∧ Accepted fields "provider" textField ∧ FieldsFit forms fields

/-- An entry is for a role that there is, and with a provider that there is. -/
def Known (entry : String × Json) : Prop :=
  (AgentRole.ofValue? entry.1).isSome ∧
    ∀ fields, entry.2 = .obj fields → Accepted fields "provider" providerOf

variable {forms}

/-- A sequence comes to a value if its first part does and, whatever that value is, the rest. -/
theorem exists_bind {A B : Type} {x : Except Error A} {f : A → Except Error B} {P : Prop}
    (h : ∀ a, (∃ b, f a = .ok b) ↔ P) : (∃ b, (x >>= f) = .ok b) ↔ (∃ a, x = .ok a) ∧ P := by
  cases x with
  | ok a => simpa [ok_bind] using h a
  | error e =>
    refine iff_of_false ?_ (by simp)
    intro ⟨b, hb⟩
    cases hb

theorem exists_return {A : Type} {a : A} : (∃ b, (pure a : Except Error A) = .ok b) ↔ True :=
  iff_of_true ⟨a, rfl⟩ trivial

/-- What the validation accepts of an entry. -/
theorem exists_agentConfigImport {entry : Json} :
    (∃ agent, agentConfigImport forms entry = .ok agent) ↔ WellFormed forms entry := by
  cases entry with
  | obj fields =>
    have hall : (∃ agent, agentConfigImport forms (.obj fields) = .ok agent) ↔
        Accepted fields "provider" textField ∧ FieldsFit forms fields := by
      rw [agentConfigImport, exists_bind fun _ => exists_bind fun _ => exists_bind fun _ =>
        exists_bind fun _ => exists_bind fun _ => exists_bind fun _ => exists_bind fun _ =>
        exists_bind fun _ => exists_return]
      simp only [exists_fieldOr, fieldsFit_iff, and_true]
    simp [hall, WellFormed]
  | _ => simp [agentConfigImport, WellFormed]

theorem exists_settings {temperature maxTokens topP topK : Json} :
    (∃ settings, forms.validators.settings temperature maxTokens topP topK = .ok settings) ↔
      (∃ a, forms.shareField temperature = .ok a) ∧
      (∃ a, forms.countField 1024 32768 maxTokens = .ok a) ∧
      (∃ a, optionalField forms.shareField topP = .ok a) ∧
      ∃ a, optionalField (forms.countField 1 100) topK = .ok a := by
  rw [FieldForms.validators, exists_bind fun _ => exists_bind fun _ => exists_bind fun _ =>
    exists_bind fun _ => exists_return]
  simp only [and_true]

theorem exists_config {model apiKeyId enabled : Json} :
    (∃ config, forms.validators.config model apiKeyId enabled = .ok config) ↔
      (∃ a, textField model = .ok a) ∧ (∃ a, textField apiKeyId = .ok a) ∧
      ∃ a, forms.boolField enabled = .ok a := by
  rw [FieldForms.validators, exists_bind fun _ => exists_bind fun _ => exists_bind fun _ =>
    exists_return]
  simp only [and_true]

theorem shareField_default : forms.shareField (.float (1 / 5)) = .ok ⟨1 / 5, by norm_num⟩ := by
  have hbounds : (0 : ℚ) ≤ 1 / 5 ∧ (1 : ℚ) / 5 ≤ 1 := by norm_num
  simp only [FieldForms.shareField, FieldForms.floatField, ok_bind, dif_pos hbounds]
  rfl

/-- What an import accepts of an entry. -/
theorem exists_importedConfig {role : AgentRole} {entry : Json} :
    (∃ config, importedConfig forms.validators role entry = .ok config) ↔
      ∃ fields, entry = .obj fields ∧ Accepted fields "provider" providerOf ∧
        FieldsFit forms fields := by
  cases entry with
  | obj fields =>
    have hall : (∃ config, importedConfig forms.validators role (.obj fields) = .ok config) ↔
        Accepted fields "provider" providerOf ∧ FieldsFit forms fields := by
      have hprovider : providerOf (.str "anthropic") = .ok .anthropic := rfl
      have hcount : forms.countField 1024 32768 (.int 16384) = .ok ⟨16384, by norm_num⟩ := rfl
      have htopP : optionalField forms.shareField .null = .ok none := rfl
      have htopK : optionalField (forms.countField 1 100) .null = .ok none := rfl
      have htext (s : String) : textField (.str s) = .ok s := rfl
      have henabled : forms.boolField (.bool true) = .ok true := rfl
      simp only [importedConfig, Json.get, ok_bind]
      rw [exists_bind fun _ => exists_bind fun _ => exists_bind fun _ => exists_return,
        exists_settings, exists_config, exists_check_getD hprovider,
        exists_check_getD shareField_default, exists_check_getD hcount, exists_check_getD htopP,
        exists_check_getD htopK, exists_check_getD (htext _), exists_check_getD (htext _),
        exists_check_getD henabled, fieldsFit_iff]
      tauto
    simp [hall]
  | _ =>
    refine iff_of_false ?_ (by simp)
    rintro ⟨config, h⟩
    cases h

/-- What an import accepts of an entry with its role. -/
theorem exists_entryConfig {entry : String × Json} :
    (∃ config, entryConfig forms.validators entry = .ok config) ↔
      WellFormed forms entry.2 ∧ Known entry := by
  have hroles : (∃ config, entryConfig forms.validators entry = .ok config) ↔
      ∃ role, AgentRole.ofValue? entry.1 = some role ∧
        ∃ config, importedConfig forms.validators role entry.2 = .ok config := by
    cases hrole : AgentRole.ofValue? entry.1 with
    | none => simp [entryConfig, hrole]
    | some role =>
      cases himported : importedConfig forms.validators role entry.2 with
      | ok config => simp [entryConfig, hrole, himported, Except.mapError]
      | error e => simp [entryConfig, hrole, himported, Except.mapError]
  simp only [hroles, exists_importedConfig]
  constructor
  · rintro ⟨role, hrole, fields, hfields, hprovider, hfit⟩
    refine ⟨⟨fields, hfields, ?_, hfit⟩, by simp [hrole], ?_⟩
    · intro value hvalue
      obtain ⟨provider, hvalid⟩ := hprovider value hvalue
      cases value with
      | str s => exact ⟨s, rfl⟩
      | _ => cases hvalid
    · intro fields' hfields'
      rw [hfields] at hfields'
      cases hfields'
      exact hprovider
  · rintro ⟨⟨fields, hfields, _, hfit⟩, hrole, hprovider⟩
    obtain ⟨role, hrole⟩ := Option.isSome_iff_exists.mp hrole
    exact ⟨role, hrole, fields, hfields, hprovider fields hfields, hfit⟩

/-! ## The validation and the import -/

variable (forms)

/-- The validation of a configuration tells whether its import succeeds. -/
def Predicts (config : List (String × Json)) (s : ConfigStore) : Prop :=
  (validateConfig forms config).valid = true ↔
    ∃ imported, (importConfig forms.validators config s).1 = .ok imported

/-- The section with the agents is no dictionary, or has an entry that is malformed. -/
def Malformed (agents : Json) : Prop :=
  ∀ entries, agents = .obj entries → ∃ entry ∈ entries, ¬ WellFormed forms entry.2

variable {forms}

theorem valid_iff_of_entries {config : List (String × Json)} {entries : List (String × Json)}
    (h : Json.field? config "agents" = some (.obj entries)) :
    (validateConfig forms config).valid = true ↔ ∀ entry ∈ entries, WellFormed forms entry.2 := by
  have hall : (∃ agents, llmConfigImport forms config = .ok agents) ↔
      ∀ entry ∈ entries, WellFormed forms entry.2 := by
    simp only [llmConfigImport, h, mapM_ok, ← exists_agentConfigImport]
    refine forall₂_congr fun entry _ => ?_
    cases agentConfigImport forms entry.2 <;> simp [Except.map]
  rw [← hall, validateConfig]
  cases llmConfigImport forms config <;> simp

theorem imported_iff_of_entries {config : List (String × Json)} {entries : List (String × Json)}
    (h : Json.field? config "agents" = some (.obj entries)) (s : ConfigStore) :
    (∃ imported, (importConfig forms.validators config s).1 = .ok imported) ↔
      ∀ entry ∈ entries, WellFormed forms entry.2 ∧ Known entry := by
  have himport : importConfig forms.validators config = importEntries forms.validators entries 0 := by
    simp only [importConfig, h]
  simp only [← exists_entryConfig, himport]
  rw [← mapM_ok]
  cases hall : entries.mapM (entryConfig forms.validators) with
  | ok configs => simp [importEntries_valid hall]
  | error e =>
    obtain ⟨before, invalid, after, configs, rfl, hbefore, hinvalid⟩ :=
      exists_of_mapM_eq_error hall
    simp [importEntries_invalid hbefore hinvalid]

/-- **When the validation predicts the import**: when there is a section with the agents, and it is
malformed, or has known roles and known providers only. -/
theorem predicts_iff (forms : FieldForms) (config : List (String × Json)) (s : ConfigStore) :
    Predicts forms config s ↔ ∃ agents, Json.field? config "agents" = some agents ∧
      (Malformed forms agents ∨ ∀ entries, agents = .obj entries → ∀ entry ∈ entries,
        Known entry) := by
  cases hagents : Json.field? config "agents" with
  | none =>
    simp [Predicts, validateConfig, llmConfigImport, importConfig, hagents]
  | some agents =>
    cases agents with
    | obj entries =>
      rw [Predicts, valid_iff_of_entries hagents, imported_iff_of_entries hagents]
      simp only [forall_and, Option.some.injEq]
      constructor
      · intro h
        refine ⟨_, rfl, ?_⟩
        by_cases hall : ∀ entry ∈ entries, WellFormed forms entry.2
        · right
          intro _ heq entry hentry
          cases heq
          exact (h.mp hall).2 entry hentry
        · left
          intro _ heq
          cases heq
          simpa using hall
      · rintro ⟨agents, heq, h⟩
        subst heq
        obtain hmalformed | hknown := h
        · obtain ⟨entry, hentry, hnot⟩ := hmalformed entries rfl
          exact iff_of_false (fun h => hnot (h entry hentry)) fun h => hnot (h.1 entry hentry)
        · exact ⟨fun h => ⟨h, hknown entries rfl⟩, And.left⟩
    | _ =>
      simp [Predicts, validateConfig, llmConfigImport, importConfig, hagents, Malformed]

/-- Texts that stand for no numbers or truth values. -/
def noForms : FieldForms := ⟨fun _ => none, fun _ => none, fun _ => none⟩

/-- A role with a provider that there is not. -/
def unknownProvider : List (String × Json) :=
  [("agents", .obj [("coding", .obj [("provider", .str "mistral")])])]

/-- The validation accepts it, and the import raises. -/
theorem not_predicts_unknownProvider : ¬ Predicts noForms unknownProvider .empty := by
  intro h
  have hvalid : (validateConfig noForms unknownProvider).valid = true := by decide
  obtain ⟨imported, himported⟩ := h.mp hvalid
  have hraised : (importConfig noForms.validators unknownProvider .empty).1.toOption = none := by
    decide
  rw [himported] at hraised
  cases hraised

end DoxAsdlc.Llm
