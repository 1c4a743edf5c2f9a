import DoxAsdlc.Credentials.Store

/-!
# The services that keep credentials

The credentials of the integrations.  Retrieving a credential reads its record and writes all of
it back with the time of use before the value is decrypted.  Testing one reads its record, checks
the value, with some kinds by asking the integration, and writes all of it back with the verdict;
where the check fails, or the write, the record is written back as invalid.

A key is listed masked, and decrypted for internal use.  Testing a key reads its record, asks
the provider for its models, and writes the whole record back with the verdict; where the
question fails, or the write, the record is written back as invalid.

## Main definitions

* `storeCredential`, `retrieve`, `listCredentials`, `delete` — the operations.
* `checkCredential`, `test` — the test of a credential.
* `addKey`, `getKeys`, `deleteKey`, `getDecryptedKey` — the operations on keys.
* `testApiKey` — the test of a key.
-/

namespace DoxAsdlc.Credentials

open Interaction Interaction.Program

/-- A credential as it is listed. -/
structure CredentialMetadata where
  id : String
  integrationType : String
  credentialType : String
  name : String
  keyMasked : String
  createdAt : Time
  lastUsed : Option Time
  isValid : Bool
  deriving DecidableEq, Repr

/-- The listed form of a record. -/
def Credential.metadata (record : Credential) : Except Error CredentialMetadata := do
  let integrationType ← required "integration_type" record.integrationType
  let credentialType ← required "credential_type" record.credentialType
  return {
    id := record.id
    integrationType := integrationType
    credentialType := credentialType
    name := record.name
    keyMasked := record.keyMasked
    createdAt := record.createdAt
    lastUsed := record.lastUsed
    isValid := record.isValid }

/-- `f"{REDIS_INTEGRATION_PREFIX}{credential_id}"`. -/
def credKey (credentialId : String) : String := "integration:creds:" ++ credentialId

/-- What `test` answers. -/
structure TestResult where
  success : Bool
  message : String
  details : List (String × String) := []
  deriving DecidableEq, Repr

/-! ## Operations -/

/-- `store`. -/
def storeCredential (env : Env) (integrationType credentialType name value : String) :
    Async String := do
  let credId := "cred-" ++ integrationType ++ "-" ++ env.uuid
  let record : Credential := {
    id := credId
    integrationType := some integrationType
    credentialType := some credentialType
    name := name
    keyEncrypted := env.encrypt value
    keyMasked := maskKey value
    createdAt := env.now }
  send (.set (credKey credId) record)
  return credId

def retrieve (env : Env) (credentialId : String) : Async (Option String) := do
  match ← send (.get (credKey credentialId)) with
  | none => return none
  | some record =>
    if record.keyEncrypted = "" then return none
    else do
      send (.set (credKey credentialId) { record with lastUsed := some env.now })
      some <$> answer (env.decrypt record.keyEncrypted)

def getCredentialMetadata (credentialId : String) : Async (Option CredentialMetadata) := do
  match ← send (.get (credKey credentialId)) with
  | none => return none
  | some record => some <$> answer record.metadata

/-- What is listed of a record, where the list is of one type of integration. -/
def listed (integrationType : Option String) (record : Credential) :
    Except Error (Option CredentialMetadata) :=
  match given integrationType with
  | none => some <$> record.metadata
  | some type =>
    if record.integrationType ≠ some type then .ok none else some <$> record.metadata

def listCredentials (integrationType : Option String) : Async (List CredentialMetadata) := do
  let names ← send (.keys "integration:creds:*")
  readAll (listed integrationType) names

/-- `delete`. -/
def deleteCredential (credentialId : String) : Async Bool := do
  let deleted ← send (.delete (credKey credentialId))
  return decide (0 < deleted)

/-! ## The test of a credential -/

/-- The verdict of a check of the format. -/
def formatVerdict (valid : Bool) (validMessage invalidMessage : String) : TestResult :=
  if valid then { success := true, message := validMessage }
  else { success := false, message := invalidMessage }

/-- `_test_slack_credential`. -/
def testSlackCredential (env : Env) (credentialType value : String) : Except Error TestResult :=
  match credentialType with
  | "bot_token" => do
      let data ← env.slackAuthTest value
      return if data.ok then
        { success := true
          message := "Valid bot token for team: " ++ data.team.getD "Unknown"
          details := [("team", data.team.getD ""), ("team_id", data.teamId.getD ""),
            ("user", data.user.getD ""), ("bot_id", data.botId.getD "")] }
      else
        { success := false, message := "Invalid token: " ++ data.error.getD "Unknown error" }
  | "app_token" =>
    .ok <| formatVerdict (value.startsWith "xapp-") "App token format is valid"
      "Invalid app token format (should start with xapp-)"
  | "signing_secret" =>
    .ok <| formatVerdict
      (decide (value.length = 32) && value.toLower.toList.all (· ∈ "0123456789abcdef".toList))
      "Signing secret format is valid"
      "Invalid signing secret format (should be 32 hex characters)"
  | _ => .ok { success := false, message := "Unknown Slack credential type: " ++ credentialType }

/-- Is this the form of a GUID? -/
def isGuid (value : String) : Bool :=
  decide (value.length = 36) && decide (value.toList.count '-' = 4)

/-- `_test_teams_credential`. -/
def testTeamsCredential (credentialType value : String) : TestResult :=
  match credentialType with
  | "client_id" =>
    formatVerdict (isGuid value) "Client ID format is valid (GUID)"
      "Invalid client ID format (should be a GUID)"
  | "client_secret" =>
    formatVerdict (decide (32 ≤ value.length)) "Client secret format is valid"
      "Client secret too short (should be 32+ characters)"
  | "tenant_id" =>
    formatVerdict (isGuid value) "Tenant ID format is valid (GUID)"
      "Invalid tenant ID format (should be a GUID)"
  | _ => { success := false, message := "Unknown Teams credential type: " ++ credentialType }

/-- `_test_github_credential`. -/
def testGithubCredential (env : Env) (credentialType value : String) : Except Error TestResult :=
  match credentialType with
  | "personal_access_token" => do
      let response ← env.githubUser value
      return if response.statusCode = 200 then
        { success := true
          message := "Valid token for user: " ++ response.login.getD "Unknown"
          details := [("login", response.login.getD ""), ("name", response.name.getD ""),
            ("id", response.id.getD "")] }
      else if response.statusCode = 401 then
        { success := false, message := "Invalid or expired token" }
      else
        { success := false, message := "API error: " ++ toString response.statusCode }
  | "app_private_key" =>
    .ok <| formatVerdict (contains "BEGIN" value && contains "PRIVATE KEY" value)
      "Private key format is valid" "Invalid private key format"
  | _ => .ok { success := false, message := "Unknown GitHub credential type: " ++ credentialType }

/-- The test that the type of the integration asks for. -/
def checkCredential (env : Env) (integrationType credentialType value : String) :
    Except Error TestResult :=
  match integrationType with
  | "slack" => testSlackCredential env credentialType value
  | "teams" => .ok (testTeamsCredential credentialType value)
  | "github" => testGithubCredential env credentialType value
  | _ => .ok { success := false, message := "Unknown integration type: " ++ integrationType }

/-- `test`. -/
def testCredential (env : Env) (credentialId : String) : Async TestResult := do
  match ← send (.get (credKey credentialId)) with
  | none => throw (keyError s!"Credential not found: {credentialId}")
  | some record =>
    if record.keyEncrypted = "" then
      throw (keyError s!"Credential has no encrypted value: {credentialId}")
    else do
      let decrypted ← answer (env.decrypt record.keyEncrypted)
      try
        let result ← answer (checkCredential env (record.integrationType.getD "")
          (record.credentialType.getD "") decrypted)
        send (.set (credKey credentialId) { record with isValid := result.success })
        pure result
      catch e =>
        send (.set (credKey credentialId) { record with isValid := false })
        pure { success := false, message := "Test failed: " ++ e.str }

end DoxAsdlc.Credentials

/-! ## The API keys of the LLM configuration service -/

namespace DoxAsdlc.Credentials

open Interaction Interaction.Program

inductive LLMProvider where
  | anthropic | openai | google
  deriving DecidableEq, Repr

def LLMProvider.value : LLMProvider → String
  | .anthropic => "anthropic"
  | .openai => "openai"
  | .google => "google"

/-- `LLMProvider(value)`. -/
def LLMProvider.ofValue (value : String) : Except Error LLMProvider :=
  match [anthropic, openai, google].find? (·.value = value) with
  | some provider => .ok provider
  | none => .error { cls := .valueError, message := s!"'{value}' is not a valid LLMProvider" }

theorem LLMProvider.ofValue_value (provider : LLMProvider) :
    LLMProvider.ofValue provider.value = .ok provider := by
  cases provider <;> rfl

/-- A key as it is listed. -/
structure APIKey where
  id : String
  provider : LLMProvider
  name : String
  keyMasked : String
  createdAt : Time
  lastUsed : Option Time
  isValid : Bool
  deriving DecidableEq, Repr

/-- The listed form of a record. -/
def Credential.apiKey (record : Credential) : Except Error APIKey := do
  let provider ← LLMProvider.ofValue (← required "provider" record.provider)
  return {
    id := record.id
    provider := provider
    name := record.name
    keyMasked := record.keyMasked
    createdAt := record.createdAt
    lastUsed := record.lastUsed
    isValid := record.isValid }

/-- `f"{REDIS_KEY_PREFIX}{key_id}"`. -/
def llmKey (keyId : String) : String := "llm:keys:" ++ keyId

/-- What `test_api_key` answers. -/
structure KeyTest where
  success : Bool
  message : String
  modelsDiscovered : ℕ
  deriving DecidableEq, Repr

/-! ## Operations -/

/-- `add_key`; the key is stored under a new id. -/
def addKey (env : Env) (provider : LLMProvider) (name key : String) : Async APIKey := do
  let keyId := "key-" ++ env.uuid
  let record : Credential := {
    id := keyId
    provider := some provider.value
    name := name
    keyEncrypted := env.encrypt key
    keyMasked := maskKey key
    createdAt := env.now }
  send (.set (llmKey keyId) record)
  return {
    id := keyId
    provider := provider
    name := name
    keyMasked := maskKey key
    createdAt := env.now
    lastUsed := none
    isValid := true }

def getKeys : Async (List APIKey) := do
  let names ← send (.keys "llm:keys:*")
  readAll (fun record => some <$> record.apiKey) names

def deleteKey (keyId : String) : Async Bool := do
  let deleted ← send (.delete (llmKey keyId))
  return decide (0 < deleted)

def getDecryptedKey (env : Env) (keyId : String) : Async (Option String) := do
  match ← send (.get (llmKey keyId)) with
  | none => return none
  | some record =>
    if record.keyEncrypted = "" then return none
    else some <$> answer (env.decrypt record.keyEncrypted)

/-- What a test answers for a number of discovered models. -/
def keyVerdict (count : ℕ) : KeyTest :=
  if 0 < count then
    { success := true
      message := s!"Key is valid. Discovered {count} models."
      modelsDiscovered := count }
  else
    { success := false
      message := "Invalid API key: No models discovered. " ++
        "The key may be invalid or have insufficient permissions."
      modelsDiscovered := 0 }

/-- What a test answers for an exception. -/
def keyFailure (e : Error) : KeyTest :=
  let lower := e.str.toLower
  { success := false
    message :=
      if contains "401" e.str ∨ contains "unauthorized" lower then
        "Invalid API key: Authentication failed"
      else if contains "429" e.str ∨ contains "rate" lower then
        "Provider error: Rate limit exceeded"
      else "Provider error: " ++ e.str
    modelsDiscovered := 0 }

def testApiKey (env : Env) (keyId : String) : Async KeyTest := do
  match ← send (.get (llmKey keyId)) with
  | none => throw (keyError s!"API key not found: {keyId}")
  | some record =>
    if record.keyEncrypted = "" then
      throw (keyError s!"API key has no encrypted value: {keyId}")
    else do
      let decrypted ← answer (env.decrypt record.keyEncrypted)
      try
        let count ← answer (env.discoverModels (record.provider.getD "") decrypted)
        send (.set (llmKey keyId) { record with isValid := decide (0 < count) })
        pure (keyVerdict count)
      catch e =>
        send (.set (llmKey keyId) { record with isValid := false })
        pure (keyFailure e)

end DoxAsdlc.Credentials
