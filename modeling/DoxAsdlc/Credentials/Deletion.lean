import DoxAsdlc.Credentials.Services
import DoxAsdlc.Interaction.Contract

/-!
# Deleted credentials

Calls of both services on one store, interleaved command by command.  A credential that has been
deleted comes back exactly when a call writes its record after the deletion has returned, as a
retrieval or a test does that read the record before it.

## Main definitions

* `Call`, `Result` — the operations and what they return.
* `Deleted` — a deletion has returned that it removed the credential.
* `NeverBack` — a deleted credential is not stored, and no later read shows it.

## Main results

* `neverBack_iff` — when a deleted credential never comes back.
-/

namespace DoxAsdlc.Credentials

open Interaction Interaction.Program Redis

/-- An operation of one of the services, and what it is given. -/
inductive Call where
  | addKey (provider : LLMProvider) (name key : String)
  | getKeys
  | deleteKey (keyId : String)
  | getDecryptedKey (keyId : String)
  | testApiKey (keyId : String)
  | store (integrationType credentialType name value : String)
  | retrieve (credentialId : String)
  | getCredentialMetadata (credentialId : String)
  | listCredentials (integrationType : Option String)
  | delete (credentialId : String)
  | test (credentialId : String)

/-- What an operation returns. A value is kept with the key that it was read from. -/
inductive Result where
  | key (data : APIKey)
  | keys (list : List APIKey)
  | deleted (removed : Bool)
  | value (name : String) (value : Option String)
  | keyTest (result : KeyTest)
  | stored (credentialId : String)
  | metadata (data : Option CredentialMetadata)
  | credentials (list : List CredentialMetadata)
  | tested (result : TestResult)

/-- The coroutine of a call. -/
def Call.program (env : Env) : Call → Async Result
  | .addKey provider name key => .key <$> Credentials.addKey env provider name key
  | .getKeys => .keys <$> Credentials.getKeys
  | .deleteKey keyId => .deleted <$> Credentials.deleteKey keyId
  | .getDecryptedKey keyId => .value (llmKey keyId) <$> Credentials.getDecryptedKey env keyId
  | .testApiKey keyId => .keyTest <$> Credentials.testApiKey env keyId
  | .store integrationType credentialType name value =>
    .stored <$> storeCredential env integrationType credentialType name value
  | .retrieve id => .value (credKey id) <$> Credentials.retrieve env id
  | .getCredentialMetadata id => .metadata <$> Credentials.getCredentialMetadata id
  | .listCredentials integrationType => .credentials <$> Credentials.listCredentials integrationType
  | .delete id => .deleted <$> deleteCredential id
  | .test id => .tested <$> testCredential env id

/-- The key that a call deletes. -/
def Call.deletes : Call → Option String
  | .deleteKey keyId => some (llmKey keyId)
  | .delete id => some (credKey id)
  | _ => none

/-- The keys of the credentials that a read lists or returns. -/
def Result.shown : Result → List String
  | .keys list => list.map fun data => llmKey data.id
  | .value name (some _) => [name]
  | .metadata (some data) => [credKey data.id]
  | .credentials list => list.map fun data => credKey data.id
  | _ => []

/-- The calls at work on the store. -/
abbrev Services (ι : Type) := Config interface Store Error Result ι

variable {ι : Type} (order : IterationOrder String) (envs : ι → Env) (calls : ι → Call)

/-- Every call at its beginning, and nothing stored. -/
def begin : Services ι := Config.start ∅ fun j => (calls j).program (envs j)

/-- One step. -/
abbrev step [DecidableEq ι] (cfg : Services ι) (a : Action ι Error Empty) : Services ι :=
  cfg.step (serve order) (fun e _ => e.elim) a

/-- A deletion of the key has returned `True`. -/
def Deleted (cfg : Services ι) (name : String) : Prop :=
  ∃ j, (calls j).deletes = some name ∧ cfg.threads j = .ret (.deleted true)

/-- A credential whose deletion has returned is not stored from then on, and no call that began
after the deletion shows it. -/
def NeverBack [DecidableEq ι] (as : List (Action ι Error Empty)) : Prop :=
  ∀ before after, before ++ after <+: as → ∀ name,
    Deleted calls (run (step order) (begin envs calls) before) name →
      name ∉ (run (step order) (begin envs calls) (before ++ after)).store ∧
        ∀ j result, (run (step order) (begin envs calls) before).history j = [] →
          (run (step order) (begin envs calls) (before ++ after)).threads j = .ret result →
            name ∉ result.shown

/-- A write that reaches the store is of no credential whose deletion has returned. -/
def Undeleted (cfg : Services ι) (a : Action ι Error Empty) : Prop :=
  ∀ j o name record, a = .run j o → o.effective = true →
    cfg.next? j = some (.set name record) → ¬ Deleted calls cfg name

/-! ## What a call writes and shows -/

/-- A record is stored under the key of its id. -/
def Keyed (name : String) (record : Credential) : Prop :=
  (record.provider.isSome → name = llmKey record.id) ∧
    (record.integrationType.isSome → name = credKey record.id)

/-- Answers of a store whose records are under their keys, and none of them under a key that is
gone. -/
def Honest (gone : String → Prop) : (c : Cmd) → Except Error (Reply c) → Prop
  | .get name, .ok (some record) => Keyed name record ∧ ¬ gone name
  | _, _ => True

/-- What is written is written under its key. -/
def WritesKeyed : Cmd → Prop
  | .set name record => Keyed name record
  | _ => True

variable {gone : String → Prop}

/-- What is read is what an honest answer shows. -/
theorem meets_get {name : String} :
    (send (.get name)).Meets (Honest gone) WritesKeyed
      fun data => ∀ record, data = some record → Keyed name record ∧ ¬ gone name := by
  apply meets_command (I := interface) (c := .get name) trivial
  rintro data hdata record rfl
  exact hdata

theorem meets_set {name : String} {record : Credential} (h : Keyed name record) :
    (send (.set name record)).Meets (Honest gone) WritesKeyed fun _ => True :=
  meets_command (I := interface) (c := .set name record) h fun _ _ => trivial

/-- A list shows what is made of records that are there. -/
theorem meets_readAll {β : Type} {f : Credential → Except Error (Option β)} {P : β → Prop}
    (hf : ∀ name record b, Keyed name record → ¬ gone name → f record = .ok (some b) → P b)
    (names : List String) :
    (readAll f names).Meets (Honest gone) WritesKeyed fun l => ∀ b ∈ l, P b := by
  induction names with
  | nil => simp [readAll]
  | cons name names ih =>
    apply meets_bind meets_get
    intro data hdata
    cases data with
    | none => exact ih
    | some record =>
      obtain ⟨hkeyed, hthere⟩ := hdata record rfl
      apply meets_bind (Q := fun b => f record = .ok b) (meets_answer fun _ h => h)
      intro made hmade
      cases made with
      | none => exact ih
      | some b =>
        apply meets_bind ih
        intro l hl
        rw [pure_eq, meets_ret]
        intro b' hb'
        cases List.mem_cons.mp hb' with
        | inl heq => exact heq ▸ hf name record b hkeyed hthere hmade
        | inr hmem => exact hl b' hmem

theorem Credential.apiKey_eq_ok {record : Credential} {key : APIKey}
    (h : record.apiKey = .ok key) : key.id = record.id ∧ record.provider.isSome := by
  obtain ⟨provider, hprovider, hkey⟩ := bind_eq_ok.mp h
  cases hrecord : record.provider with
  | none => rw [hrecord] at hprovider; cases hprovider
  | some value =>
    obtain ⟨_, _, heq⟩ := bind_eq_ok.mp hkey
    cases heq
    exact ⟨rfl, rfl⟩

theorem Credential.metadata_eq_ok {record : Credential} {data : CredentialMetadata}
    (h : record.metadata = .ok data) : data.id = record.id ∧ record.integrationType.isSome := by
  obtain ⟨integrationType, htype, hdata⟩ := bind_eq_ok.mp h
  cases hrecord : record.integrationType with
  | none => rw [hrecord] at htype; cases htype
  | some value =>
    obtain ⟨_, _, heq⟩ := bind_eq_ok.mp hdata
    cases heq
    exact ⟨rfl, rfl⟩

theorem listed_eq_some {integrationType : Option String} {record : Credential}
    {data : CredentialMetadata} (h : listed integrationType record = .ok (some data)) :
    record.metadata = .ok data := by
  have hmap : some <$> record.metadata = .ok (some data) := by
    unfold listed at h
    split at h
    · exact h
    · split at h
      · cases h
      · exact h
  cases hmeta : record.metadata with
  | error e => rw [hmeta] at hmap; cases hmap
  | ok data' => rw [hmeta] at hmap; cases hmap; rfl

/-- Tests and retrievals write a record back under the key that it was read from. -/
theorem Keyed.modified {name : String} {record record' : Credential} (h : Keyed name record)
    (hid : record'.id = record.id) (hprovider : record'.provider = record.provider)
    (htype : record'.integrationType = record.integrationType) : Keyed name record' := by
  unfold Keyed
  rw [hid, hprovider, htype]
  exact h

variable {env : Env}

theorem meets_addKey (provider : LLMProvider) (name key : String) :
    (addKey env provider name key).Meets (Honest gone) WritesKeyed fun _ => True := by
  apply meets_bind (meets_set ⟨fun _ => rfl, by simp⟩)
  intro _ _
  trivial

theorem meets_storeCredential (integrationType credentialType name value : String) :
    (storeCredential env integrationType credentialType name value).Meets (Honest gone)
      WritesKeyed fun _ => True := by
  apply meets_bind (meets_set ⟨by simp, fun _ => rfl⟩)
  intro _ _
  trivial

theorem meets_getKeys :
    getKeys.Meets (Honest gone) WritesKeyed fun list => ∀ data ∈ list, ¬ gone (llmKey data.id) := by
  apply meets_bind (Q := fun _ => True)
  · exact meets_command (I := interface) (c := .keys "llm:keys:*") trivial fun _ _ => trivial
  · intro names _
    apply meets_readAll
    intro name record data hkeyed hthere hdata
    cases happ : record.apiKey with
    | error e => rw [happ] at hdata; cases hdata
    | ok data' =>
      rw [happ] at hdata
      cases hdata
      obtain ⟨hid, hprovider⟩ := Credential.apiKey_eq_ok happ
      rwa [hid, ← hkeyed.1 hprovider]

theorem meets_listCredentials (integrationType : Option String) :
    (listCredentials integrationType).Meets (Honest gone) WritesKeyed
      fun list => ∀ data ∈ list, ¬ gone (credKey data.id) := by
  apply meets_bind (Q := fun _ => True)
  · exact meets_command (I := interface) (c := .keys "integration:creds:*") trivial
      fun _ _ => trivial
  · intro names _
    apply meets_readAll
    intro name record data hkeyed hthere hdata
    obtain ⟨hid, htype⟩ := Credential.metadata_eq_ok (listed_eq_some hdata)
    rwa [hid, ← hkeyed.2 htype]

theorem meets_deletion {name : String} :
    (do return decide (0 < (← send (.delete name)))).Meets (Honest gone) WritesKeyed
      fun _ => True := by
  apply meets_bind (Q := fun _ => True)
  · exact meets_command (I := interface) (c := .delete name) trivial fun _ _ => trivial
  · intro _ _
    trivial

theorem meets_getDecryptedKey (keyId : String) :
    (getDecryptedKey env keyId).Meets (Honest gone) WritesKeyed
      fun value => value.isSome → ¬ gone (llmKey keyId) := by
  apply meets_bind meets_get
  intro data hdata
  cases data with
  | none => simp
  | some record =>
    obtain ⟨_, hthere⟩ := hdata record rfl
    dsimp only
    split
    · simp
    · exact meets_map (Q := fun _ => True) (meets_answer fun _ _ => trivial) fun _ _ _ => hthere

theorem meets_retrieve (credentialId : String) :
    (retrieve env credentialId).Meets (Honest gone) WritesKeyed
      fun value => value.isSome → ¬ gone (credKey credentialId) := by
  apply meets_bind meets_get
  intro data hdata
  cases data with
  | none => simp
  | some record =>
    obtain ⟨hkeyed, hthere⟩ := hdata record rfl
    dsimp only
    split
    · simp
    · apply meets_bind (meets_set (hkeyed.modified rfl rfl rfl))
      intro _ _
      exact meets_map (Q := fun _ => True) (meets_answer fun _ _ => trivial) fun _ _ _ => hthere

theorem meets_getCredentialMetadata (credentialId : String) :
    (getCredentialMetadata credentialId).Meets (Honest gone) WritesKeyed
      fun data => ∀ m, data = some m → ¬ gone (credKey m.id) := by
  apply meets_bind meets_get
  intro data hdata
  cases data with
  | none => simp
  | some record =>
    obtain ⟨hkeyed, hthere⟩ := hdata record rfl
    apply meets_map (Q := fun m => record.metadata = .ok m) (meets_answer fun _ h => h)
    intro m hm m' hsome
    cases hsome
    obtain ⟨hid, htype⟩ := Credential.metadata_eq_ok hm
    rwa [hid, ← hkeyed.2 htype]

/-- A test writes the record back that it read, whatever the question comes to. -/
theorem meets_tested {β γ : Type} {name : String} {record : Credential} {asked : Except Error γ}
    {valid : γ → Bool} {verdict : γ → β} {failure : Error → β} (hkeyed : Keyed name record) :
    (MonadExcept.tryCatch
      (do
        let c ← answer asked
        send (.set name { record with isValid := valid c })
        pure (verdict c))
      fun e => do
        send (.set name { record with isValid := false })
        pure (failure e) : Async β).Meets (Honest gone) WritesKeyed fun _ => True := by
  apply meets_tryCatch
  · apply meets_bind (Q := fun _ => True) (meets_answer fun _ _ => trivial)
    intro c _
    apply meets_bind (meets_set (hkeyed.modified rfl rfl rfl))
    intro _ _
    trivial
  · intro e
    apply meets_bind (meets_set (hkeyed.modified rfl rfl rfl))
    intro _ _
    trivial

theorem meets_testApiKey (keyId : String) :
    (testApiKey env keyId).Meets (Honest gone) WritesKeyed fun _ => True := by
  apply meets_bind meets_get
  intro data hdata
  cases data with
  | none => trivial
  | some record =>
    obtain ⟨hkeyed, _⟩ := hdata record rfl
    dsimp only
    split
    · trivial
    · apply meets_bind (Q := fun _ => True) (meets_answer fun _ _ => trivial)
      intro decrypted _
      exact meets_tested hkeyed

theorem meets_testCredential (credentialId : String) :
    (testCredential env credentialId).Meets (Honest gone) WritesKeyed fun _ => True := by
  apply meets_bind meets_get
  intro data hdata
  cases data with
  | none => trivial
  | some record =>
    obtain ⟨hkeyed, _⟩ := hdata record rfl
    dsimp only
    split
    · trivial
    · apply meets_bind (Q := fun _ => True) (meets_answer fun _ _ => trivial)
      intro decrypted _
      exact meets_tested hkeyed

/-- **The contract of every call.**  With honest answers it writes records under their keys, and
shows none that is gone. -/
theorem program_meets (call : Call) :
    (call.program env).Meets (Honest gone) WritesKeyed fun r => ∀ name ∈ r.shown, ¬ gone name := by
  cases call with
  | addKey provider name key => exact meets_map (meets_addKey provider name key) (by simp [Result.shown])
  | getKeys =>
    apply meets_map meets_getKeys
    intro list hlist name hname
    obtain ⟨data, hdata, rfl⟩ := List.mem_map.mp hname
    exact hlist data hdata
  | deleteKey keyId => exact meets_map meets_deletion (by simp [Result.shown])
  | getDecryptedKey keyId =>
    apply meets_map (meets_getDecryptedKey keyId)
    intro value hvalue name hname
    cases value with
    | none => cases hname
    | some v => exact List.mem_singleton.mp hname ▸ hvalue rfl
  | testApiKey keyId => exact meets_map (meets_testApiKey keyId) (by simp [Result.shown])
  | store integrationType credentialType name value =>
    exact meets_map (meets_storeCredential integrationType credentialType name value)
      (by simp [Result.shown])
  | retrieve id =>
    apply meets_map (meets_retrieve id)
    intro value hvalue name hname
    cases value with
    | none => cases hname
    | some v => exact List.mem_singleton.mp hname ▸ hvalue rfl
  | getCredentialMetadata id =>
    apply meets_map (meets_getCredentialMetadata id)
    intro data hdata name hname
    cases data with
    | none => cases hname
    | some m => exact List.mem_singleton.mp hname ▸ hdata m rfl
  | listCredentials integrationType =>
    apply meets_map (meets_listCredentials integrationType)
    intro list hlist name hname
    obtain ⟨data, hdata, rfl⟩ := List.mem_map.mp hname
    exact hlist data hdata
  | delete id => exact meets_map meets_deletion (by simp [Result.shown])
  | test id => exact meets_map (meets_testCredential id) (by simp [Result.shown])

/-! ## Runs -/

variable {order envs calls} {cfg : Services ι}

/-- Deletions are at their beginning or over; the records are under their keys, and will be. -/
structure Sound (envs : ι → Env) (calls : ι → Call) (cfg : Services ι) : Prop where
  deletions : ∀ j name, (calls j).deletes = some name →
    cfg.threads j = (calls j).program (envs j) ∨ (cfg.threads j).finished = true
  unbegun : ∀ j, cfg.history j = [] → cfg.threads j = (calls j).program (envs j)
  keyed : ∀ name record, cfg.store.lookup name = some record → Keyed name record
  writes : cfg.Meeting (Honest fun _ => False) WritesKeyed fun _ _ => True

theorem sound_begin : Sound envs calls (begin envs calls) where
  deletions _ _ _ := .inl rfl
  unbegun _ _ := rfl
  keyed name record h := by simp [begin, Config.start] at h
  writes j := (program_meets (calls j)).mono (fun _ _ h => h) (fun _ h => h) fun _ _ => trivial

/-- A store whose records are under their keys answers honestly. -/
theorem Sound.honest (h : Sound envs calls cfg) {gone : String → Prop}
    (hgone : ∀ name, gone name → name ∉ cfg.store) (o : Outcome Error) (c : Cmd) :
    Honest gone c ((serve order).perform o c cfg.store).2 := by
  cases o with
  | refused e => cases c <;> trivial
  | lost e => cases c <;> trivial
  | ok =>
    cases c with
    | set name record => trivial
    | keys pattern => trivial
    | delete name => trivial
    | get name =>
      cases hlookup : cfg.store.lookup name with
      | none => simp [hlookup, Honest]
      | some record =>
        have hmem : name ∈ cfg.store := AList.lookup_isSome.mp (by simp [hlookup])
        simp only [Server.perform_ok, serve_get, hlookup]
        exact ⟨h.keyed name record hlookup, fun hg => hgone name hg hmem⟩

/-- A deletion issues one command. -/
theorem program_deletes (env : Env) {call : Call} {name : String}
    (h : call.deletes = some name) :
    ∃ k, call.program env = .call (.delete name) k ∧
      (∀ r, (k r).finished = true) ∧ ∀ r, k r = .ret (.deleted true) → ∃ n, r = .ok n ∧ 0 < n := by
  have hprogram : call.program env = Result.deleted <$> (do
      return decide (0 < (← send (.delete name))) : Async Bool) := by
    cases call <;> cases h <;> rfl
  rw [hprogram]
  refine ⟨_, rfl, ?_, ?_⟩
  · intro r
    cases r <;> rfl
  · intro r hr
    cases r with
    | error e => cases hr
    | ok n =>
      have hn : decide (0 < n) = true := by
        injection hr with hr
        injection hr
      exact ⟨n, rfl, of_decide_eq_true hn⟩

variable [DecidableEq ι]

/-- The store after a step: it is as before, or the next command of a call has been carried
out. -/
theorem step_store (order : IterationOrder String) (cfg : Services ι) (a : Action ι Error Empty) :
    (step order cfg a).store = cfg.store ∨ ∃ j o c, a = .run j o ∧ o.effective = true ∧
      cfg.next? j = some c ∧ (step order cfg a).store = (serve order c cfg.store).1 := by
  obtain ⟨j, o, c, k, rfl, -, -, hnext, he⟩ | ⟨j, o, rfl, -, he⟩ | ⟨j, rfl, he⟩ | ⟨e, -, -⟩ :=
    Config.step_cases (serve order) (fun e _ => e.elim) cfg a
  · have hstore : (step order cfg (.run j o)).store = ((serve order).perform o c cfg.store).1 :=
      congrArg Config.store he
    rw [Server.perform_state] at hstore
    by_cases ho : o.effective = true
    · rw [if_pos ho] at hstore
      exact .inr ⟨j, o, c, rfl, ho, hnext, hstore⟩
    · rw [if_neg ho] at hstore
      exact .inl hstore
  · exact .inl (congrArg Config.store he)
  · exact .inl ((congrArg Config.store he).trans rfl)
  · exact e.elim

/-- A thread after a step: it is as before, or its next command has been carried out. -/
theorem step_thread (order : IterationOrder String) (cfg : Services ι) (a : Action ι Error Empty)
    (i : ι) :
    ((step order cfg a).threads i = cfg.threads i ∧
        (step order cfg a).history i = cfg.history i) ∨
      ∃ o c k, a = .run i o ∧ cfg.threads i = .call c k ∧
        (step order cfg a).threads i = k ((serve order).perform o c cfg.store).2 ∧
        (step order cfg a).history i = cfg.history i ++ [(serve order).exchange o c cfg.store] ∧
        (step order cfg a).store = ((serve order).perform o c cfg.store).1 := by
  obtain ⟨j, o, c, k, rfl, -, hp, -, he⟩ | ⟨j, o, rfl, -, he⟩ | ⟨j, rfl, he⟩ | ⟨e, -, -⟩ :=
    Config.step_cases (serve order) (fun e _ => e.elim) cfg a
  · have he' : step order cfg (.run j o) = cfg.exchange (serve order) j o c k := he
    rw [he']
    by_cases hi : i = j
    · subst hi
      exact .inr ⟨o, c, k, rfl, hp, by simp [Config.exchange], by simp [Config.exchange], rfl⟩
    · exact .inl ⟨by simp [Config.exchange, hi], by simp [Config.exchange, hi]⟩
  · have he' : step order cfg (.run j o) = cfg := he
    exact .inl ⟨by rw [he'], by rw [he']⟩
  · have he' : step order cfg (.stop j) = _ := he
    exact .inl ⟨by rw [he'], by rw [he']⟩
  · exact e.elim

theorem Sound.step (h : Sound envs calls cfg) (a : Action ι Error Empty) :
    Sound envs calls (step order cfg a) where
  deletions i name hname := by
    obtain ⟨hthread, -⟩ | ⟨o, c, k, -, hp, hthread, -, -⟩ := step_thread order cfg a i
    · rw [hthread]
      exact h.deletions i name hname
    · obtain ⟨k', hprogram, hover, -⟩ := program_deletes (envs i) hname
      cases h.deletions i name hname with
      | inr hfinished => rw [hp] at hfinished; cases hfinished
      | inl hstart =>
        rw [hp, hprogram] at hstart
        cases hstart
        exact .inr (hthread ▸ hover _)
  unbegun i hnil := by
    obtain ⟨hthread, hhistory⟩ | ⟨o, c, k, -, -, -, hhistory, -⟩ := step_thread order cfg a i
    · rw [hthread]
      exact h.unbegun i (hhistory ▸ hnil)
    · rw [hhistory] at hnil
      simp at hnil
  keyed name record hlookup := by
    obtain hstore | ⟨j, o, c, -, -, hnext, hstore⟩ := step_store order cfg a
    · exact h.keyed name record (hstore ▸ hlookup)
    · rw [hstore] at hlookup
      by_cases hset : ∃ record', c = .set name record'
      · obtain ⟨record', rfl⟩ := hset
        have hkeyed : Keyed name record' := h.writes.next hnext
        simp only [serve_set, AList.lookup_insert] at hlookup
        exact Option.some.inj hlookup ▸ hkeyed
      · by_cases hdelete : c = .delete name
        · subst hdelete
          simp at hlookup
        · rw [lookup_serve (fun record' h => hset ⟨record', h⟩) hdelete] at hlookup
          exact h.keyed name record hlookup
  writes := h.writes.step (serve order) _ a fun o c => h.honest (fun _ => False.elim) o c

/-- What has been deleted stays deleted. -/
theorem Deleted.step {name : String} (h : Deleted calls cfg name) (a : Action ι Error Empty) :
    Deleted calls (step order cfg a) name := by
  obtain ⟨j, hname, hthread⟩ := h
  refine ⟨j, hname, ?_⟩
  obtain ⟨hkept, -⟩ | ⟨o, c, k, -, hp, -, -, -⟩ := step_thread order cfg a j
  · rw [hkept, hthread]
  · rw [hthread] at hp
    cases hp

/-- A deletion that returns has removed the key. -/
theorem Sound.deleted_step (h : Sound envs calls cfg) {a : Action ι Error Empty} {name : String}
    (hdeleted : Deleted calls (Credentials.step order cfg a) name) :
    Deleted calls cfg name ∨ name ∉ (Credentials.step order cfg a).store := by
  obtain ⟨j, hname, hthread⟩ := hdeleted
  obtain ⟨hkept, -⟩ | ⟨o, c, k, -, hp, hafter, -, hstore⟩ := step_thread order cfg a j
  · exact .inl ⟨j, hname, hkept ▸ hthread⟩
  · obtain ⟨k', hprogram, -, hremoved⟩ := program_deletes (envs j) hname
    cases h.deletions j name hname with
    | inr hfinished => rw [hp] at hfinished; cases hfinished
    | inl hstart =>
      rw [hp, hprogram] at hstart
      cases hstart
      obtain ⟨n, hreply, -⟩ := hremoved _ (hafter ▸ hthread)
      right
      rw [hstore]
      cases o with
      | ok => simp [AList.mem_erase]
      | refused e => cases hreply
      | lost e => cases hreply

/-- Where no write is of a deleted credential, it stays away. -/
theorem not_mem_step {name : String} {a : Action ι Error Empty} (hgone : name ∉ cfg.store)
    (hdeleted : Deleted calls cfg name) (ha : Undeleted calls cfg a) :
    name ∉ (step order cfg a).store := by
  obtain hstore | ⟨j, o, c, haction, ho, hnext, hstore⟩ := step_store order cfg a
  · rw [hstore]
    exact hgone
  · have hset : ∀ record, c ≠ .set name record := by
      rintro record rfl
      exact ha j o name record haction ho hnext hdeleted
    rw [hstore, ← AList.lookup_eq_none]
    by_cases hdelete : c = .delete name
    · subst hdelete
      simp
    · rw [lookup_serve hset hdelete]
      exact AList.lookup_eq_none.mpr hgone

/-- The calls are sound, and what has been deleted is not stored. -/
def Gone (envs : ι → Env) (calls : ι → Call) (cfg : Services ι) : Prop :=
  Sound envs calls cfg ∧ ∀ name, Deleted calls cfg name → name ∉ cfg.store

theorem gone_run {as : List (Action ι Error Empty)} (h : Gone envs calls cfg)
    (has : Each (step order) (Undeleted calls) cfg as) :
    Gone envs calls (run (step order) cfg as) := by
  refine run_invariant ?_ h has
  intro cfg a hcfg ha
  refine ⟨hcfg.1.step a, ?_⟩
  intro name hname
  cases hcfg.1.deleted_step hname with
  | inl hbefore => exact not_mem_step (hcfg.2 name hbefore) hbefore ha
  | inr hremoved => exact hremoved

omit [DecidableEq ι] in
/-- What the calls that have not begun will show is not the key that is gone. -/
theorem Sound.meeting (h : Sound envs calls cfg) (name : String) :
    cfg.Meeting (Honest (· = name)) WritesKeyed
      fun j r => cfg.history j = [] → name ∉ r.shown := by
  intro j
  by_cases hnil : cfg.history j = []
  · rw [h.unbegun j hnil]
    apply (program_meets (calls j)).mono (fun _ _ h => h) (fun _ h => h)
    intro r hr _ hmem
    exact hr name hmem rfl
  · apply (h.writes j).mono _ (fun _ h => h) fun r _ hbegun => absurd hbegun hnil
    intro c r hr
    unfold Honest at hr ⊢
    split
    · exact ⟨hr.1, id⟩
    · trivial

/-- After a deletion, no call that has not begun shows the key. -/
theorem not_shown_run {as : List (Action ι Error Empty)} (h : Gone envs calls cfg) {name : String}
    (hname : Deleted calls cfg name) (has : Each (step order) (Undeleted calls) cfg as) :
    (run (step order) cfg as).Meeting (Honest (· = name)) WritesKeyed
      fun j r => cfg.history j = [] → name ∉ r.shown := by
  refine (run_invariant (I := fun c => (Gone envs calls c ∧ Deleted calls c name) ∧
    c.Meeting (Honest (· = name)) WritesKeyed
      fun j r => cfg.history j = [] → name ∉ r.shown) ?_ ⟨⟨h, hname⟩, h.1.meeting name⟩ has).2
  rintro c a ⟨⟨hgone, hdeleted⟩, hmeeting⟩ ha
  have hnext : Gone envs calls (run (step order) c [a]) := gone_run hgone ⟨ha, trivial⟩
  refine ⟨⟨hnext, hdeleted.step a⟩, ?_⟩
  apply hmeeting.step
  intro o c'
  apply hgone.1.honest
  rintro _ rfl
  exact hgone.2 _ hdeleted

omit [DecidableEq ι] in
theorem gone_begin : Gone envs calls (begin envs calls) :=
  ⟨sound_begin, fun name _ => AList.notMem_empty name⟩

/-- A record that is written is stored. -/
theorem mem_step_set {j : ι} {o : Outcome Error} {name : String} {record : Credential}
    (hnext : cfg.next? j = some (.set name record)) (ho : o.effective = true) :
    name ∈ (step order cfg (.run j o)).store := by
  obtain ⟨j', o', c, k, ha, -, -, hnext', he⟩ | ⟨j', o', ha, hnone, -⟩ | ⟨j', ha, -⟩ |
    ⟨e, -, -⟩ := Config.step_cases (serve order) (fun (e : Empty) _ => e.elim) cfg (.run j o)
  · cases ha
    rw [hnext] at hnext'
    cases hnext'
    have hstore : (step order cfg (.run j o)).store
        = ((serve order).perform o (.set name record) cfg.store).1 := congrArg Config.store he
    rw [hstore, Server.perform_state, if_pos ho]
    simp [AList.mem_insert]
  · cases ha
    rw [hnext] at hnone
    cases hnone
  · cases ha
  · exact e.elim

/-- **Deletions over runs.**  However the calls of both services are interleaved, and whatever
becomes of their commands: a deleted credential never comes back exactly when no write of a
credential reaches the store after its deletion has returned. -/
theorem neverBack_iff (order : IterationOrder String) (envs : ι → Env) (calls : ι → Call)
    (as : List (Action ι Error Empty)) :
    NeverBack order envs calls as ↔
      Each (step order) (Undeleted calls) (begin envs calls) as := by
  constructor
  · intro hnever
    rw [each_iff_split]
    rintro before a after rfl j o name record rfl ho hnext hdeleted
    have hfront : before ++ [.run j o] <+: before ++ .run j o :: after := ⟨after, by simp⟩
    have hgone := (hnever before [.run j o] hfront name hdeleted).1
    rw [run_append] at hgone
    exact hgone (mem_step_set hnext ho)
  · rintro heach before after ⟨rest, rfl⟩ name hname
    rw [each_append, each_append] at heach
    have hbefore := gone_run gone_begin heach.1.1
    rw [run_append]
    constructor
    · have hafter := gone_run hbefore heach.1.2
      apply hafter.2 name
      refine run_invariant (I := fun c => Deleted calls c name) ?_ hname heach.1.2
      exact fun c a h _ => h.step a
    · intro j result hnil hthread
      have hmeets := not_shown_run hbefore hname heach.1.2 j
      rw [hthread] at hmeets
      exact hmeets hnil

/-- An environment in which every question is answered. -/
def answering : Env where
  now := 0
  uuid := "1"
  encrypt := id
  decrypt := .ok
  discoverModels _ _ := .ok 1
  slackAuthTest _ := .ok { ok := true }
  githubUser _ := .ok { statusCode := 200 }

/-- A key that is added, tested, deleted and listed. -/
def keyCalls : Fin 4 → Call
  | 0 => .addKey .openai "main" "sk"
  | 1 => .testApiKey "key-1"
  | 2 => .deleteKey "key-1"
  | 3 => .getKeys

/-- A credential that is stored, retrieved, deleted and retrieved again. -/
def credentialCalls : Fin 4 → Call
  | 0 => .store "slack" "app_token" "main" "xapp-1"
  | 1 => .retrieve "cred-slack-1"
  | 2 => .delete "cred-slack-1"
  | 3 => .retrieve "cred-slack-1"

/-- The second call reads, the third deletes, the second writes, the fourth reads. -/
def overtaken : List (Fin 4) := [0, 1, 2]

/-- What follows. -/
def lateWrite : List (Fin 4) := [1, 3, 3]

/-- Commands that are all answered. -/
def answered (turns : List (Fin 4)) : List (Action (Fin 4) Error Empty) :=
  turns.map fun j => .run j .ok

/-- A key that is tested during its deletion is listed after it, and a credential that is
retrieved during its deletion is retrieved after it. -/
theorem deleted_and_listed :
    (¬ NeverBack .asAnswered (fun _ => answering) keyCalls (answered (overtaken ++ lateWrite))) ∧
      ¬ NeverBack .asAnswered (fun _ => answering) credentialCalls
        (answered (overtaken ++ lateWrite)) := by
  constructor
  · intro h
    have hnever := h (answered overtaken) (answered lateWrite) (List.prefix_refl _) (llmKey "key-1")
      ⟨2, rfl, rfl⟩
    exact hnever.2 3 (.keys [⟨"key-1", .openai, "main", "***", 0, none, true⟩]) rfl rfl
      (by decide)
  · intro h
    have hnever := h (answered overtaken) (answered lateWrite) (List.prefix_refl _)
      (credKey "cred-slack-1") ⟨2, rfl, rfl⟩
    exact hnever.2 3 (.value (credKey "cred-slack-1") (some "xapp-1")) rfl rfl (by decide)

end DoxAsdlc.Credentials
