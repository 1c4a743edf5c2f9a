import DoxAsdlc.Repositories.Interchange

/-!
# Drafts that are saved

A draft has the maturity and all messages of a session.  The maturity and the name of the project
take the place of what is stored; the messages are stored behind those that there are, each under a
new id.  So a session has just the messages of a draft when it had none before, and a draft without
messages is the only one that may be saved again.

In Redis every call stands by itself.  In PostgreSQL a save is a transaction, and one that raises
changes nothing.

## Main definitions

* `DraftStore`, `DraftRepositories` — what is stored, and the calls.
* `saveDraft` — a save.
* `Kept` — the session has the draft, and more saves changed nothing.

## Main results

* `saveDraft_kept` — when a session has just the messages of a draft.
-/

namespace DoxAsdlc.Repositories.Drafts

open Redis
open Ideation (MessageRole)

/-! ## What is stored -/

/-- A category of the maturity in a draft. -/
structure CategoryMaturity where
  id : String
  name : String
  score : ℚ
  requiredForSubmit : Bool
  deriving DecidableEq

/-- The maturity in a draft. -/
structure RequestedMaturity where
  score : ℚ
  level : String
  categories : List CategoryMaturity
  canSubmit : Bool
  gaps : List String
  deriving DecidableEq

/-- A message in a draft: what is read of it. -/
structure DraftMessage where
  role : String
  content : String
  deriving DecidableEq

/-- `SaveDraftRequest`; its requirements are not read. -/
structure SaveDraftRequest where
  messages : List DraftMessage
  maturityState : RequestedMaturity
  projectName : Option String := none
  deriving DecidableEq

/-- The maturity that is stored with a draft.  Its scores may have a fraction. -/
structure DraftMaturity extends RequestedMaturity where
  sessionId : String
  updatedAt : Time
  deriving DecidableEq

/-- The keys in Redis, with the maturity as drafts have it. -/
structure DraftStore where
  redis : RedisStore := {}
  maturity : Keys String DraftMaturity := fun _ => none

/-- The calls of the repositories that a save makes. -/
structure DraftRepositories (S : Type) where
  saveMaturity : DraftMaturity → S → Except Error S
  getSession : String → S → Except Error (Option IdeationSession)
  updateSession : IdeationSession → S → Except Error S
  createMessage : ChatMessage → S → Except Error S

/-- The repositories in Redis. -/
def redisRepositories : DraftRepositories DraftStore where
  saveMaturity m s := .ok { s with maturity := Function.update s.maturity m.sessionId (some m) }
  getSession sessionId s := .ok (RedisSessionRepository.getById sessionId s.redis)
  updateSession session s := .ok { s with redis := RedisSessionRepository.update session s.redis }
  createMessage message s :=
    .ok { s with redis := (RedisMessageRepository.create message s.redis).2 }

/-- The row of a maturity, with scores without fractions; no message depends on them. -/
def DraftMaturity.row (m : DraftMaturity) : MaturityState where
  sessionId := m.sessionId
  score := Ideation.truncate m.score
  level := m.level
  categories := m.categories.map fun c =>
    ⟨c.id, c.name, Ideation.truncate c.score, c.requiredForSubmit⟩
  canSubmit := m.canSubmit
  gaps := m.gaps
  updatedAt := m.updatedAt

/-- The repositories in PostgreSQL, whose server has a clock. -/
def postgresRepositories (now : Time) : DraftRepositories Database where
  saveMaturity m db := PostgresMaturityRepository.save now m.row db
  getSession := PostgresSessionRepository.getById
  updateSession := PostgresSessionRepository.update now
  createMessage message db := (PostgresMessageRepository.create message db).map Prod.snd

/-! ## A save -/

/-- What a save meets: the readings of the clock, and the new ids. -/
structure SaveEnv where
  now : ℕ → Time
  messageId : ℕ → String

/-- Calls one after another: one that raises ends them, and what was done stays. -/
def Saving (S A : Type) : Type := S → Except Error A × S

instance (S : Type) : Monad (Saving S) where
  pure a s := (.ok a, s)
  bind x f s :=
    match x s with
    | (.ok a, s') => f a s'
    | (.error e, s') => (.error e, s')

/-- An exception. -/
def Saving.raise {S A : Type} (e : Error) : Saving S A := fun s => (.error e, s)

/-- A call that reads. -/
def Saving.read {S A : Type} (op : S → Except Error A) : Saving S A := fun s => (op s, s)

/-- A call that writes. -/
def Saving.write {S : Type} (op : S → Except Error S) : Saving S Unit := fun s =>
  match op s with
  | .ok s' => (.ok (), s')
  | .error e => (.error e, s)

/-- `MessageRole(value)`. -/
def role? (value : String) : Option MessageRole :=
  [MessageRole.user, .assistant, .system].find? fun role => role.value = value

section

variable {S : Type} (r : DraftRepositories S) (env : SaveEnv) (sessionId : String)

/-- The message that is stored for the `i`-th one of a draft. -/
def domainMessage (i : ℕ) (role : MessageRole) (content : String) : ChatMessage where
  id := env.messageId i
  sessionId := sessionId
  role := role
  content := content
  timestamp := env.now (i + 2)

/-- The loop over the messages, from the `i`-th on. -/
def saveMessages : ℕ → List DraftMessage → Saving S Unit
  | _, [] => return
  | i, msg :: msgs => do
      match role? msg.role with
      | none => Saving.raise ⟨.valueError, "'" ++ msg.role ++ "' is not a valid MessageRole", []⟩
      | some role =>
        Saving.write (r.createMessage (domainMessage env sessionId i role msg.content))
        saveMessages (i + 1) msgs

/-- The name of the project, if the session is there. -/
def renameProject (projectName : String) : Saving S Unit := do
  match ← Saving.read (r.getSession sessionId) with
  | some session =>
    Saving.write (r.updateSession { session with projectName, updatedAt := env.now 1 })
  | none => return

/-- `save_draft`, without its answer. -/
def saveDraft (request : SaveDraftRequest) : Saving S Unit := do
  Saving.write (r.saveMaturity
    { request.maturityState with sessionId := sessionId, updatedAt := env.now 0 })
  let projectName := request.projectName.getD ""
  if projectName ≠ "" then
    renameProject r env sessionId projectName
  saveMessages r env sessionId 0 request.messages

end

/-- A save in Redis. -/
def save (sessionId : String) (request : SaveDraftRequest) (s : DraftStore) (env : SaveEnv) :
    DraftStore := (saveDraft redisRepositories env sessionId request s).2

/-- A save in PostgreSQL: `none` if it raises, which takes everything back. -/
def commit (sessionId : String) (request : SaveDraftRequest) (db : Database)
    (env : Time × SaveEnv) : Option Database :=
  match saveDraft (postgresRepositories env.1) env.2 sessionId request db with
  | (.ok (), db') => some db'
  | (.error _, _) => none

/-- What a message says. -/
def said (m : ChatMessage) : String × String := (m.role.value, m.content)

/-- What the messages of a draft say. -/
def SaveDraftRequest.said (request : SaveDraftRequest) : List (String × String) :=
  request.messages.map fun m => (m.role, m.content)

/-- The role of each message is one. -/
def SaveDraftRequest.Valid (request : SaveDraftRequest) : Prop :=
  ∀ m ∈ request.messages, role? m.role ≠ none

/-- A session but for the time of its last change. -/
def undated (session : IdeationSession) : IdeationSession := { session with updatedAt := 0 }

/-- A maturity but for the time of its last change. -/
def DraftMaturity.undated (m : DraftMaturity) : DraftMaturity := { m with updatedAt := 0 }

/-- Two stores hold the same but for the ids of messages and for times. -/
structure Same (s s' : DraftStore) : Prop where
  messages : ∀ id, (s.redis.messages id).map said = (s'.redis.messages id).map said
  sessions : ∀ id, (s.redis.sessions id).map undated = (s'.redis.sessions id).map undated
  maturity : ∀ id, (s.maturity id).map DraftMaturity.undated =
    (s'.maturity id).map DraftMaturity.undated
  rest : { s.redis with messages := s'.redis.messages, sessions := s'.redis.sessions } = s'.redis

/-- Saves in Redis, one after another. -/
def saves (sessionId : String) (request : SaveDraftRequest) (s : DraftStore)
    (envs : List SaveEnv) : DraftStore := envs.foldl (save sessionId request) s

/-- Saves in PostgreSQL, one after another, none of which raises. -/
def commits (sessionId : String) (request : SaveDraftRequest) (db : Database)
    (envs : List (Time × SaveEnv)) : Option Database := envs.foldlM (commit sessionId request) db

/-- After a save and some more of the same draft, the session has just the messages of the draft,
and all is as after the first one. -/
structure Kept (sessionId : String) (request : SaveDraftRequest) (s : DraftStore) (env : SaveEnv)
    (envs : List SaveEnv) : Prop where
  exactly : ((saves sessionId request s (env :: envs)).redis.messages sessionId).map said =
    request.said
  again : Same (saves sessionId request s (env :: envs)) (save sessionId request s env)

/-! ## What a save does to the messages -/

theorem role?_eq_some {value : String} {role : MessageRole} (h : role? value = some role) :
    role.value = value := by
  simpa using List.find?_some h

theorem role?_value (role : MessageRole) : role? role.value = some role := by
  cases role <;> decide

/-- What of the messages of sessions a store shows, and that a message is stored behind them. -/
structure Appends {S : Type} (r : DraftRepositories S) (messages : S → String → List ChatMessage) :
    Prop where
  saveMaturity : ∀ m s s', r.saveMaturity m s = .ok s' → messages s' = messages s
  updateSession : ∀ x s s', r.updateSession x s = .ok s' → messages s' = messages s
  createMessage : ∀ m s s', r.createMessage m s = .ok s' →
    messages s' = Function.update (messages s) m.sessionId (messages s m.sessionId ++ [m])

section

variable {S A B : Type} {r : DraftRepositories S} {messages : S → String → List ChatMessage}
  {env : SaveEnv} {sessionId : String} {s s' : S}

theorem Saving.pure_eq_ok {a b : A} : (pure a : Saving S A) s = (.ok b, s') ↔ a = b ∧ s = s' := by
  change (Except.ok a, s) = _ ↔ _
  simp

theorem Saving.bind_eq_ok {x : Saving S A} {f : A → Saving S B} {b : B} :
    (x >>= f) s = (.ok b, s') ↔ ∃ a s₁, x s = (.ok a, s₁) ∧ f a s₁ = (.ok b, s') := by
  change (match x s with
    | (.ok a, s₁) => f a s₁
    | (.error e, s₁) => (.error e, s₁)) = _ ↔ _
  rcases x s with ⟨_ | a, s₁⟩ <;> simp

theorem Saving.bind_of_ok {x : Saving S A} {a : A} (h : x s = (.ok a, s')) (f : A → Saving S B) :
    (x >>= f) s = f a s' := by
  change (match x s with
    | (.ok a, s₁) => f a s₁
    | (.error e, s₁) => (.error e, s₁)) = _
  rw [h]

theorem Saving.write_eq_ok {op : S → Except Error S} :
    Saving.write op s = (.ok (), s') ↔ op s = .ok s' := by
  cases h : op s <;> simp [Saving.write, h]

theorem Saving.read_eq_ok {op : S → Except Error A} {a : A} :
    Saving.read op s = (.ok a, s') ↔ op s = .ok a ∧ s = s' := by
  simp [Saving.read]

/-- The loop stores a message for each of the draft's, in their order. -/
theorem Appends.saveMessages (h : Appends r messages) {i : ℕ} {msgs : List DraftMessage}
    (hsave : saveMessages r env sessionId i msgs s = (.ok (), s')) :
    (∀ m ∈ msgs, role? m.role ≠ none) ∧ ∃ added : List ChatMessage,
      messages s' sessionId = messages s sessionId ++ added ∧
        added.map said = msgs.map fun m => (m.role, m.content) := by
  induction msgs generalizing i s with
  | nil =>
    obtain ⟨-, rfl⟩ := Saving.pure_eq_ok.mp hsave
    exact ⟨by simp, [], by simp, rfl⟩
  | cons msg msgs ih =>
    rw [Drafts.saveMessages] at hsave
    cases hrole : role? msg.role with
    | none =>
      rw [hrole] at hsave
      cases hsave
    | some role =>
      rw [hrole] at hsave
      obtain ⟨_, s₁, hwrite, hrest⟩ := Saving.bind_eq_ok.mp hsave
      have hfirst := h.createMessage _ _ _ (Saving.write_eq_ok.mp hwrite)
      obtain ⟨hvalid, added, hadded, hsaid⟩ := ih hrest
      refine ⟨?_, domainMessage env sessionId i role msg.content :: added, ?_, ?_⟩
      · simpa [hrole] using hvalid
      · rw [hadded, hfirst]
        simp [domainMessage]
      · simp [said, domainMessage, hsaid, role?_eq_some hrole]

theorem Appends.renameProject (h : Appends r messages) {projectName : String}
    (hrename : renameProject r env sessionId projectName s = (.ok (), s')) :
    messages s' = messages s := by
  obtain ⟨session, s₁, hread, hrest⟩ := Saving.bind_eq_ok.mp hrename
  obtain ⟨-, rfl⟩ := Saving.read_eq_ok.mp hread
  cases session with
  | none =>
    obtain ⟨-, rfl⟩ := Saving.pure_eq_ok.mp hrest
    rfl
  | some session => exact h.updateSession _ _ _ (Saving.write_eq_ok.mp hrest)

/-- A save that returns has stored a message for each of the draft's, in their order, behind those
that there were. -/
theorem Appends.saveDraft (h : Appends r messages) {request : SaveDraftRequest}
    (hsave : saveDraft r env sessionId request s = (.ok (), s')) :
    request.Valid ∧ ∃ added : List ChatMessage,
      messages s' sessionId = messages s sessionId ++ added ∧ added.map said = request.said := by
  obtain ⟨_, s₁, hmaturity, hrest⟩ := Saving.bind_eq_ok.mp hsave
  have hfirst := h.saveMaturity _ _ _ (Saving.write_eq_ok.mp hmaturity)
  by_cases hname : request.projectName.getD "" ≠ ""
  · rw [if_pos hname] at hrest
    obtain ⟨_, s₂, hrename, hmessages⟩ := Saving.bind_eq_ok.mp hrest
    rw [← hfirst, ← h.renameProject hrename]
    exact h.saveMessages hmessages
  · rw [if_neg hname] at hrest
    rw [← hfirst]
    exact h.saveMessages hrest

end

/-! ## In both stores -/

theorem appends_redis : Appends redisRepositories fun s => s.redis.messages where
  saveMaturity := by
    intro m s s' h
    cases h
    rfl
  updateSession := by
    intro x s s' h
    cases h
    rfl
  createMessage := by
    intro m s s' h
    cases h
    rfl

theorem appends_postgres (now : Time) :
    Appends (postgresRepositories now) Database.messagesOf where
  saveMaturity := by
    intro m db db' h
    obtain ⟨rows, -, hdb⟩ := bind_eq_ok.mp h
    cases hdb
    rfl
  updateSession := by
    intro x db db' h
    obtain ⟨sessions, -, hdb⟩ := bind_eq_ok.mp h
    cases hdb
    rfl
  createMessage := by
    intro m db db' h
    have hcreated : ∃ rows, Table.insert m.columns (db.hasSession m.sessionId) m db.messages =
        .ok rows ∧ db' = { db with messages := rows } := by
      cases hinsert : Table.insert m.columns (db.hasSession m.sessionId) m db.messages with
      | error e =>
        simp [postgresRepositories, PostgresMessageRepository.create, hinsert, Except.map,
          Bind.bind, Except.bind] at h
      | ok rows =>
        simp [postgresRepositories, PostgresMessageRepository.create, hinsert, Except.map,
          Bind.bind, Except.bind, Pure.pure, Except.pure] at h
        exact ⟨rows, rfl, h.symm⟩
    obtain ⟨rows, hinsert, rfl⟩ := hcreated
    obtain ⟨hnew, rfl⟩ := Table.insert_eq_ok hinsert
    have hrows : (db.messages.put m).rows = db.messages.rows ++ [m] := Records.putRow_of_new hnew
    funext sessionId
    by_cases hid : sessionId = m.sessionId
    · subst hid
      simp [Database.messagesOf, hrows]
    · simp [Database.messagesOf, hrows, hid, Ne.symm hid]

section

variable {env : SaveEnv} {sessionId : String} {request : SaveDraftRequest} {s s' : DraftStore}

/-- In Redis a save raises only for a role. -/
theorem saveMessages_returns {i : ℕ} {msgs : List DraftMessage}
    (hvalid : ∀ m ∈ msgs, role? m.role ≠ none) (s : DraftStore) :
    ∃ s', saveMessages redisRepositories env sessionId i msgs s = (.ok (), s') := by
  induction msgs generalizing i s with
  | nil => exact ⟨s, rfl⟩
  | cons msg msgs ih =>
    obtain ⟨hrole, hrest⟩ := List.forall_mem_cons.mp hvalid
    obtain ⟨role, hsome⟩ := Option.ne_none_iff_exists'.mp hrole
    obtain ⟨s', hs'⟩ := ih (i := i + 1) hrest
      { s with redis := (RedisMessageRepository.create
        (domainMessage env sessionId i role msg.content) s.redis).2 }
    refine ⟨s', ?_⟩
    rw [saveMessages, hsome]
    exact Saving.bind_eq_ok.mpr ⟨(), _, rfl, hs'⟩

/-- A session under the name that a draft gives to its project. -/
def renamedSession (env : SaveEnv) (projectName : String) (session : IdeationSession) :
    IdeationSession := { session with projectName, updatedAt := env.now 1 }

/-- The keys with a project renamed, if its session is there. -/
def renamed (env : SaveEnv) (sessionId projectName : String) (s : RedisStore) : RedisStore :=
  match s.sessions sessionId with
  | some session => RedisSessionRepository.update (renamedSession env projectName session) s
  | none => s

theorem renameProject_redis (env : SaveEnv) (sessionId projectName : String) (s : DraftStore) :
    renameProject redisRepositories env sessionId projectName s =
      (.ok (), { s with redis := renamed env sessionId projectName s.redis }) := by
  have hread : renameProject redisRepositories env sessionId projectName s =
      (match s.redis.sessions sessionId with
        | some session => Saving.write
            (redisRepositories.updateSession (renamedSession env projectName session))
        | none => pure ()) s := rfl
  rw [hread, renamed]
  cases s.redis.sessions sessionId <;> rfl

/-- What there is before the messages of a draft are stored. -/
def prepared (env : SaveEnv) (sessionId : String) (request : SaveDraftRequest) (s : DraftStore) :
    DraftStore where
  redis :=
    if request.projectName.getD "" ≠ "" then
      renamed env sessionId (request.projectName.getD "") s.redis
    else s.redis
  maturity := Function.update s.maturity sessionId (some
    { request.maturityState with sessionId := sessionId, updatedAt := env.now 0 })

/-- A save replaces the maturity and the name of the project, and then stores the messages. -/
theorem saveDraft_redis (env : SaveEnv) (s : DraftStore) :
    saveDraft redisRepositories env sessionId request s =
      saveMessages redisRepositories env sessionId 0 request.messages
        (prepared env sessionId request s) := by
  have hsaved : Saving.write (redisRepositories.saveMaturity
      { request.maturityState with sessionId := sessionId, updatedAt := env.now 0 }) s =
        (.ok (), { s with maturity := (prepared env sessionId request s).maturity }) := rfl
  rw [saveDraft, Saving.bind_of_ok hsaved]
  by_cases hname : request.projectName.getD "" = ""
  · simp [prepared, hname]
  · have hrename := renameProject_redis env sessionId (request.projectName.getD "")
      { s with maturity := (prepared env sessionId request s).maturity }
    simp only [ne_eq, hname, not_false_eq_true, if_true]
    rw [Saving.bind_of_ok hrename]
    simp [prepared, hname]

/-- A save of a draft whose roles are valid returns. -/
theorem saveDraft_returns (hvalid : request.Valid) (env : SaveEnv) (s : DraftStore) :
    saveDraft redisRepositories env sessionId request s =
      (.ok (), save sessionId request s env) := by
  obtain ⟨s', hs'⟩ : ∃ s', saveMessages redisRepositories env sessionId 0 request.messages
      (prepared env sessionId request s) = (.ok (), s') := saveMessages_returns hvalid _
  rw [save, saveDraft_redis, hs']

theorem said_saves (hvalid : request.Valid) (s : DraftStore) (envs : List SaveEnv) :
    ((saves sessionId request s envs).redis.messages sessionId).map said =
      (s.redis.messages sessionId).map said ++
        (List.replicate envs.length request.said).flatten := by
  induction envs generalizing s with
  | nil => simp [saves]
  | cons env envs ih =>
    have hreturns : saveDraft redisRepositories env sessionId request s = _ :=
      saveDraft_returns hvalid env s
    obtain ⟨-, added, hadded, hsaid⟩ := appends_redis.saveDraft hreturns
    have hrest := ih (save sessionId request s env)
    rw [hadded, List.map_append, hsaid] at hrest
    simpa [saves, List.replicate_succ] using hrest

theorem said_commits {db db' : Database} {envs : List (Time × SaveEnv)}
    (h : commits sessionId request db envs = some db') :
    (db'.messagesOf sessionId).map said = (db.messagesOf sessionId).map said ++
      (List.replicate envs.length request.said).flatten := by
  induction envs generalizing db with
  | nil =>
    cases h
    simp
  | cons env envs ih =>
    obtain ⟨db₁, hfirst, hrest⟩ := Option.bind_eq_some_iff.mp h
    have hsave : saveDraft (postgresRepositories env.1) env.2 sessionId request db =
        (.ok (), db₁) := by
      rw [commit] at hfirst
      split at hfirst
      · rename_i hsaved
        cases hfirst
        exact hsaved
      · cases hfirst
    obtain ⟨-, added, hadded, hsaid⟩ := (appends_postgres env.1).saveDraft hsave
    rw [ih hrest, hadded, List.map_append, hsaid]
    simp [List.replicate_succ]

/-- Only nothing, or one of them behind nothing, is the same as the messages of a draft. -/
theorem append_repeated_eq {A : Type} {x y : List A} {n : ℕ} :
    x ++ (List.replicate (n + 1) y).flatten = y ↔ x = [] ∧ (n = 0 ∨ y = []) := by
  constructor
  · intro h
    have hlength := congrArg List.length h
    simp only [List.replicate_succ, List.flatten_cons, List.length_append, List.length_flatten,
      List.map_replicate, List.sum_replicate_nat] at hlength
    have hx : x.length = 0 := by omega
    have hy : n * y.length = 0 := by omega
    exact ⟨List.length_eq_zero_iff.mp hx, by simpa using Nat.mul_eq_zero.mp hy⟩
  · intro ⟨hx, h⟩
    rcases h with hn | hy
    · simp [hx, hn]
    · simp [hx, hy]

/-- The session of an id, with the project renamed. -/
theorem sessions_renamed (env : SaveEnv) (projectName : String) (s : RedisStore) (id : String) :
    (renamed env sessionId projectName s).sessions id =
      if (s.sessions sessionId).map IdeationSession.id = some id then
        (s.sessions sessionId).map (renamedSession env projectName)
      else s.sessions id := by
  rw [renamed]
  cases hsession : s.sessions sessionId with
  | none => simp
  | some session =>
    by_cases hid : id = session.id
    · simp [RedisSessionRepository.update, hid, renamedSession]
    · simp [RedisSessionRepository.update, hid, Ne.symm hid, renamedSession]

/-- A project that is renamed again keeps its name. -/
theorem undated_renamed {env env₀ : SaveEnv} {projectName : String} {s s₀ : RedisStore}
    (h : ∀ id, (s.sessions id).map undated =
      ((renamed env₀ sessionId projectName s₀).sessions id).map undated) (id : String) :
    ((renamed env sessionId projectName s).sessions id).map undated =
      ((renamed env₀ sessionId projectName s₀).sessions id).map undated := by
  -- the names that the sessions have do not matter once they are renamed
  have hnamed : (s.sessions sessionId).map (undated ∘ renamedSession env projectName) =
      (s₀.sessions sessionId).map (undated ∘ renamedSession env₀ projectName) := by
    have hsame := congrArg
      (Option.map fun x : IdeationSession => { x with projectName := projectName }) (h sessionId)
    rw [sessions_renamed] at hsame
    split at hsame
    · simpa [Function.comp_def, undated, renamedSession] using hsame
    · simpa [Function.comp_def, undated, renamedSession] using hsame
  have hkey := congrArg (Option.map IdeationSession.id) hnamed
  simp only [Option.map_map, Function.comp_def, undated, renamedSession] at hkey
  by_cases hid : (s₀.sessions sessionId).map IdeationSession.id = some id
  · rw [sessions_renamed, sessions_renamed, hkey, if_pos hid, if_pos hid, Option.map_map,
      Option.map_map, hnamed]
  · rw [← h id, sessions_renamed, hkey, if_neg hid]

theorem messages_prepared (env : SaveEnv) (s : DraftStore) :
    (prepared env sessionId request s).redis.messages = s.redis.messages := by
  simp only [prepared, renamed]
  split
  · split <;> rfl
  · rfl

theorem rest_prepared (env : SaveEnv) (s : DraftStore) (messages : String → List ChatMessage)
    (sessions : Keys String IdeationSession) :
    { (prepared env sessionId request s).redis with messages, sessions } =
      { s.redis with messages, sessions } := by
  simp only [prepared, renamed]
  split
  · split <;> rfl
  · rfl

/-- A draft without messages that is saved again changes nothing. -/
theorem Same.prepared {s₀ : DraftStore} {env₀ : SaveEnv}
    (h : Same s (prepared env₀ sessionId request s₀)) (env : SaveEnv) :
    Same (prepared env sessionId request s) (prepared env₀ sessionId request s₀) where
  messages := by
    rw [messages_prepared]
    exact h.messages
  sessions := by
    intro id
    by_cases hname : request.projectName.getD "" = ""
    · simpa [Drafts.prepared, hname] using h.sessions id
    · have hsessions := h.sessions
      simp only [Drafts.prepared, ne_eq, hname, not_false_eq_true, if_true] at hsessions ⊢
      exact undated_renamed hsessions id
  maturity := by
    intro id
    by_cases hid : id = sessionId
    · simp [Drafts.prepared, hid, DraftMaturity.undated]
    · simpa [Drafts.prepared, hid] using h.maturity id
  rest := by
    rw [rest_prepared]
    exact h.rest

theorem same_refl (s : DraftStore) : Same s s := ⟨fun _ => rfl, fun _ => rfl, fun _ => rfl, rfl⟩

/-- So do more saves of it. -/
theorem same_saves (hnil : request.messages = []) (env : SaveEnv) (s : DraftStore)
    (envs : List SaveEnv) :
    Same (saves sessionId request s (env :: envs)) (save sessionId request s env) := by
  have hsave (env : SaveEnv) (s : DraftStore) :
      save sessionId request s env = Drafts.prepared env sessionId request s := by
    rw [save, saveDraft_redis, hnil]
    rfl
  have hrun : ∀ s', Same s' (save sessionId request s env) →
      Same (saves sessionId request s' envs) (save sessionId request s env) := by
    induction envs with
    | nil => exact fun s' h => h
    | cons env' envs ih =>
      intro s' h
      refine ih _ ?_
      rw [hsave] at h ⊢
      rw [hsave]
      exact h.prepared env'
  exact hrun _ (same_refl _)

/-- **What a saved draft leaves**: after saves of a draft a session has just the draft's messages,
and all is as after the first save, if and only if the session had no messages, the roles are valid
and the draft is saved once or has no messages.  In PostgreSQL so it is for saves that raise
nothing. -/
theorem saveDraft_kept (sessionId : String) (request : SaveDraftRequest) :
    (∀ s env envs, Kept sessionId request s env envs ↔
      s.redis.messages sessionId = [] ∧ request.Valid ∧ (envs = [] ∨ request.messages = [])) ∧
    ∀ db db' env envs, commits sessionId request db (env :: envs) = some db' →
      ((db'.messagesOf sessionId).map said = request.said ↔
        db.messagesOf sessionId = [] ∧ (envs = [] ∨ request.messages = [])) := by
  have hnil : request.said = [] ↔ request.messages = [] := List.map_eq_nil_iff
  refine ⟨fun s env envs => ⟨fun h => ?_, fun ⟨hbefore, hvalid, hagain⟩ => ?_⟩, ?_⟩
  · have hvalid : request.Valid := by
      intro m hm
      have hsaid : (m.role, m.content) ∈ request.said := List.mem_map.mpr ⟨m, hm, rfl⟩
      rw [← h.exactly] at hsaid
      obtain ⟨stored, -, heq⟩ := List.mem_map.mp hsaid
      have hrole : stored.role.value = m.role := congrArg Prod.fst heq
      simp [← hrole, role?_value]
    have hexactly := h.exactly
    rw [said_saves hvalid, List.length_cons, append_repeated_eq, hnil, List.map_eq_nil_iff,
      List.length_eq_zero_iff] at hexactly
    exact ⟨hexactly.1, hvalid, hexactly.2⟩
  · refine ⟨?_, ?_⟩
    · rw [said_saves hvalid, List.length_cons, append_repeated_eq, hnil, List.map_eq_nil_iff,
        List.length_eq_zero_iff]
      exact ⟨hbefore, hagain⟩
    · rcases hagain with rfl | hmessages
      · exact same_refl _
      · exact same_saves hmessages env s envs
  · intro db db' env envs h
    rw [said_commits h, List.length_cons, append_repeated_eq, hnil, List.map_eq_nil_iff,
      List.length_eq_zero_iff]

end

/-- A draft with one message. -/
private def greeting : SaveDraftRequest where
  messages := [⟨"user", "Hi"⟩]
  maturityState := ⟨0, "concept", [], false, []⟩

private def clock : SaveEnv := ⟨fun i => i, fun _ => "msg-0"⟩

private def withSession : Database where
  sessions := Records.empty.put ⟨"s", "Untitled Project", "anonymous", .draft, .mock, 1, 0, 0⟩

/-- The case of that draft, saved once in each store. -/
theorem saveDraft_kept_greeting :
    (Kept "s" greeting {} clock [] ↔ ({} : DraftStore).redis.messages "s" = [] ∧ greeting.Valid ∧
      (([] : List SaveEnv) = [] ∨ greeting.messages = [])) ∧
    ∃ db', commits "s" greeting withSession [(0, clock)] = some db' ∧
      ((db'.messagesOf "s").map said = greeting.said ↔ withSession.messagesOf "s" = [] ∧
        (([] : List (Time × SaveEnv)) = [] ∨ greeting.messages = [])) := by
  refine ⟨(saveDraft_kept "s" greeting).1 {} clock [], ?_⟩
  have hcommits : (commits "s" greeting withSession [(0, clock)]).isSome = true := by
    decide
  obtain ⟨db', hdb'⟩ := Option.isSome_iff_exists.mp hcommits
  exact ⟨db', hdb', (saveDraft_kept "s" greeting).2 _ db' (0, clock) [] hdb'⟩

/-- Saved twice, it leaves its message twice. -/
theorem not_kept : ¬ Kept "s" greeting {} clock [clock] := by
  intro h
  have htwice : ((saves "s" greeting {} [clock, clock]).redis.messages "s").map said =
      [("user", "Hi"), ("user", "Hi")] := by decide
  have hone := h.exactly
  rw [htwice] at hone
  simp [SaveDraftRequest.said, greeting] at hone

end DoxAsdlc.Repositories.Drafts
