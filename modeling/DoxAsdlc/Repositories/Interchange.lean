import DoxAsdlc.Interaction.Run
import DoxAsdlc.Repositories.PostgresRepositories
import DoxAsdlc.Repositories.RedisRepositories

/-!
# Whether the repositories can be interchanged

Redis and PostgreSQL stand behind one interface.  They hold the same as long as no update moves an
entity, no draft is saved twice under its id, no story is saved under another session than its own,
no update leaves the time stamp of what it changes, and all values fit their columns; and they list
the same where the order of what is listed does not depend on the server.

## Main definitions

* `Proper` — calls as they are supposed to be.
* `Harmless` — when a call does the same on both sides.
* `Agree` — the two sides hold the same.

## Main results

* `answers_eq_of_harmless` — sequences of such calls have the same answers.
-/

namespace DoxAsdlc.Repositories

open Interaction Paging Redis

/-! ## Calls -/

/-- A call as it is supposed to be: its ids are accepted, an entity is created under an id that none
of its kind has, and after its session. -/
def Proper (db : Database) (t : Call × Circumstances) : Prop :=
  match t.1 with
  | .createSession s => ValidId s.id ∧ ValidId s.userId ∧ ∀ x ∈ db.sessions.rows, x.id ≠ s.id
  | .getSession sessionId | .deleteSession sessionId | .getMessages sessionId _ _
  | .deleteMessages sessionId | .getRequirements sessionId | .getMaturity sessionId
  | .getDraft sessionId | .getUserStories sessionId => ValidId sessionId
  | .updateSession s => ValidId s.id ∧ ValidId s.userId
  | .listSessions userId _ _ => ValidId userId
  | .createMessage m => ValidId m.id ∧ ValidId m.sessionId ∧ db.hasSession m.sessionId = true ∧
      ∀ x ∈ db.messages.rows, x.id ≠ m.id
  | .createRequirement r => ValidId r.id ∧ ValidId r.sessionId ∧
      db.hasSession r.sessionId = true ∧ ∀ x ∈ db.requirements.rows, x.id ≠ r.id
  | .updateRequirement r => ValidId r.id ∧ ValidId r.sessionId ∧ db.hasSession r.sessionId = true
  | .deleteRequirement requirementId => ValidId requirementId
  | .saveMaturity m => ValidId m.sessionId ∧ db.hasSession m.sessionId = true
  | .saveDraft d => ValidId d.id ∧ ValidId d.sessionId ∧ db.hasSession d.sessionId = true
  | .saveUserStories sessionId stories => ValidId sessionId ∧
      (∀ s ∈ stories, ValidId s.id ∧ ValidId s.sessionId ∧ db.hasSession s.sessionId = true) ∧
      (stories.map UserStory.id).Nodup ∧
      ∀ x ∈ db.userStories.rows, x.sessionId ≠ sessionId → ∀ s ∈ stories, x.id ≠ s.id

/-- The sessions of a user. -/
def Database.sessionsOf (db : Database) (userId : String) : List IdeationSession :=
  db.sessions.rows.filter fun s => s.userId = userId

/-- The messages of a session. -/
def Database.messagesOf (db : Database) (sessionId : String) : List ChatMessage :=
  db.messages.rows.filter fun m => m.sessionId = sessionId

/-- The requirements of a session. -/
def Database.requirementsOf (db : Database) (sessionId : String) : List ExtractedRequirement :=
  db.requirements.rows.filter fun r => r.sessionId = sessionId

/-- The drafts of a session. -/
def Database.draftsOf (db : Database) (sessionId : String) : List PRDDraft :=
  db.prdDrafts.rows.filter fun d => d.sessionId = sessionId

/-- The stories of a session. -/
def Database.storiesOf (db : Database) (sessionId : String) : List UserStory :=
  db.userStories.rows.filter fun s => s.sessionId = sessionId

/-- A call that does the same on both sides. -/
def Harmless (db : Database) (t : Call × Circumstances) : Prop :=
  match t.1 with
  | .createSession s => Fits s.columns
  | .getSession sessionId | .deleteSession sessionId | .deleteMessages sessionId
  | .getMaturity sessionId => Storable sessionId
  -- the session is there, of the same user, and its time stamp changes if anything does
  | .updateSession s => Fits s.columns ∧ ∃ old ∈ db.sessions.rows, old.id = s.id ∧
      old.userId = s.userId ∧ (s = old ∨ s.updatedAt ≠ old.updatedAt)
  | .listSessions userId limit offset => Storable userId ∧ limit < int64Bound ∧ offset < int64Bound ∧
      Untied (fun s => OrderDual.toDual s.updatedAt) (db.sessionsOf userId) offset limit
  | .createMessage m => Fits m.columns
  -- no limit of zero, and the messages were created in the order of their time stamps
  | .getMessages sessionId limit offset => Storable sessionId ∧ limit < int64Bound ∧
      offset < int64Bound ∧ offset + limit ≤ int64Bound ∧
      (0 < limit ∨ (db.messagesOf sessionId).length ≤ offset) ∧
      InOrder ChatMessage.timestamp (db.messagesOf sessionId) offset limit
  | .createRequirement r => Fits r.columns
  | .getRequirements sessionId =>
    Storable sessionId ∧ (db.requirementsOf sessionId).length ≤ 1
  | .updateRequirement r => Fits r.columns ∧
      ∀ old ∈ db.requirements.rows, old.id = r.id → old.sessionId = r.sessionId
  | .deleteRequirement requirementId => Storable requirementId
  | .saveMaturity m => Fits m.columns ∧ ∀ old ∈ db.maturity.rows, old.sessionId = m.sessionId →
      m = old ∨ m.updatedAt ≠ old.updatedAt
  | .saveDraft d => Fits d.columns ∧ ∀ x ∈ db.prdDrafts.rows, x.id ≠ d.id
  -- the draft that was saved last is the newest
  | .getDraft sessionId => Storable sessionId ∧ ∀ d ∈ (db.draftsOf sessionId).getLast?,
      ∀ x ∈ db.draftsOf sessionId, x ≠ d → x.createdAt < d.createdAt
  | .saveUserStories sessionId stories => Storable sessionId ∧
      ∀ s ∈ stories, Fits s.columns ∧ s.sessionId = sessionId
  | .getUserStories sessionId => Storable sessionId ∧ (db.storiesOf sessionId).length ≤ 1

instance (db : Database) : ∀ t : Call × Circumstances, Decidable (Proper db t)
  | (.createSession _, _) => inferInstanceAs (Decidable (_ ∧ _))
  | (.getSession id, _) => inferInstanceAs (Decidable (ValidId id))
  | (.deleteSession id, _) => inferInstanceAs (Decidable (ValidId id))
  | (.getMessages id _ _, _) => inferInstanceAs (Decidable (ValidId id))
  | (.deleteMessages id, _) => inferInstanceAs (Decidable (ValidId id))
  | (.getRequirements id, _) => inferInstanceAs (Decidable (ValidId id))
  | (.getMaturity id, _) => inferInstanceAs (Decidable (ValidId id))
  | (.getDraft id, _) => inferInstanceAs (Decidable (ValidId id))
  | (.getUserStories id, _) => inferInstanceAs (Decidable (ValidId id))
  | (.updateSession _, _) => inferInstanceAs (Decidable (_ ∧ _))
  | (.listSessions id _ _, _) => inferInstanceAs (Decidable (ValidId id))
  | (.createMessage _, _) => inferInstanceAs (Decidable (_ ∧ _))
  | (.createRequirement _, _) => inferInstanceAs (Decidable (_ ∧ _))
  | (.updateRequirement _, _) => inferInstanceAs (Decidable (_ ∧ _))
  | (.deleteRequirement id, _) => inferInstanceAs (Decidable (ValidId id))
  | (.saveMaturity _, _) => inferInstanceAs (Decidable (_ ∧ _))
  | (.saveDraft _, _) => inferInstanceAs (Decidable (_ ∧ _))
  | (.saveUserStories _ _, _) => inferInstanceAs (Decidable (_ ∧ _))

instance (db : Database) : ∀ t : Call × Circumstances, Decidable (Harmless db t)
  | (.createSession s, _) => inferInstanceAs (Decidable (Fits s.columns))
  | (.getSession id, _) => inferInstanceAs (Decidable (Storable id))
  | (.deleteSession id, _) => inferInstanceAs (Decidable (Storable id))
  | (.getMessages _ _ _, _) => inferInstanceAs (Decidable (_ ∧ _))
  | (.deleteMessages id, _) => inferInstanceAs (Decidable (Storable id))
  | (.getRequirements _, _) => inferInstanceAs (Decidable (_ ∧ _))
  | (.getMaturity id, _) => inferInstanceAs (Decidable (Storable id))
  | (.getDraft _, _) => inferInstanceAs (Decidable (_ ∧ _))
  | (.getUserStories _, _) => inferInstanceAs (Decidable (_ ∧ _))
  | (.updateSession _, _) => inferInstanceAs (Decidable (_ ∧ _))
  | (.listSessions _ _ _, _) => inferInstanceAs (Decidable (_ ∧ _))
  | (.createMessage m, _) => inferInstanceAs (Decidable (Fits m.columns))
  | (.createRequirement r, _) => inferInstanceAs (Decidable (Fits r.columns))
  | (.updateRequirement _, _) => inferInstanceAs (Decidable (_ ∧ _))
  | (.deleteRequirement id, _) => inferInstanceAs (Decidable (Storable id))
  | (.saveMaturity _, _) => inferInstanceAs (Decidable (_ ∧ _))
  | (.saveDraft _, _) => inferInstanceAs (Decidable (_ ∧ _))
  | (.saveUserStories _ _, _) => inferInstanceAs (Decidable (_ ∧ _))

/-! ## What both sides hold -/

/-- The two sides hold the same. -/
structure Agree (s : RedisStore) (db : Database) : Prop where
  sessions : ∀ id, s.sessions id = db.sessions.find? id
  index : ∀ userId id, id ∈ s.userSessions userId ↔
    ∃ x ∈ db.sessions, x.id = id ∧ x.userId = userId
  messages : ∀ sessionId, s.messages sessionId = db.messagesOf sessionId
  requirements : ∀ sessionId,
    (s.hash (requirementsKey sessionId)).rows = db.requirementsOf sessionId
  named : ∀ key ∈ s.requirements, ∃ sessionId, key = requirementsKey sessionId
  maturity : ∀ sessionId, s.maturity sessionId = db.maturity.find? sessionId
  prd : ∀ sessionId, s.prd sessionId = (db.draftsOf sessionId).getLast?
  stories : ∀ sessionId, s.stories sessionId = db.storiesOf sessionId

theorem agree_empty : Agree {} {} where
  sessions := by simp
  index := by simp
  messages := by simp [Database.messagesOf]
  requirements := by simp [RedisStore.hash, Database.requirementsOf]
  named := by
    intro key hkey
    exact absurd hkey (AList.notMem_empty key)
  maturity := by simp
  prd := by simp [Database.draftsOf]
  stories := by simp [Database.storiesOf]

/-- A call has the same answer on both sides, which then hold the same. -/
structure Matches (s : RedisStore) (db : Database) (t : Call × Circumstances) : Prop where
  answer : (s.perform t).1 = (db.perform t).1
  agree : Agree (s.perform t).2 (db.perform t).2

variable {s : RedisStore} {db : Database} {c : Circumstances} {id sessionId userId : String}

/-! ## Sessions -/

/-- A session is put, and its user's index has it. -/
theorem Agree.putSession (h : Agree s db) {x : IdeationSession}
    {index : String → MemberSet String}
    (hmove : ∀ old ∈ db.sessions, old.id = x.id → old.userId = x.userId)
    (hindex : ∀ userId id, id ∈ index userId ↔
      (id = x.id ∧ userId = x.userId) ∨ id ∈ s.userSessions userId) :
    Agree { s with sessions := Function.update s.sessions x.id (some x), userSessions := index }
      { db with sessions := db.sessions.put x } where
  sessions := by
    intro id
    simp [Function.update_apply, Records.find?_put, h.sessions]
  index := by
    intro userId id
    simp only [hindex, h.index, Records.mem_put]
    constructor
    · intro hid
      rcases hid with ⟨rfl, rfl⟩ | ⟨y, hy, rfl, rfl⟩
      · exact ⟨x, .inl rfl, rfl, rfl⟩
      · by_cases hkey : y.id = x.id
        · exact ⟨x, .inl rfl, hkey.symm, (hmove y hy hkey).symm⟩
        · exact ⟨y, .inr ⟨hy, hkey⟩, rfl, rfl⟩
    · intro hid
      obtain ⟨y, rfl | ⟨hy, -⟩, rfl, rfl⟩ := hid
      · exact .inl ⟨rfl, rfl⟩
      · exact .inr ⟨y, hy, rfl, rfl⟩
  messages := h.messages
  requirements := h.requirements
  named := h.named
  maturity := h.maturity
  prd := h.prd
  stories := h.stories

theorem matches_createSession (h : Agree s db) {x : IdeationSession}
    (hproper : Proper db (.createSession x, c)) (hharmless : Harmless db (.createSession x, c)) :
    Matches s db (.createSession x, c) := by
  obtain ⟨-, -, hnew⟩ := hproper
  have hpost : db.perform (.createSession x, c) =
      (.ok (.session (some x)), { db with sessions := db.sessions.put x }) := by
    simp [Database.perform, PostgresSessionRepository.create, Table.insert_of_new hharmless hnew,
      Database.written, Bind.bind, Except.bind, Pure.pure, Except.pure, Except.map]
  refine ⟨by rw [hpost]; rfl, ?_⟩
  rw [hpost]
  apply h.putSession
  · intro old hold hid
    exact absurd hid (hnew old hold)
  · intro userId id
    by_cases hu : userId = x.userId
    · subst hu
      simp
    · simp [hu]

theorem matches_updateSession (h : Agree s db) {x : IdeationSession}
    (hharmless : Harmless db (.updateSession x, c)) : Matches s db (.updateSession x, c) := by
  obtain ⟨hfits, old, hold, hid, huser, htime⟩ := hharmless
  have hsame : ∀ y ∈ db.sessions, y.id = x.id → y = old := by
    intro y hy hkey
    exact Records.eq_of_key hy hold (hkey.trans hid.symm)
  have hmerge : Table.merge x.columns true (PostgresSessionRepository.stamped c.now) x db.sessions =
      .ok (db.sessions.put x) := by
    apply Table.merge_of_fits hfits
    intro y hy hkey
    rw [hsame y hy hkey]
    exact htime.imp_right fun hne => by simp [PostgresSessionRepository.stamped, hne]
  have hpost : db.perform (.updateSession x, c) =
      (.ok .nothing, { db with sessions := db.sessions.put x }) := by
    simp [Database.perform, PostgresSessionRepository.update, hmerge, Database.written,
      Database.done, Bind.bind, Except.bind, Pure.pure, Except.pure, Except.map]
  refine ⟨by rw [hpost]; rfl, ?_⟩
  rw [hpost]
  apply h.putSession
  · intro y hy hkey
    rw [hsame y hy hkey, huser]
  · intro userId id
    refine (or_iff_right_of_imp ?_).symm
    intro hx
    exact (h.index userId id).mpr ⟨old, hold, hid.trans hx.1.symm, huser.trans hx.2.symm⟩

theorem matches_getSession (h : Agree s db) (hproper : Proper db (.getSession sessionId, c))
    (hharmless : Harmless db (.getSession sessionId, c)) :
    Matches s db (.getSession sessionId, c) := by
  have hread : PostgresSessionRepository.getById sessionId db =
      .ok (db.sessions.find? sessionId) := by
    simp [PostgresSessionRepository.getById, validateId_of_valid hproper,
      parameter_of_storable hharmless, Bind.bind, Except.bind, Pure.pure, Except.pure]
  refine ⟨?_, h⟩
  simp [RedisStore.perform, Database.perform, Database.read, hread,
    RedisSessionRepository.getById, h.sessions, Except.map]

theorem nodup_sessionsOf (db : Database) (userId : String) : (db.sessionsOf userId).Nodup :=
  db.sessions.nodup_rows.filter _

/-- The sessions that the index of a user leads to. -/
theorem Agree.indexed_perm (h : Agree s db) (userId : String) :
    ((c.members.list (s.userSessions userId).members).filterMap s.sessions).Perm
      (db.sessionsOf userId) := by
  have hnodup : ((c.members.list (s.userSessions userId).members).filterMap s.sessions).Nodup := by
    apply (c.members.nodup_list (s.userSessions userId).nodup).filterMap
    intro id id' x hx hx'
    rw [h.sessions, Option.mem_def, Records.find?_eq_some] at hx hx'
    exact hx.2.symm.trans hx'.2
  rw [List.perm_ext_iff_of_nodup hnodup (nodup_sessionsOf db userId)]
  intro x
  simp only [Database.sessionsOf, List.mem_filterMap, IterationOrder.mem_list,
    MemberSet.mem_members, h.index, h.sessions, Records.find?_eq_some, List.mem_filter,
    Records.mem_rows, decide_eq_true_eq]
  constructor
  · intro hx
    obtain ⟨id, ⟨y, hy, hid, hu⟩, hx, hkey⟩ := hx
    rw [Records.eq_of_key hx hy (hkey.trans hid.symm)]
    exact ⟨hy, hu⟩
  · intro hx
    exact ⟨x.id, ⟨x, hx.1, rfl, hx.2⟩, hx.1, rfl⟩

theorem listByUser_eq (limit offset : ℕ) :
    RedisSessionRepository.listByUser c userId limit offset s =
      page offset limit (sortedBy (fun s => OrderDual.toDual s.updatedAt)
        ((c.members.list (s.userSessions userId).members).filterMap s.sessions)) := by
  simp only [RedisSessionRepository.listByUser, RedisSessionRepository.getById]
  split
  case isTrue hempty =>
    rw [List.isEmpty_iff.mp hempty]
    simp [page, sortedBy]
  case isFalse => exact drop_take_page _ offset limit

theorem matches_listSessions (h : Agree s db) {limit offset : ℕ}
    (hproper : Proper db (.listSessions userId limit offset, c))
    (hharmless : Harmless db (.listSessions userId limit offset, c)) :
    Matches s db (.listSessions userId limit offset, c) := by
  obtain ⟨hid, hlimit, hoffset, huntied⟩ := hharmless
  have hread : PostgresSessionRepository.listByUser c userId limit offset db =
      .ok (page offset limit (sortedBy (fun s => OrderDual.toDual s.updatedAt)
        (c.sessions.list (db.sessionsOf userId)))) := by
    simp [PostgresSessionRepository.listByUser, validateId_of_valid hproper,
      parameter_of_storable hid, bigint_of_lt hlimit, bigint_of_lt hoffset, Bind.bind, Except.bind,
      Pure.pure, Except.pure, Database.sessionsOf]
  have hindexed := (sortedBy_perm (fun s => OrderDual.toDual s.updatedAt) _).trans
    (h.indexed_perm (c := c) userId)
  have hwalked := (sortedBy_perm (fun s => OrderDual.toDual s.updatedAt) _).trans
    (c.sessions.perm (db.sessionsOf userId))
  have hpages := page_eq_of_untied (huntied.perm hindexed.symm)
    (hindexed.nodup_iff.mpr (nodup_sessionsOf db userId)) (sorted_sortedBy _ _)
    (sorted_sortedBy _ _) (hindexed.trans hwalked.symm)
  refine ⟨?_, h⟩
  simp only [RedisStore.perform, Database.perform, Database.read, hread, listByUser_eq, hpages,
    Except.map]

/-- The index without a session that is deleted. -/
theorem Agree.mem_unindexed (h : Agree s db) :
    id ∈ RedisSessionRepository.unindexed sessionId s userId ↔
      id ≠ sessionId ∧ id ∈ s.userSessions userId := by
  simp only [RedisSessionRepository.unindexed, RedisSessionRepository.getById]
  cases hget : s.sessions sessionId with
  | none =>
    have hnone := Records.find?_eq_none.mp ((h.sessions sessionId).symm.trans hget)
    refine (and_iff_right_of_imp ?_).symm
    intro hid heq
    obtain ⟨y, hy, hkey, -⟩ := (h.index userId id).mp hid
    exact hnone y hy (hkey.trans heq)
  | some x =>
    obtain ⟨hx, hxid⟩ := Records.find?_eq_some.mp ((h.sessions sessionId).symm.trans hget)
    by_cases hu : userId = x.userId
    · subst hu
      simp
    · simp only [ne_eq, hu, not_false_eq_true, Function.update_of_ne]
      refine (and_iff_right_of_imp ?_).symm
      intro hid heq
      obtain ⟨y, hy, hkey, huser⟩ := (h.index userId id).mp hid
      have hyx : y = x := Records.eq_of_key hy hx (hkey.trans (heq.trans hxid.symm))
      exact hu (hyx ▸ huser.symm)

theorem requirementsKey_inj {id id' : String} :
    requirementsKey id = requirementsKey id' ↔ id = id' := String.append_right_inj _

/-- A session is deleted with all that refers to it. -/
theorem Agree.delete (h : Agree s db) (sessionId : String) :
    Agree (RedisSessionRepository.delete sessionId s)
      (PostgresSessionRepository.cascade sessionId db) where
  sessions := by
    intro id
    simp [RedisSessionRepository.delete, PostgresSessionRepository.cascade, Function.update_apply,
      Records.find?_discard_key, h.sessions]
  index := by
    intro userId id
    simp only [RedisSessionRepository.delete, PostgresSessionRepository.cascade, h.mem_unindexed,
      h.index, Records.mem_discard, decide_eq_false_iff_not]
    constructor
    · intro hid
      obtain ⟨hne, y, hy, rfl, rfl⟩ := hid
      exact ⟨y, ⟨hy, hne⟩, rfl, rfl⟩
    · intro hid
      obtain ⟨y, ⟨hy, hne⟩, rfl, rfl⟩ := hid
      exact ⟨hne, y, hy, rfl, rfl⟩
  messages := by
    intro id
    simp [RedisSessionRepository.delete, PostgresSessionRepository.cascade, Function.update_apply,
      Database.messagesOf, Records.filter_discard_eq, h.messages]
  requirements := by
    intro id
    by_cases hid : id = sessionId
    · subst hid
      simp [RedisSessionRepository.delete, PostgresSessionRepository.cascade, RedisStore.hash,
        Database.requirementsOf, Records.filter_discard_eq]
    · have hkey : requirementsKey id ≠ requirementsKey sessionId :=
        fun heq => hid (requirementsKey_inj.mp heq)
      have hhash := h.requirements id
      simp only [RedisStore.hash] at hhash
      simp [RedisSessionRepository.delete, PostgresSessionRepository.cascade, RedisStore.hash,
        Database.requirementsOf, Records.filter_discard_eq, hid, hkey, hhash]
  named := by
    intro key hkey
    exact h.named key (AList.mem_erase.mp hkey).2
  maturity := by
    intro id
    simp [RedisSessionRepository.delete, PostgresSessionRepository.cascade, Function.update_apply,
      Records.find?_discard_key, h.maturity]
  prd := by
    intro id
    by_cases hid : id = sessionId
    · simp [RedisSessionRepository.delete, PostgresSessionRepository.cascade, Database.draftsOf,
        Records.filter_discard_eq, hid]
    · simp [RedisSessionRepository.delete, PostgresSessionRepository.cascade, Database.draftsOf,
        Records.filter_discard_eq, hid, h.prd]
  stories := by
    intro id
    simp [RedisSessionRepository.delete, PostgresSessionRepository.cascade, Function.update_apply,
      Database.storiesOf, Records.filter_discard_eq, h.stories]

theorem matches_deleteSession (h : Agree s db) (hproper : Proper db (.deleteSession sessionId, c))
    (hharmless : Harmless db (.deleteSession sessionId, c)) :
    Matches s db (.deleteSession sessionId, c) := by
  have hpost : db.perform (.deleteSession sessionId, c) =
      (.ok .nothing, PostgresSessionRepository.cascade sessionId db) := by
    simp [Database.perform, PostgresSessionRepository.delete, validateId_of_valid hproper,
      parameter_of_storable hharmless, Database.written, Database.done, Bind.bind, Except.bind,
      Pure.pure, Except.pure, Except.map]
  exact ⟨by rw [hpost]; rfl, by rw [hpost]; exact h.delete sessionId⟩

/-! ## Messages -/

theorem matches_createMessage (h : Agree s db) {m : ChatMessage}
    (hproper : Proper db (.createMessage m, c)) (hharmless : Harmless db (.createMessage m, c)) :
    Matches s db (.createMessage m, c) := by
  obtain ⟨-, -, hsession, hnew⟩ := hproper
  have hpost : db.perform (.createMessage m, c) =
      (.ok (.message m), { db with messages := db.messages.put m }) := by
    simp [Database.perform, PostgresMessageRepository.create, hsession,
      Table.insert_of_new hharmless hnew, Database.written, Bind.bind, Except.bind, Pure.pure,
      Except.pure, Except.map]
  refine ⟨by rw [hpost]; rfl, ?_⟩
  rw [hpost]
  refine { h with messages := ?_ }
  intro id
  have hmessages := h.messages id
  simp only [Database.messagesOf] at hmessages ⊢
  rw [Records.rows_put_of_new hnew]
  by_cases hid : id = m.sessionId
  · subst hid
    simp [RedisStore.perform, RedisMessageRepository.create, hmessages]
  · simp [RedisStore.perform, RedisMessageRepository.create, hmessages, hid, Ne.symm hid]

theorem matches_getMessages (h : Agree s db) {limit offset : ℕ}
    (hproper : Proper db (.getMessages sessionId limit offset, c))
    (hharmless : Harmless db (.getMessages sessionId limit offset, c)) :
    Matches s db (.getMessages sessionId limit offset, c) := by
  obtain ⟨hid, hlimit, hoffset, hstop, hsome, horder⟩ := hharmless
  have hread : PostgresMessageRepository.getBySession c sessionId limit offset db =
      .ok (page offset limit (sortedBy ChatMessage.timestamp
        (c.messages.list (db.messagesOf sessionId)))) := by
    simp [PostgresMessageRepository.getBySession, validateId_of_valid hproper,
      parameter_of_storable hid, bigint_of_lt hlimit, bigint_of_lt hoffset, Bind.bind, Except.bind,
      Pure.pure, Except.pure, Database.messagesOf]
  have hpages := page_eq_of_inOrder horder (sorted_sortedBy _ _)
    ((sortedBy_perm ChatMessage.timestamp _).trans (c.messages.perm (db.messagesOf sessionId))).symm
  have hredis : RedisMessageRepository.getBySession sessionId limit offset s =
      .ok (page offset limit (db.messagesOf sessionId)) := by
    simp only [RedisMessageRepository.getBySession, h.messages]
    split
    case isTrue hpos => exact lrange_page _ hpos hoffset hstop
    case isFalse hzero =>
      have hlimit : limit = 0 := by omega
      have hlength := hsome.resolve_left hzero
      rw [lrange_rest _ hoffset, List.drop_eq_nil_of_le hlength, hlimit, page, List.take_zero]
  refine ⟨?_, h⟩
  simp only [RedisStore.perform, Database.perform, Database.read, hread, hredis, hpages, Except.map]

theorem matches_deleteMessages (h : Agree s db) (hproper : Proper db (.deleteMessages sessionId, c))
    (hharmless : Harmless db (.deleteMessages sessionId, c)) :
    Matches s db (.deleteMessages sessionId, c) := by
  have hpost : db.perform (.deleteMessages sessionId, c) = (.ok .nothing,
      { db with messages := db.messages.discard fun m => m.sessionId = sessionId }) := by
    simp [Database.perform, PostgresMessageRepository.deleteBySession, validateId_of_valid hproper,
      parameter_of_storable hharmless, Database.written, Database.done, Bind.bind, Except.bind,
      Pure.pure, Except.pure, Except.map]
  refine ⟨by rw [hpost]; rfl, ?_⟩
  rw [hpost]
  refine { h with messages := ?_ }
  intro id
  simp [RedisStore.perform, RedisMessageRepository.deleteBySession, Function.update_apply,
    Database.messagesOf, Records.filter_discard_eq, h.messages]

/-! ## Requirements -/

theorem hash_modify (f : Option (Records ExtractedRequirement.id) →
    Option (Records ExtractedRequirement.id)) (key key' : String) :
    RedisStore.hash { s with requirements := s.requirements.modify key f } key' =
      if key' = key then (f (s.requirements.lookup key)).getD .empty else s.hash key' := by
  simp only [RedisStore.hash, Keyspace.lookup_modify]
  split <;> rfl

/-- A requirement is put where it was, or at the end. -/
theorem Agree.putRequirement (h : Agree s db) {r : ExtractedRequirement}
    (hmove : ∀ old ∈ db.requirements, old.id = r.id → old.sessionId = r.sessionId) :
    Agree (RedisRequirementRepository.store r s)
      { db with requirements := db.requirements.put r } := by
  refine { h with requirements := ?_, named := ?_ }
  · intro id
    have hrows := h.requirements id
    simp only [RedisRequirementRepository.store, hash_modify, requirementsKey_inj,
      Database.requirementsOf] at hrows ⊢
    split
    case isTrue hid =>
      subst hid
      have hkept : ∀ x ∈ db.requirements.rows, x.id = r.id →
          decide (x.sessionId = r.sessionId) = true := by
        intro x hx hkey
        exact decide_eq_true (hmove x hx hkey)
      have hr : decide (r.sessionId = r.sessionId) = true := decide_eq_true rfl
      have hput := Records.filter_putRow (p := fun x : ExtractedRequirement => decide (x.sessionId = r.sessionId)) hr hkept
      rw [← hrows] at hput
      exact hput.symm
    case isFalse hid =>
      have hkept : ∀ x ∈ db.requirements.rows, x.id = r.id →
          decide (x.sessionId = id) = false := by
        intro x hx hkey
        exact decide_eq_false (hmove x hx hkey ▸ Ne.symm hid)
      have hr : decide (r.sessionId = id) = false := decide_eq_false (Ne.symm hid)
      have hput := Records.filter_putRow_of_not (p := fun x : ExtractedRequirement => decide (x.sessionId = id)) hr hkept
      rw [hrows]
      exact hput.symm
  · intro key hkey
    rcases Keyspace.mem_modify.mp hkey with ⟨rfl, -⟩ | ⟨-, hold⟩
    · exact ⟨r.sessionId, rfl⟩
    · exact h.named key hold

theorem matches_createRequirement (h : Agree s db) {r : ExtractedRequirement}
    (hproper : Proper db (.createRequirement r, c))
    (hharmless : Harmless db (.createRequirement r, c)) :
    Matches s db (.createRequirement r, c) := by
  obtain ⟨-, -, hsession, hnew⟩ := hproper
  have hpost : db.perform (.createRequirement r, c) =
      (.ok (.requirement r), { db with requirements := db.requirements.put r }) := by
    simp [Database.perform, PostgresRequirementRepository.create, hsession,
      Table.insert_of_new hharmless hnew, Database.written, Bind.bind, Except.bind, Pure.pure,
      Except.pure, Except.map]
  refine ⟨by rw [hpost]; rfl, ?_⟩
  rw [hpost]
  exact h.putRequirement fun old hold hid => absurd hid (hnew old hold)

theorem matches_updateRequirement (h : Agree s db) {r : ExtractedRequirement}
    (hproper : Proper db (.updateRequirement r, c))
    (hharmless : Harmless db (.updateRequirement r, c)) :
    Matches s db (.updateRequirement r, c) := by
  obtain ⟨-, -, hsession⟩ := hproper
  obtain ⟨hfits, hmove⟩ := hharmless
  have hmerge : Table.merge r.columns true (fun _ new => new) r db.requirements =
      .ok (db.requirements.put r) := Table.merge_of_fits hfits fun _ _ _ => .inr rfl
  have hpost : db.perform (.updateRequirement r, c) =
      (.ok .nothing, { db with requirements := db.requirements.put r }) := by
    simp [Database.perform, PostgresRequirementRepository.update, hsession, hmerge,
      Database.written, Database.done, Bind.bind, Except.bind, Pure.pure, Except.pure, Except.map]
  refine ⟨by rw [hpost]; rfl, ?_⟩
  rw [hpost]
  exact h.putRequirement hmove

theorem matches_getRequirements (h : Agree s db)
    (hproper : Proper db (.getRequirements sessionId, c))
    (hharmless : Harmless db (.getRequirements sessionId, c)) :
    Matches s db (.getRequirements sessionId, c) := by
  obtain ⟨hid, hlength⟩ := hharmless
  have hread : PostgresRequirementRepository.getBySession c sessionId db =
      .ok (db.requirementsOf sessionId) := by
    have hwalk := c.requirements.list_of_length_le_one hlength
    simp only [Database.requirementsOf] at hwalk ⊢
    simp [PostgresRequirementRepository.getBySession, validateId_of_valid hproper,
      parameter_of_storable hid, Bind.bind, Except.bind, Pure.pure, Except.pure, hwalk]
  have hredis : RedisRequirementRepository.getBySession c sessionId s =
      db.requirementsOf sessionId := by
    have hsorted : Sorted ExtractedRequirement.createdAt (db.requirementsOf sessionId) := by
      match db.requirementsOf sessionId, hlength with
      | [], _ => exact List.Pairwise.nil
      | [r], _ => exact List.pairwise_singleton _ r
    simp only [RedisRequirementRepository.getBySession, h.requirements,
      c.fields.list_of_length_le_one hlength, sortedBy_eq_self hsorted]
    split
    case isTrue hempty => exact (List.isEmpty_iff.mp hempty).symm
    case isFalse => rfl
  refine ⟨?_, h⟩
  simp only [RedisStore.perform, Database.perform, Database.read, hread, hredis, Except.map]

theorem globMatches_requirementsKey (sessionId : String) :
    globMatches "ideation:requirements:*" (requirementsKey sessionId) = true := by
  have hfree : GlobFree "ideation:requirements:" := by decide
  exact (globMatches_front hfree).mpr ⟨sessionId.toList, String.toList_append⟩

theorem getD_stored (t : Records ExtractedRequirement.id) :
    ((if t.rows = [] then none else some t).getD .empty).rows = t.rows := by
  split
  case isTrue hempty => simp [hempty]
  case isFalse => rfl

/-- What the scan for a requirement comes to: all requirements but the one are left. -/
theorem Agree.hash_delete (h : Agree s db) (requirementId : String) :
    ((RedisRequirementRepository.delete c requirementId s).hash (requirementsKey sessionId)).rows =
      (db.requirementsOf sessionId).filter fun r => r.id ≠ requirementId := by
  have hrows := h.requirements sessionId
  simp only [RedisRequirementRepository.delete]
  split
  case h_1 key hfind =>
    obtain ⟨hmem, hexists⟩ := And.intro (List.mem_of_find?_eq_some hfind) (List.find?_some hfind)
    obtain ⟨owner, rfl⟩ := h.named key (Keyspace.mem_matching.mp hmem).1
    obtain ⟨r, hget⟩ := Option.isSome_iff_exists.mp hexists
    obtain ⟨hr, rfl⟩ := Records.find?_eq_some.mp hget
    have howner : r ∈ db.requirementsOf owner := h.requirements owner ▸ hr
    simp only [RedisRequirementRepository.hdel, hash_modify, requirementsKey_inj]
    split
    case isTrue hid =>
      subst hid
      rw [getD_stored, ← hrows]
      simp [Records.discard]
    case isFalse hid =>
      rw [hrows, List.filter_eq_self.mpr]
      intro x hx
      simp only [Database.requirementsOf, List.mem_filter, Records.mem_rows,
        decide_eq_true_eq] at hx howner ⊢
      intro hkey
      have hxr : x = r := Records.eq_of_key hx.1 howner.1 hkey
      exact hid (hx.2.symm.trans (hxr ▸ howner.2))
  case h_2 hfind =>
    rw [hrows, List.filter_eq_self.mpr]
    intro x hx
    rw [decide_eq_true_eq]
    intro hkey
    rw [← hrows] at hx
    have hstored : requirementsKey sessionId ∈ s.requirements := by
      rw [← AList.lookup_isSome]
      by_contra hnone
      rw [RedisStore.hash, Option.not_isSome_iff_eq_none.mp hnone] at hx
      exact Records.not_mem_empty x hx
    have hfound := List.find?_eq_none.mp hfind (requirementsKey sessionId)
      (Keyspace.mem_matching.mpr ⟨hstored, globMatches_requirementsKey sessionId⟩)
    apply hfound
    rw [RedisRequirementRepository.hexists, Option.isSome_iff_exists]
    exact ⟨x, Records.find?_eq_some.mpr ⟨hx, hkey⟩⟩

theorem matches_deleteRequirement (h : Agree s db) (hproper : Proper db (.deleteRequirement id, c))
    (hharmless : Harmless db (.deleteRequirement id, c)) :
    Matches s db (.deleteRequirement id, c) := by
  have hpost : db.perform (.deleteRequirement id, c) = (.ok .nothing,
      { db with requirements := db.requirements.discard fun r => r.id = id }) := by
    simp [Database.perform, PostgresRequirementRepository.delete, validateId_of_valid hproper,
      parameter_of_storable hharmless, Database.written, Database.done, Bind.bind, Except.bind,
      Pure.pure, Except.pure, Except.map]
  refine ⟨by rw [hpost]; rfl, ?_⟩
  rw [hpost]
  have hframe : RedisRequirementRepository.delete c id s =
      { s with requirements := (RedisRequirementRepository.delete c id s).requirements } := by
    simp only [RedisRequirementRepository.delete]
    split <;> rfl
  show Agree (RedisRequirementRepository.delete c id s) _
  rw [hframe]
  refine { h with requirements := ?_, named := ?_ }
  · intro sessionId
    refine (h.hash_delete (c := c) id).trans ?_
    simp only [Database.requirementsOf, Records.discard, List.filter_filter]
    apply List.filter_congr
    intro r _
    simp [Bool.and_comm]
  · intro key hkey
    simp only [RedisRequirementRepository.delete] at hkey
    split at hkey
    case h_1 owner hfind =>
      rcases Keyspace.mem_modify.mp hkey with ⟨rfl, -⟩ | ⟨-, hold⟩
      · exact h.named key (Keyspace.mem_matching.mp (List.mem_of_find?_eq_some hfind)).1
      · exact h.named key hold
    case h_2 => exact h.named key hkey

/-! ## Maturity -/

theorem matches_saveMaturity (h : Agree s db) {m : MaturityState}
    (hproper : Proper db (.saveMaturity m, c)) (hharmless : Harmless db (.saveMaturity m, c)) :
    Matches s db (.saveMaturity m, c) := by
  obtain ⟨-, hsession⟩ := hproper
  obtain ⟨hfits, htime⟩ := hharmless
  have hmerge : Table.merge m.columns true (PostgresMaturityRepository.stamped c.now) m
      db.maturity = .ok (db.maturity.put m) := by
    apply Table.merge_of_fits hfits
    intro old hold hkey
    exact (htime old hold hkey).imp_right fun hne => by
      simp [PostgresMaturityRepository.stamped, hne]
  have hpost : db.perform (.saveMaturity m, c) =
      (.ok .nothing, { db with maturity := db.maturity.put m }) := by
    simp [Database.perform, PostgresMaturityRepository.save, hsession, hmerge, Database.written,
      Database.done, Bind.bind, Except.bind, Pure.pure, Except.pure, Except.map]
  refine ⟨by rw [hpost]; rfl, ?_⟩
  rw [hpost]
  refine { h with maturity := ?_ }
  intro id
  simp [RedisStore.perform, RedisMaturityRepository.save, Function.update_apply,
    Records.find?_put, h.maturity]

theorem matches_getMaturity (h : Agree s db) (hproper : Proper db (.getMaturity sessionId, c))
    (hharmless : Harmless db (.getMaturity sessionId, c)) :
    Matches s db (.getMaturity sessionId, c) := by
  have hread : PostgresMaturityRepository.getBySession sessionId db =
      .ok (db.maturity.find? sessionId) := by
    simp [PostgresMaturityRepository.getBySession, validateId_of_valid hproper,
      parameter_of_storable hharmless, Bind.bind, Except.bind, Pure.pure, Except.pure]
  refine ⟨?_, h⟩
  simp [RedisStore.perform, Database.perform, Database.read, hread,
    RedisMaturityRepository.getBySession, h.maturity, Except.map]

/-! ## Drafts and stories -/

theorem matches_saveDraft (h : Agree s db) {d : PRDDraft}
    (hproper : Proper db (.saveDraft d, c)) (hharmless : Harmless db (.saveDraft d, c)) :
    Matches s db (.saveDraft d, c) := by
  obtain ⟨-, -, hsession⟩ := hproper
  obtain ⟨hfits, hnew⟩ := hharmless
  have hpost : db.perform (.saveDraft d, c) =
      (.ok (.draft (some d)), { db with prdDrafts := db.prdDrafts.put d }) := by
    simp [Database.perform, PostgresPRDRepository.saveDraft, hsession,
      Table.insert_of_new hfits hnew, Database.written, Bind.bind, Except.bind, Pure.pure,
      Except.pure, Except.map]
  refine ⟨by rw [hpost]; rfl, ?_⟩
  rw [hpost]
  refine { h with prd := ?_ }
  intro id
  have hprd := h.prd id
  simp only [Database.draftsOf] at hprd ⊢
  rw [Records.rows_put_of_new hnew]
  by_cases hid : id = d.sessionId
  · subst hid
    simp [RedisStore.perform, RedisPRDRepository.saveDraft]
  · simp [RedisStore.perform, RedisPRDRepository.saveDraft, hprd, hid, Ne.symm hid]

theorem matches_getDraft (h : Agree s db) (hproper : Proper db (.getDraft sessionId, c))
    (hharmless : Harmless db (.getDraft sessionId, c)) : Matches s db (.getDraft sessionId, c) := by
  obtain ⟨hid, hnewest⟩ := hharmless
  have hread : PostgresPRDRepository.getDraft c sessionId db =
      .ok (db.draftsOf sessionId).getLast? := by
    have hperm := (sortedBy_perm (fun d => OrderDual.toDual d.createdAt) _).trans
      (c.drafts.perm (db.draftsOf sessionId))
    have hfirst : (sortedBy (fun d => OrderDual.toDual d.createdAt)
        (c.drafts.list (db.draftsOf sessionId))).head? = (db.draftsOf sessionId).getLast? := by
      cases hlast : (db.draftsOf sessionId).getLast? with
      | none =>
        rw [List.getLast?_eq_none_iff] at hlast
        rw [hlast] at hperm ⊢
        rw [List.perm_nil.mp hperm]
        rfl
      | some d =>
        have hmem : d ∈ db.draftsOf sessionId := List.mem_of_getLast? hlast
        apply head?_of_least (sorted_sortedBy _ _) (hperm.mem_iff.mpr hmem)
        intro x hx hne
        exact hnewest d hlast x (hperm.mem_iff.mp hx) hne
    rw [← hfirst]
    simp [PostgresPRDRepository.getDraft, validateId_of_valid hproper, parameter_of_storable hid,
      Bind.bind, Except.bind, Pure.pure, Except.pure, page, List.head?_take, Database.draftsOf]
  refine ⟨?_, h⟩
  simp [RedisStore.perform, Database.perform, Database.read, hread, RedisPRDRepository.getDraft,
    h.prd, Except.map]

/-- Rows that are inserted one after the other stand at the end. -/
theorem foldlM_insert {R : Type} {key : R → String} {columns : R → List Column}
    {parent : R → Bool} {rs : List R} {t : Records key}
    (hfits : ∀ r ∈ rs, Fits (columns r) ∧ parent r = true) (hnodup : (rs.map key).Nodup)
    (hnew : ∀ x ∈ t, ∀ r ∈ rs, key x ≠ key r) :
    ∃ t', rs.foldlM (fun t r => Table.insert (columns r) (parent r) r t) t = .ok t' ∧
      t'.rows = t.rows ++ rs := by
  induction rs generalizing t with
  | nil => exact ⟨t, rfl, by simp⟩
  | cons r rs ih =>
    obtain ⟨hr, hrs⟩ := List.forall_mem_cons.mp hfits
    obtain ⟨hfresh, hrest⟩ := List.nodup_cons.mp hnodup
    have hnewr : ∀ x ∈ t, key x ≠ key r := fun x hx => hnew x hx r List.mem_cons_self
    have hnewrs : ∀ x ∈ t.put r, ∀ r' ∈ rs, key x ≠ key r' := by
      intro x hx r' hr'
      rcases Records.mem_put.mp hx with rfl | hold
      · exact fun hkey => hfresh (hkey ▸ List.mem_map_of_mem hr')
      · exact hnew x hold.1 r' (List.mem_cons_of_mem r hr')
    obtain ⟨t', hfold, hrows⟩ := ih hrs hrest hnewrs
    refine ⟨t', ?_, ?_⟩
    · rw [List.foldlM_cons, hr.2, Table.insert_of_new hr.1 hnewr]
      exact hfold
    · rw [hrows, Records.rows_put_of_new hnewr, List.append_assoc, List.singleton_append]

theorem matches_saveUserStories (h : Agree s db) {stories : List UserStory}
    (hproper : Proper db (.saveUserStories sessionId stories, c))
    (hharmless : Harmless db (.saveUserStories sessionId stories, c)) :
    Matches s db (.saveUserStories sessionId stories, c) := by
  obtain ⟨hvalid, hstories, hnodup, hfresh⟩ := hproper
  obtain ⟨hid, hfits⟩ := hharmless
  obtain ⟨t', hfold, hrows⟩ := foldlM_insert
    (t := db.userStories.discard fun s => s.sessionId = sessionId)
    (fun s hs => ⟨(hfits s hs).1, (hstories s hs).2.2⟩) hnodup (by
      intro x hx s hs
      have hx' := Records.mem_discard.mp hx
      exact hfresh x hx'.1 (of_decide_eq_false hx'.2) s hs)
  have hpost : db.perform (.saveUserStories sessionId stories, c) =
      (.ok .nothing, { db with userStories := t' }) := by
    simp [Database.perform, PostgresPRDRepository.saveUserStories, validateId_of_valid hvalid,
      parameter_of_storable hid, hfold, Database.written, Database.done, Bind.bind, Except.bind,
      Pure.pure, Except.pure, Except.map]
  refine ⟨by rw [hpost]; rfl, ?_⟩
  rw [hpost]
  refine { h with stories := ?_ }
  intro id
  have hold := h.stories id
  simp only [Database.storiesOf] at hold ⊢
  rw [hrows, List.filter_append, Records.filter_discard_eq]
  by_cases heq : id = sessionId
  · have hall : stories.filter (fun s => decide (s.sessionId = id)) = stories := by
      rw [List.filter_eq_self]
      intro x hx
      simp [heq, (hfits x hx).2]
    simp [RedisStore.perform, RedisPRDRepository.saveUserStories, heq, heq ▸ hall]
  · have hnone : stories.filter (fun s => decide (s.sessionId = id)) = [] := by
      rw [List.filter_eq_nil_iff]
      intro x hx
      simp [(hfits x hx).2, Ne.symm heq]
    simp [RedisStore.perform, RedisPRDRepository.saveUserStories, heq, hold, hnone]

theorem matches_getUserStories (h : Agree s db)
    (hproper : Proper db (.getUserStories sessionId, c))
    (hharmless : Harmless db (.getUserStories sessionId, c)) :
    Matches s db (.getUserStories sessionId, c) := by
  obtain ⟨hid, hlength⟩ := hharmless
  have hread : PostgresPRDRepository.getUserStories c sessionId db =
      .ok (db.storiesOf sessionId) := by
    have hwalk := c.stories.list_of_length_le_one hlength
    simp only [Database.storiesOf] at hwalk ⊢
    simp [PostgresPRDRepository.getUserStories, validateId_of_valid hproper,
      parameter_of_storable hid, Bind.bind, Except.bind, Pure.pure, Except.pure, hwalk]
  refine ⟨?_, h⟩
  simp [RedisStore.perform, Database.perform, Database.read, hread,
    RedisPRDRepository.getUserStories, range_all, h.stories, Except.map]

/-! ## Sequences of calls -/

/-- A call that is harmless matches. -/
theorem Agree.matched (h : Agree s db) (t : Call × Circumstances) (hproper : Proper db t)
    (hharmless : Harmless db t) : Matches s db t := by
  obtain ⟨call, c⟩ := t
  cases call with
  | createSession x => exact matches_createSession h hproper hharmless
  | getSession id => exact matches_getSession h hproper hharmless
  | updateSession x => exact matches_updateSession h hharmless
  | deleteSession id => exact matches_deleteSession h hproper hharmless
  | listSessions userId limit offset => exact matches_listSessions h hproper hharmless
  | createMessage m => exact matches_createMessage h hproper hharmless
  | getMessages id limit offset => exact matches_getMessages h hproper hharmless
  | deleteMessages id => exact matches_deleteMessages h hproper hharmless
  | createRequirement r => exact matches_createRequirement h hproper hharmless
  | getRequirements id => exact matches_getRequirements h hproper hharmless
  | updateRequirement r => exact matches_updateRequirement h hproper hharmless
  | deleteRequirement id => exact matches_deleteRequirement h hproper hharmless
  | saveMaturity m => exact matches_saveMaturity h hproper hharmless
  | getMaturity id => exact matches_getMaturity h hproper hharmless
  | saveDraft d => exact matches_saveDraft h hproper hharmless
  | getDraft id => exact matches_getDraft h hproper hharmless
  | saveUserStories id stories => exact matches_saveUserStories h hproper hharmless
  | getUserStories id => exact matches_getUserStories h hproper hharmless

/-- The services that the repositories are. -/
def redisService : Service RedisStore (Call × Circumstances) (Except Error Answer) :=
  RedisStore.perform

def postgresService : Service Database (Call × Circumstances) (Except Error Answer) :=
  Database.perform

/-- PostgreSQL stands in for Redis, where the calls are harmless. -/
theorem simulates : Service.Simulates redisService postgresService Agree
    fun db t => Proper db t ∧ Harmless db t where
  answer := fun _ _ t h ht => (h.matched t ht.1 ht.2).answer
  related := fun _ _ t h ht => (h.matched t ht.1 ht.2).agree

/-- Servers that walk as they please. -/
def exampleCircumstances : Circumstances where
  members := .asAnswered
  keys := .asAnswered
  fields := .asAnswered
  sessions := .asAnswered
  messages := .asAnswered
  requirements := .asAnswered
  drafts := .asAnswered
  stories := .asAnswered
  now := 100

/-- A session of a user. -/
def exampleSession (userId : String) (updatedAt : Time) : IdeationSession where
  id := "session-1"
  projectName := "Shop"
  userId := userId
  createdAt := 1
  updatedAt := updatedAt

/-- A session with a message and a draft, updated, listed and deleted. -/
def exampleCalls : List (Call × Circumstances) :=
  [.createSession (exampleSession "ada" 1),
    .createMessage ⟨"message-1", "session-1", .user, "Hello", 2, 0, none⟩,
    .saveDraft ⟨"draft-1", "session-1", "Shop", "0.1.0", [], "draft", 3⟩,
    .updateSession (exampleSession "ada" 4), .listSessions "ada" 50 0,
    .getMessages "session-1" 100 0, .getDraft "session-1", .deleteSession "session-1",
    .getSession "session-1"].map fun call => (call, exampleCircumstances)

/-- A session that is handed to another user. -/
def handedOver : List (Call × Circumstances) :=
  [.createSession (exampleSession "ada" 1), .updateSession (exampleSession "bob" 2),
    .listSessions "ada" 50 0].map fun call => (call, exampleCircumstances)

/-- The number of sessions that are listed. -/
def listed : Except Error Answer → ℕ
  | .ok (.sessions l) => l.length
  | _ => 0

end DoxAsdlc.Repositories
