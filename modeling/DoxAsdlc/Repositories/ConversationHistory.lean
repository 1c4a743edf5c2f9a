import DoxAsdlc.Repositories.Interchange

/-!
# The history that an agent is given

The history of a conversation is read with the default limit of the repositories, from the first
message on.  So it is the begin of the conversation, and the end is missing when there are more
messages than the limit.

## Main definitions

* `getConversationHistory` — the history, in both stores.
* `Recent` — the history is the end of the conversation.

## Main results

* `getConversationHistory_recent` — when it is.
-/

namespace DoxAsdlc.Repositories

open Paging

/-- The default limit of `get_by_session`. -/
def defaultLimit : ℕ := 100

/-- A message as the agent expects it. -/
def ChatMessage.entry (m : ChatMessage) : String × String := (m.role.value, m.content)

/-- `_get_conversation_history`, of what the message repository reads with its defaults. -/
def getConversationHistory (getBySession : (limit offset : ℕ) → Except Error (List ChatMessage)) :
    Except Error (List (String × String)) :=
  (getBySession defaultLimit 0).map fun messages => messages.map ChatMessage.entry

/-- The conversation of a session in Redis. -/
def RedisStore.conversation (s : RedisStore) (sessionId : String) : List (String × String) :=
  (s.messages sessionId).map ChatMessage.entry

/-- The conversation of a session in PostgreSQL, as the server lists it in the order of time. -/
def Database.conversation (c : Circumstances) (db : Database) (sessionId : String) :
    List (String × String) :=
  (sortedBy ChatMessage.timestamp
    (c.messages.list (db.messages.rows.filter fun m => m.sessionId = sessionId))).map
      ChatMessage.entry

/-- The history is the end of the conversation, with the last message of it. -/
structure Recent (history conversation : List (String × String)) : Prop where
  suffix : history <:+ conversation
  last : history.getLast? = conversation.getLast?

/-- A conversation that is not longer than the limit, or whose first messages up to the limit say
the same as its last ones. -/
def Short (conversation : List (String × String)) : Prop :=
  conversation.length ≤ defaultLimit ∨
    conversation.take defaultLimit = conversation.drop (conversation.length - defaultLimit)

/-- The first elements of a list are its end. -/
theorem take_suffix {A : Type} {l : List A} {n : ℕ} :
    l.take n <:+ l ↔ l.length ≤ n ∨ l.take n = l.drop (l.length - n) := by
  constructor
  · intro h
    by_cases hn : l.length ≤ n
    · exact .inl hn
    · refine .inr ?_
      have hlength : (l.take n).length = n := by
        rw [List.length_take]
        omega
      simpa [hlength] using List.suffix_iff_eq_drop.mp h
  · intro h
    rcases h with hn | htake
    · rw [List.take_of_length_le hn]
    · rw [htake]
      exact List.drop_suffix _ _

theorem recent_take {conversation : List (String × String)} :
    Recent (conversation.take defaultLimit) conversation ↔ Short conversation := by
  constructor
  · exact fun h => take_suffix.mp h.suffix
  · intro h
    have hsuffix := take_suffix.mpr h
    refine ⟨hsuffix, ?_⟩
    by_cases hnil : conversation = []
    · simp [hnil]
    · have htake : conversation.take defaultLimit ≠ [] := by
        simp [List.take_eq_nil_iff, hnil, defaultLimit]
      rw [List.getLast?_eq_getLast_of_ne_nil htake, List.getLast?_eq_getLast_of_ne_nil hnil,
        hsuffix.getLast htake]

theorem getConversationHistory_redis (s : RedisStore) (sessionId : String) :
    getConversationHistory (fun limit offset =>
      RedisMessageRepository.getBySession sessionId limit offset s) =
        .ok ((s.conversation sessionId).take defaultLimit) := by
  have hrange := @lrange_page _ (s.messages sessionId) 0 100 (by decide) (by decide) (by decide)
  have hread : RedisMessageRepository.getBySession sessionId 100 0 s =
      .ok (page 0 100 (s.messages sessionId)) := by
    simpa [RedisMessageRepository.getBySession] using hrange
  simp [getConversationHistory, defaultLimit, hread, Except.map, page, RedisStore.conversation]

theorem getConversationHistory_postgres {c : Circumstances} {db : Database} {sessionId : String}
    {history : List (String × String)}
    (h : getConversationHistory (fun limit offset =>
      PostgresMessageRepository.getBySession c sessionId limit offset db) = .ok history) :
    history = (db.conversation c sessionId).take defaultLimit := by
  rw [getConversationHistory] at h
  cases hread : PostgresMessageRepository.getBySession c sessionId defaultLimit 0 db with
  | error e =>
    rw [hread] at h
    cases h
  | ok messages =>
    rw [hread] at h
    cases h
    simp only [PostgresMessageRepository.getBySession, check_bind_eq_ok] at hread
    obtain ⟨-, -, -, -, hmessages⟩ := hread
    cases hmessages
    simp [page, Database.conversation]

/-- **When the history is the end of the conversation**: if and only if the conversation has no more
messages than the default limit, or its first messages up to the limit say the same as its last
ones. -/
theorem getConversationHistory_recent (sessionId : String) :
    (∀ s : RedisStore, ∃ history,
      getConversationHistory (fun limit offset =>
        RedisMessageRepository.getBySession sessionId limit offset s) = .ok history ∧
      (Recent history (s.conversation sessionId) ↔ Short (s.conversation sessionId))) ∧
    ∀ c db history, getConversationHistory (fun limit offset =>
        PostgresMessageRepository.getBySession c sessionId limit offset db) = .ok history →
      (Recent history (db.conversation c sessionId) ↔ Short (db.conversation c sessionId)) := by
  refine ⟨fun s => ⟨_, getConversationHistory_redis s sessionId, recent_take⟩, ?_⟩
  intro c db history h
  rw [getConversationHistory_postgres h]
  exact recent_take

/-- A session with one message more than the limit. -/
private def chatty : RedisStore where
  messages _ := (List.range 101).map fun i =>
    { id := "msg-0", sessionId := "s", role := .user, content := if i = 0 then "First" else "Next",
      timestamp := i }

/-- The case of that session in Redis, and of no message in PostgreSQL. -/
theorem getConversationHistory_recent_chatty :
    (∃ history, getConversationHistory (fun limit offset =>
      RedisMessageRepository.getBySession "s" limit offset chatty) = .ok history ∧
        (Recent history (chatty.conversation "s") ↔ Short (chatty.conversation "s"))) ∧
    ∃ history, getConversationHistory (fun limit offset =>
      PostgresMessageRepository.getBySession exampleCircumstances "s" limit offset {}) =
        .ok history ∧ (Recent history (({} : Database).conversation exampleCircumstances "s") ↔
          Short (({} : Database).conversation exampleCircumstances "s")) := by
  refine ⟨(getConversationHistory_recent "s").1 chatty, ?_⟩
  have hread : PostgresMessageRepository.getBySession exampleCircumstances "s" defaultLimit 0 {} =
      .ok [] := by
    have hid : validateId "s" "session_id" = .ok () := validateId_of_valid (by decide) _
    have hstorable : parameter "s" = .ok () := parameter_of_storable (by decide)
    have hlimit : bigint defaultLimit = .ok () := bigint_of_lt (by decide)
    have hoffset : bigint 0 = .ok () := bigint_of_lt (by decide)
    have hrows : exampleCircumstances.messages.list [] = [] :=
      exampleCircumstances.messages.list_of_length_le_one (by simp)
    simp [PostgresMessageRepository.getBySession, hid, hstorable, hlimit, hoffset, hrows, page,
      sortedBy, Bind.bind, Except.bind, Pure.pure, Except.pure]
  refine ⟨[], ?_, (getConversationHistory_recent "s").2 exampleCircumstances {} [] ?_⟩
  all_goals rw [getConversationHistory, hread]; rfl

/-- The last message of it is not in the history. -/
theorem not_recent : ∃ history, getConversationHistory (fun limit offset =>
    RedisMessageRepository.getBySession "s" limit offset chatty) = .ok history ∧
      ¬ Recent history (chatty.conversation "s") := by
  refine ⟨_, getConversationHistory_redis chatty "s", ?_⟩
  rw [recent_take, Short]
  decide

end DoxAsdlc.Repositories
