import DoxAsdlc.Redis.Keyspace
import DoxAsdlc.Redis.SortedSet
import DoxAsdlc.Repositories.Models
import DoxAsdlc.Structures.Paging
import DoxAsdlc.Structures.Records

/-!
# The repositories in Redis

A session is a key, and the sets of the sessions of users are an index that is written when a
session is created and when it is deleted.  The messages and the stories of a session are lists, in
the order in which they came; its requirements are a hash; its maturity and its draft are keys.

## Main definitions

* `RedisStore` — the keys, in families by their prefixes.
* `RedisSessionRepository`, `RedisMessageRepository`, `RedisRequirementRepository`,
  `RedisMaturityRepository`, `RedisPRDRepository` — the methods, under the names of their classes.
* `RedisStore.perform` — a call.
-/

namespace DoxAsdlc.Repositories

open Redis Paging

/-- What is stored: `ideation:session:`, `ideation:user_sessions:`, `ideation:messages:`,
`ideation:maturity:`, `ideation:prd:` and `ideation:stories:` by the id that follows, and
`ideation:requirements:` by the whole key. -/
structure RedisStore where
  sessions : Keys String IdeationSession := fun _ => none
  userSessions : String → MemberSet String := fun _ => .empty
  messages : String → List ChatMessage := fun _ => []
  requirements : Keyspace (Records ExtractedRequirement.id) := ∅
  maturity : Keys String MaturityState := fun _ => none
  prd : Keys String PRDDraft := fun _ => none
  stories : String → List UserStory := fun _ => []

/-- `LRANGE`, which takes integers of 64 bits. -/
def lrange {A : Type} (l : List A) (start stop : ℤ) : Except Error (List A) :=
  if start.toNat < int64Bound ∧ stop.toNat < int64Bound then .ok (range l start stop)
  else .error ⟨.redisError, "value is not an integer or out of range", []⟩

/-- A key of requirements. -/
def requirementsKey (sessionId : String) : String := "ideation:requirements:" ++ sessionId

/-- The hash at a key. -/
def RedisStore.hash (s : RedisStore) (key : String) : Records ExtractedRequirement.id :=
  (s.requirements.lookup key).getD .empty

namespace RedisSessionRepository

/-- `create`. -/
def create (session : IdeationSession) (s : RedisStore) : IdeationSession × RedisStore :=
  (session, { s with
    sessions := Function.update s.sessions session.id (some session)
    userSessions := Function.update s.userSessions session.userId
      ((s.userSessions session.userId).sadd session.id) })

/-- `get_by_id`. -/
def getById (sessionId : String) (s : RedisStore) : Option IdeationSession := s.sessions sessionId

/-- `update`. -/
def update (session : IdeationSession) (s : RedisStore) : RedisStore :=
  { s with sessions := Function.update s.sessions session.id (some session) }

/-- The index, without a session that is deleted. -/
def unindexed (sessionId : String) (s : RedisStore) : String → MemberSet String :=
  match getById sessionId s with
  | some session => Function.update s.userSessions session.userId
      ((s.userSessions session.userId).srem sessionId)
  | none => s.userSessions

/-- `delete`. -/
def delete (sessionId : String) (s : RedisStore) : RedisStore where
  sessions := Function.update s.sessions sessionId none
  userSessions := unindexed sessionId s
  messages := Function.update s.messages sessionId []
  requirements := s.requirements.erase (requirementsKey sessionId)
  maturity := Function.update s.maturity sessionId none
  prd := Function.update s.prd sessionId none
  stories := Function.update s.stories sessionId []

/-- `list_by_user`. -/
def listByUser (c : Circumstances) (userId : String) (limit offset : ℕ) (s : RedisStore) :
    List IdeationSession :=
  let sessionIds := c.members.list (s.userSessions userId).members
  if sessionIds.isEmpty then []
  else
    let sessions := sessionIds.filterMap fun sid => getById sid s
    ((sortedBy (fun s => OrderDual.toDual s.updatedAt) sessions).take (offset + limit)).drop offset

end RedisSessionRepository

namespace RedisMessageRepository

/-- `create`. -/
def create (message : ChatMessage) (s : RedisStore) : ChatMessage × RedisStore :=
  (message, { s with
    messages := Function.update s.messages message.sessionId
      (s.messages message.sessionId ++ [message]) })

/-- `get_by_session`. -/
def getBySession (sessionId : String) (limit offset : ℕ) (s : RedisStore) :
    Except Error (List ChatMessage) :=
  let start : ℤ := offset
  let stop : ℤ := if 0 < limit then offset + limit - 1 else -1
  lrange (s.messages sessionId) start stop

/-- `delete_by_session`. -/
def deleteBySession (sessionId : String) (s : RedisStore) : RedisStore :=
  { s with messages := Function.update s.messages sessionId [] }

end RedisMessageRepository

namespace RedisRequirementRepository

/-- `HSET` in the hash of the session. -/
def store (requirement : ExtractedRequirement) (s : RedisStore) : RedisStore :=
  let key := requirementsKey requirement.sessionId
  { s with requirements :=
      s.requirements.modify key (fun h => some ((h.getD .empty).put requirement)) }

/-- `create`. -/
def create (requirement : ExtractedRequirement) (s : RedisStore) :
    ExtractedRequirement × RedisStore := (requirement, store requirement s)

/-- `get_by_session`. -/
def getBySession (c : Circumstances) (sessionId : String) (s : RedisStore) :
    List ExtractedRequirement :=
  let rawData := c.fields.list (s.hash (requirementsKey sessionId)).rows
  if rawData.isEmpty then [] else sortedBy ExtractedRequirement.createdAt rawData

/-- `update`. -/
def update (requirement : ExtractedRequirement) (s : RedisStore) : RedisStore := store requirement s

/-- `HEXISTS`. -/
def hexists (s : RedisStore) (requirementId key : String) : Bool :=
  ((s.hash key).find? requirementId).isSome

/-- `HDEL`: a hash without fields is no key. -/
def hdel (requirementId key : String) (s : RedisStore) : RedisStore :=
  let rest := (s.hash key).discard fun r => r.id = requirementId
  { s with requirements :=
      s.requirements.modify key (fun _ => if rest.rows = [] then none else some rest) }

/-- `delete`: the first of the keys that are found whose hash has the field. -/
def delete (c : Circumstances) (requirementId : String) (s : RedisStore) : RedisStore :=
  let keys := s.requirements.matching c.keys "ideation:requirements:*"
  match keys.find? (hexists s requirementId) with
  | some key => hdel requirementId key s
  | none => s

end RedisRequirementRepository

namespace RedisMaturityRepository

/-- `save`. -/
def save (maturity : MaturityState) (s : RedisStore) : RedisStore :=
  { s with maturity := Function.update s.maturity maturity.sessionId (some maturity) }

/-- `get_by_session`. -/
def getBySession (sessionId : String) (s : RedisStore) : Option MaturityState :=
  s.maturity sessionId

end RedisMaturityRepository

namespace RedisPRDRepository

/-- `save_draft`. -/
def saveDraft (draft : PRDDraft) (s : RedisStore) : PRDDraft × RedisStore :=
  (draft, { s with prd := Function.update s.prd draft.sessionId (some draft) })

/-- `get_draft`. -/
def getDraft (sessionId : String) (s : RedisStore) : Option PRDDraft := s.prd sessionId

/-- `save_user_stories`: `DEL`, and `RPUSH` of what there is. -/
def saveUserStories (sessionId : String) (stories : List UserStory) (s : RedisStore) : RedisStore :=
  { s with stories := Function.update s.stories sessionId stories }

/-- `get_user_stories`. -/
def getUserStories (sessionId : String) (s : RedisStore) : List UserStory :=
  range (s.stories sessionId) 0 (-1)

end RedisPRDRepository

/-- A call. -/
def RedisStore.perform (s : RedisStore) (t : Call × Circumstances) :
    Except Error Answer × RedisStore :=
  match t.1 with
  | .createSession session =>
    let r := RedisSessionRepository.create session s
    (.ok (.session (some r.1)), r.2)
  | .getSession sessionId => (.ok (.session (RedisSessionRepository.getById sessionId s)), s)
  | .updateSession session => (.ok .nothing, RedisSessionRepository.update session s)
  | .deleteSession sessionId => (.ok .nothing, RedisSessionRepository.delete sessionId s)
  | .listSessions userId limit offset =>
    (.ok (.sessions (RedisSessionRepository.listByUser t.2 userId limit offset s)), s)
  | .createMessage message =>
    let r := RedisMessageRepository.create message s
    (.ok (.message r.1), r.2)
  | .getMessages sessionId limit offset =>
    ((RedisMessageRepository.getBySession sessionId limit offset s).map .messages, s)
  | .deleteMessages sessionId => (.ok .nothing, RedisMessageRepository.deleteBySession sessionId s)
  | .createRequirement requirement =>
    let r := RedisRequirementRepository.create requirement s
    (.ok (.requirement r.1), r.2)
  | .getRequirements sessionId =>
    (.ok (.requirements (RedisRequirementRepository.getBySession t.2 sessionId s)), s)
  | .updateRequirement requirement => (.ok .nothing, RedisRequirementRepository.update requirement s)
  | .deleteRequirement requirementId =>
    (.ok .nothing, RedisRequirementRepository.delete t.2 requirementId s)
  | .saveMaturity maturity => (.ok .nothing, RedisMaturityRepository.save maturity s)
  | .getMaturity sessionId => (.ok (.maturity (RedisMaturityRepository.getBySession sessionId s)), s)
  | .saveDraft draft =>
    let r := RedisPRDRepository.saveDraft draft s
    (.ok (.draft (some r.1)), r.2)
  | .getDraft sessionId => (.ok (.draft (RedisPRDRepository.getDraft sessionId s)), s)
  | .saveUserStories sessionId stories =>
    (.ok .nothing, RedisPRDRepository.saveUserStories sessionId stories s)
  | .getUserStories sessionId => (.ok (.stories (RedisPRDRepository.getUserStories sessionId s)), s)

/-! ## Ranges and pages -/

theorem lrange_page {A : Type} (l : List A) {offset limit : ℕ} (hpos : 0 < limit)
    (hoffset : offset < int64Bound) (hstop : offset + limit ≤ int64Bound) :
    lrange l offset (offset + limit - 1) = .ok (page offset limit l) := by
  have hstart : (offset : ℤ).toNat < int64Bound := by omega
  have hend : ((offset : ℤ) + limit - 1).toNat < int64Bound := by omega
  have hnonneg : ¬ ((offset : ℤ) < 0) := by omega
  have hstop : ¬ ((offset : ℤ) + limit - 1 < 0) := by omega
  have htake : ((offset : ℤ) + limit).toNat = offset + limit := by omega
  rw [lrange, if_pos ⟨hstart, hend⟩]
  simp [range, SortedSet.rank, hnonneg, hstop, htake, page, List.drop_take]

theorem lrange_rest {A : Type} (l : List A) {offset : ℕ} (hoffset : offset < int64Bound) :
    lrange l offset (-1) = .ok (l.drop offset) := by
  have hstart : (offset : ℤ).toNat < int64Bound := by omega
  have hend : (-1 : ℤ).toNat < int64Bound := by omega
  have hnonneg : ¬ ((offset : ℤ) < 0) := by omega
  rw [lrange, if_pos ⟨hstart, hend⟩]
  simp [range, SortedSet.rank, hnonneg]

theorem drop_take_page {A : Type} (l : List A) (offset limit : ℕ) :
    (l.take (offset + limit)).drop offset = page offset limit l := by
  simp [page, List.drop_take]

end DoxAsdlc.Repositories
