import DoxAsdlc.Ideation.ChatService

/-!
# Whether chats lose updates

Any number of chats on one session, interleaved transaction by transaction.  A chat writes back
the maturity that it read with its own scores in it, so the scores that another chat has saved in
between are lost; and it stores two messages one after the other, between which another chat may
store one.

## Main definitions

* `Chats` — chats on a session, with ids of their own.
* `LosesNothing` — what is promised of what they store.
* `Undisturbed` — the transactions that keep the promise.

## Main results

* `losesNothing_of_undisturbed` — the promise is kept by runs of such transactions.
-/

namespace DoxAsdlc.Ideation

open Interaction Interaction.Program
open Rlm (Json)

/-- Chats on a session that may have messages already.  Every message is stored under an id of its
own. -/
structure Chats (ι : Type) where
  env : ι → Env
  request : ι → IdeationChatRequest
  before : Store
  distinct : ∀ i role j role', (env i).storedId role = (env j).storedId role' →
    i = j ∧ role = role'
  fresh : ∀ m ∈ before.messages, ∀ i role, m.id ≠ (env i).storedId role

/-! ## Scores -/

/-- A score as it is stored. -/
def scoreValue (x : Json) : ℤ :=
  match numeric x with
  | .ok q => truncate q
  | .error _ => 0

/-- The score of a category in a stored maturity, `0` by default. -/
def scoreIn (maturity : Option MaturityState) (category : Category) : ℤ :=
  scoreValue ((maturityDict maturity category.id).getD (.int 0))

/-- The score that the agent gave for a category. -/
def Turn.given (t : Turn) (category : Category) : Option Json :=
  Upserts.write t.updates (fun _ => none) category.id

/-- What the updates of a chat make of the score of a category. -/
def Turn.effect (category : Category) (score : ℤ) (t : Turn) : ℤ :=
  match t.given category with
  | some x => scoreValue x
  | none => score

theorem find?_of_unique {α : Type} {p : α → Bool} {l : List α} {a : α} (ha : a ∈ l)
    (hp : p a = true) (hunique : ∀ b ∈ l, p b = true → b = a) : l.find? p = some a := by
  cases h : l.find? p with
  | none => exact absurd hp (List.find?_eq_none.mp h a ha)
  | some b => rw [hunique b (List.mem_of_find?_eq_some h) (List.find?_some h)]

/-- Categories are told apart by their ids. -/
theorem category_unique {c c' : Category} (hc : c ∈ maturityCategories)
    (hc' : c' ∈ maturityCategories) (hid : c.id = c'.id) : c = c' := by
  have hall : ∀ c ∈ maturityCategories, ∀ c' ∈ maturityCategories, c.id = c'.id → c = c' := by
    decide
  exact hall c hc c' hc' hid

theorem score_number {scores : Scores} {category c : Category} {q : ℚ}
    (h : (scoreOf scores category).map (fun x => (category, x)) = .ok (c, q)) :
    c = category ∧ scoreOf scores category = .ok q := by
  cases hscore : scoreOf scores category with
  | error e =>
    rw [hscore] at h
    cases h
  | ok x =>
    rw [hscore] at h
    cases h
    exact ⟨rfl, rfl⟩

theorem mem_numbers {scores : Scores} {l : List (Category × ℚ)} (h : numbers scores = .ok l) :
    ∀ s ∈ l, s.1 ∈ maturityCategories ∧ scoreOf scores s.1 = .ok s.2 := by
  intro s hs
  obtain ⟨category, hc, hnumber⟩ := exists_of_forall₂ (forall₂_of_mapM h).flip hs
  obtain ⟨rfl, hscore⟩ := score_number hnumber
  exact ⟨hc, hscore⟩

theorem exists_number {scores : Scores} {l : List (Category × ℚ)} (h : numbers scores = .ok l)
    {category : Category} (hc : category ∈ maturityCategories) : ∃ q, (category, q) ∈ l := by
  obtain ⟨⟨c, q⟩, hmem, hnumber⟩ := exists_of_forall₂ (forall₂_of_mapM h) hc
  obtain ⟨rfl, -⟩ := score_number hnumber
  exact ⟨q, hmem⟩

/-- The score that a chat saves. -/
theorem scoreIn_maturityOf (t : Turn) (sessionId : String) (now : Time) {category : Category}
    (hc : category ∈ maturityCategories) :
    scoreIn (some (maturityOf sessionId now t.scores)) category
      = t.effect category (scoreIn t.maturity category) := by
  obtain ⟨q, hq⟩ := exists_number t.computed hc
  have hscore := (mem_numbers t.computed _ hq).2
  have hfind : (maturityOf sessionId now t.scores).categories.reverse.find? (·.id = category.id)
      = some ⟨category.id, category.name, truncate q, true⟩ := by
    apply find?_of_unique
    · simp only [maturityOf, List.mem_reverse, List.mem_map]
      exact ⟨(category, q), hq, rfl⟩
    · simp
    · intro b hb hid
      simp only [maturityOf, List.mem_reverse, List.mem_map] at hb
      obtain ⟨⟨c, q'⟩, hmem, rfl⟩ := hb
      obtain ⟨hc', hscore'⟩ := mem_numbers t.computed _ hmem
      have heq : c = category := category_unique hc' hc (by simpa using hid)
      subst heq
      rw [hscore] at hscore'
      cases hscore'
      rfl
  have hstored : scoreIn (some (maturityOf sessionId now t.scores)) category = truncate q := by
    simp only [scoreIn, maturityDict, Option.map_some, Option.getD_some, MaturityState.scores,
      hfind, scoreValue, numeric, truncate_intCast]
  rw [hstored]
  rw [scoreOf, Upserts.write_eq_or] at hscore
  cases hgiven : t.given category with
  | some x =>
    rw [Turn.given] at hgiven
    simp only [hgiven, Option.some_or, Option.getD_some] at hscore
    simp [Turn.effect, Turn.given, hgiven, scoreValue, hscore]
  | none =>
    have hnone := hgiven
    rw [Turn.given] at hnone
    simp only [hnone, Option.none_or] at hscore
    simp [Turn.effect, hgiven, scoreIn, scoreValue, hscore]

/-! ## Chats together -/

/-- The chats at work on the session. -/
abbrev Sessions (ι : Type) := Config interface Store Error IdeationChatResponse ι

namespace Chats

variable {ι : Type} (chats : Chats ι)

/-- The machine of a chat. -/
abbrev machine (j : ι) : Tracker interface Error IdeationChatResponse Stage :=
  chat (chats.env j) (chats.request j)

/-- Every chat at its beginning. -/
def begin : Sessions ι :=
  Config.start chats.before fun j => processChat (chats.env j) (chats.request j)

/-- The stage of a chat. -/
def stage (cfg : Sessions ι) (j : ι) : Stage :=
  cfg.positions chats.machine (fun j => .start (chats.env j)) j

/-- The message that a chat stores for the user. -/
def userMessage (j : ι) : ChatMessage :=
  storedMessage (chats.env j) (chats.request j) .user (chats.request j).message

/-- The message that a chat stores for an answer. -/
def assistantMessage (j : ι) (response : IdeationChatResponse) : ChatMessage :=
  storedMessage (chats.env j) (chats.request j) .assistant response.message.content

/-- The agent of a chat has failed, given what the chat had read. -/
def AgentFailed (history : List (Exchange interface Error)) (j : ι) : Prop :=
  ∃ messages maturity b b', ⟨.getMessages 100, .ok messages, b⟩ ∈ history ∧
    ⟨.getMaturity, .ok maturity, b'⟩ ∈ history ∧
    ((chats.env j).execute (chats.request j).message (conversationHistory messages)
      (maturityDict maturity)).success = false

/-- The score of a category after some chats, one after another. -/
def scoreAfter (category : Category) (order : List (ι × Turn)) : ℤ :=
  order.foldl (fun score e => e.2.effect category score) (scoreIn chats.before.maturity category)

end Chats

/-- Two messages are stored once each, the second one directly after the first. -/
def StoredOnce (messages : List ChatMessage) (user assistant : ChatMessage) : Prop :=
  ∃ pre post, messages = pre ++ user :: assistant :: post ∧
    ∀ m ∈ pre ++ post, m.id ≠ user.id ∧ m.id ≠ assistant.id

/-- A message or a maturity is stored. -/
def Cmd.Stores : Cmd → Prop
  | .createMessage _ | .saveMaturity _ => True
  | _ => False

/-- What is promised of chats: the maturity is what those that have saved make of it one after
another, the messages of each that has returned are stored together, and nothing is stored for
one whose agent has failed. -/
structure LosesNothing {ι : Type} (chats : Chats ι) (cfg : Sessions ι) : Prop where
  maturity : ∃ order : List (ι × Turn), (order.map Prod.fst).Nodup ∧
    (∀ e ∈ order, ∃ result, chats.stage cfg e.1 = .saved e.2 result) ∧
    (∀ j response, cfg.threads j = .ret response → ∃ t, (j, t) ∈ order ∧ t.response = response) ∧
    ∀ category ∈ maturityCategories,
      scoreIn cfg.store.maturity category = chats.scoreAfter category order
  messages : ∀ j response, cfg.threads j = .ret response →
    StoredOnce cfg.store.messages (chats.userMessage j) (chats.assistantMessage j response)
  untouched : ∀ j, chats.AgentFailed (cfg.history j) j → ∀ x ∈ cfg.history j, ¬ x.cmd.Stores

/-- No chat stores the user's message while another one is between its two messages, and a chat
that saves the maturity has read the present score of every category that its agent gave no score
for. -/
def QuietAt {ι : Type} (chats : Chats ι) (cfg : Sessions ι) (j : ι) : Stage → Prop
  | .asking _ => ∀ i, i ≠ j → cfg.stopped i = false → (chats.stage cfg i).isAnswering = false
  | .saving t => ∀ category ∈ maturityCategories, (t.given category).isNone = true →
      scoreIn cfg.store.maturity category = scoreIn t.maturity category
  | _ => True

/-- A transaction that reaches the store is quiet. -/
def Undisturbed {ι : Type} (chats : Chats ι) (cfg : Sessions ι) : Action ι Error Empty → Prop
  | .run j o => o.effective = true → cfg.stopped j = false → QuietAt chats cfg j (chats.stage cfg j)
  | _ => True

instance {ι : Type} [Fintype ι] [DecidableEq ι] (chats : Chats ι) (cfg : Sessions ι) (j : ι) :
    ∀ p, Decidable (QuietAt chats cfg j p)
  | .asking _ => Fintype.decidableForallFintype
  | .saving _ => List.decidableBAll _ _
  | .opening | .creating | .remembering | .maturing _ | .answering _ | .saved _ _ | .failed _ =>
    .isTrue trivial

instance {ι : Type} [Fintype ι] [DecidableEq ι] (chats : Chats ι) (cfg : Sessions ι) :
    ∀ a, Decidable (Undisturbed chats cfg a)
  | .run j o => inferInstanceAs (Decidable (o.effective = true → cfg.stopped j = false → _))
  | .stop _ | .env _ => .isTrue trivial

section

variable {ι : Type} {chats : Chats ι} {cfg : Sessions ι}

theorem Undisturbed.asking {j : ι} {o : Outcome Error} (h : Undisturbed chats cfg (.run j o))
    (ho : o.effective = true) (hj : cfg.stopped j = false) {t : Turn}
    (hasking : chats.stage cfg j = .asking t) (i : ι) (hij : i ≠ j)
    (hi : cfg.stopped i = false) (t' : Turn) : chats.stage cfg i ≠ .answering t' := by
  have hquiet := h ho hj
  rw [hasking] at hquiet
  intro hanswering
  have hnot := hquiet i hij hi
  rw [hanswering] at hnot
  cases hnot

theorem Undisturbed.saving {j : ι} {o : Outcome Error} (h : Undisturbed chats cfg (.run j o))
    (ho : o.effective = true) (hj : cfg.stopped j = false) {t : Turn}
    (hsaving : chats.stage cfg j = .saving t) (category : Category)
    (hc : category ∈ maturityCategories) (hgiven : t.given category = none) :
    scoreIn cfg.store.maturity category = scoreIn t.maturity category := by
  have hquiet := h ho hj
  rw [hsaving] at hquiet
  exact hquiet category hc (by rw [hgiven]; rfl)

/-- Every chat is where its machine is. -/
def Followed (chats : Chats ι) (cfg : Sessions ι) : Prop :=
  ∀ j, cfg.Follows (chats.machine j) (.start (chats.env j)) j

theorem followed_begin : Followed chats chats.begin :=
  fun _ => Config.follows_start _ _ (start_program ..)

/-- A chat that has returned has saved. -/
theorem Followed.of_ret (h : Followed chats cfg) {j : ι} {response : IdeationChatResponse}
    (hret : cfg.threads j = .ret response) :
    ∃ t u, chats.stage cfg j = .saved t (.ok u) ∧ t.response = response := by
  have hprogram : (chats.stage cfg j).program (chats.env j) (chats.request j) = .ret response :=
    (h j).symm.trans hret
  cases hstage : chats.stage cfg j with
  | saved t result =>
    rw [hstage] at hprogram
    cases result with
    | ok u =>
      cases hprogram
      exact ⟨t, u, rfl, rfl⟩
    | error e => cases hprogram
  | _ =>
    rw [hstage] at hprogram
    cases hprogram

/-! ## Messages -/

/-- No message of a chat is stored. -/
def Chats.Absent (chats : Chats ι) (j : ι) (messages : List ChatMessage) : Prop :=
  ∀ m ∈ messages, ∀ role, m.id ≠ (chats.env j).storedId role

/-- What is stored of the messages of a chat at each stage.  Between its two messages nothing is
stored, unless it has been stopped there. -/
def MessagesAt (chats : Chats ι) (j : ι) (stopped : Bool) (messages : List ChatMessage) :
    Stage → Prop
  | .failed _ => True
  | .answering _ => stopped = false →
      ∃ pre, messages = pre ++ [chats.userMessage j] ∧ chats.Absent j pre
  | .saving t | .saved t _ =>
    StoredOnce messages (chats.userMessage j) (chats.assistantMessage j t.response)
  | _ => chats.Absent j messages

variable {messages : List ChatMessage} {j : ι} {p : Stage} {stopped : Bool}

theorem messagesAt_of_early (hp : p.Early) :
    MessagesAt chats j stopped messages p ↔ chats.Absent j messages := by
  cases p <;> first | exact Iff.rfl | exact hp.elim

/-- A message of another chat is none of this one. -/
theorem Chats.Absent.snoc (h : chats.Absent j messages) {i : ι} (hij : i ≠ j)
    (role : MessageRole) (content : String) :
    chats.Absent j (messages ++ [storedMessage (chats.env i) (chats.request i) role content]) := by
  intro m hm role'
  rcases List.mem_append.mp hm with hold | hnew
  · exact h m hold role'
  · rw [List.mem_singleton.mp hnew]
    intro hid
    exact hij (chats.distinct i role j role' hid).1

theorem StoredOnce.snoc {user assistant m : ChatMessage} (h : StoredOnce messages user assistant)
    (huser : m.id ≠ user.id) (hassistant : m.id ≠ assistant.id) :
    StoredOnce (messages ++ [m]) user assistant := by
  obtain ⟨pre, post, rfl, hother⟩ := h
  refine ⟨pre, post ++ [m], by simp, ?_⟩
  intro m' hm'
  rw [← List.append_assoc] at hm'
  rcases List.mem_append.mp hm' with hold | hnew
  · exact hother m' hold
  · rw [List.mem_singleton.mp hnew]
    exact ⟨huser, hassistant⟩

/-- The answer is stored directly after the user's message. -/
theorem storedOnce_answer {pre : List ChatMessage} (h : chats.Absent j pre)
    (response : IdeationChatResponse) :
    StoredOnce (pre ++ [chats.userMessage j] ++ [chats.assistantMessage j response])
      (chats.userMessage j) (chats.assistantMessage j response) := by
  refine ⟨pre, [], by simp, ?_⟩
  intro m hm
  rw [List.append_nil] at hm
  exact ⟨h m hm .user, h m hm .assistant⟩

/-- A message of another chat, which is not stored between the two of this one. -/
theorem MessagesAt.snoc (h : MessagesAt chats j stopped messages p) {i : ι}
    (hij : i ≠ j) (hbetween : stopped = false → ∀ t, p ≠ .answering t) (role : MessageRole)
    (content : String) :
    MessagesAt chats j stopped
      (messages ++ [storedMessage (chats.env i) (chats.request i) role content]) p := by
  have honce : ∀ response, StoredOnce messages (chats.userMessage j)
      (chats.assistantMessage j response) → StoredOnce
        (messages ++ [storedMessage (chats.env i) (chats.request i) role content])
        (chats.userMessage j) (chats.assistantMessage j response) := by
    intro response hstored
    apply hstored.snoc
    · intro hid
      exact hij (chats.distinct i role j .user hid).1
    · intro hid
      exact hij (chats.distinct i role j .assistant hid).1
  cases p with
  | failed e => trivial
  | answering t => exact fun hlive => absurd rfl (hbetween hlive t)
  | saving t => exact honce _ h
  | saved t result => exact honce _ h
  | _ => exact Chats.Absent.snoc h hij role content

variable [DecidableEq ι]

/-- One step. -/
abbrev step (cfg : Sessions ι) (a : Action ι Error Empty) : Sessions ι :=
  cfg.step serve (fun e _ => e.elim) a

theorem Followed.step (h : Followed chats cfg) (a : Action ι Error Empty) :
    Followed chats (step cfg a) :=
  fun j => (h j).step serve _ a

/-- **What a step does**: a transaction of one chat, or nothing but that a chat may stop. -/
theorem Followed.step_cases (h : Followed chats cfg) (a : Action ι Error Empty) :
    (∃ j o p, a = .run j o ∧ cfg.stopped j = false ∧
      chats.stage (Ideation.step cfg a) = Function.update (chats.stage cfg) j p ∧
      (Ideation.step cfg a).stopped = cfg.stopped ∧
      Effect (chats.env j) (chats.request j) o (chats.stage cfg j) p cfg.store
        (Ideation.step cfg a).store) ∨
    ((Ideation.step cfg a).store = cfg.store ∧ chats.stage (Ideation.step cfg a) = chats.stage cfg ∧
      ∀ i, (Ideation.step cfg a).stopped i = false → cfg.stopped i = false) := by
  obtain ⟨j, o, c, rfl, hj, hc, hstore, hstopped, hpositions⟩ | ⟨j, o, rfl, he⟩ |
      ⟨j, rfl, hstore, hstopped, hpositions⟩ | ⟨e, -⟩ :=
    Config.step_positions h serve (fun e _ => e.elim) a
  · refine .inl ⟨j, o, _, rfl, hj, hpositions, hstopped, ?_⟩
    have heffect := effect_of_command ((Stage.head?_program _).symm.trans hc) o cfg.store
    rw [← hstore] at heffect
    exact heffect
  · refine .inr ⟨congrArg Config.store he, congrArg chats.stage he, ?_⟩
    intro i hi
    exact (congrFun (congrArg Config.stopped he) i).symm.trans hi
  · refine .inr ⟨hstore, hpositions, ?_⟩
    intro i hi
    have hupdate : Function.update cfg.stopped j true i = false :=
      (congrFun hstopped i).symm.trans hi
    by_cases hij : i = j
    · simp [hij] at hupdate
    · simpa [hij] using hupdate
  · exact e.elim

/-! ## The invariant -/

/-- No two chats are between their messages, the messages of each are as they have to be at its
stage, and the maturity is what those that have saved make of it one after another. -/
structure Kept (chats : Chats ι) (cfg : Sessions ι) : Prop where
  followed : Followed chats cfg
  alone : ∀ i j t t', cfg.stopped i = false → cfg.stopped j = false →
    chats.stage cfg i = .answering t → chats.stage cfg j = .answering t' → i = j
  messages : ∀ j, MessagesAt chats j (cfg.stopped j) cfg.store.messages (chats.stage cfg j)
  maturity : ∃ order : List (ι × Turn), (order.map Prod.fst).Nodup ∧
    (∀ j t, (j, t) ∈ order ↔ ∃ result, chats.stage cfg j = .saved t result) ∧
    ∀ category ∈ maturityCategories,
      scoreIn cfg.store.maturity category = chats.scoreAfter category order

omit [DecidableEq ι] in
theorem kept_begin : Kept chats chats.begin := by
  have hstage : ∀ j, chats.stage chats.begin j = .opening ∨
      ∃ e, chats.stage chats.begin j = .failed e := by
    intro j
    have hstart : chats.stage chats.begin j = .start (chats.env j) := rfl
    cases hclient : (chats.env j).client with
    | ok u => exact .inl (by rw [hstart, Stage.start, hclient])
    | error e => exact .inr ⟨e, by rw [hstart, Stage.start, hclient]⟩
  refine ⟨followed_begin, ?_, ?_, [], List.nodup_nil, ?_, fun _ _ => rfl⟩
  · intro i j t t' _ _ hi
    rcases hstage i with h | ⟨e, h⟩ <;> rw [h] at hi <;> cases hi
  · intro j
    rcases hstage j with h | ⟨e, h⟩ <;> rw [h]
    · exact fun m hm role => chats.fresh m hm j role
    · trivial
  · intro j t
    rcases hstage j with h | ⟨e, h⟩ <;> simp [h]

section

variable {o : Outcome Error} {cfg' : Sessions ι}

/-- A chat comes between its messages only by storing the first of them. -/
theorem Effect.asks_of_answering {env : Env} {request : IdeationChatRequest} {q : Stage}
    {w w' : Store} (h : Effect env request o q p w w') {t : Turn} (hp : p = .answering t) :
    o.effective = true ∧ ∃ t, q = .asking t := by
  cases h with
  | reads _ hearly => rw [hp] at hearly; exact hearly.elim
  | fails e _ hp' => rw [hp] at hp'; cases hp'
  | asks t hq ho => exact ⟨ho, t, hq⟩
  | answers t hq ho hp' => rcases hp' with h | ⟨e, h⟩ <;> rw [hp] at h <;> cases h
  | saves t result hq ho hp' => rw [hp] at hp'; cases hp'

/-- Still no two chats are between their messages. -/
theorem Kept.alone_step (h : Kept chats cfg) (hj : cfg.stopped j = false)
    (hstage : chats.stage cfg' = Function.update (chats.stage cfg) j p)
    (hstopped : cfg'.stopped = cfg.stopped)
    (heffect : Effect (chats.env j) (chats.request j) o (chats.stage cfg j) p cfg.store cfg'.store)
    (hquiet : Undisturbed chats cfg (.run j o)) :
    ∀ i i' t t', cfg'.stopped i = false → cfg'.stopped i' = false →
      chats.stage cfg' i = .answering t → chats.stage cfg' i' = .answering t' → i = i' := by
  have hnew : ∀ t, p = .answering t → ∀ i, i ≠ j → cfg.stopped i = false →
      ∀ t, chats.stage cfg i ≠ .answering t := by
    intro t hp
    obtain ⟨ho, t', hasking⟩ := heffect.asks_of_answering hp
    exact hquiet.asking ho hj hasking
  intro i i' t t' hi hi' hanswering hanswering'
  rw [hstopped] at hi hi'
  rw [hstage] at hanswering hanswering'
  by_cases hij : i = j
  · by_cases hij' : i' = j
    · rw [hij, hij']
    · rw [hij, Function.update_self] at hanswering
      rw [Function.update_of_ne hij'] at hanswering'
      exact absurd hanswering' (hnew t hanswering i' hij' hi' t')
  · rw [Function.update_of_ne hij] at hanswering
    by_cases hij' : i' = j
    · rw [hij', Function.update_self] at hanswering'
      exact absurd hanswering (hnew t' hanswering' i hij hi t)
    · rw [Function.update_of_ne hij'] at hanswering'
      exact h.alone i i' t t' hi hi' hanswering hanswering'

omit [DecidableEq ι] in
/-- What the transaction does to the messages of its own chat. -/
theorem MessagesAt.effect {q : Stage} {w w' : Store}
    (h : MessagesAt chats j false w.messages q)
    (heffect : Effect (chats.env j) (chats.request j) o q p w w') :
    MessagesAt chats j false w'.messages p := by
  cases heffect with
  | reads hq hp hmessages =>
    rw [messagesAt_of_early hp, hmessages]
    exact (messagesAt_of_early hq).mp h
  | fails e _ hp =>
    rw [hp]
    trivial
  | asks t hq _ hp hmessages =>
    rw [hmessages]
    rw [hq] at h
    rcases hp with hp | ⟨e, hp⟩ <;> rw [hp]
    · exact fun _ => ⟨w.messages, rfl, h⟩
    · trivial
  | answers t hq _ hp hmessages =>
    rw [hmessages]
    rw [hq] at h
    obtain ⟨pre, hpre, habsent⟩ := h rfl
    rcases hp with hp | ⟨e, hp⟩ <;> rw [hp]
    · rw [hpre]
      exact storedOnce_answer habsent t.response
    · trivial
  | saves t result hq _ hp hmessages =>
    rw [hmessages, hp]
    rw [hq] at h
    exact h

/-- What it does to the messages of the others. -/
theorem Kept.messages_step (h : Kept chats cfg) (hj : cfg.stopped j = false)
    (hstage : chats.stage cfg' = Function.update (chats.stage cfg) j p)
    (hstopped : cfg'.stopped = cfg.stopped)
    (heffect : Effect (chats.env j) (chats.request j) o (chats.stage cfg j) p cfg.store cfg'.store)
    (hquiet : Undisturbed chats cfg (.run j o)) (i : ι) :
    MessagesAt chats i (cfg'.stopped i) cfg'.store.messages (chats.stage cfg' i) := by
  rw [hstopped, hstage]
  by_cases hij : i = j
  · subst hij
    have hown := h.messages i
    rw [hj] at hown
    rw [Function.update_self, hj]
    exact hown.effect heffect
  · rw [Function.update_of_ne hij]
    have hother := h.messages i
    cases heffect with
    | reads _ _ hmessages => rw [hmessages]; exact hother
    | fails e _ _ hmessages => rw [hmessages]; exact hother
    | saves t result _ _ _ hmessages => rw [hmessages]; exact hother
    | asks t hq ho _ hmessages =>
      rw [hmessages]
      refine hother.snoc (Ne.symm hij) ?_ .user _
      exact hquiet.asking ho hj hq i hij
    | answers t hq ho _ hmessages =>
      rw [hmessages]
      refine hother.snoc (Ne.symm hij) ?_ .assistant _
      intro hi t' hanswering
      exact hij (h.alone i j t' t hi hj hanswering hq)

/-- A transaction that is no saving leaves who has saved. -/
theorem saved_iff_of_not_saving (hq : ¬ (chats.stage cfg j).HasSaved) (hp : ¬ p.HasSaved)
    (hstage : chats.stage cfg' = Function.update (chats.stage cfg) j p) (i : ι) (t : Turn) :
    (∃ result, chats.stage cfg' i = .saved t result) ↔
      ∃ result, chats.stage cfg i = .saved t result := by
  rw [hstage]
  by_cases hij : i = j
  · subst hij
    rw [Function.update_self]
    constructor
    · rintro ⟨result, hsaved⟩
      exact absurd (Stage.hasSaved_iff.mpr ⟨t, result, hsaved⟩) hp
    · rintro ⟨result, hsaved⟩
      exact absurd (Stage.hasSaved_iff.mpr ⟨t, result, hsaved⟩) hq
  · rw [Function.update_of_ne hij]

/-- The maturity is still what those that have saved make of it. -/
theorem Kept.maturity_step (h : Kept chats cfg) (hj : cfg.stopped j = false)
    (hstage : chats.stage cfg' = Function.update (chats.stage cfg) j p)
    (heffect : Effect (chats.env j) (chats.request j) o (chats.stage cfg j) p cfg.store cfg'.store)
    (hquiet : Undisturbed chats cfg (.run j o)) :
    ∃ order : List (ι × Turn), (order.map Prod.fst).Nodup ∧
      (∀ j t, (j, t) ∈ order ↔ ∃ result, chats.stage cfg' j = .saved t result) ∧
      ∀ category ∈ maturityCategories,
        scoreIn cfg'.store.maturity category = chats.scoreAfter category order := by
  obtain ⟨order, hnodup, hmem, hscores⟩ := h.maturity
  have hsame : ¬ (chats.stage cfg j).HasSaved → ¬ p.HasSaved →
      cfg'.store.maturity = cfg.store.maturity →
      ∃ order : List (ι × Turn), (order.map Prod.fst).Nodup ∧
        (∀ j t, (j, t) ∈ order ↔ ∃ result, chats.stage cfg' j = .saved t result) ∧
        ∀ category ∈ maturityCategories,
          scoreIn cfg'.store.maturity category = chats.scoreAfter category order := by
    intro hq hp hmaturity
    refine ⟨order, hnodup, ?_, ?_⟩
    · intro i t
      rw [hmem, saved_iff_of_not_saving hq hp hstage]
    · intro category hc
      rw [hmaturity, hscores category hc]
  cases heffect with
  | reads hq hp _ hmaturity => exact hsame hq.not_hasSaved hp.not_hasSaved hmaturity
  | fails e hq hp _ hmaturity => exact hsame hq (by rw [hp]; exact id) hmaturity
  | asks t hq _ hp _ hmaturity =>
    apply hsame (by rw [hq]; exact id) _ hmaturity
    rcases hp with hp | ⟨e, hp⟩ <;> rw [hp] <;> exact id
  | answers t hq _ hp _ hmaturity =>
    apply hsame (by rw [hq]; exact id) _ hmaturity
    rcases hp with hp | ⟨e, hp⟩ <;> rw [hp] <;> exact id
  | saves t result hq ho hp _ hmaturity =>
    have hnew : ∀ t, (j, t) ∉ order := by
      intro t' hold
      obtain ⟨result', hsaved⟩ := (hmem j t').mp hold
      rw [hq] at hsaved
      cases hsaved
    refine ⟨order ++ [(j, t)], ?_, ?_, ?_⟩
    · rw [List.map_append, List.nodup_append]
      refine ⟨hnodup, by simp, ?_⟩
      intro i hi i' hi'
      obtain ⟨⟨i, t'⟩, hold, rfl⟩ := List.mem_map.mp hi
      rw [List.map_singleton, List.mem_singleton] at hi'
      intro heq
      have hij : i = j := heq.trans hi'
      exact hnew t' (hij ▸ hold)
    · intro i t'
      rw [List.mem_append, List.mem_singleton, Prod.mk.injEq, hmem, hstage]
      by_cases hij : i = j
      · subst hij
        rw [Function.update_self, hq, hp]
        simp [eq_comm]
      · simp [hij]
    · intro category hc
      rw [hmaturity, scoreIn_maturityOf t _ _ hc, Chats.scoreAfter, List.foldl_append]
      change _ = t.effect category (chats.scoreAfter category order)
      rw [← hscores category hc]
      cases hgiven : t.given category with
      | some x => simp [Turn.effect, hgiven]
      | none => simp [Turn.effect, hgiven, hquiet.saving ho hj hq category hc hgiven]

end

/-- **One step** of a quiet run keeps the invariant. -/
theorem Kept.step (h : Kept chats cfg) {a : Action ι Error Empty}
    (hquiet : Undisturbed chats cfg a) : Kept chats (step cfg a) := by
  refine ⟨h.followed.step a, ?_, ?_, ?_⟩
  all_goals
    obtain ⟨j, o, p, rfl, hj, hstage, hstopped, heffect⟩ | ⟨hstore, hstage, hstopped⟩ :=
      h.followed.step_cases a
  · exact h.alone_step hj hstage hstopped heffect hquiet
  · rw [hstage]
    intro i j t t' hi hj
    exact h.alone i j t t' (hstopped i hi) (hstopped j hj)
  · exact h.messages_step hj hstage hstopped heffect hquiet
  · intro j
    rw [hstore, hstage]
    have hmessages := h.messages j
    cases hp : chats.stage cfg j with
    | answering t =>
      rw [hp] at hmessages
      exact fun hj => hmessages (hstopped j hj)
    | _ =>
      rw [hp] at hmessages
      exact hmessages
  · exact h.maturity_step hj hstage heffect hquiet
  · rw [hstore, hstage]
    exact h.maturity

/-! ## Failed agents -/

omit [DecidableEq ι] in
/-- A turn is made of an answer of the agent that is no failure. -/
theorem success_of_chatTurn {env : Env} {request : IdeationChatRequest}
    {maturity : Option MaturityState} {t : Turn}
    (h : chatTurn env request messages maturity = .ok t) :
    (env.execute request.message (conversationHistory messages)
      (maturityDict maturity)).success = true := by
  by_contra hfailed
  simp only [chatTurn] at h
  rw [if_pos (Bool.eq_false_iff.mpr hfailed)] at h
  cases h

/-- What is promised of the history of a chat whose agent fails. -/
def Untouched (chats : Chats ι) (j : ι) (h : List (Exchange interface Error)) : Prop :=
  chats.AgentFailed h j → ∀ x ∈ h, ¬ x.cmd.Stores

variable {h : List (Exchange interface Error)}

omit [DecidableEq ι] in
theorem untouched_of_silent (hsilent : ∀ x ∈ h, ¬ x.cmd.Stores) : Untouched chats j h :=
  fun _ => hsilent

/-- The messages and the maturity that a chat has read. -/
def HasRead (messages : List ChatMessage) (maturity : Option MaturityState)
    (h : List (Exchange interface Error)) : Prop :=
  (∀ m b, ⟨.getMessages 100, .ok m, b⟩ ∈ h → m = messages) ∧
    ∀ m b, ⟨.getMaturity, .ok m, b⟩ ∈ h → m = maturity

theorem HasRead.snoc {maturity : Option MaturityState} (hread : HasRead messages maturity h)
    {x : Exchange interface Error} (hx : x.cmd.Stores) : HasRead messages maturity (h ++ [x]) := by
  constructor
  · intro m b hm
    rcases List.mem_append.mp hm with hold | hnew
    · exact hread.1 m b hold
    · rw [← List.mem_singleton.mp hnew] at hx
      exact hx.elim
  · intro m b hm
    rcases List.mem_append.mp hm with hold | hnew
    · exact hread.2 m b hold
    · rw [← List.mem_singleton.mp hnew] at hx
      exact hx.elim

omit [DecidableEq ι] in
theorem untouched_of_turn {maturity : Option MaturityState} {t : Turn}
    (hturn : chatTurn (chats.env j) (chats.request j) messages maturity = .ok t)
    (hread : HasRead messages maturity h) : Untouched chats j h := by
  intro hfailed
  obtain ⟨messages', maturity', b, b', hmessages, hmaturity, hfailure⟩ := hfailed
  rw [hread.1 _ _ hmessages, hread.2 _ _ hmaturity, success_of_chatTurn hturn] at hfailure
  cases hfailure

theorem uses_saveTurn (env : Env) (request : IdeationChatRequest) (t : Turn) :
    (saveTurn env request t).Uses Cmd.Stores :=
  uses_bind (uses_command trivial) fun _ => uses_bind (uses_command trivial) fun _ =>
    uses_bind (uses_command trivial) fun _ => uses_ret _

/-- The session is looked up or created. -/
def Cmd.Opens : Cmd → Prop
  | .getSession | .createSession _ => True
  | _ => False

theorem uses_ensureSessionExists (env : Env) (request : IdeationChatRequest) :
    (ensureSessionExists env request).Uses Cmd.Opens := by
  refine uses_bind (uses_command trivial) ?_
  intro session
  cases session with
  | some session => exact uses_ret _
  | none => exact uses_command trivial

theorem Cmd.Opens.not_stores {c : Cmd} (hc : c.Opens) : ¬ c.Stores := by
  cases c <;> first | exact id | exact hc.elim

theorem hasRead_of_opened {maturity : Option MaturityState} {b b' : Bool}
    (hopened : ∀ x ∈ h, x.cmd.Opens) : HasRead messages maturity
      (h ++ [⟨.getMessages 100, .ok messages, b⟩] ++ [⟨.getMaturity, .ok maturity, b'⟩]) := by
  constructor
  · intro m b hm
    simp only [List.mem_append, List.mem_singleton] at hm
    rcases hm with (hold | hnew) | hnew
    · exact (hopened _ hold).elim
    · cases hnew
      rfl
    · cases hnew
  · intro m b hm
    simp only [List.mem_append, List.mem_singleton] at hm
    rcases hm with (hold | hnew) | hnew
    · exact (hopened _ hold).elim
    · cases hnew
    · cases hnew
      rfl

omit [DecidableEq ι] in
/-- A chat whose session has been opened. -/
theorem continueChat_obeys (hopened : ∀ x ∈ h, x.cmd.Opens) :
    (Stage.continueChat (chats.env j) (chats.request j)).Obeys Exchange.Sound (Untouched chats j)
      (fun _ _ => True) h := by
  have hsilent : ∀ x ∈ h, ¬ x.cmd.Stores := fun x hx => (hopened x hx).not_stores
  have hread : ∀ r b, ∀ x ∈ h ++ [⟨.getMessages 100, r, b⟩], ¬ x.cmd.Stores := by
    intro r b x hx
    rcases List.mem_append.mp hx with hold | hnew
    · exact hsilent x hold
    · rw [List.mem_singleton.mp hnew]
      exact id
  have hreads : ∀ r b r' b', ∀ x ∈ h ++ [⟨.getMessages 100, r, b⟩] ++ [⟨.getMaturity, r', b'⟩],
      ¬ x.cmd.Stores := by
    intro r b r' b' x hx
    rcases List.mem_append.mp hx with hold | hnew
    · exact hread r b x hold
    · rw [List.mem_singleton.mp hnew]
      exact id
  refine obeys_bind _ _ _ (obeys_command (untouched_of_silent hsilent) ?_)
  intro r b
  refine ⟨untouched_of_silent (hread _ _), ?_⟩
  rcases r with e | messages
  · exact ⟨untouched_of_silent (hread _ _), trivial⟩
  refine obeys_bind _ _ _ (obeys_command (untouched_of_silent (hread _ _)) ?_)
  intro r b'
  refine ⟨untouched_of_silent (hreads _ _ _ _), ?_⟩
  rcases r with e | maturity
  · exact ⟨untouched_of_silent (hreads _ _ _ _), trivial⟩
  cases hturn : chatTurn (chats.env j) (chats.request j) messages maturity with
  | error e =>
    simp only [hturn, answer_error, bind_eq, elim_raise, obeys_raise, and_true]
    exact untouched_of_silent (hreads _ _ _ _)
  | ok t =>
    simp only [hturn, answer_ok, bind_eq, elim_ret]
    have hasRead : HasRead messages maturity
        (h ++ [⟨.getMessages 100, .ok messages, b⟩] ++ [⟨.getMaturity, .ok maturity, b'⟩]) :=
      hasRead_of_opened hopened
    have hobeys := (uses_saveTurn (chats.env j) (chats.request j) t).obeys (A := Exchange.Sound)
      hasRead fun _ _ hread hx => hread.snoc hx
    exact hobeys.mono (fun _ => untouched_of_turn hturn) fun _ _ _ _ => trivial

omit [DecidableEq ι] in
/-- **A chat whose agent fails stores nothing**, whatever it is answered. -/
theorem processChat_obeys (chats : Chats ι) (j : ι) :
    (processChat (chats.env j) (chats.request j)).Obeys Exchange.Sound
      (Untouched chats j) (fun _ _ => True) [] := by
  have hnone : Untouched chats j [] := untouched_of_silent (by simp)
  cases hclient : (chats.env j).client with
  | error e =>
    rw [processChat, hclient]
    exact ⟨hnone, trivial⟩
  | ok u =>
    rw [processChat, hclient]
    change (ensureSessionExists (chats.env j) (chats.request j) >>= fun _ =>
      Stage.continueChat (chats.env j) (chats.request j)).Obeys _ _ _ _
    refine obeys_bind _ _ _ ?_
    have hopened := (uses_ensureSessionExists (chats.env j) (chats.request j)).obeys
      (A := Exchange.Sound) (J := fun h : List (Exchange interface Error) => ∀ x ∈ h, x.cmd.Opens) (h := []) (by simp) ?_
    · refine hopened.mono (fun h hopened => ?_) fun r h _ hopened => ?_
      · exact untouched_of_silent fun x hx => (hopened x hx).not_stores
      · cases r with
        | ok u => exact continueChat_obeys hopened
        | error e =>
          exact ⟨untouched_of_silent fun x hx => (hopened x hx).not_stores, trivial⟩
    · intro h x hopened hx y hy
      rcases List.mem_append.mp hy with hold | hnew
      · exact hopened y hold
      · rwa [List.mem_singleton.mp hnew]

/-! ## Runs -/

/-- **When chats lose nothing.**  In every run of transactions that are undisturbed, with failures
and stops anywhere, the maturity is what the chats that have saved make of it one after another,
the messages of each chat that has returned are stored once and together, and nothing is stored
for a chat whose agent fails. -/
theorem losesNothing_of_undisturbed (chats : Chats ι) (as : List (Action ι Error Empty))
    (h : Each step (Undisturbed chats) chats.begin as) :
    LosesNothing chats (run step chats.begin as) := by
  have hkept : Kept chats (run step chats.begin as) :=
    run_invariant (fun _ _ hkept hquiet => hkept.step hquiet) kept_begin h
  have hobeying : (run step chats.begin as).Obeying Exchange.Sound (Untouched chats)
      fun _ _ _ => True :=
    run_invariant' (I := fun cfg : Sessions ι => cfg.Obeying Exchange.Sound (Untouched chats) fun _ _ _ => True)
      (fun _ a hobeying => hobeying.step serve _ a)
      (Config.obeying_start _ _ (processChat_obeys chats)) as
  refine ⟨?_, ?_, fun j => (hobeying j).here⟩
  · obtain ⟨order, hnodup, hmem, hscores⟩ := hkept.maturity
    refine ⟨order, hnodup, fun e he => (hmem e.1 e.2).mp he, ?_, hscores⟩
    intro j response hret
    obtain ⟨t, u, hsaved, hresponse⟩ := hkept.followed.of_ret hret
    exact ⟨t, (hmem j t).mpr ⟨_, hsaved⟩, hresponse⟩
  · intro j response hret
    obtain ⟨t, u, hsaved, rfl⟩ := hkept.followed.of_ret hret
    have hmessages := hkept.messages j
    rw [hsaved] at hmessages
    exact hmessages

end

/-! ## Two chats at once -/

/-- Two chats whose agents give a score each, for one category and for another one. -/
def pair : Chats Bool where
  env second :=
    { now := 0
      taskId := "chat"
      messageId := "1"
      storedId := fun role => (if second then "b-" else "a-") ++ role.value
      requirementId := fun _ => "1"
      client := .ok ()
      execute := fun _ _ _ =>
        { success := true
          metadata := [("response", .str "Noted."), ("maturity_updates",
            .obj [(if second then "users" else "problem", .int 50)])] } }
  request second :=
    { sessionId := "s"
      message := if second then "For whom?" else "Why?"
      currentMaturity := 0 }
  before := {}
  distinct := by
    intro i role j role'
    cases i <;> cases role <;> cases j <;> cases role' <;> decide
  fresh := by simp

/-- Transactions of a chat, all of them answered. -/
def turns (j : Bool) (n : ℕ) : List (Action Bool Error Empty) := List.replicate n (.run j .ok)

/-- One chat after the other. -/
theorem losesNothing_inTurn :
    LosesNothing pair (run step pair.begin (turns false 7 ++ turns true 6)) :=
  losesNothing_of_undisturbed pair _ (by decide)

/-- A category has the score that it was given, if every chat that gave it one gave it the same. -/
theorem Chats.scoreAfter_of_given {ι : Type} (chats : Chats ι) {category : Category} {v : ℤ}
    {order : List (ι × Turn)}
    (hsame : ∀ e ∈ order, ∀ x, e.2.given category = some x → scoreValue x = v)
    (hgiven : ∃ e ∈ order, e.2.given category ≠ none) : chats.scoreAfter category order = v := by
  induction order using List.reverseRecOn with
  | nil =>
    obtain ⟨e, he, -⟩ := hgiven
    cases he
  | append_singleton order e ih =>
    rw [scoreAfter, List.foldl_append]
    change e.2.effect category (chats.scoreAfter category order) = v
    cases hlast : e.2.given category with
    | some x => simpa [Turn.effect, hlast] using hsame e (by simp) x hlast
    | none =>
      have hbefore : ∃ e ∈ order, e.2.given category ≠ none := by
        obtain ⟨e', he', hne⟩ := hgiven
        rcases List.mem_append.mp he' with hold | hnew
        · exact ⟨e', hold, hne⟩
        · exact absurd hlast (List.mem_singleton.mp hnew ▸ hne)
      simpa [Turn.effect, hlast] using
        ih (fun e he => hsame e (List.mem_append_left _ he)) hbefore

/-- Both chats have read the maturity before the first of them saves it. -/
def overlapping : List (Action Bool Error Empty) :=
  turns false 4 ++ turns true 3 ++ turns false 3 ++ turns true 3

/-- The category that the first chat gives a score. -/
def problem : Category := ⟨"problem", "Problem Statement", 15⟩

/-- What a chat has saved for a category. -/
def Stage.savedFor (category : Category) : Stage → Option ℤ
  | saved t _ => (t.given category).map scoreValue
  | _ => none

/-- A score that one of them was given is lost. -/
theorem not_losesNothing_overlapping : ¬ LosesNothing pair (run step pair.begin overlapping) := by
  intro h
  obtain ⟨order, -, hsaved, hall, hscores⟩ := h.maturity
  have hfirst : (pair.stage (run step pair.begin overlapping) false).savedFor problem
      = some 50 := by decide
  have hsecond : (pair.stage (run step pair.begin overlapping) true).savedFor problem = none := by
    decide
  have hreturned : ∃ response,
      (run step pair.begin overlapping).threads false = .ret response := ⟨_, rfl⟩
  have hvalue : pair.scoreAfter problem order = 50 := by
    apply pair.scoreAfter_of_given
    · rintro ⟨j, t⟩ he x hx
      obtain ⟨result, hstage⟩ := hsaved _ he
      cases j with
      | false => simpa [hstage, Stage.savedFor, hx] using hfirst
      | true => simp [hstage, Stage.savedFor, hx] at hsecond
    · obtain ⟨response, hret⟩ := hreturned
      obtain ⟨t, he, -⟩ := hall false response hret
      obtain ⟨result, hstage⟩ := hsaved _ he
      refine ⟨_, he, ?_⟩
      intro hnone
      simp [hstage, Stage.savedFor, hnone] at hfirst
  have hlost := hscores problem (by decide)
  rw [hvalue] at hlost
  exact absurd hlost (by decide)

end DoxAsdlc.Ideation
