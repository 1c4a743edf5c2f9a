import DoxAsdlc.Ideation.ChatUpdates

/-!
# The stored maturity of a session

A chat answers with a maturity and stores one.  Both are computed from the same scores, except that
each score is stored without its fraction, and that the overall maturity goes through the column it
is kept in.  So what is stored agrees with itself and with what was answered as long as the agent
gives whole scores from 0 to 100, and the column keeps what they come to.

The column is a parameter: a document keeps the overall maturity, and a column of integers does not.

## Main definitions

* `Consistent` — a stored maturity that its own scores determine.
* `Agrees` — an answered maturity and a stored one.
* `Turn.Whole` — the agent has given whole scores from 0 to 100.

## Main results

* `consistent_and_agrees_iff` — when the two maturities of one chat are as they should be.
* `consistent_of_whole` — and those of any sequence of chats.
-/

namespace DoxAsdlc.Ideation

open Interaction Interaction.Program
open Rlm (Json)

/-! ## Scores -/

/-- The mean of scores by the weights of their categories. -/
def weightedMean (scores : List (Category × ℚ)) : ℚ :=
  (scores.map fun s => s.2 * (s.1.weight : ℚ)).sum / (scores.map fun s => (s.1.weight : ℚ)).sum

/-- A score for each category. -/
def scoresBy (score : Category → ℚ) : List (Category × ℚ) :=
  maturityCategories.map fun category => (category, score category)

variable {score : Category → ℚ}

/-- The weights of the categories add up to 100. -/
theorem weightedMean_scoresBy (score : Category → ℚ) :
    weightedMean (scoresBy score) = calculateOverallMaturity (scoresBy score) := by
  simp only [weightedMean, scoresBy, maturityCategories, calculateOverallMaturity, List.map_cons,
    List.map_nil, List.sum_cons, List.sum_nil]
  norm_num
  ring

theorem scoresBy_congr {score score' : Category → ℚ}
    (h : ∀ category ∈ maturityCategories, score category = score' category) :
    scoresBy score = scoresBy score' :=
  List.map_congr_left fun category hc => by rw [h category hc]

/-- A whole score from 0 to 100. -/
def IsScore (x : ℚ) : Prop := ∃ n : ℤ, 0 ≤ n ∧ n ≤ 100 ∧ x = n

/-! ## Maturities -/

/-- The scores that are stored. -/
def storedScores (m : MaturityState) : List (Category × ℚ) :=
  scoresBy fun category => scoreIn (some m) category

/-- A stored maturity: its categories have scores from 0 to 100, and the rest of it is what exactly
these scores determine. -/
structure Consistent (m : MaturityState) : Prop where
  categories : m.categories = maturityCategories.map fun category =>
    ⟨category.id, category.name, scoreIn (some m) category, true⟩
  bounds : ∀ category ∈ m.categories, 0 ≤ category.score ∧ category.score ≤ 100
  score : m.score = weightedMean (storedScores m)
  level : m.level = getMaturityLevel (weightedMean (storedScores m))
  canSubmit : m.canSubmit = canSubmit (storedScores m)
  gaps : m.gaps = identifyGaps (storedScores m)

/-- The maturity of an answer is the stored one. -/
structure Agrees (update : MaturityUpdate) (m : MaturityState) : Prop where
  categories : update.categories.map (fun s => (s.1.id, s.1.name, s.2)) =
    m.categories.map fun category => (category.id, category.name, (category.score : ℚ))
  score : update.score = m.score
  level : update.level = m.level
  canSubmit : update.canSubmit = m.canSubmit
  gaps : update.gaps = m.gaps

/-- The maturity that is answered for scores. -/
def updateOf (scores : List (Category × ℚ)) : MaturityUpdate where
  score := calculateOverallMaturity scores
  level := getMaturityLevel (calculateOverallMaturity scores)
  categories := scores
  canSubmit := canSubmit scores
  gaps := identifyGaps scores

variable (column : ℚ → ℚ)

/-- A maturity as it is kept where the overall maturity goes through a column. -/
def kept (m : MaturityState) : MaturityState := { m with score := column m.score }

variable {column} {sessionId : String} {now : Time}

theorem scoreIn_kept (m : MaturityState) (category : Category) :
    scoreIn (some (kept column m)) category = scoreIn (some m) category := rfl

/-- A score is stored without its fraction. -/
theorem scoreIn_scoresBy {category : Category} (hc : category ∈ maturityCategories) :
    scoreIn (some (maturityOf sessionId now (scoresBy score))) category
      = truncate (score category) := by
  have hfind : (maturityOf sessionId now (scoresBy score)).categories.reverse.find?
      (·.id = category.id) = some ⟨category.id, category.name, truncate (score category), true⟩ := by
    apply find?_of_unique
    · simp only [maturityOf, scoresBy, List.mem_reverse, List.mem_map, List.map_map]
      exact ⟨category, hc, rfl⟩
    · simp
    · intro b hb hid
      simp only [maturityOf, scoresBy, List.mem_reverse, List.mem_map, List.map_map] at hb
      obtain ⟨c, hc', rfl⟩ := hb
      rw [category_unique hc' hc (by simpa using hid)]
      rfl
  simp only [scoreIn, maturityDict, Option.map_some, Option.getD_some, MaturityState.scores, hfind,
    scoreValue, numeric, truncate_intCast]

theorem truncate_of_isScore {x : ℚ} (h : IsScore x) :
    (truncate x : ℚ) = x ∧ 0 ≤ truncate x ∧ truncate x ≤ 100 := by
  obtain ⟨n, hnonneg, hle, rfl⟩ := h
  simp only [truncate_intCast]
  exact ⟨trivial, hnonneg, hle⟩

/-- **When a chat's maturities are right.**  The maturity that is kept for scores is consistent, and
the answered one agrees with it, exactly if the scores are whole ones from 0 to 100 and the column
keeps what they come to. -/
theorem consistent_and_agrees_iff :
    Consistent (kept column (maturityOf sessionId now (scoresBy score))) ∧
        Agrees (updateOf (scoresBy score)) (kept column (maturityOf sessionId now (scoresBy score)))
      ↔ (∀ category ∈ maturityCategories, IsScore (score category)) ∧
        column (calculateOverallMaturity (scoresBy score))
          = calculateOverallMaturity (scoresBy score) := by
  constructor
  · rintro ⟨hconsistent, hagrees⟩
    have hcategories := hagrees.categories
    simp only [updateOf, kept, maturityOf, scoresBy, List.map_map, List.map_inj_left] at hcategories
    refine ⟨fun category hc => ⟨truncate (score category), ?_⟩, hagrees.score.symm⟩
    have hbounds := hconsistent.bounds ⟨category.id, category.name, truncate (score category), true⟩
      (List.mem_map.mpr ⟨(category, score category), List.mem_map.mpr ⟨category, hc, rfl⟩, rfl⟩)
    have hequal := hcategories category hc
    simp only [Function.comp_apply, Prod.mk.injEq, true_and] at hequal
    exact ⟨hbounds.1, hbounds.2, hequal⟩
  · rintro ⟨hscores, hcolumn⟩
    have hstored : storedScores (kept column (maturityOf sessionId now (scoresBy score)))
        = scoresBy score := by
      apply scoresBy_congr
      intro category hc
      rw [scoreIn_kept, scoreIn_scoresBy hc, (truncate_of_isScore (hscores category hc)).1]
    refine ⟨⟨?_, ?_, ?_, ?_, ?_, ?_⟩, ⟨?_, hcolumn.symm, rfl, rfl, rfl⟩⟩
    · simp only [kept, maturityOf, scoresBy, List.map_map]
      refine List.map_congr_left fun category hc => ?_
      have hscore : scoreIn (some (maturityOf sessionId now (scoresBy score))) category
        = truncate (score category) := scoreIn_scoresBy hc
      exact congrArg (fun n : ℤ => (⟨category.id, category.name, n, true⟩ : MaturityCategory))
        hscore.symm
    · intro c hc
      simp only [kept, maturityOf, scoresBy, List.map_map, List.mem_map] at hc
      obtain ⟨category, hc, rfl⟩ := hc
      exact (truncate_of_isScore (hscores category hc)).2
    · rw [hstored, weightedMean_scoresBy]
      exact hcolumn
    · rw [hstored, weightedMean_scoresBy]
      rfl
    · rw [hstored]
      rfl
    · rw [hstored]
      rfl
    · simp only [updateOf, kept, maturityOf, scoresBy, List.map_map]
      refine List.map_congr_left fun category hc => ?_
      simp [(truncate_of_isScore (hscores category hc)).1]

/-! ## Turns -/

/-- The score of a category in a turn. -/
def Turn.number (t : Turn) (category : Category) : ℚ :=
  match scoreOf (Upserts.write t.updates (maturityDict t.maturity)) category with
  | .ok x => x
  | .error _ => 0

/-- The scores of a turn are numbers. -/
theorem Turn.scoreOf_eq (t : Turn) {category : Category} (hc : category ∈ maturityCategories) :
    scoreOf (Upserts.write t.updates (maturityDict t.maturity)) category
      = .ok (t.number category) := by
  obtain ⟨x, hx⟩ := exists_number t.computed hc
  have hscore := (mem_numbers t.computed _ hx).2
  simp only [Turn.number, hscore]

theorem Turn.scores_eq (t : Turn) : t.scores = scoresBy t.number := by
  have hmap : numbers (Upserts.write t.updates (maturityDict t.maturity))
      = .ok (scoresBy t.number) := by
    apply mapM_eq_map
    intro category hc
    rw [t.scoreOf_eq hc]
    rfl
  exact Except.ok.inj (t.computed.symm.trans hmap)

/-- The scores that the agent gave for categories are whole ones from 0 to 100. -/
def Turn.Whole (t : Turn) : Prop :=
  ∀ category ∈ maturityCategories, ∀ x, t.given category = some x →
    ∃ n : ℤ, 0 ≤ n ∧ n ≤ 100 ∧ numeric x = .ok n

/-- Stored scores are integers. -/
theorem exists_maturityDict (maturity : Option MaturityState) (id : String) :
    ∃ n : ℤ, (maturityDict maturity id).getD (.int 0) = .int n := by
  cases maturity with
  | none => exact ⟨0, rfl⟩
  | some m =>
    cases hfind : m.categories.reverse.find? (·.id = id) with
    | none => exact ⟨0, by simp [maturityDict, MaturityState.scores, hfind]⟩
    | some c => exact ⟨c.score, by simp [maturityDict, MaturityState.scores, hfind]⟩

theorem Turn.numeric_given (t : Turn) {category : Category} (hc : category ∈ maturityCategories)
    {x : Json} (hx : t.given category = some x) : numeric x = .ok (t.number category) := by
  have hscore := t.scoreOf_eq hc
  rw [Turn.given] at hx
  rw [scoreOf, Upserts.write_eq_or, hx] at hscore
  simpa using hscore

theorem Turn.number_of_given_none (t : Turn) {category : Category}
    (hc : category ∈ maturityCategories) (hnone : t.given category = none) :
    t.number category = scoreIn t.maturity category := by
  have hscore := t.scoreOf_eq hc
  rw [Turn.given] at hnone
  obtain ⟨n, hn⟩ := exists_maturityDict t.maturity category.id
  rw [scoreOf, Upserts.write_eq_or, hnone, Option.none_or, hn] at hscore
  rw [scoreIn, hn]
  simpa [scoreValue, numeric, truncate_intCast] using hscore.symm

/-- The stored scores of a consistent maturity are from 0 to 100, and so they are at first. -/
theorem bounds_scoreIn {maturity : Option MaturityState}
    (h : ∀ m, maturity = some m → Consistent m) {category : Category}
    (hc : category ∈ maturityCategories) :
    0 ≤ scoreIn maturity category ∧ scoreIn maturity category ≤ 100 := by
  cases maturity with
  | none =>
    have hzero : scoreIn none category = 0 := by
      simp [scoreIn, maturityDict, scoreValue, numeric, truncate]
    omega
  | some m =>
    have hconsistent := h m rfl
    apply hconsistent.bounds ⟨category.id, category.name, scoreIn (some m) category, true⟩
    rw [hconsistent.categories]
    exact List.mem_map.mpr ⟨category, hc, rfl⟩

/-- Where the stored scores are right, those of a turn are exactly if the given ones are. -/
theorem Turn.isScore_iff (t : Turn) (hbefore : ∀ m, t.maturity = some m → Consistent m) :
    (∀ category ∈ maturityCategories, IsScore (t.number category)) ↔ t.Whole := by
  constructor
  · intro hscores category hc x hx
    obtain ⟨n, hnonneg, hle, hn⟩ := hscores category hc
    exact ⟨n, hnonneg, hle, hn ▸ t.numeric_given hc hx⟩
  · intro hwhole category hc
    cases hgiven : t.given category with
    | some x =>
      obtain ⟨n, hnonneg, hle, hn⟩ := hwhole category hc x hgiven
      exact ⟨n, hnonneg, hle, Except.ok.inj ((t.numeric_given hc hgiven).symm.trans hn)⟩
    | none =>
      obtain ⟨hnonneg, hle⟩ := bounds_scoreIn hbefore hc
      exact ⟨scoreIn t.maturity category, hnonneg, hle, t.number_of_given_none hc hgiven⟩

/-! ## Chats -/

/-- A chat: what it meets outside the store, its request, and how each of its transactions ends.
A score that is no finite number ends the transaction that saves the maturity before it begins. -/
structure Chat where
  env : Env
  request : IdeationChatRequest
  outcomes : List (Outcome Error)

/-- The store of a session where the overall maturity goes through a column. -/
def serveColumn (column : ℚ → ℚ) : Server interface Store
  | .saveMaturity maturity, w => serve (.saveMaturity (kept column maturity)) w
  | c, w => serve c w

namespace Chat

variable (column : ℚ → ℚ) (w : Store) (chat : Chat)

/-- What a chat makes of the stored messages and of the stored maturity. -/
def turn : Except Error Turn := chatTurn chat.env chat.request (w.messages.take 100) w.maturity

/-- A chat with a session. -/
def attempt : Async IdeationChatResponse × Store :=
  play (serveColumn column) chat.outcomes (processChat chat.env chat.request) w

/-- The store after a chat. -/
def after : Store := (chat.attempt column w).2

/-- What a chat keeps as the maturity. -/
def keptMaturity (t : Turn) : MaturityState :=
  kept column (maturityOf chat.request.sessionId chat.env.now t.scores)

/-- A chat leaves the maturity alone, or saves that of its turn. -/
def Saves (s : Store) : Prop :=
  s.maturity = w.maturity ∨
    ∃ t, chat.turn w = .ok t ∧ s.maturity = some (chat.keptMaturity column t)

/-- What a chat answers is that of the turn whose maturity it has saved. -/
def Answers (response : IdeationChatResponse) (s : Store) : Prop :=
  ∃ t, chat.turn w = .ok t ∧ s.maturity = some (chat.keptMaturity column t) ∧
    response = t.response

variable {column w chat}

theorem Answers.saves {response : IdeationChatResponse} {s : Store}
    (h : chat.Answers column w response s) : chat.Saves column w s := by
  obtain ⟨t, hturn, hmaturity, -⟩ := h
  exact .inr ⟨t, hturn, hmaturity⟩

/-- Nothing that a chat reads has changed. -/
def Unread (w s : Store) : Prop := s.messages = w.messages ∧ s.maturity = w.maturity

theorem keeps_ensureSessionExists (env : Env) (request : IdeationChatRequest) :
    Keeps (serveColumn column) (Unread w) (ensureSessionExists env request) := by
  refine keeps_bind (keeps_command fun s hs => hs) fun found => ?_
  cases found with
  | some session => exact keeps_ret ()
  | none => exact keeps_command fun s hs => hs

/-- The part that stores. -/
theorem wp_saveTurn {t : Turn} (hturn : chat.turn w = .ok t) {s : Store}
    (hs : s.maturity = w.maturity) :
    wp (serveColumn column) (chat.Answers column w) (fun _ => chat.Saves column w)
      (chat.Saves column w) (saveTurn chat.env chat.request t) s := by
  have hmessage (m : ChatMessage) (s' : Store) :
      (serveColumn column (.createMessage m) s').1.maturity = s'.maturity := rfl
  have hquiet (s' : Store) (hs' : s'.maturity = w.maturity) : chat.Saves column w s' := .inl hs'
  have hanswers (s' : Store) : chat.Answers column w t.response (serveColumn column
      (.saveMaturity (maturityOf chat.request.sessionId chat.env.now t.scores)) s').1 :=
    ⟨t, hturn, rfl, rfl⟩
  simp only [saveTurn, bind_eq, command_eq, elim_call, wp_call, answer_ok, answer_error, elim_ret,
    elim_raise, wp_ret, wp_raise, pure_eq, hanswers, (hanswers _).saves, hquiet, hmessage, hs,
    implies_true, and_self]

/-- The part that reads the session and then stores. -/
theorem wp_continueChat {s : Store} (hs : Unread w s) :
    wp (serveColumn column) (chat.Answers column w) (fun _ => chat.Saves column w)
      (chat.Saves column w) (Stage.continueChat chat.env chat.request) s := by
  have hquiet : chat.Saves column w s := .inl hs.2
  have hturn : chatTurn chat.env chat.request (s.messages.take 100) s.maturity = chat.turn w := by
    rw [hs.1, hs.2]
    rfl
  have hread (c : Cmd) (hc : c = .getMessages 100 ∨ c = .getMaturity) :
      ((serveColumn column) c s).1 = s := by
    obtain rfl | rfl := hc <;> rfl
  simp only [Stage.continueChat, bind_eq, command_eq, elim_call, wp_call, answer_ok, answer_error,
    elim_ret, elim_raise, wp_raise, hread, true_or, or_true, hquiet, implies_true, and_self,
    and_true, true_and]
  change wp _ _ _ _ ((answer (chatTurn chat.env chat.request (s.messages.take 100) s.maturity)).elim
    _ _) s
  rw [hturn]
  cases h : chat.turn w with
  | error e => exact ⟨hquiet, hquiet⟩
  | ok t => exact wp_saveTurn h hs.2

/-- What a chat does, however its transactions end. -/
theorem wp_processChat (column : ℚ → ℚ) (chat : Chat) (w : Store) :
    wp (serveColumn column) (chat.Answers column w) (fun _ => chat.Saves column w)
      (chat.Saves column w) (processChat chat.env chat.request) w := by
  have hquiet (s : Store) (hs : Unread w s) : chat.Saves column w s := .inl hs.2
  have hunread : Unread w w := ⟨rfl, rfl⟩
  apply wp_bind
  refine wp_mono _ _ ?_ (fun _ s hs _ => ⟨hquiet s hs, hquiet s hs⟩) hquiet
    (keeps_answer chat.env.client w hunread)
  intro _ s hs _
  apply wp_bind
  refine wp_mono _ _ ?_ (fun _ s hs _ => ⟨hquiet s hs, hquiet s hs⟩) hquiet
    (keeps_ensureSessionExists chat.env chat.request s hs)
  intro _ s hs _
  exact wp_continueChat hs

theorem maturityUpdate_of_buildResponse {env : Env} {request : IdeationChatRequest}
    {metadata : String → Json → Json} {scores : List (Category × ℚ)}
    {response : IdeationChatResponse}
    (h : buildResponse env request metadata scores = .ok response) :
    response.maturityUpdate = updateOf scores := by
  obtain ⟨_, _, h⟩ := bind_eq_ok.mp h
  obtain ⟨_, _, h⟩ := bind_eq_ok.mp h
  obtain ⟨_, _, h⟩ := bind_eq_ok.mp h
  obtain ⟨_, _, h⟩ := bind_eq_ok.mp h
  cases h
  rfl

/-- What a chat is about to store and to answer, from what it has read. -/
theorem turn_eq_ok {t : Turn} (h : chat.turn w = .ok t) :
    t.maturity = w.maturity ∧ t.response.maturityUpdate = updateOf t.scores := by
  simp only [turn, chatTurn] at h
  split at h
  · cases h
  split at h
  · cases h
  split at h
  · cases h
  · next scores hscores =>
    generalize hbuilt : buildResponse _ _ _ _ = built at h
    cases built with
    | error e => cases h
    | ok response =>
      cases h
      exact ⟨rfl, maturityUpdate_of_buildResponse hbuilt⟩

/-! ## Sequences of chats -/

/-- The stored maturity is consistent, if there is one. -/
def Sound (w : Store) : Prop := ∀ m, w.maturity = some m → Consistent m

/-- The maturity that a chat has answered is the stored one. -/
def Told (column : ℚ → ℚ) (w : Store) (chat : Chat) (w' : Store) : Prop :=
  ∀ response, (chat.attempt column w).1 = .ret response →
    ∃ m, w'.maturity = some m ∧ Agrees response.maturityUpdate m

/-- The agent gives whole scores from 0 to 100, and the column keeps what they come to. -/
def Fits (column : ℚ → ℚ) (w : Store) (chat : Chat) : Prop :=
  ∀ t, chat.turn w = .ok t →
    t.Whole ∧ column (calculateOverallMaturity t.scores) = calculateOverallMaturity t.scores

/-- A chat that is answered. -/
def Answered (column : ℚ → ℚ) (w : Store) (chat : Chat) : Prop :=
  ∃ response, (chat.attempt column w).1 = .ret response

/-- The two maturities of a turn that starts from a consistent one. -/
theorem right_iff {t : Turn} (hw : Sound w) (hturn : chat.turn w = .ok t) :
    Consistent (chat.keptMaturity column t) ∧
        Agrees t.response.maturityUpdate (chat.keptMaturity column t)
      ↔ t.Whole ∧
        column (calculateOverallMaturity t.scores) = calculateOverallMaturity t.scores := by
  obtain ⟨hmaturity, hupdate⟩ := turn_eq_ok hturn
  have hbefore : ∀ m, t.maturity = some m → Consistent m := hmaturity ▸ hw
  rw [hupdate, keptMaturity, t.scores_eq, consistent_and_agrees_iff, t.isScore_iff hbefore]

theorem answers_of_ret {response : IdeationChatResponse}
    (h : (chat.attempt column w).1 = .ret response) :
    chat.Answers column w response (chat.after column w) := by
  have hplay := (wp_processChat column chat w).play chat.outcomes
  change wp _ _ _ _ (chat.attempt column w).1 (chat.after column w) at hplay
  rw [h] at hplay
  exact hplay.2

/-- One chat whose scores fit. -/
theorem sound_after (hw : Sound w) (hfits : Fits column w chat) :
    Sound (chat.after column w) ∧ Told column w chat (chat.after column w) := by
  constructor
  · intro m hm
    obtain hsame | ⟨t, hturn, hmaturity⟩ :=
      (wp_processChat column chat w).state_play chat.outcomes
    · exact hw m (hsame.symm.trans hm)
    · obtain rfl : chat.keptMaturity column t = m := Option.some.inj (hmaturity.symm.trans hm)
      exact ((right_iff hw hturn).mpr (hfits t hturn)).1
  · intro response hret
    obtain ⟨t, hturn, hmaturity, rfl⟩ := answers_of_ret hret
    exact ⟨_, hmaturity, ((right_iff hw hturn).mpr (hfits t hturn)).2⟩

/-- One chat that is answered. -/
theorem fits_of_told (hw : Sound w) (hanswered : Answered column w chat)
    (hsound : Sound (chat.after column w)) (htold : Told column w chat (chat.after column w)) :
    Fits column w chat := by
  intro t hturn
  obtain ⟨response, hret⟩ := hanswered
  obtain ⟨t', hturn', hmaturity, rfl⟩ := answers_of_ret hret
  obtain rfl : t' = t := Except.ok.inj (hturn'.symm.trans hturn)
  obtain ⟨m, hm, hagrees⟩ := htold _ hret
  obtain rfl : chat.keptMaturity column t' = m := Option.some.inj (hmaturity.symm.trans hm)
  exact (right_iff hw hturn).mp ⟨hsound _ hm, hagrees⟩

/-- A sequence of chats with a session. -/
def step (column : ℚ → ℚ) (w : Store) (chat : Chat) : Store := chat.after column w

/-- A chat whose agent gives the problem a score. -/
def scoring (score : Json) : Chat where
  env := {
    now := 0
    taskId := "chat"
    messageId := "1"
    storedId := MessageRole.value
    requirementId := fun _ => "1"
    client := .ok ()
    execute := fun _ _ _ =>
      { success := true
        metadata := [("response", .str "Noted."), ("maturity_updates", .obj [("problem", score)])] } }
  request := { sessionId := "s", message := "Why?", currentMaturity := 0 }
  outcomes := List.replicate 7 .ok

end Chat

end DoxAsdlc.Ideation
