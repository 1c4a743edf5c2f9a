import DoxAsdlc.Rlm.Cache
import Mathlib.Data.List.Nodup

/-!
# Runs of the cache

What a cache of so many entries at most has after a run of lookups and stores.  A lookup finds what
was stored last under its prompt and context, if that was not evicted since.  A store under a new
pair evicts an oldest entry if there is no room.  A store under a pair that is there evicts an
oldest entry, too, where the cache is full, although no room is needed.

Runs are lists of operations, the latest first.

## Main definitions

* `Operation`, `after` — the operations, and the cache after a run of them.
* `Kept` — what was stored last under a pair and is still there.
* `Correct` — what a run is to be like.
* `Apart`, `Roomy` — the pairs of a run have different keys, and a store under a pair that is there
  meets a cache with room, or its own entry is the one that is evicted.

## Main results

* `kept_iff` — the entries are what is kept.
* `correct_iff` — when a run is what it is to be like.
-/

namespace DoxAsdlc.Rlm.SubCallCache

/-! ## Entries -/

theorem mem_insert_iff {entries : List CacheEntry} {entry other : CacheEntry} :
    other ∈ insert entries entry ↔ other = entry ∨ other ∈ entries ∧ other.key ≠ entry.key := by
  refine ⟨mem_insert, fun h => ?_⟩
  by_cases hthere : (entries.any fun e => e.key == entry.key) = true
  · rw [insert, if_pos hthere, List.mem_map]
    rcases h with rfl | ⟨hold, hkey⟩
    · obtain ⟨e, he, hkey⟩ := List.any_eq_true.mp hthere
      exact ⟨e, he, by simp [beq_iff_eq.mp hkey]⟩
    · exact ⟨other, hold, by simp [hkey]⟩
  · rw [insert, if_neg hthere]
    rcases h with rfl | ⟨hold, _⟩
    · simp
    · simp [hold]

theorem map_key_insert {entries : List CacheEntry} {entry : CacheEntry}
    (h : (entries.any fun e => e.key == entry.key) = true) :
    (insert entries entry).map CacheEntry.key = entries.map CacheEntry.key := by
  rw [insert, if_pos h, List.map_map]
  refine List.map_congr_left fun e _ => ?_
  by_cases hkey : e.key = entry.key <;> simp [hkey]

theorem nodup_insert {entries : List CacheEntry} {entry : CacheEntry}
    (h : (entries.map CacheEntry.key).Nodup) : ((insert entries entry).map CacheEntry.key).Nodup := by
  by_cases hthere : (entries.any fun e => e.key == entry.key) = true
  · rwa [map_key_insert hthere]
  · rw [insert, if_neg hthere, List.map_append, List.nodup_append]
    refine ⟨h, by simp, ?_⟩
    simpa using hthere

theorem length_insert_le {entries : List CacheEntry} {entry : CacheEntry} :
    (insert entries entry).length ≤ entries.length + 1 := by
  rw [insert]
  split <;> simp

/-- Instants are compared as integers. -/
local instance : Preorder Time := Int.instLinearOrder.toPreorder

/-- The entry that would be evicted. -/
def oldest? (cache : SubCallCache) : Option CacheEntry :=
  cache.entries.argmin CacheEntry.createdAt

variable {cache : SubCallCache} {oldest : CacheEntry}

theorem oldest?_mem (h : cache.oldest? = some oldest) : oldest ∈ cache.entries :=
  List.argmin_mem h

theorem oldest?_le (h : cache.oldest? = some oldest) {entry : CacheEntry}
    (hentry : entry ∈ cache.entries) : oldest.createdAt ≤ entry.createdAt := by
  have hnot := List.not_lt_of_mem_argmin hentry h
  exact Int.not_lt.mp hnot

theorem exists_oldest (h : cache.entries ≠ []) : ∃ oldest, cache.oldest? = some oldest := by
  cases holdest : cache.oldest? with
  | none => exact absurd (List.argmin_eq_none.mp holdest) h
  | some oldest => exact ⟨oldest, rfl⟩

theorem evictOldest_entries (h : cache.oldest? = some oldest) :
    cache.evictOldest.entries = cache.entries.filter fun entry => entry.key != oldest.key := by
  rw [oldest?] at h
  simp only [evictOldest, h]

theorem length_evictOldest_lt (h : cache.oldest? = some oldest) :
    cache.evictOldest.entries.length < cache.entries.length := by
  rw [evictOldest_entries h, List.length_filter_lt_length_iff_exists]
  exact ⟨oldest, oldest?_mem h, by simp⟩

/-! ## Runs -/

/-- A lookup, or a store at an instant. -/
inductive Operation where
  | get (prompt context : Json)
  | set (now : Time) (prompt context : Json) (result : String)

namespace Operation

/-- The prompt and the context. -/
def pair : Operation → Json × Json
  | get prompt context | set _ prompt context _ => (prompt, context)

/-- The instant of a store. -/
def time? : Operation → Option Time
  | get _ _ => none
  | set now _ _ _ => some now

/-- Is it a lookup? -/
def isGet : Operation → Bool
  | get _ _ => true
  | set _ _ _ _ => false

end Operation

variable (digest : String → String) (render : Json → String)

/-- The cache after an operation. -/
def perform (cache : SubCallCache) : Operation → SubCallCache
  | .get prompt context => (cache.get digest render prompt context).2
  | .set now prompt context result => cache.set digest render now prompt context result

/-- The cache after a run, from `SubCallCache(max_entries=m)` on. -/
def after (m : ℕ) : List Operation → SubCallCache
  | [] => { maxEntries := m }
  | op :: earlier => perform digest render (after m earlier) op

/-- There is an entry of a prompt and a context. -/
def Has (cache : SubCallCache) (prompt context : Json) : Prop :=
  ∃ entry ∈ cache.entries, entry.prompt = prompt ∧ entry.context = context

/-- What was stored last under a prompt and a context, at an instant, if that was not evicted
since. -/
inductive Kept (m : ℕ) (prompt context : Json) : List Operation → Time → String → Prop
  | stored (now : Time) (result : String) (earlier : List Operation) :
      Kept m prompt context (.set now prompt context result :: earlier) now result
  | stays {op : Operation} {earlier : List Operation} {now : Time} {result : String}
      (h : Kept m prompt context earlier now result)
      (hop : op.isGet = true ∨ op.pair ≠ (prompt, context))
      (hhas : (after digest render m (op :: earlier)).Has prompt context) :
      Kept m prompt context (op :: earlier) now result

/-- What holds of the cache after every run. -/
structure Consistent (m : ℕ) (ops : List Operation) : Prop where
  enabled : (after digest render m ops).enabled = true
  maxEntries : (after digest render m ops).maxEntries = m
  length_le : 0 < m → (after digest render m ops).entries.length ≤ m
  nodup : ((after digest render m ops).entries.map CacheEntry.key).Nodup
  key_eq : ∀ entry ∈ (after digest render m ops).entries,
    entry.key = generateKey digest render entry.prompt entry.context
  kept : ∀ entry ∈ (after digest render m ops).entries,
    Kept digest render m entry.prompt entry.context ops entry.createdAt entry.result
  counted : (after digest render m ops).stats.hits + (after digest render m ops).stats.misses =
    ops.countP Operation.isGet

variable {digest render} {prompt context : Json} {now : Time} {result : String}

/-- The entries that a store starts from: one is evicted if there is no room. -/
theorem entries_set (h : cache.enabled = true) :
    (cache.set digest render now prompt context result).entries =
      insert (if 0 < cache.maxEntries ∧ cache.maxEntries ≤ cache.entries.length then
        cache.evictOldest.entries else cache.entries)
        ⟨generateKey digest render prompt context, prompt, context, result, now, 0⟩ := by
  by_cases hfull : 0 < cache.maxEntries ∧ cache.maxEntries ≤ cache.entries.length
  · simp [set, h, hfull]
  · simp [set, h, hfull]

theorem evictOldest_rest : cache.evictOldest.maxEntries = cache.maxEntries ∧
    cache.evictOldest.stats.hits = cache.stats.hits ∧
    cache.evictOldest.stats.misses = cache.stats.misses := by
  rw [evictOldest]
  split <;> simp

theorem set_rest : (cache.set digest render now prompt context result).maxEntries =
      cache.maxEntries ∧
    (cache.set digest render now prompt context result).stats.hits = cache.stats.hits ∧
    (cache.set digest render now prompt context result).stats.misses = cache.stats.misses := by
  by_cases henabled : cache.enabled = false
  · simp [set, henabled]
  · by_cases hfull : 0 < cache.maxEntries ∧ cache.maxEntries ≤ cache.entries.length
    · simp [set, henabled, hfull, evictOldest_rest]
    · simp [set, henabled, hfull]

/-- What a store starts from is not full, if there may be entries at all. -/
theorem length_room (hm : 0 < cache.maxEntries) (hle : cache.entries.length ≤ cache.maxEntries) :
    (if 0 < cache.maxEntries ∧ cache.maxEntries ≤ cache.entries.length then
      cache.evictOldest.entries else cache.entries).length < cache.maxEntries := by
  by_cases hfull : cache.maxEntries ≤ cache.entries.length
  · have hne : cache.entries ≠ [] := by
      intro hnil
      rw [hnil, List.length_nil] at hfull
      omega
    obtain ⟨oldest, holdest⟩ := exists_oldest hne
    have hlt := length_evictOldest_lt holdest
    rw [if_pos ⟨hm, hfull⟩]
    omega
  · rw [if_neg fun h => hfull h.2]
    omega

theorem room_sublist : (if 0 < cache.maxEntries ∧ cache.maxEntries ≤ cache.entries.length then
    cache.evictOldest.entries else cache.entries).Sublist cache.entries := by
  split
  · cases holdest : cache.oldest? with
    | none =>
      rw [oldest?] at holdest
      simp only [evictOldest, holdest]
      exact .refl _
    | some oldest =>
      rw [evictOldest_entries holdest]
      exact List.filter_sublist
  · exact .refl _

theorem map_key_get : (cache.get digest render prompt context).2.entries.map CacheEntry.key =
    cache.entries.map CacheEntry.key := by
  rcases @entries_get digest render cache prompt context with hsame | ⟨found, hfound, hhit⟩
  · rw [hsame]
  · rw [hhit]
    exact map_key_insert (List.any_eq_true.mpr ⟨found, hfound, by simp⟩)

theorem counted_get (h : cache.enabled = true) :
    (cache.get digest render prompt context).2.stats.hits +
      (cache.get digest render prompt context).2.stats.misses =
    cache.stats.hits + cache.stats.misses + 1 := by
  cases hfound : cache.find? (generateKey digest render prompt context) with
  | none => rw [get_miss h hfound, Nat.add_assoc]
  | some found => simp [get_hit h hfound, Nat.add_right_comm]

variable {m : ℕ} {ops : List Operation}

theorem Consistent.get (h : Consistent digest render m ops) :
    Consistent digest render m (.get prompt context :: ops) := by
  have hlength : (after digest render m (.get prompt context :: ops)).entries.length =
      (after digest render m ops).entries.length := by
    simpa [after, perform] using congrArg List.length
      (@map_key_get (after digest render m ops) digest render prompt context)
  refine ⟨enabled_get.trans h.enabled, config_get.2.trans h.maxEntries, ?_, ?_, ?_, ?_, ?_⟩
  · intro hm
    rw [hlength]
    exact h.length_le hm
  · rw [after, perform, map_key_get]
    exact h.nodup
  · intro entry hentry
    obtain ⟨old, hold, heq⟩ := mem_entries_get hentry
    rw [heq]
    exact h.key_eq old hold
  · intro entry hentry
    obtain ⟨old, hold, heq⟩ := mem_entries_get hentry
    have hkept := h.kept old hold
    rw [heq]
    exact .stays hkept (.inl rfl) ⟨entry, hentry, by rw [heq], by rw [heq]⟩
  · rw [after, perform, counted_get h.enabled, h.counted, List.countP_cons_of_pos rfl]

theorem Consistent.set (h : Consistent digest render m ops) :
    Consistent digest render m (.set now prompt context result :: ops) := by
  have hentries := @entries_set (after digest render m ops) digest render prompt context now result
    h.enabled
  have hrest := @set_rest (after digest render m ops) digest render prompt context now result
  refine ⟨enabled_set.trans h.enabled, hrest.1.trans h.maxEntries, ?_, ?_, ?_, ?_, ?_⟩
  · intro hm
    have hroom := length_room (h.maxEntries.symm ▸ hm) (h.maxEntries.symm ▸ h.length_le hm)
    rw [after, perform, hentries]
    refine length_insert_le.trans ?_
    rw [h.maxEntries] at hroom
    rw [h.maxEntries]
    omega
  · rw [after, perform, hentries]
    exact nodup_insert (h.nodup.sublist (room_sublist.map _))
  · intro entry hentry
    rw [after, perform, hentries, mem_insert_iff] at hentry
    rcases hentry with rfl | ⟨hold, _⟩
    · rfl
    · exact h.key_eq entry (room_sublist.mem hold)
  · intro entry hentry
    have hthere := hentry
    rw [after, perform, hentries, mem_insert_iff] at hentry
    rcases hentry with rfl | ⟨hold, hkey⟩
    · exact .stored _ _ _
    · have hmem := room_sublist.mem hold
      refine .stays (h.kept entry hmem) (.inr fun hpair => hkey ?_) ⟨entry, hthere, rfl, rfl⟩
      obtain ⟨rfl, rfl⟩ : prompt = entry.prompt ∧ context = entry.context := by
        simpa [Operation.pair] using hpair
      exact h.key_eq entry hmem
  · rw [after, perform, hrest.2.1, hrest.2.2, h.counted,
      List.countP_cons_of_neg (by simp [Operation.isGet])]

theorem consistent (digest : String → String) (render : Json → String) (m : ℕ)
    (ops : List Operation) : Consistent digest render m ops := by
  induction ops with
  | nil => exact ⟨rfl, rfl, by simp [after], by simp [after], by simp [after], by simp [after], rfl⟩
  | cons op earlier ih =>
    cases op with
    | get prompt context => exact ih.get
    | set now prompt context result => exact ih.set

/-! ## What is kept -/

theorem Kept.unique {t t' : Time} {r r' : String}
    (h : Kept digest render m prompt context ops t r)
    (h' : Kept digest render m prompt context ops t' r') : t = t' ∧ r = r' := by
  induction h with
  | stored now result earlier =>
    cases h' with
    | stored => exact ⟨rfl, rfl⟩
    | stays _ hop => simp [Operation.isGet, Operation.pair] at hop
  | stays h hop hhas ih =>
    cases h' with
    | stored => simp [Operation.isGet, Operation.pair] at hop
    | stays h' => exact ih h'

theorem Kept.has {t : Time} {r : String} (h : Kept digest render m prompt context ops t r) :
    (after digest render m ops).Has prompt context := by
  cases h with
  | stored _ _ earlier =>
    have hentries := @entries_set (after digest render m earlier) digest render prompt context t r
      (consistent digest render m earlier).enabled
    refine ⟨⟨generateKey digest render prompt context, prompt, context, r, t, 0⟩, ?_, rfl, rfl⟩
    rw [after, perform, hentries, mem_insert_iff]
    exact .inl rfl
  | stays _ _ hhas => exact hhas

/-- **The entries are what is kept.** -/
theorem kept_iff {t : Time} {r : String} : Kept digest render m prompt context ops t r ↔
    ∃ entry ∈ (after digest render m ops).entries,
      entry.prompt = prompt ∧ entry.context = context ∧ entry.createdAt = t ∧ entry.result = r := by
  constructor
  · intro h
    obtain ⟨entry, hentry, rfl, rfl⟩ := h.has
    have hsame := ((consistent digest render m ops).kept entry hentry).unique h
    exact ⟨entry, hentry, rfl, rfl, hsame.1, hsame.2⟩
  · rintro ⟨entry, hentry, rfl, rfl, rfl, rfl⟩
    exact (consistent digest render m ops).kept entry hentry

theorem Kept.mem_pairs {t : Time} {r : String}
    (h : Kept digest render m prompt context ops t r) :
    ∃ op ∈ ops, op.pair = (prompt, context) := by
  induction h with
  | stored now result earlier => exact ⟨_, List.mem_cons_self, rfl⟩
  | stays _ _ _ ih =>
    obtain ⟨op, hop, hpair⟩ := ih
    exact ⟨op, List.mem_cons_of_mem _ hop, hpair⟩

/-! ## What a run is to be like -/

/-- The key of an operation. -/
def Operation.key (digest : String → String) (render : Json → String) (op : Operation) : String :=
  generateKey digest render op.pair.1 op.pair.2

/-- Different pairs have different keys. -/
def Apart (digest : String → String) (render : Json → String) (ops : List Operation) : Prop :=
  ∀ op ∈ ops, ∀ op' ∈ ops, op.key digest render = op'.key digest render → op.pair = op'.pair

/-- A store under a pair that is there meets a cache with room, or the pair's own entry is the one
that is evicted. -/
def Roomy (digest : String → String) (render : Json → String) (m : ℕ) (ops : List Operation) :
    Prop :=
  ∀ {later earlier now prompt context result},
    ops = later ++ .set now prompt context result :: earlier →
    (after digest render m earlier).Has prompt context →
    (after digest render m earlier).entries.length < m ∨
      ∃ oldest, (after digest render m earlier).oldest? = some oldest ∧
        oldest.prompt = prompt ∧ oldest.context = context

/-- The instants of a run, the latest first. -/
def Chronological (ops : List Operation) : Prop :=
  (ops.filterMap Operation.time?).Pairwise (· ≥ ·)

/-- A run is as it is to be, with all its states. -/
structure Correct (digest : String → String) (render : Json → String) (m : ℕ)
    (ops : List Operation) : Prop where
  /-- There are so many entries at most. -/
  bounded {later earlier} : ops = later ++ earlier →
    (after digest render m earlier).entries.length ≤ m
  /-- Each lookup is a hit or a miss. -/
  counted {later earlier} : ops = later ++ earlier →
    (after digest render m earlier).stats.hits + (after digest render m earlier).stats.misses =
      earlier.countP Operation.isGet
  /-- A store under a pair that is there evicts no other entry. -/
  refreshed {later earlier now prompt context result} :
    ops = later ++ .set now prompt context result :: earlier →
    (after digest render m earlier).Has prompt context →
    ∀ prompt' context', (after digest render m earlier).Has prompt' context' →
      (after digest render m (.set now prompt context result :: earlier)).Has prompt' context'
  /-- What a store under a new pair evicts is an oldest entry, and only that one. -/
  oldest {later earlier now prompt context result} :
    ops = later ++ .set now prompt context result :: earlier →
    ¬ (after digest render m earlier).Has prompt context →
    ∀ prompt' context' t r, Kept digest render m prompt' context' earlier t r →
      ¬ (after digest render m (.set now prompt context result :: earlier)).Has prompt' context' →
      ∀ prompt'' context'' t' r', Kept digest render m prompt'' context'' earlier t' r' →
        t ≤ t' ∧ ((prompt'', context'') ≠ (prompt', context') →
          (after digest render m (.set now prompt context result :: earlier)).Has prompt'' context'')
  /-- A lookup finds what is kept. -/
  found {later earlier prompt context} : ops = later ++ .get prompt context :: earlier →
    ∀ r, ((after digest render m earlier).get digest render prompt context).1 = some r ↔
      ∃ t, Kept digest render m prompt context earlier t r

section

variable {earlier later : List Operation} {entry other : CacheEntry}

theorem eq_of_key (hentry : entry ∈ (after digest render m earlier).entries)
    (hother : other ∈ (after digest render m earlier).entries) (h : entry.key = other.key) :
    entry = other :=
  List.inj_on_of_nodup_map (consistent digest render m earlier).nodup hentry hother h

/-- An entry has the key of an operation of the run only if it has its pair. -/
theorem Apart.pair_eq {op : Operation} (h : Apart digest render (later ++ op :: earlier))
    (hentry : entry ∈ (after digest render m earlier).entries)
    (hkey : entry.key = op.key digest render) : (entry.prompt, entry.context) = op.pair := by
  have hconsistent := consistent digest render m earlier
  obtain ⟨stored, hstored, hpair⟩ := (hconsistent.kept entry hentry).mem_pairs
  have hsame : stored.key digest render = op.key digest render := by
    rw [← hkey, hconsistent.key_eq entry hentry, Operation.key, hpair]
  rw [← hpair]
  exact h stored (by simp [hstored]) op (by simp) hsame

/-- The entries after a store: the new one, and those under other keys but for the one that is
evicted if there is no room. -/
theorem mem_after_set (hm : 0 < m) :
    entry ∈ (after digest render m (.set now prompt context result :: earlier)).entries ↔
      entry = ⟨generateKey digest render prompt context, prompt, context, result, now, 0⟩ ∨
      entry ∈ (after digest render m earlier).entries ∧
        entry.key ≠ generateKey digest render prompt context ∧
        (m ≤ (after digest render m earlier).entries.length →
          ∀ oldest, (after digest render m earlier).oldest? = some oldest →
            entry.key ≠ oldest.key) := by
  have hconsistent := consistent digest render m earlier
  have hentries := @entries_set (after digest render m earlier) digest render prompt context now
    result hconsistent.enabled
  rw [after, perform, hentries, mem_insert_iff, hconsistent.maxEntries]
  by_cases hfull : m ≤ (after digest render m earlier).entries.length
  · have hne : (after digest render m earlier).entries ≠ [] := by
      intro hnil
      rw [hnil, List.length_nil] at hfull
      omega
    obtain ⟨oldest, holdest⟩ := exists_oldest hne
    rw [if_pos ⟨hm, hfull⟩, evictOldest_entries holdest]
    simp only [List.mem_filter, bne_iff_ne, hfull, holdest, forall_const, Option.some.injEq,
      forall_eq']
    exact or_congr_right ⟨fun ⟨⟨hmem, hold⟩, hkey⟩ => ⟨hmem, hkey, hold⟩,
      fun ⟨hmem, hkey, hold⟩ => ⟨⟨hmem, hold⟩, hkey⟩⟩
  · rw [if_neg fun h => hfull h.2]
    simp [hfull]

/-- A lookup finds what is kept. -/
theorem get_iff (h : Apart digest render (later ++ .get prompt context :: earlier)) {r : String} :
    ((after digest render m earlier).get digest render prompt context).1 = some r ↔
      ∃ t, Kept digest render m prompt context earlier t r := by
  have hconsistent := consistent digest render m earlier
  rw [get_result hconsistent.enabled, Option.map_eq_some_iff]
  constructor
  · intro ⟨entry, hfound, hresult⟩
    have hmem := List.mem_of_find?_eq_some hfound
    have hkey : entry.key = generateKey digest render prompt context := by
      simpa using List.find?_some hfound
    have hpair := h.pair_eq hmem hkey
    simp only [Operation.pair, Prod.mk.injEq] at hpair
    exact ⟨entry.createdAt, kept_iff.mpr ⟨entry, hmem, hpair.1, hpair.2, rfl, hresult⟩⟩
  · intro ⟨t, hkept⟩
    obtain ⟨entry, hmem, hprompt, hcontext, _, hresult⟩ := kept_iff.mp hkept
    have hkey : entry.key = generateKey digest render prompt context := by
      rw [hconsistent.key_eq entry hmem, hprompt, hcontext]
    cases hfound :
        (after digest render m earlier).find? (generateKey digest render prompt context) with
    | none =>
      have hnone := List.find?_eq_none.mp hfound entry hmem
      simp [hkey] at hnone
    | some found =>
      have hsame : found = entry := by
        refine eq_of_key (List.mem_of_find?_eq_some hfound) hmem ?_
        rw [hkey]
        simpa using List.find?_some hfound
      exact ⟨found, rfl, hsame ▸ hresult⟩

/-- A store under a pair that is there evicts no other entry, if it finds room or its own entry is
the oldest. -/
theorem has_refreshed (hm : 0 < m)
    (h : Apart digest render (later ++ .set now prompt context result :: earlier))
    (hroom : (after digest render m earlier).entries.length < m ∨
      ∃ oldest, (after digest render m earlier).oldest? = some oldest ∧
        oldest.prompt = prompt ∧ oldest.context = context)
    {prompt' context' : Json} (hhas : (after digest render m earlier).Has prompt' context') :
    (after digest render m (.set now prompt context result :: earlier)).Has prompt' context' := by
  obtain ⟨entry, hentry, rfl, rfl⟩ := hhas
  by_cases hkey : entry.key = generateKey digest render prompt context
  · have hpair := h.pair_eq hentry hkey
    simp only [Operation.pair, Prod.mk.injEq] at hpair
    exact ⟨_, (mem_after_set hm).mpr (.inl rfl), hpair.1.symm, hpair.2.symm⟩
  · refine ⟨entry, (mem_after_set hm).mpr (.inr ⟨hentry, hkey, ?_⟩), rfl, rfl⟩
    intro hfull oldest holdest hsame
    rcases hroom with hroom | ⟨own, hown, rfl, rfl⟩
    · omega
    · obtain rfl : oldest = own := by simpa [holdest] using hown
      exact hkey (hsame.trans ((consistent digest render m earlier).key_eq _ (oldest?_mem holdest)))

/-- An entry of another pair is gone after a store only if it was the oldest one of a full cache. -/
theorem oldest_of_gone (hm : 0 < m)
    (h : Apart digest render (later ++ .set now prompt context result :: earlier))
    (hentry : entry ∈ (after digest render m earlier).entries)
    (hpair : (entry.prompt, entry.context) ≠ (prompt, context))
    (hgone : ¬ (after digest render m (.set now prompt context result :: earlier)).Has
      entry.prompt entry.context) :
    m ≤ (after digest render m earlier).entries.length ∧
      (after digest render m earlier).oldest? = some entry := by
  by_contra hnot
  refine hgone ⟨entry, (mem_after_set hm).mpr (.inr ⟨hentry, ?_, ?_⟩), rfl, rfl⟩
  · exact fun hkey => hpair (h.pair_eq hentry hkey)
  · intro hfull oldest holdest hkey
    exact hnot ⟨hfull, eq_of_key hentry (oldest?_mem holdest) hkey ▸ holdest⟩

/-- The oldest entry of a full cache is gone after a store under another pair. -/
theorem gone_of_oldest (hm : 0 < m)
    (hfull : m ≤ (after digest render m earlier).entries.length)
    (holdest : (after digest render m earlier).oldest? = some entry)
    (hpair : (entry.prompt, entry.context) ≠ (prompt, context)) :
    ¬ (after digest render m (.set now prompt context result :: earlier)).Has
      entry.prompt entry.context := by
  intro ⟨other, hother, hprompt, hcontext⟩
  rcases (mem_after_set hm).mp hother with rfl | ⟨hmem, _, hstays⟩
  · exact hpair (by rw [← hprompt, ← hcontext])
  · have hconsistent := consistent digest render m earlier
    refine hstays hfull entry holdest ?_
    rw [hconsistent.key_eq other hmem, hconsistent.key_eq entry (oldest?_mem holdest), hprompt,
      hcontext]

end

/-- **When a run is what it is to be like**: where different pairs have different keys, when each
store under a pair that is there finds room, or its own entry is the oldest one. -/
theorem correct_iff (hm : 0 < m) (hapart : Apart digest render ops) :
    Correct digest render m ops ↔ Roomy digest render m ops := by
  constructor
  · intro h later earlier now prompt context result hops hhas
    by_contra hnot
    obtain ⟨hfull, hown⟩ := not_or.mp hnot
    have hne : (after digest render m earlier).entries ≠ [] := by
      obtain ⟨entry, hentry, _⟩ := hhas
      exact List.ne_nil_of_mem hentry
    obtain ⟨oldest, holdest⟩ := exists_oldest hne
    have hpair : (oldest.prompt, oldest.context) ≠ (prompt, context) := by
      intro heq
      simp only [Prod.mk.injEq] at heq
      exact hown ⟨oldest, holdest, heq.1, heq.2⟩
    exact gone_of_oldest hm (Nat.le_of_not_lt hfull) holdest hpair
      (h.refreshed hops hhas _ _ ⟨oldest, oldest?_mem holdest, rfl, rfl⟩)
  · intro hroomy
    refine ⟨fun _ => (consistent digest render m _).length_le hm,
      fun _ => (consistent digest render m _).counted, ?_, ?_, ?_⟩
    · intro later earlier now prompt context result hops hhas prompt' context'
      exact has_refreshed hm (hops ▸ hapart) (hroomy hops hhas)
    · intro later earlier now prompt context result hops hnew prompt' context' t r hkept hgone
        prompt'' context'' t' r' hkept'
      obtain ⟨entry, hentry, rfl, rfl, rfl, _⟩ := kept_iff.mp hkept
      obtain ⟨other, hother, rfl, rfl, rfl, _⟩ := kept_iff.mp hkept'
      have hpair : ∀ e ∈ (after digest render m earlier).entries,
          (e.prompt, e.context) ≠ (prompt, context) := by
        intro e he heq
        simp only [Prod.mk.injEq] at heq
        exact hnew ⟨e, he, heq.1, heq.2⟩
      have holdest := (oldest_of_gone hm (hops ▸ hapart) hentry (hpair entry hentry) hgone).2
      refine ⟨oldest?_le holdest hother, fun hne => ?_⟩
      by_contra hgone'
      have hsame := (oldest_of_gone hm (hops ▸ hapart) hother (hpair other hother) hgone').2
      obtain rfl : entry = other := by simpa [holdest] using hsame
      exact hne rfl
    · intro later earlier prompt context hops r
      exact get_iff (hops ▸ hapart)

/-- A lookup right after a store. -/
theorem correct_lookup : Correct id (fun _ => "") 1
    [.get (.str "a") (.str ""), .set 1 (.str "a") (.str "") "0"] := by
  refine (correct_iff (by decide) ?_).mpr ?_
  · intro op hop op' hop' _
    simp only [List.mem_cons, List.not_mem_nil, or_false] at hop hop'
    rcases hop with rfl | rfl <;> rcases hop' with rfl | rfl <;> rfl
  · intro later earlier now prompt context result hops hhas
    have hnone : earlier = [] := by
      rcases later with _ | ⟨op, _ | ⟨op', later⟩⟩ <;> simp at hops
      exact hops.2.2
    simp [hnone, after]

/-! ## A full cache -/

/-- A cache of two entries: two pairs are stored, and the second one once more. -/
def secondAgain : List Operation :=
  [.set 3 (.str "b") (.str "") "2", .set 2 (.str "b") (.str "") "1", .set 1 (.str "a") (.str "") "0"]

private theorem has_text {s : String} (h : cache.Has (.str s) (.str "")) :
    (cache.entries.any fun entry => entry.prompt.isText s) = true := by
  obtain ⟨entry, hentry, hprompt, _⟩ := h
  exact List.any_eq_true.mpr ⟨entry, hentry, by simp [hprompt, Json.isText]⟩

/-- The first pair is evicted where the second one is stored again. -/
theorem not_correct : ¬ ∀ (digest : String → String) (render : Json → String) (m : ℕ)
    (ops : List Operation), 0 < m → Chronological ops → Correct digest render m ops := by
  intro h
  have hcorrect := h id (fun _ => "") 2 secondAgain (by decide)
    (by simp [Chronological, secondAgain, Operation.time?])
  have hboth : (after id (fun _ => "") 2 secondAgain.tail).entries =
      [⟨"prompt:a\ncontext:", .str "a", .str "", "0", 1, 0⟩,
        ⟨"prompt:b\ncontext:", .str "b", .str "", "1", 2, 0⟩] := rfl
  have hthere : (after id (fun _ => "") 2 secondAgain.tail).Has (.str "b") (.str "") := by
    simp [Has, hboth]
  have hfirst : (after id (fun _ => "") 2 secondAgain.tail).Has (.str "a") (.str "") := by
    simp [Has, hboth]
  have hlost := has_text (@hcorrect.refreshed [] _ _ _ _ _ rfl hthere _ _ hfirst)
  exact absurd hlost (by decide)

end DoxAsdlc.Rlm.SubCallCache
