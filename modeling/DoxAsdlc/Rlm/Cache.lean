import DoxAsdlc.Rlm.Models
import Mathlib.Data.List.MinMax

/-!
# The cache of the query tool

Answers are kept under a digest of the prompt and its context.  The entries are a Python
dictionary: a key that is already there keeps its place.

## Main definitions

* `generateKey` — the key of a prompt and a context.
* `SubCallCache` — the entries, with the statistics.
* `SubCallCache.get`, `SubCallCache.set` — the operations.
-/

namespace DoxAsdlc.Rlm

/-- `str` of a value; `render` is what it is for values that are no texts. -/
def Json.text (render : Json → String) : Json → String
  | .str s => s
  | j => render j

/-- `_generate_key`. -/
def generateKey (digest : String → String) (render : Json → String) (prompt context : Json) :
    String :=
  digest ("prompt:" ++ prompt.text render ++ "\ncontext:" ++ context.text render)

structure CacheEntry where
  key : String
  prompt : Json
  context : Json
  result : String
  createdAt : Time
  hitCount : ℕ := 0

structure CacheStats where
  totalRequests : ℕ := 0
  hits : ℕ := 0
  misses : ℕ := 0
  entries : ℕ := 0
  evictions : ℕ := 0
  deriving DecidableEq, Repr

structure SubCallCache where
  maxEntries : ℕ := 0
  enabled : Bool := true
  entries : List CacheEntry := []
  stats : CacheStats := {}

namespace SubCallCache

/-- The entry under a key. -/
def find? (cache : SubCallCache) (key : String) : Option CacheEntry :=
  cache.entries.find? fun entry => entry.key == key

/-- `self._cache[key] = entry`. -/
def insert (entries : List CacheEntry) (entry : CacheEntry) : List CacheEntry :=
  if entries.any fun other => other.key == entry.key then
    entries.map fun other => if other.key == entry.key then entry else other
  else entries ++ [entry]

/-- Instants are compared as integers. -/
local instance : Preorder Time := Int.instLinearOrder.toPreorder

/-- `_evict_oldest`. -/
def evictOldest (cache : SubCallCache) : SubCallCache :=
  match cache.entries.argmin CacheEntry.createdAt with
  | none => cache
  | some oldest =>
    let entries := cache.entries.filter fun entry => entry.key != oldest.key
    { cache with
      entries := entries
      stats := { cache.stats with
        evictions := cache.stats.evictions + 1
        entries := entries.length } }

variable (digest : String → String) (render : Json → String)

/-- `get`. -/
def get (cache : SubCallCache) (prompt context : Json) : Option String × SubCallCache :=
  if cache.enabled = false then (none, cache)
  else
    let stats := { cache.stats with totalRequests := cache.stats.totalRequests + 1 }
    let key := generateKey digest render prompt context
    match cache.find? key with
    | some entry =>
      (some entry.result, { cache with
        stats := { stats with hits := stats.hits + 1 }
        entries := insert cache.entries { entry with hitCount := entry.hitCount + 1 } })
    | none => (none, { cache with stats := { stats with misses := stats.misses + 1 } })

/-- `set`. -/
def set (cache : SubCallCache) (now : Time) (prompt context : Json) (result : String) :
    SubCallCache :=
  if cache.enabled = false then cache
  else
    let key := generateKey digest render prompt context
    let cache :=
      if 0 < cache.maxEntries && cache.maxEntries ≤ cache.entries.length then cache.evictOldest
      else cache
    let entries := insert cache.entries
      { key := key, prompt := prompt, context := context, result := result, createdAt := now }
    { cache with entries := entries, stats := { cache.stats with entries := entries.length } }

variable {digest render} {cache : SubCallCache} {prompt context : Json}

/-- A look into a cache that is switched off. -/
theorem get_disabled (h : cache.enabled = false) :
    cache.get digest render prompt context = (none, cache) := by
  simp [get, h]

/-- A look that finds an entry. -/
theorem get_hit (h : cache.enabled = true) {entry : CacheEntry}
    (hfound : cache.find? (generateKey digest render prompt context) = some entry) :
    cache.get digest render prompt context = (some entry.result, { cache with
      stats := { cache.stats with
        totalRequests := cache.stats.totalRequests + 1
        hits := cache.stats.hits + 1 }
      entries := insert cache.entries { entry with hitCount := entry.hitCount + 1 } }) := by
  simp [get, h, hfound]

/-- A look that finds none. -/
theorem get_miss (h : cache.enabled = true)
    (hnone : cache.find? (generateKey digest render prompt context) = none) :
    cache.get digest render prompt context = (none, { cache with
      stats := { cache.stats with
        totalRequests := cache.stats.totalRequests + 1
        misses := cache.stats.misses + 1 } }) := by
  simp [get, h, hnone]

/-- A new entry replaces the one with its key. -/
theorem mem_insert {entries : List CacheEntry} {entry other : CacheEntry}
    (h : other ∈ insert entries entry) :
    other = entry ∨ other ∈ entries ∧ other.key ≠ entry.key := by
  unfold insert at h
  split at h
  · obtain ⟨e, he, rfl⟩ := List.mem_map.mp h
    split
    · exact .inl rfl
    · next hkey => exact .inr ⟨he, fun heq => hkey (beq_iff_eq.mpr heq)⟩
  · next hnone =>
    rcases List.mem_append.mp h with hold | hnew
    · refine .inr ⟨hold, fun heq => hnone (List.any_eq_true.mpr ⟨other, hold, ?_⟩)⟩
      exact beq_iff_eq.mpr heq
    · exact .inl (List.mem_singleton.mp hnew)

theorem get_result (h : cache.enabled = true) :
    (cache.get digest render prompt context).1
      = (cache.find? (generateKey digest render prompt context)).map CacheEntry.result := by
  cases hfound : cache.find? (generateKey digest render prompt context) with
  | none => rw [get_miss h hfound, Option.map_none]
  | some entry => rw [get_hit h hfound, Option.map_some]

/-- What a look does to the entries: nothing, or it counts one more hit of the one it finds. -/
theorem entries_get : (cache.get digest render prompt context).2.entries = cache.entries ∨
    ∃ found ∈ cache.entries, (cache.get digest render prompt context).2.entries =
      insert cache.entries { found with hitCount := found.hitCount + 1 } := by
  cases henabled : cache.enabled with
  | false => exact .inl (by rw [get_disabled henabled])
  | true =>
    cases hfound : cache.find? (generateKey digest render prompt context) with
    | none => exact .inl (by rw [get_miss henabled hfound])
    | some found =>
      exact .inr ⟨found, List.mem_of_find?_eq_some hfound, by rw [get_hit henabled hfound]⟩

/-- A look leaves how the cache is set up. -/
theorem config_get : (cache.get digest render prompt context).2.enabled = cache.enabled ∧
    (cache.get digest render prompt context).2.maxEntries = cache.maxEntries := by
  cases henabled : cache.enabled with
  | false => simp [get_disabled henabled, henabled]
  | true =>
    cases hfound : cache.find? (generateKey digest render prompt context) with
    | none => simp [get_miss henabled hfound, henabled]
    | some found => simp [get_hit henabled hfound, henabled]

theorem enabled_get : (cache.get digest render prompt context).2.enabled = cache.enabled :=
  config_get.1

/-- A look leaves an entry as it is but for the count of its hits. -/
theorem mem_entries_get {entry : CacheEntry}
    (h : entry ∈ (cache.get digest render prompt context).2.entries) :
    ∃ old ∈ cache.entries, entry = { old with hitCount := entry.hitCount } := by
  rcases @entries_get digest render cache prompt context with hsame | ⟨found, hfound, hhit⟩
  · exact ⟨entry, hsame ▸ h, rfl⟩
  · rw [hhit] at h
    rcases mem_insert h with rfl | ⟨hold, -⟩
    · exact ⟨found, hfound, rfl⟩
    · exact ⟨entry, hold, rfl⟩

/-- A look into the cache leaves the keys and the results. -/
theorem mem_get {entry : CacheEntry}
    (h : entry ∈ (cache.get digest render prompt context).2.entries) :
    ∃ before ∈ cache.entries, before.key = entry.key ∧ before.result = entry.result := by
  obtain ⟨old, hold, heq⟩ := mem_entries_get h
  exact ⟨old, hold, by rw [heq], by rw [heq]⟩

theorem mem_evictOldest {entry : CacheEntry} (h : entry ∈ cache.evictOldest.entries) :
    entry ∈ cache.entries := by
  unfold evictOldest at h
  split at h
  · exact h
  · exact List.mem_of_mem_filter h

theorem enabled_evictOldest : cache.evictOldest.enabled = cache.enabled := by
  unfold evictOldest
  split <;> rfl

/-- Storing an answer leaves other entries, but for one that may be evicted. -/
theorem mem_set {now : Time} {result : String} {entry : CacheEntry}
    (h : entry ∈ (cache.set digest render now prompt context result).entries)
    (henabled : cache.enabled = true) :
    (entry.key = generateKey digest render prompt context ∧ entry.result = result) ∨
      (entry ∈ cache.entries ∧ entry.key ≠ generateKey digest render prompt context) := by
  unfold set at h
  rw [henabled] at h
  rcases mem_insert h with rfl | ⟨hold, hkey⟩
  · exact .inl ⟨rfl, rfl⟩
  · refine .inr ⟨?_, hkey⟩
    split at hold
    · exact mem_evictOldest hold
    · exact hold

theorem enabled_set {now : Time} {result : String} :
    (cache.set digest render now prompt context result).enabled = cache.enabled := by
  cases henabled : cache.enabled with
  | false => simp [set, henabled]
  | true =>
    by_cases hfull : 0 < cache.maxEntries ∧ cache.maxEntries ≤ cache.entries.length
    · simp [set, henabled, hfull, enabled_evictOldest]
    · simp [set, henabled, hfull]

end SubCallCache
end DoxAsdlc.Rlm
