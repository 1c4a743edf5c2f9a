import Mathlib.Data.List.DropRight
import Mathlib.Data.List.Nodup
import DoxAsdlc.Interaction.Run

/-!
# The store of saved searches

The searches of the knowledge store page are kept in two lists: the recent ones, newest first, of
which there are ten at most, and the favourites.  A search that is made a favourite is copied, and
both copies are flagged; a query that is searched again takes the place of the recent search with
it, and gets an id of its own.

Ids and times are given to the actions that make them up.

## Main definitions

* `SavedSearch`, `SearchState` — the store.
* `Action`, `SearchState.next` — what is done to it.
* `Orderly` — how the two lists belong together.

## Main results

* `orderly_of_fresh` — they do so throughout a run with fresh ids.
-/

namespace DoxAsdlc.HitlUi.Search

open Interaction

variable {Filters : Type}

structure SavedSearch (Filters : Type) where
  id : String
  query : String
  filters : Option Filters
  timestamp : String
  isFavorite : Bool

structure SearchState (Filters : Type) where
  recentSearches : List (SavedSearch Filters)
  favoriteSearches : List (SavedSearch Filters)

/-- The store before anything is searched. -/
def initialState : SearchState Filters := ⟨[], []⟩

/-- `MAX_RECENT_SEARCHES`. -/
def maxRecentSearches : ℕ := 10

inductive Action (Filters : Type)
  | addRecentSearch (query : String) (filters : Option Filters) (id timestamp : String)
  | toggleFavorite (searchId : String)
  | removeFromHistory (searchId : String)
  | clearHistory

/-- White space and line ends, as `trim` takes them. -/
def isTrimmed (c : Char) : Bool :=
  c.toNat ∈ [0x9, 0xA, 0xB, 0xC, 0xD, 0x20, 0xA0, 0x1680, 0x2028, 0x2029, 0x202F, 0x205F, 0x3000,
    0xFEFF] || (0x2000 ≤ c.toNat && c.toNat ≤ 0x200A)

/-- `query.trim()`. -/
def trim (query : String) : String :=
  String.ofList ((query.toList.dropWhile isTrimmed).rdropWhile isTrimmed)

namespace SearchState

-- `toLowerCase` is that of the language
variable (toLowerCase : String → String) (s : SearchState Filters)

def addRecentSearch (query : String) (filters : Option Filters) (id timestamp : String) :
    SearchState Filters :=
  let trimmedQuery := trim query
  if trimmedQuery = "" then s
  else
    let newSearch := ⟨id, trimmedQuery, filters, timestamp, false⟩
    let filtered := s.recentSearches.filter fun search =>
      toLowerCase search.query ≠ toLowerCase trimmedQuery
    { s with recentSearches := (newSearch :: filtered).take maxRecentSearches }

/-- The searches with an id are flagged. -/
def flag (searchId : String) (isFavorite : Bool) (searches : List (SavedSearch Filters)) :
    List (SavedSearch Filters) :=
  searches.map fun search =>
    if search.id = searchId then { search with isFavorite := isFavorite } else search

/-- The searches without an id. -/
def without (searchId : String) (searches : List (SavedSearch Filters)) :
    List (SavedSearch Filters) :=
  searches.filter fun search => search.id ≠ searchId

def toggleFavorite (searchId : String) : SearchState Filters :=
  let fromRecent := s.recentSearches.find? fun search => search.id = searchId
  let fromFavorites := s.favoriteSearches.find? fun search => search.id = searchId
  match fromRecent.or fromFavorites with
  | none => s
  | some search =>
    if search.isFavorite then
      { favoriteSearches := without searchId s.favoriteSearches
        recentSearches := flag searchId false s.recentSearches }
    else
      { favoriteSearches := s.favoriteSearches ++ [{ search with isFavorite := true }]
        recentSearches := flag searchId true s.recentSearches }

def removeFromHistory (searchId : String) : SearchState Filters :=
  { recentSearches := without searchId s.recentSearches
    favoriteSearches := without searchId s.favoriteSearches }

/-- The store after an action. -/
def next : Action Filters → SearchState Filters
  | .addRecentSearch query filters id timestamp =>
    s.addRecentSearch toLowerCase query filters id timestamp
  | .toggleFavorite searchId => s.toggleFavorite searchId
  | .removeFromHistory searchId => s.removeFromHistory searchId
  | .clearHistory => { s with recentSearches := [] }

/-- `selectAllSearches`: the favourites, and then the recent searches that are none. -/
def selectAllSearches : List (SavedSearch Filters) :=
  let favoriteIds := s.favoriteSearches.map SavedSearch.id
  s.favoriteSearches ++ s.recentSearches.filter fun search => search.id ∉ favoriteIds

end SearchState

open SearchState

variable {toLowerCase : String → String} {s : SearchState Filters}

/-- The ids of searches. -/
abbrev ids (searches : List (SavedSearch Filters)) : List String := searches.map SavedSearch.id

/-- How the recent searches and the favourites belong together. -/
structure Orderly (toLowerCase : String → String) (s : SearchState Filters) : Prop where
  length_le : s.recentSearches.length ≤ 10
  queries : (s.recentSearches.map fun search => toLowerCase search.query).Nodup
  recent_ids : (ids s.recentSearches).Nodup
  favorite_ids : (ids s.favoriteSearches).Nodup
  flagged : ∀ search ∈ s.favoriteSearches, search.isFavorite = true
  flagged_iff : ∀ search ∈ s.recentSearches,
    search.isFavorite = true ↔ search.id ∈ ids s.favoriteSearches

/-- The combined list has every saved search, and each once. -/
structure Combined (s : SearchState Filters) : Prop where
  nodup : (ids s.selectAllSearches).Nodup
  mem_iff : ∀ id, id ∈ ids s.selectAllSearches ↔
    id ∈ ids s.recentSearches ∨ id ∈ ids s.favoriteSearches

/-- A generated id is none of a saved search. -/
def Fresh (s : SearchState Filters) : Action Filters → Prop
  | .addRecentSearch _ _ id _ => id ∉ ids s.recentSearches ∧ id ∉ ids s.favoriteSearches
  | _ => True

/-! ## The combined list -/

theorem Orderly.combined (h : Orderly toLowerCase s) : Combined s := by
  constructor
  · rw [selectAllSearches, ids, List.map_append, List.nodup_append]
    refine ⟨h.favorite_ids, h.recent_ids.sublist (List.filter_sublist.map _), ?_⟩
    rintro id hfavorite id' hrecent rfl
    obtain ⟨search, hsearch, rfl⟩ := List.mem_map.mp hrecent
    exact of_decide_eq_true (List.mem_filter.mp hsearch).2 hfavorite
  · intro id
    rw [selectAllSearches, ids, List.map_append, List.mem_append]
    constructor
    · rintro (hfavorite | hrecent)
      · exact .inr hfavorite
      · exact .inl ((List.filter_sublist.map _).subset hrecent)
    · rintro (hrecent | hfavorite)
      · by_cases hin : id ∈ ids s.favoriteSearches
        · exact .inl hin
        · obtain ⟨search, hsearch, rfl⟩ := List.mem_map.mp hrecent
          exact .inr (List.mem_map_of_mem (List.mem_filter.mpr ⟨hsearch, by simpa using hin⟩))
      · exact .inl hfavorite

/-! ## The actions -/

@[simp]
theorem ids_flag (searchId : String) (isFavorite : Bool) (searches : List (SavedSearch Filters)) :
    ids (flag searchId isFavorite searches) = ids searches := by
  rw [ids, flag, List.map_map]
  refine List.map_congr_left fun search _ => ?_
  simp only [Function.comp_apply]
  split_ifs <;> rfl

theorem queries_flag (searchId : String) (isFavorite : Bool)
    (searches : List (SavedSearch Filters)) :
    (flag searchId isFavorite searches).map SavedSearch.query =
      searches.map SavedSearch.query := by
  rw [flag, List.map_map]
  refine List.map_congr_left fun search _ => ?_
  simp only [Function.comp_apply]
  split_ifs <;> rfl

@[simp]
theorem ids_without (searchId : String) (searches : List (SavedSearch Filters)) :
    ids (without searchId searches) = (ids searches).filter fun id => id ≠ searchId := by
  rw [ids, without, ids, List.filter_map]
  rfl

theorem orderly_initialState : Orderly toLowerCase (initialState : SearchState Filters) := by
  constructor <;> simp [initialState, ids]

theorem orderly_addRecentSearch (h : Orderly toLowerCase s) {query id timestamp : String}
    {filters : Option Filters} (hfresh : Fresh s (.addRecentSearch query filters id timestamp)) :
    Orderly toLowerCase (s.addRecentSearch toLowerCase query filters id timestamp) := by
  rw [addRecentSearch]
  split_ifs with htrim
  · exact h
  set kept := s.recentSearches.filter fun search =>
    toLowerCase search.query ≠ toLowerCase (trim query)
  have hkept : kept.Sublist s.recentSearches := List.filter_sublist
  constructor
  · exact (List.length_take_le _ _).trans le_rfl
  · rw [List.map_take]
    refine List.Nodup.sublist (List.take_sublist _ _) (List.nodup_cons.mpr ⟨?_, ?_⟩)
    · intro hmem
      obtain ⟨search, hsearch, heq⟩ := List.mem_map.mp hmem
      exact of_decide_eq_true (List.mem_filter.mp hsearch).2 heq
    · exact h.queries.sublist (hkept.map _)
  · rw [ids, List.map_take]
    refine List.Nodup.sublist (List.take_sublist _ _) (List.nodup_cons.mpr ⟨?_, ?_⟩)
    · exact fun hmem => hfresh.1 ((hkept.map _).subset hmem)
    · exact h.recent_ids.sublist (hkept.map _)
  · exact h.favorite_ids
  · exact h.flagged
  · intro search hsearch
    obtain rfl | hsearch := List.mem_cons.mp (List.mem_of_mem_take hsearch)
    · simpa using hfresh.2
    · exact h.flagged_iff search (hkept.subset hsearch)

/-- A search that is flagged anew is flagged exactly if its id is among the favourites then. -/
theorem flagged_iff_of_flag {searchId : String} {isFavorite : Bool}
    {favorites : List (SavedSearch Filters)} (h : Orderly toLowerCase s)
    (hid : isFavorite = true ↔ searchId ∈ ids favorites)
    (hother : ∀ id, id ≠ searchId → (id ∈ ids favorites ↔ id ∈ ids s.favoriteSearches)) :
    ∀ search ∈ flag searchId isFavorite s.recentSearches,
      search.isFavorite = true ↔ search.id ∈ ids favorites := by
  intro search hsearch
  obtain ⟨old, hold, rfl⟩ := List.mem_map.mp hsearch
  by_cases heq : old.id = searchId
  · rw [if_pos heq]
    change isFavorite = true ↔ old.id ∈ ids favorites
    rwa [heq]
  · rw [if_neg heq, hother old.id heq]
    exact h.flagged_iff old hold

theorem orderly_toggleFavorite (h : Orderly toLowerCase s) (searchId : String) :
    Orderly toLowerCase (s.toggleFavorite searchId) := by
  have hqueries (isFavorite : Bool) :
      ((flag searchId isFavorite s.recentSearches).map fun search =>
        toLowerCase search.query).Nodup := by
    have hmap := congrArg (List.map toLowerCase)
      (queries_flag searchId isFavorite s.recentSearches)
    rw [List.map_map, List.map_map] at hmap
    exact hmap ▸ h.queries
  have hrecent (isFavorite : Bool) : (ids (flag searchId isFavorite s.recentSearches)).Nodup := by
    rw [ids_flag]
    exact h.recent_ids
  have hlength (isFavorite : Bool) : (flag searchId isFavorite s.recentSearches).length ≤ 10 := by
    rw [flag, List.length_map]
    exact h.length_le
  rw [toggleFavorite]
  cases hfound : (s.recentSearches.find? fun search => search.id = searchId).or
      (s.favoriteSearches.find? fun search => search.id = searchId) with
  | none => exact h
  | some search =>
    simp only
    -- the search has the id, and is flagged exactly if the id is among the favourites
    have hsearch : search.id = searchId ∧
        (search.isFavorite = true ↔ searchId ∈ ids s.favoriteSearches) := by
      obtain hfound | ⟨-, hfound⟩ := Option.or_eq_some_iff.mp hfound
      · have hid : search.id = searchId := by simpa using List.find?_some hfound
        exact ⟨hid, hid ▸ h.flagged_iff search (List.mem_of_find?_eq_some hfound)⟩
      · have hid : search.id = searchId := by simpa using List.find?_some hfound
        have hmem := List.mem_of_find?_eq_some hfound
        exact ⟨hid, iff_of_true (h.flagged search hmem) (hid ▸ List.mem_map_of_mem hmem)⟩
    obtain ⟨hid, hflag⟩ := hsearch
    split_ifs with hfavorite
    · refine ⟨hlength _, hqueries _, hrecent _, ?_, ?_, ?_⟩
      · rw [ids_without]
        exact h.favorite_ids.filter _
      · exact fun other hother => h.flagged other (List.mem_of_mem_filter hother)
      · refine flagged_iff_of_flag h (by simp) fun id hne => ?_
        simp [hne]
    · have hnot : searchId ∉ ids s.favoriteSearches := fun hmem => hfavorite (hflag.mpr hmem)
      have hids : ids (s.favoriteSearches ++ [{ search with isFavorite := true }]) =
          ids s.favoriteSearches ++ [searchId] := by
        simp [ids, hid]
      refine ⟨hlength _, hqueries _, hrecent _, ?_, ?_, ?_⟩
      · rw [hids, ← List.concat_eq_append]
        exact h.favorite_ids.concat hnot
      · intro other hother
        obtain hother | hother := List.mem_append.mp hother
        · exact h.flagged other hother
        · rw [List.mem_singleton.mp hother]
      · refine flagged_iff_of_flag h ?_ fun id hne => ?_
        · simp [hids]
        · simp [hids, hne]

theorem orderly_removeFromHistory (h : Orderly toLowerCase s) (searchId : String) :
    Orderly toLowerCase (s.removeFromHistory searchId) := by
  have hkept : (without searchId s.recentSearches).Sublist s.recentSearches := List.filter_sublist
  refine ⟨hkept.length_le.trans h.length_le, h.queries.sublist (hkept.map _),
    h.recent_ids.sublist (hkept.map _), h.favorite_ids.sublist (List.filter_sublist.map _),
    fun search hsearch => h.flagged search (List.mem_of_mem_filter hsearch), ?_⟩
  intro search hsearch
  obtain ⟨hin, hne⟩ := List.mem_filter.mp hsearch
  rw [h.flagged_iff search hin]
  simp only [removeFromHistory, ids_without, List.mem_filter, hne, and_true]

/-- What one action does. -/
theorem orderly_next (h : Orderly toLowerCase s) {a : Action Filters} (hfresh : Fresh s a) :
    Orderly toLowerCase (s.next toLowerCase a) := by
  cases a with
  | addRecentSearch query filters id timestamp => exact orderly_addRecentSearch h hfresh
  | toggleFavorite searchId => exact orderly_toggleFavorite h searchId
  | removeFromHistory searchId => exact orderly_removeFromHistory h searchId
  | clearHistory =>
    exact ⟨Nat.zero_le _, List.nodup_nil, List.nodup_nil, h.favorite_ids, h.flagged,
      fun _ hsearch => absurd hsearch List.not_mem_nil⟩

/-- **The two lists belong together throughout a run** in which generated ids are fresh, and every
saved search is in the combined list, once. -/
theorem orderly_of_fresh (toLowerCase : String → String) (actions : List (Action Filters))
    (hfresh : Each (next toLowerCase) Fresh initialState actions) :
    Along (next toLowerCase) (fun s => Orderly toLowerCase s ∧ Combined s) (fun _ _ _ => True)
      initialState actions :=
  along_of_each (I := Orderly toLowerCase) (C := Fresh) (fun _ _ h hfresh => orderly_next h hfresh)
    (fun _ h => ⟨h, h.combined⟩) (fun _ _ _ _ => trivial) orderly_initialState hfresh

/-- Two searches, one of them a favourite, and the query of the other one again. -/
theorem orderly_example :
    Along (next String.toLower) (fun s => Orderly String.toLower s ∧ Combined s)
      (fun _ _ _ => True) (initialState : SearchState Unit)
      [.addRecentSearch "hooks" none "1" "", .addRecentSearch "redis" none "2" "",
        .toggleFavorite "1", .addRecentSearch " Redis" none "3" "", .clearHistory] :=
  orderly_of_fresh String.toLower _ (by simp [Each, Fresh]; decide +kernel)

end DoxAsdlc.HitlUi.Search
