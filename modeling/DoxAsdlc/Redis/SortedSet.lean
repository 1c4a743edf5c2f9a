import Mathlib.Data.List.Perm.Subperm
import Mathlib.Data.List.Sort
import Mathlib.Data.Prod.Lex

/-!
# Redis sorted sets and lists

A sorted set holds each member once, with a score, in the order of the scores and,
among equal scores, of the members.  The structure carries both facts, so every
value of it is a sorted set that the server could hold.

`LRANGE` and `ZREVRANGE` take a start and a stop, both included, each counted from the
end when it is negative.

## Main definitions

* `SortedSet` — members with scores, in order.
* `SortedSet.zadd`, `zrem`, `zrange`, `zrangebyscore`, `zremrangebyrank` — the
  commands.
* `range` — the elements between two ranks.
* `SortedSet.zrevrange` — the members of a sorted set, from the last.
-/

namespace Redis

variable {M S : Type} [LinearOrder M] [LinearOrder S]

/-- The order of the entries of a sorted set: by score, then by member. -/
def Before (a b : M × S) : Prop := toLex (a.2, a.1) ≤ toLex (b.2, b.1)

instance : DecidableRel (Before : M × S → M × S → Prop) :=
  fun a b => inferInstanceAs (Decidable (toLex (a.2, a.1) ≤ toLex (b.2, b.1)))

instance : IsTrans (M × S) Before := ⟨fun _ _ _ hab hbc => le_trans (α := S ×ₗ M) hab hbc⟩

instance : Std.Total (Before : M × S → M × S → Prop) := ⟨fun _ _ => le_total (α := S ×ₗ M) _ _⟩

/-- Members with scores, each member once, in order. -/
@[ext] structure SortedSet (M S : Type) [LinearOrder M] [LinearOrder S] where
  entries : List (M × S)
  nodup : (entries.map Prod.fst).Nodup
  ordered : entries.Pairwise Before

namespace SortedSet

/-- The sorted set of a key that does not exist. -/
def empty : SortedSet M S := ⟨[], List.nodup_nil, List.Pairwise.nil⟩

instance : Membership M (SortedSet M S) := ⟨fun z m => m ∈ z.entries.map Prod.fst⟩

instance (m : M) (z : SortedSet M S) : Decidable (m ∈ z) :=
  inferInstanceAs (Decidable (m ∈ z.entries.map Prod.fst))

theorem mem_def {m : M} {z : SortedSet M S} : m ∈ z ↔ ∃ s, (m, s) ∈ z.entries := by
  change m ∈ z.entries.map Prod.fst ↔ _
  simp

@[simp] theorem not_mem_empty (m : M) : m ∉ (empty : SortedSet M S) := by
  simp [mem_def, empty]

/-- Keep the entries that satisfy a test. -/
def keep (z : SortedSet M S) (p : M × S → Bool) : SortedSet M S where
  entries := z.entries.filter p
  nodup := z.nodup.sublist (List.filter_sublist.map Prod.fst)
  ordered := z.ordered.sublist List.filter_sublist

@[simp] theorem entries_keep (z : SortedSet M S) (p : M × S → Bool) :
    (z.keep p).entries = z.entries.filter p := rfl

/-- `ZREM key m`. -/
def zrem (z : SortedSet M S) (m : M) : SortedSet M S := z.keep (·.1 ≠ m)

/-- `ZADD key s m`: a member that is there already gets the new score. -/
def zadd (z : SortedSet M S) (m : M) (s : S) : SortedSet M S where
  entries := (z.zrem m).entries.orderedInsert Before (m, s)
  nodup := by
    have hperm := ((z.zrem m).entries.perm_orderedInsert Before (m, s)).map Prod.fst
    refine hperm.nodup_iff.mpr (List.nodup_cons.mpr ⟨?_, (z.zrem m).nodup⟩)
    simp [zrem]
  ordered := (z.zrem m).ordered.orderedInsert _ _

/-- `ZRANGE key 0 -1`. -/
def zrange (z : SortedSet M S) : List M := z.entries.map Prod.fst

/-- `ZRANGEBYSCORE key lo hi`. -/
def zrangebyscore (z : SortedSet M S) (lo hi : S) : List M :=
  (z.entries.filter fun e => lo ≤ e.2 ∧ e.2 ≤ hi).map Prod.fst

/-- A rank given from the end is negative. -/
def rank (n : ℕ) (i : ℤ) : ℤ := if i < 0 then n + i else i

/-- `ZREMRANGEBYRANK key start stop`, both ends included. -/
def zremrangebyrank (z : SortedSet M S) (start stop : ℤ) : SortedSet M S :=
  let lo := (rank z.entries.length start).toNat
  let hi := (rank z.entries.length stop + 1).toNat
  z.keep fun e => e ∉ (z.entries.take hi).drop lo

/-! ## Membership -/

@[simp] theorem mem_zrem {z : SortedSet M S} {m x : M} : x ∈ z.zrem m ↔ x ∈ z ∧ x ≠ m := by
  simp [mem_def, zrem]

@[simp] theorem mem_zadd {z : SortedSet M S} {m x : M} {s : S} :
    x ∈ z.zadd m s ↔ x = m ∨ x ∈ z := by
  simp only [mem_def, zadd, List.mem_orderedInsert, zrem, entries_keep, List.mem_filter,
    Prod.mk.injEq, decide_eq_true_eq]
  constructor
  · rintro ⟨t, ⟨rfl, -⟩ | ⟨ht, -⟩⟩
    · exact .inl rfl
    · exact .inr ⟨t, ht⟩
  · rintro (rfl | ⟨t, ht⟩)
    · exact ⟨s, .inl ⟨rfl, rfl⟩⟩
    · by_cases hx : x = m
      · exact ⟨s, .inl ⟨hx, rfl⟩⟩
      · exact ⟨t, .inr ⟨ht, hx⟩⟩

@[simp] theorem mem_zrange {z : SortedSet M S} {m : M} : m ∈ z.zrange ↔ m ∈ z := Iff.rfl

theorem mem_zrangebyscore {z : SortedSet M S} {lo hi : S} {m : M} :
    m ∈ z.zrangebyscore lo hi ↔ ∃ s, (m, s) ∈ z.entries ∧ lo ≤ s ∧ s ≤ hi := by
  simp [zrangebyscore]

theorem zrangebyscore_nodup (z : SortedSet M S) (lo hi : S) : (z.zrangebyscore lo hi).Nodup :=
  z.nodup.sublist (List.filter_sublist.map Prod.fst)

/-- A member has one score. -/
theorem score_unique {z : SortedSet M S} {m : M} {s t : S} (hs : (m, s) ∈ z.entries)
    (ht : (m, t) ∈ z.entries) : s = t :=
  congrArg Prod.snd (List.inj_on_of_nodup_map z.nodup hs ht rfl)

theorem mem_entries_zadd {z : SortedSet M S} {m : M} {s : S} {e : M × S} :
    e ∈ (z.zadd m s).entries ↔ e = (m, s) ∨ e ∈ z.entries ∧ e.1 ≠ m := by
  simp [zadd, zrem]

theorem entries_nodup (z : SortedSet M S) : z.entries.Nodup := z.nodup.of_map

/-- A new member is one more entry. -/
theorem length_zadd {z : SortedSet M S} {m : M} (s : S) (hm : m ∉ z) :
    (z.zadd m s).entries.length = z.entries.length + 1 := by
  have hkept : (z.zrem m).entries = z.entries := by
    refine List.filter_eq_self.mpr fun e he => ?_
    have hne : e.1 ≠ m := fun h => hm (mem_def.mpr ⟨e.2, by rw [← h]; exact he⟩)
    simpa using hne
  rw [← hkept]
  exact List.orderedInsert_length _ _ _

/-- The entries of the lowest ranks are taken off. -/
theorem entries_zremrangebyrank_zero (z : SortedSet M S) (stop : ℤ) :
    (z.zremrangebyrank 0 stop).entries
      = z.entries.drop (rank z.entries.length stop + 1).toNat := by
  set n := (rank z.entries.length stop + 1).toNat with hn
  have hentries : (z.zremrangebyrank 0 stop).entries
      = z.entries.filter fun e => e ∉ z.entries.take n := by
    simp [zremrangebyrank, rank, hn]
  have hdisjoint : (z.entries.take n).Disjoint (z.entries.drop n) :=
    List.disjoint_take_drop z.entries_nodup le_rfl
  have htake : (z.entries.take n).filter (fun e => e ∉ z.entries.take n) = [] :=
    List.filter_eq_nil_iff.mpr fun e he => by simpa using he
  have hdrop : (z.entries.drop n).filter (fun e => e ∉ z.entries.take n) = z.entries.drop n :=
    List.filter_eq_self.mpr fun e he => by simpa using fun h => hdisjoint h he
  rw [hentries]
  conv_lhs => rw [← List.take_append_drop n z.entries]
  rw [List.filter_append, List.take_append_drop, htake, hdrop, List.nil_append]

/-- **A set kept to a size.**  When a member is added and the lowest entries beyond the
size are taken off, what goes is below all that stays, and then the set is full. -/
theorem zadd_trim {z : SortedSet M S} {size : ℤ} (hz : z.entries.length ≤ size.toNat) {m : M}
    (s : S) (hm : m ∉ z) :
    let z' := (z.zadd m s).zremrangebyrank 0 (-size - 1)
    z'.entries.length ≤ size.toNat ∧ (∀ e ∈ z'.entries, e ∈ (z.zadd m s).entries) ∧
      ∀ e ∈ (z.zadd m s).entries, e ∉ z'.entries →
        z'.entries.length = size.toNat ∧ ∀ e' ∈ z'.entries, e.2 ≤ e'.2 := by
  intro z'
  have hlength := length_zadd s hm
  have hz' : z'.entries = (z.zadd m s).entries.drop
      (rank (z.zadd m s).entries.length (-size - 1) + 1).toNat :=
    entries_zremrangebyrank_zero _ _
  set n := (rank (z.zadd m s).entries.length (-size - 1) + 1).toNat with hn
  have hsize : (z.zadd m s).entries.length - n ≤ size.toNat ∧
      (n ≠ 0 → (z.zadd m s).entries.length - n = size.toNat) := by
    rw [hn, hlength, rank]
    split <;> omega
  refine ⟨by rw [hz', List.length_drop]; exact hsize.1, fun e he => ?_, fun e he hgone => ?_⟩
  · rw [hz'] at he
    exact List.mem_of_mem_drop he
  · have htaken : e ∈ (z.zadd m s).entries.take n := by
      rw [← List.take_append_drop n (z.zadd m s).entries, List.mem_append] at he
      rw [hz'] at hgone
      exact he.resolve_right hgone
    have hn0 : n ≠ 0 := by
      intro h
      rw [h, List.take_zero] at htaken
      exact List.not_mem_nil htaken
    refine ⟨by rw [hz', List.length_drop]; exact hsize.2 hn0, fun e' he' => ?_⟩
    have hordered := (z.zadd m s).ordered
    rw [← List.take_append_drop n (z.zadd m s).entries, List.pairwise_append] at hordered
    rw [hz'] at he'
    have hbefore := hordered.2.2 e htaken e' he'
    exact ((Prod.Lex.toLex_le_toLex').mp hbefore).1

/-- A full set that gets a new member loses an entry. -/
theorem exists_trimmed {z : SortedSet M S} {size : ℤ} (hz : z.entries.length = size.toNat) {m : M}
    (s : S) (hm : m ∉ z) :
    ∃ e ∈ (z.zadd m s).entries, e ∉ ((z.zadd m s).zremrangebyrank 0 (-size - 1)).entries := by
  by_contra hall
  push Not at hall
  have hle := ((z.zadd m s).entries_nodup.subperm hall).length_le
  have hsize := (zadd_trim hz.le s hm).1
  have hlength := length_zadd s hm
  omega

end SortedSet
end Redis

/-! ## Ranges of lists -/

namespace Redis

variable {A : Type}

/-- The elements from rank `start` to rank `stop`, both included. -/
def range (l : List A) (start stop : ℤ) : List A :=
  (l.take (SortedSet.rank l.length stop + 1).toNat).drop (SortedSet.rank l.length start).toNat

/-- The first `n` elements. -/
theorem range_zero (l : List A) {n : ℕ} (hn : 0 < n) : range l 0 (n - 1) = l.take n := by
  have hstop : ¬ ((n : ℤ) - 1 < 0) := by omega
  simp [range, SortedSet.rank, hstop]

/-- All of a list. -/
theorem range_all (l : List A) : range l 0 (-1) = l := by
  have hlength : ((l.length : ℤ) + -1 + 1).toNat = l.length := by omega
  simp only [range, SortedSet.rank, lt_self_iff_false, if_false, Int.toNat_zero, List.drop_zero]
  rw [if_pos (by omega), hlength, List.take_length]

/-- A range from the beginning is a beginning. -/
theorem range_isPrefix (l : List A) (stop : ℤ) : range l 0 stop <+: l := by
  simpa [range, SortedSet.rank] using List.take_prefix _ l

/-- `ZREVRANGE key start stop`. -/
def SortedSet.zrevrange {M S : Type} [LinearOrder M] [LinearOrder S] (z : SortedSet M S)
    (start stop : ℤ) : List M :=
  (range z.entries.reverse start stop).map Prod.fst

namespace SortedSet

variable {M S : Type} [LinearOrder M] [LinearOrder S] {z : SortedSet M S}

theorem zrevrange_zero {n : ℕ} (hn : 0 < n) :
    z.zrevrange 0 (n - 1) = (z.entries.reverse.take n).map Prod.fst := by
  rw [zrevrange, range_zero _ hn]

theorem zrevrange_nodup {n : ℕ} (hn : 0 < n) : (z.zrevrange 0 (n - 1)).Nodup := by
  have hreverse : (z.entries.reverse.map Prod.fst).Nodup := by
    rw [List.map_reverse]
    exact List.nodup_reverse.mpr z.nodup
  rw [zrevrange_zero hn]
  exact hreverse.sublist ((List.take_sublist n _).map Prod.fst)

theorem mem_of_mem_zrevrange {n : ℕ} (hn : 0 < n) {m : M} (hm : m ∈ z.zrevrange 0 (n - 1)) :
    m ∈ z := by
  rw [zrevrange_zero hn] at hm
  obtain ⟨e, he, rfl⟩ := List.mem_map.mp hm
  exact List.mem_map_of_mem (List.mem_reverse.mp (List.mem_of_mem_take he))

/-- A member outside of the range is below the members in it. -/
theorem score_le_of_not_mem_zrevrange {n : ℕ} (hn : 0 < n) {m m' : M} {s s' : S}
    (hm : (m, s) ∈ z.entries) (hout : m ∉ z.zrevrange 0 (n - 1)) (hm' : (m', s') ∈ z.entries)
    (hin : m' ∈ z.zrevrange 0 (n - 1)) : s ≤ s' := by
  rw [zrevrange_zero hn] at hout hin
  have htail : (m, s) ∈ z.entries.reverse.drop n := by
    have hall : (m, s) ∈ z.entries.reverse.take n ++ z.entries.reverse.drop n := by
      rw [List.take_append_drop]
      exact List.mem_reverse.mpr hm
    rcases List.mem_append.mp hall with htaken | htail
    · exact absurd (List.mem_map_of_mem htaken) hout
    · exact htail
  have hhead : (m', s') ∈ z.entries.reverse.take n := by
    obtain ⟨⟨x, t⟩, he, rfl⟩ := List.mem_map.mp hin
    have hentry : (x, t) ∈ z.entries := List.mem_reverse.mp (List.mem_of_mem_take he)
    rw [score_unique hm' hentry]
    exact he
  have hordered := List.pairwise_reverse.mpr z.ordered
  rw [← List.take_append_drop n z.entries.reverse, List.pairwise_append] at hordered
  exact ((Prod.Lex.toLex_le_toLex').mp (hordered.2.2 _ hhead _ htail)).1

end SortedSet
end Redis
