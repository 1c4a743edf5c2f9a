import Mathlib.Data.List.TakeWhile
import Mathlib.Tactic.Common

/-!
# Matching with backtracking

A matcher gives the ways in which it matches from a place on, in the order in which a
backtracking engine tries them: the first is the one that is found.  Matchers are composed by
`bind`, so what comes later is tried after every way of what comes before.

## Main definitions

* `Cursor` — a place in a text: what is left and the element before it.
* `Matcher` — the ways to match.
* `Matcher.many`, `Matcher.lazyMany` — repetition, the longest first or the shortest first.
* `Matcher.star` — repetition of a matcher.
* `Matcher.search`, `Matcher.finditer` — the first match, and all matches one after another.

## Main results

* `Matcher.plus_bind` — a greedy repetition has one way if nothing shorter can go on.
* `Matcher.lazyMany_bind_cons` — a lazy repetition goes on where it stands before it takes more.
* `Matcher.search_of_skip` — a search passes what does not match.
* `Matcher.Consumes.finditer_of_some` — all matches are the first one and those behind it.
-/

namespace Backtracking

universe u

/-- A place in a text. -/
structure Cursor (σ : Type u) where
  before : Option σ
  rest : List σ
deriving DecidableEq

namespace Cursor

variable {σ : Type u}

/-- The place behind `xs`, with `rest` left. -/
def past (c : Cursor σ) (xs rest : List σ) : Cursor σ := ⟨xs.getLast?.or c.before, rest⟩

@[simp] theorem past_rest (c : Cursor σ) (xs rest : List σ) : (c.past xs rest).rest = rest := rfl

@[simp] theorem past_nil (c : Cursor σ) (rest : List σ) : c.past [] rest = ⟨c.before, rest⟩ := rfl

@[simp] theorem past_past (c : Cursor σ) (xs ys rest rest' : List σ) :
    (c.past xs rest).past ys rest' = c.past (xs ++ ys) rest' := by
  simp [past, List.getLast?_append, Option.or_assoc]

theorem past_cons (b : Option σ) (x : σ) (r xs rest : List σ) :
    past ⟨b, r⟩ (x :: xs) rest = past ⟨some x, xs⟩ xs rest := by
  cases xs with
  | nil => rfl
  | cons y ys => simp [past, List.getLast?_cons]

end Cursor

/-- The ways to match, in the order in which they are tried. -/
def Matcher (σ α : Type u) : Type u := Cursor σ → List (α × Cursor σ)

namespace Matcher

variable {σ α β : Type u}

instance : Monad (Matcher σ) where
  pure a := fun c => [(a, c)]
  bind m k := fun c => (m c).flatMap fun way => k way.1 way.2

theorem pure_apply (a : α) (c : Cursor σ) : (pure a : Matcher σ α) c = [(a, c)] := rfl

theorem bind_apply (m : Matcher σ α) (k : α → Matcher σ β) (c : Cursor σ) :
    (m >>= k) c = (m c).flatMap fun way => k way.1 way.2 := rfl

instance : LawfulMonad (Matcher σ) := LawfulMonad.mk' _
  (fun m => by
    funext c
    change (m c).flatMap (fun way => [(way.1, way.2)]) = m c
    simp)
  (fun a k => by
    funext c
    change ([(a, c)]).flatMap (fun way => k way.1 way.2) = k a c
    simp)
  (fun m k l => by
    funext c
    change ((m c).flatMap fun way => k way.1 way.2).flatMap (fun way => l way.1 way.2)
      = (m c).flatMap fun way => (k way.1 way.2).flatMap fun way => l way.1 way.2
    simp [List.flatMap_assoc])

/-! ## The combinators -/

/-- One element of a class. -/
def one (p : σ → Bool) : Matcher σ σ
  | ⟨_, []⟩ => []
  | ⟨_, x :: rest⟩ => if p x then [(x, ⟨some x, rest⟩)] else []

/-- The text itself. -/
def literal [DecidableEq σ] (xs : List σ) : Matcher σ (List σ) := fun c =>
  if xs <+: c.rest then [(xs, c.past xs (c.rest.drop xs.length))] else []

/-- One of several matchers, tried one after another. -/
def oneOf (ms : List (Matcher σ α)) : Matcher σ α := fun c => ms.flatMap fun m => m c

/-- The ways to take elements of a class, the shortest first. -/
def takes (p : σ → Bool) : Option σ → List σ → List (List σ × Cursor σ)
  | before, [] => [([], ⟨before, []⟩)]
  | before, x :: rest => ([], ⟨before, x :: rest⟩) ::
      if p x then (takes p (some x) rest).map fun way => (x :: way.1, way.2) else []

/-- As few elements of a class as will do. -/
def lazyMany (p : σ → Bool) : Matcher σ (List σ) := fun c => takes p c.before c.rest

/-- As many elements of a class as will do. -/
def many (p : σ → Bool) : Matcher σ (List σ) := fun c => (takes p c.before c.rest).reverse

/-- As few elements of a class as will do, one at least. -/
def lazyPlus (p : σ → Bool) : Matcher σ (List σ) := do
  let x ← one p
  let xs ← lazyMany p
  pure (x :: xs)

/-- As many elements of a class as will do, one at least. -/
def plus (p : σ → Bool) : Matcher σ (List σ) := do
  let x ← one p
  let xs ← many p
  pure (x :: xs)

/-- The begin of a line. -/
def lineStart [DecidableEq σ] (newline : σ) : Matcher σ PUnit := fun c =>
  if c.before.all (· = newline) then [(⟨⟩, c)] else []

/-- The end of a line. -/
def lineEnd [DecidableEq σ] (newline : σ) : Matcher σ PUnit := fun c =>
  if c.rest.head?.all (· = newline) then [(⟨⟩, c)] else []

/-- The border of a word: what stands on the one side is of the class, what stands on the other
side is not. -/
def border (p : σ → Bool) : Matcher σ PUnit := fun c =>
  if c.before.any p ≠ c.rest.head?.any p then [(⟨⟩, c)] else []

/-- As many matches one after another as will do, of a matcher that takes something when it
matches. -/
def star (m : Matcher σ α) (c : Cursor σ) : List (List α × Cursor σ) :=
  ((m c).flatMap fun way =>
    if way.2.rest.length < c.rest.length then
      (star m way.2).map fun later => (way.1 :: later.1, later.2)
    else []) ++ [([], c)]
termination_by c.rest.length

/-- As many elements of a class as will do, but no more than a number of them. -/
def atMost (p : σ → Bool) : ℕ → Matcher σ (List σ)
  | 0 => pure []
  | n + 1 => oneOf [do
      let x ← one p
      let xs ← atMost p n
      pure (x :: xs), pure []]

/-- So many elements of a class. -/
def times (p : σ → Bool) : ℕ → Matcher σ (List σ)
  | 0 => pure []
  | n + 1 => do
      let x ← one p
      let xs ← times p n
      pure (x :: xs)

/-- A match, if there is one. -/
def optional (m : Matcher σ α) : Matcher σ (Option α) :=
  oneOf [do
    let a ← m
    pure (some a), pure none]

/-- The end of the last line: the end of the text, or a newline that ends it. -/
def lastLineEnd [DecidableEq σ] (newline : σ) : Matcher σ PUnit := fun c =>
  if c.rest = [] ∨ c.rest = [newline] then [(⟨⟩, c)] else []

/-- The end of the text. -/
def textEnd : Matcher σ PUnit := fun c => if c.rest.isEmpty then [(⟨⟩, c)] else []

/-- What a matcher would match, without taking it. -/
def ahead (m : Matcher σ α) : Matcher σ PUnit := fun c => if (m c).isEmpty then [] else [(⟨⟩, c)]

/-! ## The laws of the combinators -/

@[simp] theorem one_nil (p : σ → Bool) (b : Option σ) : one p ⟨b, []⟩ = [] := rfl

@[simp] theorem one_cons (p : σ → Bool) (b : Option σ) (x : σ) (rest : List σ) :
    one p ⟨b, x :: rest⟩ = if p x then [(x, ⟨some x, rest⟩)] else [] := rfl

/-- A repetition ends at its own longest way, if nothing can go on before a further element. -/
theorem takes_reverse_flatMap {p : σ → Bool} {k : List σ × Cursor σ → List β}
    (hk : ∀ xs b x rest, p x = true → k (xs, ⟨b, x :: rest⟩) = []) (b : Option σ) (l : List σ) :
    (takes p b l).reverse.flatMap k
      = k (l.takeWhile p, Cursor.past ⟨b, l⟩ (l.takeWhile p) (l.dropWhile p)) := by
  induction l generalizing b k with
  | nil => simp [takes]
  | cons x rest ih =>
    by_cases hx : p x = true
    · have hrest : ∀ xs b y rest, p y = true → k (x :: xs, ⟨b, y :: rest⟩) = [] :=
        fun xs b y rest hy => hk (x :: xs) b y rest hy
      have hlater := @ih (fun way => k (x :: way.1, way.2)) hrest (some x)
      have hhere : k ([], ⟨b, x :: rest⟩) = [] := hk [] b x rest hx
      rw [takes, if_pos hx, List.reverse_cons, List.flatMap_append, ← List.map_reverse,
        List.flatMap_map, hlater, List.takeWhile_cons_of_pos hx, List.dropWhile_cons_of_pos hx]
      simp [hhere, Cursor.past, List.getLast?_cons]
    · simp [takes, hx]

theorem plus_bind_eq (p : σ → Bool) (k : List σ → Matcher σ β) :
    plus p >>= k = one p >>= fun x => many p >>= fun xs => k (x :: xs) := by
  simp [plus]

/-- **A greedy repetition has one way**, if nothing can go on before a further element. -/
theorem plus_bind {p : σ → Bool} {k : List σ → Matcher σ β}
    (hk : ∀ xs b x rest, p x = true → k xs ⟨b, x :: rest⟩ = []) (c : Cursor σ) :
    (plus p >>= k) c = if c.rest.takeWhile p = [] then []
      else k (c.rest.takeWhile p) (c.past (c.rest.takeWhile p) (c.rest.dropWhile p)) := by
  obtain ⟨b, l⟩ := c
  cases l with
  | nil => rfl
  | cons x rest =>
    by_cases hx : p x = true
    · have hlongest := @takes_reverse_flatMap σ (β × Cursor σ) p (fun way => k (x :: way.1) way.2)
        (fun xs b y rest hy => hk (x :: xs) b y rest hy) (some x) rest
      rw [plus_bind_eq]
      simp only [bind_apply, one_cons, if_pos hx, many, List.flatMap_singleton,
        List.takeWhile_cons_of_pos hx, List.dropWhile_cons_of_pos hx, reduceCtorEq, if_false]
      rw [hlongest, Cursor.past_cons]
      rfl
    · rw [plus_bind_eq]
      simp [bind_apply, hx]

/-- A lazy repetition takes a further element only after what comes next was tried. -/
theorem lazyMany_bind_cons (p : σ → Bool) (m : Matcher σ β) (b : Option σ) (x : σ)
    (rest : List σ) :
    (lazyMany p >>= fun _ => m) ⟨b, x :: rest⟩ = m ⟨b, x :: rest⟩ ++
      if p x then (lazyMany p >>= fun _ => m) ⟨some x, rest⟩ else [] := by
  by_cases hx : p x = true
  · simp [lazyMany, bind_apply, takes, hx, List.flatMap_map]
  · simp [lazyMany, bind_apply, takes, hx]

theorem lazyMany_bind_nil (p : σ → Bool) (m : Matcher σ β) (b : Option σ) :
    (lazyMany p >>= fun _ => m) ⟨b, []⟩ = m ⟨b, []⟩ := by
  simp [lazyMany, bind_apply, takes]

theorem lazyPlus_bind (p : σ → Bool) (m : Matcher σ β) (c : Cursor σ) :
    (lazyPlus p >>= fun _ => m) c = (one p >>= fun _ => lazyMany p >>= fun _ => m) c := by
  simp [lazyPlus, bind_assoc]

@[simp] theorem lineStart_bind [DecidableEq σ] (newline : σ) (k : PUnit → Matcher σ β)
    (c : Cursor σ) : (lineStart newline >>= k) c
      = if c.before.all (· = newline) then k ⟨⟩ c else [] := by
  by_cases h : c.before.all (· = newline) = true <;> simp [lineStart, bind_apply, h]

theorem literal_bind [DecidableEq σ] (xs rest : List σ) (k : List σ → Matcher σ β)
    (b : Option σ) : (literal xs >>= k) ⟨b, xs ++ rest⟩ = k xs (Cursor.past ⟨b, []⟩ xs rest) := by
  simp [literal, bind_apply, Cursor.past]

theorem literal_bind_of_not [DecidableEq σ] {xs : List σ} {c : Cursor σ} (h : ¬ xs <+: c.rest)
    (k : List σ → Matcher σ β) : (literal xs >>= k) c = [] := by
  simp [literal, bind_apply, h]

theorem mem_bind {m : Matcher σ α} {k : α → Matcher σ β} {c : Cursor σ} {way : β × Cursor σ} :
    way ∈ (m >>= k) c ↔ ∃ a c', (a, c') ∈ m c ∧ way ∈ k a c' := by
  simp [bind_apply]

theorem bind_ne_nil {m : Matcher σ α} {k : α → Matcher σ β} {c c' : Cursor σ} {a : α}
    (hm : (a, c') ∈ m c) (hk : k a c' ≠ []) : (m >>= k) c ≠ [] := by
  obtain ⟨way, hway⟩ := List.exists_mem_of_ne_nil _ hk
  exact List.ne_nil_of_mem (mem_bind.mpr ⟨a, c', hm, hway⟩)

/-- A repetition can take all of what is of the class. -/
theorem append_mem_takes {p : σ → Bool} {xs : List σ} (h : ∀ x ∈ xs, p x = true) (b : Option σ)
    (rest : List σ) : (xs, Cursor.past ⟨b, xs ++ rest⟩ xs rest) ∈ takes p b (xs ++ rest) := by
  induction xs generalizing b with
  | nil => cases rest <;> simp [takes]
  | cons x xs ih =>
    have hrest := ih (fun y hy => h y (List.mem_cons_of_mem _ hy)) (some x)
    rw [List.cons_append, takes, if_pos (h x List.mem_cons_self), Cursor.past_cons]
    exact List.mem_cons_of_mem _ (List.mem_map.mpr ⟨_, hrest, rfl⟩)

theorem nil_mem_takes (p : σ → Bool) (b : Option σ) (l : List σ) :
    ([], ⟨b, l⟩) ∈ takes p b l := by
  cases l <;> simp [takes]

/-- A repetition takes what is of the class. -/
theorem exists_of_mem_takes {p : σ → Bool} {b : Option σ} {l : List σ} {way : List σ × Cursor σ}
    (h : way ∈ takes p b l) : (∀ x ∈ way.1, p x = true) ∧ l = way.1 ++ way.2.rest := by
  induction l generalizing b way with
  | nil =>
    rw [takes, List.mem_singleton] at h
    simp [h]
  | cons x rest ih =>
    rw [takes, List.mem_cons] at h
    cases h with
    | inl h => simp [h]
    | inr h =>
      split_ifs at h with hx
      · obtain ⟨later, hlater, rfl⟩ := List.mem_map.mp h
        obtain ⟨hall, hrest⟩ := ih hlater
        exact ⟨by simpa [hx] using hall, by rw [hrest]; rfl⟩
      · cases h

theorem mem_literal [DecidableEq σ] {xs : List σ} {c : Cursor σ} {way : List σ × Cursor σ} :
    way ∈ literal xs c ↔ xs <+: c.rest ∧ way = (xs, c.past xs (c.rest.drop xs.length)) := by
  by_cases h : xs <+: c.rest <;> simp [literal, h]

theorem mem_oneOf {ms : List (Matcher σ α)} {c : Cursor σ} {way : α × Cursor σ} :
    way ∈ oneOf ms c ↔ ∃ m ∈ ms, way ∈ m c := List.mem_flatMap

theorem mem_one {p : σ → Bool} {c c' : Cursor σ} {x : σ} :
    (x, c') ∈ one p c ↔ p x = true ∧ ∃ rest, c.rest = x :: rest ∧ c' = ⟨some x, rest⟩ := by
  obtain ⟨b, l⟩ := c
  cases l with
  | nil => simp
  | cons y rest =>
    by_cases hy : p y = true
    · rw [one_cons, if_pos hy, List.mem_singleton]
      constructor
      · intro h
        cases h
        exact ⟨hy, rest, rfl, rfl⟩
      · intro ⟨_, rest', hrest, hc'⟩
        cases hrest
        rw [hc']
    · rw [one_cons, if_neg hy]
      constructor
      · intro h
        cases h
      · intro ⟨hx, rest', hrest, _⟩
        cases hrest
        exact absurd hx hy

/-- A bounded repetition takes what is of the class and not too long. -/
theorem mem_atMost {p : σ → Bool} {n : ℕ} {c c' : Cursor σ} {xs : List σ} :
    (xs, c') ∈ atMost p n c ↔ xs.length ≤ n ∧ (∀ x ∈ xs, p x = true) ∧
      ∃ rest, c.rest = xs ++ rest ∧ c' = c.past xs rest := by
  induction n generalizing c c' xs with
  | zero =>
    obtain ⟨b, l⟩ := c
    simp only [atMost, pure_apply, List.mem_singleton, Prod.mk.injEq, Nat.le_zero,
      List.length_eq_zero_iff]
    constructor
    · rintro ⟨rfl, rfl⟩
      exact ⟨rfl, by simp, l, rfl, rfl⟩
    · rintro ⟨rfl, -, rest, rfl, rfl⟩
      exact ⟨rfl, rfl⟩
  | succ n ih =>
    obtain ⟨b, l⟩ := c
    simp only [atMost, mem_oneOf, List.mem_cons, List.not_mem_nil, or_false, exists_eq_or_imp,
      exists_eq_left, mem_bind, mem_one, ih, pure_apply, Prod.mk.injEq]
    constructor
    · rintro (⟨x, c₁, ⟨hx, rest₁, rfl, rfl⟩, ys, c₂, ⟨hlen, hys, rest₂, rfl, rfl⟩, rfl, rfl⟩ |
        ⟨rfl, rfl⟩)
      · exact ⟨Nat.succ_le_succ hlen, by simpa using ⟨hx, hys⟩, rest₂, rfl,
          (Cursor.past_cons _ _ _ _ _).symm⟩
      · exact ⟨Nat.zero_le _, by simp, l, rfl, rfl⟩
    · rintro ⟨hlen, hxs, rest, rfl, rfl⟩
      cases xs with
      | nil => exact .inr ⟨rfl, rfl⟩
      | cons x xs =>
        rw [List.forall_mem_cons] at hxs
        exact .inl ⟨x, _, ⟨hxs.1, _, rfl, rfl⟩, xs, _, ⟨Nat.le_of_succ_le_succ hlen, hxs.2, rest,
          rfl, rfl⟩, rfl, Cursor.past_cons _ _ _ _ _⟩

theorem mem_optional {m : Matcher σ α} {c c' : Cursor σ} {a : Option α} :
    (a, c') ∈ optional m c ↔ (a = none ∧ c' = c) ∨ ∃ x, (x, c') ∈ m c ∧ a = some x := by
  simp only [optional, mem_oneOf, List.mem_cons, List.not_mem_nil, or_false, exists_eq_or_imp,
    exists_eq_left, mem_bind, pure_apply, Prod.mk.injEq]
  constructor
  · rintro (⟨x, c₁, hx, rfl, rfl⟩ | ⟨rfl, rfl⟩)
    · exact .inr ⟨x, hx, rfl⟩
    · exact .inl ⟨rfl, rfl⟩
  · rintro (⟨rfl, rfl⟩ | ⟨x, hx, rfl⟩)
    · exact .inr ⟨rfl, rfl⟩
    · exact .inl ⟨x, c', hx, rfl, rfl⟩

theorem lastLineEnd_ne_nil [DecidableEq σ] {newline : σ} {c : Cursor σ} :
    lastLineEnd newline c ≠ [] ↔ c.rest = [] ∨ c.rest = [newline] := by
  by_cases h : c.rest = [] ∨ c.rest = [newline] <;> simp [lastLineEnd, h]

theorem bind_ne_nil_iff {m : Matcher σ α} {k : α → Matcher σ β} {c : Cursor σ} :
    (m >>= k) c ≠ [] ↔ ∃ a c', (a, c') ∈ m c ∧ k a c' ≠ [] := by
  constructor
  · intro h
    obtain ⟨way, hway⟩ := List.exists_mem_of_ne_nil _ h
    obtain ⟨a, c', hm, hk⟩ := mem_bind.mp hway
    exact ⟨a, c', hm, List.ne_nil_of_mem hk⟩
  · intro ⟨a, c', hm, hk⟩
    exact bind_ne_nil hm hk

/-! ## Searching -/

/-- Search from a place on. -/
def searchFrom (m : Matcher σ α) : Option σ → List σ → Option (α × Cursor σ)
  | before, [] => (m ⟨before, []⟩).head?
  | before, x :: rest => (m ⟨before, x :: rest⟩).head?.or (searchFrom m (some x) rest)

/-- The first match, at the first place that has one. -/
def search (m : Matcher σ α) (c : Cursor σ) : Option (α × Cursor σ) := searchFrom m c.before c.rest

/-- All matches, each searched for behind the one before it, for a matcher that takes something
when it matches. -/
def finditer (m : Matcher σ α) (c : Cursor σ) : List α :=
  match search m c with
  | none => []
  | some (a, c') => a :: if c'.rest.length < c.rest.length then finditer m c' else []
termination_by c.rest.length

/-- A match at the place itself. -/
theorem search_of_match {m : Matcher σ α} {c : Cursor σ} {way : α × Cursor σ}
    (h : (m c).head? = some way) : search m c = some way := by
  obtain ⟨b, l⟩ := c
  cases l with
  | nil => exact h
  | cons x rest => simp [search, searchFrom, h]

/-- A search passes what does not match. -/
theorem search_of_skip {m : Matcher σ α} {b : Option σ} {x : σ} {rest : List σ}
    (h : m ⟨b, x :: rest⟩ = []) : search m ⟨b, x :: rest⟩ = search m ⟨some x, rest⟩ := by
  simp [search, searchFrom, h]

/-- A search finds something if there is a match somewhere. -/
theorem search_ne_none {m : Matcher σ α} {rest : List σ} (h : ∀ b, m ⟨b, rest⟩ ≠ [])
    (before : List σ) (b : Option σ) : search m ⟨b, before ++ rest⟩ ≠ none := by
  induction before generalizing b with
  | nil =>
    have hhere : (m ⟨b, rest⟩).head? ≠ none := by simpa using h b
    cases rest with
    | nil => exact hhere
    | cons x rest => simp [search, searchFrom, hhere]
  | cons x before ih =>
    have hlater : searchFrom m (some x) (before ++ rest) ≠ none := ih (some x)
    simp [search, searchFrom, hlater]

theorem search_nil (m : Matcher σ α) (b : Option σ) :
    search m ⟨b, []⟩ = (m ⟨b, []⟩).head? := rfl

theorem finditer_of_none {m : Matcher σ α} {c : Cursor σ} (h : search m c = none) :
    finditer m c = [] := by
  rw [finditer, h]

/-! ## What is left after a match -/

/-- The matcher never goes back. -/
def Keeps (m : Matcher σ α) : Prop := ∀ c, ∀ way ∈ m c, way.2.rest.length ≤ c.rest.length

/-- The matcher takes something when it matches. -/
def Consumes (m : Matcher σ α) : Prop := ∀ c, ∀ way ∈ m c, way.2.rest.length < c.rest.length

theorem Consumes.keeps {m : Matcher σ α} (hm : Consumes m) : Keeps m :=
  fun c way hway => (hm c way hway).le

theorem keeps_pure (a : α) : Keeps (pure a : Matcher σ α) := by
  intro c way hway
  simp [pure_apply] at hway
  simp [hway]

theorem Keeps.bind {m : Matcher σ α} {k : α → Matcher σ β} (hm : Keeps m)
    (hk : ∀ a, Keeps (k a)) : Keeps (m >>= k) := by
  intro c way hway
  obtain ⟨way', hway', hlater⟩ := List.mem_flatMap.mp hway
  have hfirst := hm c way' hway'
  have hsecond := hk way'.1 way'.2 way hlater
  omega

theorem Consumes.bind {m : Matcher σ α} {k : α → Matcher σ β} (hm : Consumes m)
    (hk : ∀ a, Keeps (k a)) : Consumes (m >>= k) := by
  intro c way hway
  obtain ⟨way', hway', hlater⟩ := List.mem_flatMap.mp hway
  have hfirst := hm c way' hway'
  have hsecond := hk way'.1 way'.2 way hlater
  omega

theorem Keeps.bind_consumes {m : Matcher σ α} {k : α → Matcher σ β} (hm : Keeps m)
    (hk : ∀ a, Consumes (k a)) : Consumes (m >>= k) := by
  intro c way hway
  obtain ⟨way', hway', hlater⟩ := List.mem_flatMap.mp hway
  have hfirst := hm c way' hway'
  have hsecond := hk way'.1 way'.2 way hlater
  omega

theorem consumes_one (p : σ → Bool) : Consumes (one p) := by
  intro ⟨b, l⟩ way hway
  cases l with
  | nil => simp at hway
  | cons x rest =>
    rw [one_cons] at hway
    split at hway
    · simp at hway
      simp [hway]
    · simp at hway

theorem keeps_literal [DecidableEq σ] (xs : List σ) : Keeps (literal xs) := by
  intro c way hway
  rw [literal] at hway
  split at hway
  · simp at hway
    simp [hway]
  · simp at hway

theorem keeps_oneOf {ms : List (Matcher σ α)} (h : ∀ m ∈ ms, Keeps m) : Keeps (oneOf ms) := by
  intro c way hway
  obtain ⟨m, hm, hway⟩ := List.mem_flatMap.mp hway
  exact h m hm c way hway

theorem keeps_lineStart [DecidableEq σ] (newline : σ) : Keeps (lineStart newline) := by
  intro c way hway
  rw [lineStart] at hway
  split at hway
  · simp at hway
    simp [hway]
  · simp at hway

theorem takes_length_le (p : σ → Bool) (b : Option σ) (l : List σ) :
    ∀ way ∈ takes p b l, way.2.rest.length ≤ l.length := by
  induction l generalizing b with
  | nil => simp [takes]
  | cons x rest ih =>
    intro way hway
    rcases List.mem_cons.mp hway with rfl | hway
    · simp
    · split at hway
      · obtain ⟨way', hway', rfl⟩ := List.mem_map.mp hway
        exact (ih (some x) way' hway').trans (by simp)
      · simp at hway

theorem keeps_lazyMany (p : σ → Bool) : Keeps (lazyMany p) :=
  fun c way hway => takes_length_le p c.before c.rest way hway

theorem keeps_many (p : σ → Bool) : Keeps (many p) :=
  fun c way hway => takes_length_le p c.before c.rest way (List.mem_reverse.mp hway)

theorem consumes_lazyPlus (p : σ → Bool) : Consumes (lazyPlus p) :=
  (consumes_one p).bind fun _ => (keeps_lazyMany p).bind fun _ => keeps_pure _

theorem consumes_plus (p : σ → Bool) : Consumes (plus p) :=
  (consumes_one p).bind fun _ => (keeps_many p).bind fun _ => keeps_pure _

theorem Consumes.search_lt {m : Matcher σ α} (hm : Consumes m) {c c' : Cursor σ} {a : α}
    (h : search m c = some (a, c')) : c'.rest.length < c.rest.length := by
  obtain ⟨b, l⟩ := c
  induction l generalizing b with
  | nil => exact hm _ _ (List.mem_of_head? h)
  | cons x rest ih =>
    rcases Option.or_eq_some_iff.mp h with hhere | ⟨-, hlater⟩
    · exact hm _ _ (List.mem_of_head? hhere)
    · exact Nat.lt_succ_of_lt (ih (some x) hlater)

theorem Consumes.finditer_of_some {m : Matcher σ α} (hm : Consumes m) {c c' : Cursor σ} {a : α}
    (h : search m c = some (a, c')) : finditer m c = a :: finditer m c' := by
  rw [finditer, h]
  simp [hm.search_lt h]

/-- Where two searches agree, so do all matches. -/
theorem Consumes.finditer_congr {m : Matcher σ α} (hm : Consumes m) {c d : Cursor σ}
    (h : search m c = search m d) : finditer m c = finditer m d := by
  cases hd : search m d with
  | none => rw [finditer_of_none (h.trans hd), finditer_of_none hd]
  | some way => rw [hm.finditer_of_some (h.trans hd), hm.finditer_of_some hd]

/-! ## Matching in a longer text -/

/-- What the matcher matches in a text, it matches in every longer one, whatever stands before. -/
def Extends (m : Matcher σ α) : Prop :=
  ∀ (b b' : Option σ) (xs rest : List σ), ∀ way ∈ m ⟨b, xs⟩,
    ∃ b'', (way.1, ⟨b'', way.2.rest ++ rest⟩) ∈ m ⟨b', xs ++ rest⟩

theorem extends_pure (a : α) : Extends (pure a : Matcher σ α) := by
  intro b b' xs rest way hway
  rw [pure_apply, List.mem_singleton] at hway
  exact ⟨b', by simp [hway, pure_apply]⟩

theorem Extends.bind {m : Matcher σ α} {k : α → Matcher σ β} (hm : Extends m)
    (hk : ∀ a, Extends (k a)) : Extends (m >>= k) := by
  intro b b' xs rest way hway
  obtain ⟨a, c, hfirst, hsecond⟩ := mem_bind.mp hway
  obtain ⟨b₁, hfirst⟩ := hm b b' xs rest _ hfirst
  obtain ⟨b₂, hsecond⟩ := hk a c.before b₁ c.rest rest way hsecond
  exact ⟨b₂, mem_bind.mpr ⟨a, _, hfirst, hsecond⟩⟩

theorem extends_one (p : σ → Bool) : Extends (one p) := by
  intro b b' xs rest way hway
  obtain ⟨hp, back, hxs, hback⟩ := mem_one.mp hway
  dsimp only at hxs
  exact ⟨some way.1, mem_one.mpr ⟨hp, back ++ rest, by simp [hxs], by rw [hback]⟩⟩

theorem extends_many (p : σ → Bool) : Extends (many p) := by
  intro b b' xs rest way hway
  obtain ⟨hall, hxs⟩ := exists_of_mem_takes (List.mem_reverse.mp hway)
  have hmem := append_mem_takes hall b' (way.2.rest ++ rest)
  dsimp only at hxs
  rw [← List.append_assoc, ← hxs] at hmem
  exact ⟨_, List.mem_reverse.mpr hmem⟩

theorem extends_plus (p : σ → Bool) : Extends (plus p) :=
  (extends_one p).bind fun _ => (extends_many p).bind fun _ => extends_pure _

theorem extends_times (p : σ → Bool) (n : ℕ) : Extends (times p n) := by
  induction n with
  | zero => exact extends_pure []
  | succ n ih => exact (extends_one p).bind fun _ => ih.bind fun _ => extends_pure _

theorem extends_literal [DecidableEq σ] (xs : List σ) : Extends (literal xs) := by
  intro b b' ys rest way hway
  obtain ⟨⟨back, hback⟩, rfl⟩ := mem_literal.mp hway
  dsimp only at hback
  refine ⟨xs.getLast?.or b', mem_literal.mpr ?_⟩
  simp [← hback, Cursor.past]

theorem extends_oneOf {ms : List (Matcher σ α)} (h : ∀ m ∈ ms, Extends m) :
    Extends (oneOf ms) := by
  intro b b' xs rest way hway
  obtain ⟨m, hm, hway⟩ := mem_oneOf.mp hway
  obtain ⟨b'', hlonger⟩ := h m hm b b' xs rest way hway
  exact ⟨b'', mem_oneOf.mpr ⟨m, hm, hlonger⟩⟩

theorem Extends.optional {m : Matcher σ α} (hm : Extends m) : Extends (optional m) := by
  refine extends_oneOf fun m' hm' => ?_
  simp only [List.mem_cons, List.not_mem_nil, or_false] at hm'
  cases hm' with
  | inl h =>
    rw [h]
    exact hm.bind fun _ => extends_pure _
  | inr h =>
    rw [h]
    exact extends_pure _

/-- A search that finds something has a match somewhere. -/
theorem exists_of_search {m : Matcher σ α} {b : Option σ} {xs : List σ}
    (h : search m ⟨b, xs⟩ ≠ none) : ∃ b' front back, xs = front ++ back ∧ m ⟨b', back⟩ ≠ [] := by
  induction xs generalizing b with
  | nil => exact ⟨b, [], [], rfl, fun hnil => h (by simp [search_nil, hnil])⟩
  | cons x rest ih =>
    by_cases hhere : m ⟨b, x :: rest⟩ = []
    · rw [search_of_skip hhere] at h
      obtain ⟨b', front, back, hrest, hmatch⟩ := ih h
      exact ⟨b', x :: front, back, by simp [hrest], hmatch⟩
    · exact ⟨b, [], x :: rest, rfl, hhere⟩

/-- **What is found in a part of a text is found in the text.** -/
theorem Extends.search_ne_none {m : Matcher σ α} (hm : Extends m) {b b' : Option σ}
    {xs ys : List σ} (hsub : xs <:+: ys) (h : search m ⟨b, xs⟩ ≠ none) :
    search m ⟨b', ys⟩ ≠ none := by
  obtain ⟨front, back, rfl⟩ := hsub
  obtain ⟨b₁, front', rest, rfl, hmatch⟩ := exists_of_search h
  obtain ⟨way, hway⟩ := List.exists_mem_of_ne_nil _ hmatch
  have hlonger : ∀ b₂, m ⟨b₂, rest ++ back⟩ ≠ [] := by
    intro b₂
    obtain ⟨b₃, hmem⟩ := hm b₁ b₂ rest back way hway
    exact List.ne_nil_of_mem hmem
  have hsearch := Matcher.search_ne_none hlonger (front ++ front') b'
  simpa [List.append_assoc] using hsearch

/-- Something is among all matches if the search finds something. -/
theorem finditer_ne_nil {m : Matcher σ α} {c : Cursor σ} (h : search m c ≠ none) :
    finditer m c ≠ [] := by
  obtain ⟨way, hway⟩ := Option.ne_none_iff_exists'.mp h
  rw [finditer, hway]
  exact List.cons_ne_nil _ _

end Matcher

end Backtracking
