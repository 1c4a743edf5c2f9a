import Mathlib.Data.List.Infix

/-!
# The patterns of `KEYS`

`KEYS` answers with the stored keys that a glob-style pattern matches.  A pattern is first
read into tokens, so that matching is by recursion on the tokens: `*` stands for any
characters, `?` for one, `[…]` for one of a class, and `\` takes the next character as it
is.  What is not closed by a `]` is a class all the same.

A text without these characters stands for itself, and the lemmas are about patterns made
of such texts and of `*`.

## Main definitions

* `Glob.Token`, `Glob.tokens` — a pattern, read.
* `Glob.Accepts` — whether tokens match a text.
* `globMatches` — whether a pattern matches a key.
* `GlobFree` — a text without special characters.
-/

namespace Redis

namespace Glob

/-- What one piece of a pattern stands for. -/
inductive Token where
  | star
  | any
  | literal (c : Char)
  | oneOf (negated : Bool) (ranges : List (Char × Char))
  deriving DecidableEq, Repr

/-- Read a pattern; the first argument is the class that is open, if one is. -/
def tokens : Option (Bool × List (Char × Char)) → List Char → List Token
  | none, [] => []
  | none, '*' :: cs => .star :: tokens none cs
  | none, '?' :: cs => .any :: tokens none cs
  | none, '[' :: '^' :: cs => tokens (some (true, [])) cs
  | none, '[' :: cs => tokens (some (false, [])) cs
  | none, '\\' :: c :: cs => .literal c :: tokens none cs
  | none, c :: cs => .literal c :: tokens none cs
  | some (negated, ranges), [] => [.oneOf negated ranges]
  | some (negated, ranges), '\\' :: c :: cs => tokens (some (negated, (c, c) :: ranges)) cs
  | some (negated, ranges), ']' :: cs => .oneOf negated ranges :: tokens none cs
  | some (negated, ranges), a :: '-' :: b :: cs =>
    tokens (some (negated, (if a ≤ b then (a, b) else (b, a)) :: ranges)) cs
  | some (negated, ranges), c :: cs => tokens (some (negated, (c, c) :: ranges)) cs

/-- Whether a token that stands for one character stands for this one. -/
def Token.admits : Token → Char → Bool
  | .star, _ => false
  | .any, _ => true
  | .literal c, x => c == x
  | .oneOf negated ranges, x => ranges.any (fun r => r.1 ≤ x && x ≤ r.2) != negated

/-- Whether tokens match a text. -/
def accepts : List Token → List Char → Bool
  | [], text => text.isEmpty
  | .star :: ts, text => text.tails.any (accepts ts)
  | t :: ts, text =>
    match text with
    | [] => false
    | x :: xs => t.admits x && accepts ts xs

/-- The characters that a pattern gives a meaning to. -/
def special : List Char := ['*', '?', '[', '\\']

theorem tokens_cons {c : Char} (hc : c ∉ special) (cs : List Char) :
    tokens none (c :: cs) = .literal c :: tokens none cs := by
  simp only [special, List.mem_cons, List.not_mem_nil, or_false, not_or] at hc
  obtain ⟨hstar, hany, hclass, hescape⟩ := hc
  rw [tokens.eq_def]
  split <;> simp_all

/-- A text without special characters is read character by character. -/
theorem tokens_append {text : List Char} (h : ∀ c ∈ text, c ∉ special) (cs : List Char) :
    tokens none (text ++ cs) = text.map .literal ++ tokens none cs := by
  induction text with
  | nil => rfl
  | cons c text ih =>
    rw [List.cons_append, tokens_cons (h c List.mem_cons_self),
      ih fun x hx => h x (List.mem_cons_of_mem _ hx)]
    rfl

theorem accepts_star {ts : List Token} {text : List Char} :
    accepts (.star :: ts) text = true ↔ ∃ front rest, text = front ++ rest ∧ accepts ts rest := by
  simp only [accepts, List.any_eq_true, List.mem_tails]
  constructor
  · rintro ⟨rest, ⟨front, rfl⟩, hrest⟩
    exact ⟨front, rest, rfl, hrest⟩
  · rintro ⟨front, rest, rfl, hrest⟩
    exact ⟨rest, List.suffix_append _ _, hrest⟩

/-- A star at the end takes everything. -/
@[simp] theorem accepts_star_nil (text : List Char) : accepts [.star] text = true :=
  accepts_star.mpr ⟨text, [], by simp, rfl⟩

theorem accepts_literals {lits : List Char} {ts : List Token} {text : List Char} :
    accepts (lits.map .literal ++ ts) text = true ↔
      ∃ rest, text = lits ++ rest ∧ accepts ts rest := by
  induction lits generalizing text with
  | nil => simp
  | cons c lits ih =>
    cases text with
    | nil => simp [accepts]
    | cons x xs =>
      simp only [List.map_cons, List.cons_append, accepts, Token.admits, Bool.and_eq_true,
        beq_iff_eq, ih, List.cons.injEq]
      constructor
      · rintro ⟨rfl, rest, rfl, hrest⟩
        exact ⟨rest, ⟨rfl, rfl⟩, hrest⟩
      · rintro ⟨rest, ⟨rfl, rfl⟩, hrest⟩
        exact ⟨rfl, rest, rfl, hrest⟩

end Glob

/-- Whether `KEYS pattern` answers with a stored key. -/
def globMatches (pattern key : String) : Bool :=
  Glob.accepts (Glob.tokens none pattern.toList) key.toList

/-- A text that a pattern takes as it is. -/
def GlobFree (text : String) : Prop := ∀ c ∈ text.toList, c ∉ Glob.special

instance (text : String) : Decidable (GlobFree text) :=
  List.decidableBAll (· ∉ Glob.special) text.toList

theorem GlobFree.append {a b : String} (ha : GlobFree a) (hb : GlobFree b) :
    GlobFree (a ++ b) := by
  intro c hc
  rw [String.toList_append, List.mem_append] at hc
  exact hc.elim (ha c) (hb c)

/-- A text and a star match what the text begins. -/
theorem globMatches_front {front key : String} (h : GlobFree front) :
    globMatches (front ++ "*") key = true ↔ ∃ rest, key.toList = front.toList ++ rest := by
  have hread : Glob.tokens none (front ++ "*").toList
      = front.toList.map .literal ++ [.star] := by
    rw [String.toList_append, Glob.tokens_append h]
    rfl
  rw [globMatches, hread, Glob.accepts_literals]
  simp

/-- Two texts, each with a star behind it, match what begins with the one and has the other
somewhere after it. -/
theorem globMatches_between {front middle key : String} (hfront : GlobFree front)
    (hmiddle : GlobFree middle) :
    globMatches (front ++ "*" ++ middle ++ "*") key = true ↔
      ∃ between rest, key.toList = front.toList ++ (between ++ (middle.toList ++ rest)) := by
  have hread : Glob.tokens none (front ++ "*" ++ middle ++ "*").toList
      = front.toList.map .literal ++ (.star :: (middle.toList.map .literal ++ [.star])) := by
    rw [String.toList_append, String.toList_append, String.toList_append, List.append_assoc,
      List.append_assoc, Glob.tokens_append hfront]
    congr 1
    change Glob.tokens none ('*' :: (middle.toList ++ "*".toList)) = _
    rw [Glob.tokens, Glob.tokens_append hmiddle]
    rfl
  rw [globMatches, hread, Glob.accepts_literals]
  constructor
  · rintro ⟨_, hkey, haccepts⟩
    obtain ⟨between, _, rfl, hmiddle⟩ := Glob.accepts_star.mp haccepts
    obtain ⟨rest, rfl, -⟩ := Glob.accepts_literals.mp hmiddle
    exact ⟨between, rest, hkey⟩
  · rintro ⟨between, rest, hkey⟩
    refine ⟨_, hkey, Glob.accepts_star.mpr ⟨between, _, rfl, ?_⟩⟩
    exact Glob.accepts_literals.mpr ⟨rest, rfl, Glob.accepts_star_nil _⟩

example : globMatches "a[b-d]?*" "acx" = true := by decide

end Redis
