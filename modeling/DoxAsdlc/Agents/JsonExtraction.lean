import DoxAsdlc.Swarm.ResponseReadings
import DoxAsdlc.Text.JsonPrefix

/-!
# JSON in the answers of models

The agents read a JSON value in what a model answers: of the whole answer, or else of the first
fence for JSON, or else of the first fence, or else from the first brace to the last one.  Only
what is no JSON text leads on to the next attempt.  Four agents have a copy of the function.

## Main definitions

* `JsonExtraction.fenced?` — what a fence holds.
* `parseJsonFromResponse` — the function.

## Main results

* `JsonExtraction.parse_eq_iff` — when an object that is in an answer is what is read.
-/

namespace DoxAsdlc.Agents

open Backtracking Matcher JsonText Swarm.ResponseParser

/-- The limits of `json.loads`: the digits of an integer, and how deep a text is nested. -/
structure LoadsLimits where
  maxDigits : ℕ
  depth : ℕ

namespace JsonExtraction

/-! ## The function -/

/-- A fence with a label, and what it holds. -/
def fencePattern (label : List Char) : Matcher Char (List Char) := do
  let _ ← literal ("```".toList ++ label)
  let _ ← many isSpace
  let _ ← oneOf [literal ['\n'], pure []]
  let content ← lazyMany fun _ => true
  let _ ← oneOf [literal ['\n'], pure []]
  let _ ← literal "```".toList
  pure content

/-- What the first fence with a label holds. -/
def fenced? (label text : List Char) : Option (List Char) :=
  (search (fencePattern label) ⟨none, text⟩).map fun found => strip found.1

variable (limits : LoadsLimits)

/-- The value of a text, or what comes next where it is no JSON text. -/
def loadsOr (text : List Char) (next : Except Fault (Option Value)) :
    Except Fault (Option Value) :=
  match loads limits.maxDigits limits.depth text with
  | .ok value => .ok (some value)
  | .error .decodeError => next
  | .error fault => .error fault

/-- The labels of the fences, in the order in which they are tried. -/
def labels : List (List Char) := ["json".toList, []]

/-- The value that a fence holds, or what comes next. -/
def fencedOr (text : List Char) (next : Except Fault (Option Value)) :
    List (List Char) → Except Fault (Option Value)
  | [] => next
  | label :: labels =>
    match fenced? label text with
    | some content => loadsOr limits content (fencedOr text next labels)
    | none => fencedOr text next labels

/-- The value between the outermost braces. -/
def betweenBraces (text : List Char) : Except Fault (Option Value) :=
  match outermost '\x7b' '\x7d' text with
  | some part => loadsOr limits part (.ok none)
  | none => .ok none

end JsonExtraction

open JsonExtraction

/-- `parse_json_from_response` of the ideation agents. -/
def parseJsonFromResponse (limits : LoadsLimits) (response : List Char) :
    Except Fault (Option Value) :=
  loadsOr limits response (fencedOr limits response (betweenBraces limits response) labels)

/-- `UTestAgent._parse_json_from_response`. -/
abbrev UTestAgent.parseJsonFromResponse := Agents.parseJsonFromResponse

/-- `AcceptanceAgent._parse_json_from_response`. -/
abbrev AcceptanceAgent.parseJsonFromResponse := Agents.parseJsonFromResponse

/-- `SecurityAgent._parse_json_from_response`. -/
abbrev SecurityAgent.parseJsonFromResponse := Agents.parseJsonFromResponse

namespace JsonExtraction

/-! ## What a fence holds -/

variable {label text : List Char} {limits : LoadsLimits}

/-- A newline, or nothing. -/
def MaybeNewline (l : List Char) : Prop := l = ['\n'] ∨ l = []

theorem rest_of_mem_newline {way : List Char × Cursor Char} {c : Cursor Char}
    (h : way ∈ oneOf [literal ['\n'], pure []] c) :
    ∃ l, MaybeNewline l ∧ c.rest = l ++ way.2.rest := by
  simp only [mem_oneOf, List.mem_cons, List.not_mem_nil, or_false, exists_eq_or_imp,
    exists_eq_left, mem_literal, pure_apply] at h
  obtain ⟨⟨t, ht⟩, rfl⟩ | rfl := h
  · exact ⟨['\n'], .inl rfl, by simp [← ht]⟩
  · exact ⟨[], .inr rfl, rfl⟩

theorem rest_of_mem_literal {xs : List Char} {way : List Char × Cursor Char} {c : Cursor Char}
    (h : way ∈ literal xs c) : c.rest = xs ++ way.2.rest := by
  obtain ⟨⟨t, ht⟩, rfl⟩ := mem_literal.mp h
  simp [← ht]

/-- A fence, and what it holds. -/
theorem exists_of_mem_fence {way : List Char × Cursor Char} {b : Option Char}
    (h : way ∈ fencePattern label ⟨b, text⟩) : ∃ space newline newline' rest,
      (∀ c ∈ space, isSpace c = true) ∧ MaybeNewline newline ∧ MaybeNewline newline' ∧
      text = "```".toList ++ label ++ space ++ newline ++ way.1 ++ newline' ++ "```".toList ++
        rest := by
  obtain ⟨_, c₁, h₁, h⟩ := mem_bind.mp h
  obtain ⟨space, c₂, h₂, h⟩ := mem_bind.mp h
  obtain ⟨_, c₃, h₃, h⟩ := mem_bind.mp h
  obtain ⟨content, c₄, h₄, h⟩ := mem_bind.mp h
  obtain ⟨_, c₅, h₅, h⟩ := mem_bind.mp h
  obtain ⟨_, c₆, h₆, h⟩ := mem_bind.mp h
  obtain rfl : way = (content, c₆) := by simpa [pure_apply] using h
  obtain ⟨hspace, hrest⟩ := exists_of_mem_takes (List.mem_reverse.mp h₂)
  obtain ⟨newline, hnewline, hrest₃⟩ := rest_of_mem_newline h₃
  obtain ⟨-, hrest₄⟩ := exists_of_mem_takes h₄
  obtain ⟨newline', hnewline', hrest₅⟩ := rest_of_mem_newline h₅
  have hrest₁ : text = "```".toList ++ label ++ c₁.rest := rest_of_mem_literal h₁
  have hrest₆ : c₅.rest = "```".toList ++ c₆.rest := rest_of_mem_literal h₆
  refine ⟨space, newline, newline', c₆.rest, hspace, hnewline, hnewline', ?_⟩
  rw [hrest₁, hrest, hrest₃, hrest₄, hrest₅, hrest₆]
  simp only [List.append_assoc]

/-- A text that is a fence from its begin is found as one. -/
theorem fence_ne_nil (label body rest : List Char) (b : Option Char) :
    fencePattern label ⟨b, "```".toList ++ label ++ body ++ "```".toList ++ rest⟩ ≠ [] := by
  have htext : "```".toList ++ label ++ body ++ "```".toList ++ rest =
      ("```".toList ++ label) ++ (body ++ ("```".toList ++ rest)) := by simp
  rw [htext, fencePattern, literal_bind]
  refine bind_ne_nil (List.mem_reverse.mpr (nil_mem_takes _ _ _)) ?_
  refine bind_ne_nil (mem_oneOf.mpr ⟨pure [], by simp, List.mem_singleton_self _⟩) ?_
  refine bind_ne_nil (append_mem_takes (fun _ _ => rfl) _ _) ?_
  refine bind_ne_nil (mem_oneOf.mpr ⟨pure [], by simp, List.mem_singleton_self _⟩) ?_
  rw [Cursor.past, literal_bind]
  simp [pure_apply]

/-- What the fence at the begin of a text holds. -/
theorem exists_fenced (label body rest : List Char) : ∃ space newline content newline' rest',
    fenced? label ("```".toList ++ label ++ body ++ "```".toList ++ rest) = some (strip content) ∧
      (∀ c ∈ space, isSpace c = true) ∧ MaybeNewline newline ∧ MaybeNewline newline' ∧
      body ++ "```".toList ++ rest =
        space ++ newline ++ content ++ newline' ++ "```".toList ++ rest' := by
  obtain ⟨way, hhead⟩ : ∃ way, (fencePattern label
      ⟨none, "```".toList ++ label ++ body ++ "```".toList ++ rest⟩).head? = some way :=
    ⟨_, List.head?_eq_some_head (fence_ne_nil label body rest none)⟩
  obtain ⟨space, newline, newline', rest', hspace, hnewline, hnewline', htext⟩ :=
    exists_of_mem_fence (List.mem_of_mem_head? hhead)
  refine ⟨space, newline, way.1, newline', rest', ?_, hspace, hnewline, hnewline', ?_⟩
  · rw [fenced?, search_of_match hhead]
    rfl
  · simp only [List.append_assoc, List.append_cancel_left_eq] at htext ⊢
    exact htext

/-! ## Cutting -/

/-- All characters are white space. -/
def Spaces (l : List Char) : Prop := ∀ c ∈ l, isSpace c = true

theorem inNumber_of_isSpace {c : Char} (h : isSpace c = true) : inNumber c = false := by
  by_contra hin
  rw [Bool.not_eq_false, inNumber, Bool.or_eq_true, decide_eq_true_eq] at hin
  cases hin with
  | inl hdigit =>
    rw [isDigit, decide_eq_true_eq, Char.le_def, Char.le_def, UInt32.le_iff_toNat_le,
      UInt32.le_iff_toNat_le] at hdigit
    have hlow : 48 ≤ c.toNat := hdigit.1
    have hhigh : c.toNat ≤ 57 := hdigit.2
    simp [isSpace] at h
    omega
  | inr hmem =>
    simp only [List.mem_cons, List.not_mem_nil, or_false] at hmem
    obtain rfl | rfl | rfl | rfl | rfl := hmem <;> simp [isSpace] at h

theorem isSpace_of_blank {l : List Char} (h : Blank l) : Spaces l := by
  intro c hc
  have hmem := blank_iff.mp h c hc
  simp only [List.mem_cons, List.not_mem_nil, or_false] at hmem
  obtain rfl | rfl | rfl | rfl := hmem <;> decide

/-- What is stripped of a text between others that begins and ends with no white space. -/
theorem strip_eq {p m q : List Char} {c d : Char} (hp : Spaces p) (hq : Spaces q)
    (hhead : m.head? = some c) (hc : isSpace c = false) (hlast : m.getLast? = some d)
    (hd : isSpace d = false) : strip (p ++ m ++ q) = m := by
  have hfirst : p.dropWhile isSpace = [] := List.dropWhile_eq_nil_iff.mpr hp
  have hbehind : q.reverse.dropWhile isSpace = [] :=
    List.dropWhile_eq_nil_iff.mpr fun c hc => hq c (List.mem_reverse.mp hc)
  rw [strip, trim_append hhead hc hlast hd, hfirst, hbehind]
  simp

/-- The part between the outermost braces. -/
theorem outermost_eq {p u q : List Char} (hp : '\x7b' ∉ p) (hq : '\x7d' ∉ q) :
    outermost '\x7b' '\x7d' (p ++ '\x7b' :: (u ++ '\x7d' :: q)) =
      some ('\x7b' :: (u ++ ['\x7d'])) := by
  have hfirst : p.dropWhile (· ≠ '\x7b') = [] := by
    rw [List.dropWhile_eq_nil_iff]
    intro c hc
    simpa using fun heq : c = '\x7b' => hp (heq ▸ hc)
  have hlast : q.reverse.dropWhile (· ≠ '\x7d') = [] := by
    rw [List.dropWhile_eq_nil_iff]
    intro c hc
    simpa using fun heq : c = '\x7d' => hq (heq ▸ List.mem_reverse.mp hc)
  have hend : ('\x7b' :: (u ++ ['\x7d'])).getLast? = some '\x7d' := by
    rw [← List.cons_append, List.getLast?_concat]
  have hpart := trim_append (p := (· ≠ '\x7b')) (q := (· ≠ '\x7d')) rfl (by decide) hend
    (by decide) p q
  have hwhole : p ++ '\x7b' :: (u ++ '\x7d' :: q) = p ++ '\x7b' :: (u ++ ['\x7d']) ++ q := by simp
  rw [outermost, hwhole, hpart, hfirst, hlast]
  simp

/-- White space in front of a text that begins with none is the begin of any text that it is left
out of. -/
theorem dropWhile_spaces {p l : List Char} (hp : Spaces p) :
    (p ++ l).dropWhile isSpace = l.dropWhile isSpace := by
  rw [List.dropWhile_append, if_pos]
  simp [List.dropWhile_eq_nil_iff.mpr hp]

theorem MaybeNewline.spaces {l : List Char} (h : MaybeNewline l) : Spaces l := by
  obtain rfl | rfl := h <;> simp [Spaces, isSpace]

variable {d : List (Option String × Value)}

/-- What a fence around an object holds is the object, or what is cut off from it. -/
theorem loads_of_fence {p u q space newline content newline' rest : List Char}
    (hp : Spaces p) (hq : Spaces q) (hspace : Spaces space) (hnewline : MaybeNewline newline)
    (hnewline' : MaybeNewline newline')
    (hread : loads limits.maxDigits limits.depth ('\x7b' :: (u ++ ['\x7d'])) = .ok (.obj d))
    (h : p ++ '\x7b' :: (u ++ ['\x7d']) ++ q ++ "```".toList =
      space ++ newline ++ content ++ newline' ++ "```".toList ++ rest) :
    loads limits.maxDigits limits.depth (strip content) = .ok (.obj d) ∨
      loads limits.maxDigits limits.depth (strip content) = .error .decodeError := by
  set core := '\x7b' :: (u ++ ['\x7d']) with hcore
  have hlast : core.getLast? = some '\x7d' := by
    rw [hcore, ← List.cons_append, List.getLast?_concat]
  -- the white space in front is left out on both sides
  have hleft : core ++ (q ++ "```".toList) =
      content.dropWhile isSpace ++ (newline' ++ "```".toList ++ rest) := by
    have hsame := congrArg (List.dropWhile isSpace) h
    have hfront : Spaces (space ++ newline) := by
      intro c hc
      exact (List.mem_append.mp hc).elim (hspace c) (hnewline.spaces c)
    simp only [List.append_assoc] at hsame
    have hcons : (core ++ (q ++ "```".toList)).dropWhile isSpace = core ++ (q ++ "```".toList) :=
      List.dropWhile_cons_of_neg (by decide)
    rw [dropWhile_spaces hp, hcons, ← List.append_assoc space, dropWhile_spaces hfront,
      List.dropWhile_append] at hsame
    split_ifs at hsame
    · rw [dropWhile_spaces hnewline'.spaces] at hsame
      exact absurd (List.cons_eq_cons.mp hsame).1 (by decide)
    · rw [hsame, List.append_assoc]
  have hcontent := (List.takeWhile_append_dropWhile (p := isSpace) (l := content)).symm
  have hfront : Spaces (content.takeWhile isSpace) := fun c hc => List.mem_takeWhile_imp hc
  have hwhole {a : List Char} (ha : content.dropWhile isSpace = core ++ a) (hspaces : Spaces a) :
      loads limits.maxDigits limits.depth (strip content) = .ok (.obj d) := by
    rw [hcontent, ha, ← List.append_assoc,
      strip_eq hfront hspaces rfl (by decide) hlast (by decide)]
    exact hread
  obtain ⟨a, ha, hend⟩ | ⟨c, hc, hend⟩ := List.append_eq_append_iff.mp hleft
  · refine .inl (hwhole ha fun x hx => ?_)
    have hlength := congrArg List.length hend
    have hstart : a <+: q ++ "```".toList := ⟨_, hend.symm⟩
    have hpre : a <+: q := List.prefix_of_prefix_length_le hstart (List.prefix_append ..) (by
      simp at hlength
      omega)
    exact hq x (hpre.subset hx)
  · cases hnil : c with
    | nil => exact .inl (hwhole (a := []) (by simp [hc, hnil]) (by simp [Spaces]))
    | cons x c' =>
      obtain ⟨z, hz, hstrip⟩ :
          ∃ z, Spaces z ∧ content.dropWhile isSpace = strip content ++ z := by
        refine ⟨((content.dropWhile isSpace).reverse.takeWhile isSpace).reverse, ?_, ?_⟩
        · intro y hy
          exact List.mem_takeWhile_imp (List.mem_reverse.mp hy)
        · rw [strip, ← List.reverse_append, List.takeWhile_append_dropWhile, List.reverse_reverse]
      rw [hc, hstrip, List.append_assoc] at hread
      refine .inr (loads_of_cut hread ?_ ?_)
      · -- what was cut off begins with white space or with the end of the fence
        intro y hy
        cases z with
        | nil =>
          obtain rfl : x = y := by simpa [hnil] using hy
          rw [hnil] at hend
          obtain rfl | rfl := hnewline'
          · obtain rfl : '\n' = x := (List.cons_eq_cons.mp hend).1
            decide
          · obtain rfl : '\x60' = x := (List.cons_eq_cons.mp hend).1
            decide
        | cons x' z' =>
          obtain rfl : x' = y := by simpa using hy
          exact inNumber_of_isSpace (hz _ List.mem_cons_self)
      · -- and ends with the brace of the object
        intro hblank
        have hclast : c.getLast? = some '\x7d' := by
          rw [hc, List.getLast?_append_of_ne_nil _ (by simp [hnil])] at hlast
          exact hlast
        have hmem := List.mem_append_right z (List.mem_of_getLast? hclast)
        exact absurd (blank_iff.mp hblank _ hmem) (by decide)

/-! ## What is read -/

variable {w w' p q s : List Char} {value : Value}

/-- A text in a fence for JSON. -/
def inFence (w s w' : List Char) : List Char :=
  "```".toList ++ "json".toList ++ (w ++ s ++ w') ++ "```".toList

theorem foreign_backquote : Foreign '\x60' := ⟨by decide, by decide, by decide⟩

theorem foreign_label : Foreign 'j' := ⟨by decide, by decide, by decide⟩

theorem loads_inFence : loads limits.maxDigits limits.depth (inFence w s w') =
    .error .decodeError :=
  loads_of_foreign foreign_backquote _

theorem strip_label (t : List Char) : ∃ t', strip ('j' :: t) = 'j' :: t' := by
  have hcons : ('j' :: t).dropWhile isSpace = 'j' :: t := List.dropWhile_cons_of_neg (by decide)
  rw [strip, hcons, List.reverse_cons, List.dropWhile_append]
  split_ifs
  · exact ⟨[], rfl⟩
  · exact ⟨_, List.reverse_append⟩

/-- What the first fence without a label holds begins with the label of the fence. -/
theorem fenced_inFence : ∃ content, fenced? [] (inFence w s w') = some content ∧
    loads limits.maxDigits limits.depth content = .error .decodeError := by
  obtain ⟨space, newline, content, newline', rest, hfound, hspace, hnewline, hnewline', h⟩ :=
    exists_fenced [] ("json".toList ++ (w ++ s ++ w')) []
  have htext : inFence w s w' =
      "```".toList ++ [] ++ ("json".toList ++ (w ++ s ++ w')) ++ "```".toList ++ [] := by
    simp only [inFence, List.append_assoc, List.append_nil]
  refine ⟨strip content, htext ▸ hfound, ?_⟩
  have hfront : Spaces (space ++ newline) := by
    intro c hc
    exact (List.mem_append.mp hc).elim (hspace c) (hnewline.spaces c)
  have hsame : some 'j' =
      (space ++ newline ++ content ++ newline' ++ "```".toList ++ rest).head? :=
    congrArg List.head? h
  cases hnil : space ++ newline with
  | cons c t =>
    rw [hnil] at hsame
    obtain rfl : 'j' = c := Option.some.inj hsame
    exact absurd (hfront 'j' (by simp [hnil])) (by decide)
  | nil =>
    rw [hnil] at hsame
    cases content with
    | nil =>
      obtain rfl | rfl := hnewline'
      · exact absurd (Option.some.inj hsame) (by decide)
      · exact absurd (Option.some.inj hsame) (by decide)
    | cons c t =>
      obtain rfl : 'j' = c := Option.some.inj hsame
      obtain ⟨t', ht'⟩ := strip_label t
      rw [ht']
      exact loads_of_foreign foreign_label t'

/-- An object in a fence for JSON is what is read. -/
theorem parse_inFence (hs : loads limits.maxDigits limits.depth s = .ok (.obj d)) (hw : Spaces w)
    (hw' : Spaces w') :
    parseJsonFromResponse limits (inFence w s w') = .ok (some (.obj d)) := by
  obtain ⟨p, u, q, rfl, hp, hq, hread⟩ := exists_braces hs
  have hpart {l : List Char} (hl : Spaces l) : ∀ c ∈ l, c ≠ '\x7b' ∧ c ≠ '\x7d' := by
    intro c hc
    have hspace := hl c hc
    constructor
    · rintro rfl
      exact absurd hspace (by decide)
    · rintro rfl
      exact absurd hspace (by decide)
  obtain ⟨space, newline, content, newline', rest, hfound, hspace, hnewline, hnewline', h⟩ :=
    exists_fenced "json".toList (w ++ (p ++ '\x7b' :: (u ++ '\x7d' :: q)) ++ w') []
  have hlabelled := loads_of_fence (p := w ++ p) (u := u) (q := q ++ w')
    (fun c hc => (List.mem_append.mp hc).elim (hw c) (isSpace_of_blank hp c))
    (fun c hc => (List.mem_append.mp hc).elim (isSpace_of_blank hq c) (hw' c))
    hspace hnewline hnewline' hread
    (by
      rw [← h]
      simp only [List.append_assoc, List.cons_append, List.append_nil, List.nil_append])
  obtain ⟨plain, hplain, hnone⟩ :
      ∃ content, fenced? [] (inFence w (p ++ '\x7b' :: (u ++ '\x7d' :: q)) w') = some content ∧
        loads limits.maxDigits limits.depth content = .error .decodeError := fenced_inFence
  have hbraces : betweenBraces limits (inFence w (p ++ '\x7b' :: (u ++ '\x7d' :: q)) w') =
      .ok (some (.obj d)) := by
    have hsplit : inFence w (p ++ '\x7b' :: (u ++ '\x7d' :: q)) w' =
        ("```".toList ++ "json".toList ++ w ++ p) ++
          '\x7b' :: (u ++ '\x7d' :: (q ++ w' ++ "```".toList)) := by
      simp only [inFence, List.append_assoc, List.cons_append]
    have hopening : '\x7b' ∉ "```".toList ++ "json".toList ++ w ++ p := by
      intro hmem
      obtain (hmem | hmem) | hmem := (List.mem_append.mp hmem).imp_left List.mem_append.mp
      · exact absurd hmem (by decide)
      · exact (hpart hw _ hmem).1 rfl
      · exact (hpart (isSpace_of_blank hp) _ hmem).1 rfl
    have hclosing : '\x7d' ∉ q ++ w' ++ "```".toList := by
      intro hmem
      obtain (hmem | hmem) | hmem := (List.mem_append.mp hmem).imp_left List.mem_append.mp
      · exact (hpart (isSpace_of_blank hq) _ hmem).2 rfl
      · exact (hpart hw' _ hmem).2 rfl
      · exact absurd hmem (by decide)
    rw [betweenBraces, hsplit, outermost_eq hopening hclosing]
    simp only [loadsOr, hread]
  have hfirst : fenced? "json".toList (inFence w (p ++ '\x7b' :: (u ++ '\x7d' :: q)) w') =
      some (strip content) := by
    rw [List.append_nil] at hfound
    exact hfound
  rw [parseJsonFromResponse, loadsOr, loads_inFence]
  simp only [labels, fencedOr, hfirst, hplain, loadsOr, hnone, hbraces]
  cases hlabelled with
  | inl hobject => simp only [hobject]
  | inr hnot => simp only [hnot]

/-- The fences that are tried hold a value or no JSON text. -/
def Unmisled (limits : LoadsLimits) (text : List Char) (value : Value) : List (List Char) → Prop
  | [] => True
  | label :: labels =>
    match fenced? label text with
    | some content =>
      loads limits.maxDigits limits.depth content = .ok value ∨
        loads limits.maxDigits limits.depth content = .error .decodeError ∧
          Unmisled limits text value labels
    | none => Unmisled limits text value labels

theorem loadsOr_eq_iff {next : Except Fault (Option Value)} :
    loadsOr limits text next = .ok (some value) ↔
      loads limits.maxDigits limits.depth text = .ok value ∨
        loads limits.maxDigits limits.depth text = .error .decodeError ∧
          next = .ok (some value) := by
  rw [loadsOr]
  cases loads limits.maxDigits limits.depth text with
  | ok a => simp
  | error fault => cases fault <;> simp

theorem fencedOr_eq_iff (labels : List (List Char)) :
    fencedOr limits text (.ok (some value)) labels = .ok (some value) ↔
      Unmisled limits text value labels := by
  induction labels with
  | nil => simp [fencedOr, Unmisled]
  | cons label labels ih =>
    rw [fencedOr, Unmisled]
    cases fenced? label text with
    | none => exact ih
    | some content => exact loadsOr_eq_iff.trans (by rw [ih])

/-- When an object among other words is what is read. -/
theorem parse_amid_iff (hs : loads limits.maxDigits limits.depth s = .ok (.obj d))
    (hp : '\x7b' ∉ p) (hq : '\x7d' ∉ q) :
    parseJsonFromResponse limits (p ++ s ++ q) = .ok (some (.obj d)) ↔
      Blank p ∧ Blank q ∨
        loads limits.maxDigits limits.depth (p ++ s ++ q) = .error .decodeError ∧
          Unmisled limits (p ++ s ++ q) (.obj d) labels := by
  have hbraces : betweenBraces limits (p ++ s ++ q) = .ok (some (.obj d)) := by
    obtain ⟨p', u, q', rfl, hp', hq', hread⟩ := exists_braces hs
    have hopening : '\x7b' ∉ p ++ p' := by
      intro hmem
      refine (List.mem_append.mp hmem).elim hp fun hmem => ?_
      exact absurd (isSpace_of_blank hp' _ hmem) (by decide)
    have hclosing : '\x7d' ∉ q' ++ q := by
      intro hmem
      refine (List.mem_append.mp hmem).elim (fun hmem => ?_) hq
      exact absurd (isSpace_of_blank hq' _ hmem) (by decide)
    have hsplit : p ++ (p' ++ '\x7b' :: (u ++ '\x7d' :: q')) ++ q =
        p ++ p' ++ '\x7b' :: (u ++ '\x7d' :: (q' ++ q)) := by
      simp only [List.append_assoc, List.cons_append]
    rw [betweenBraces, hsplit, outermost_eq hopening hclosing]
    simp only [loadsOr, hread]
  rw [parseJsonFromResponse, loadsOr_eq_iff, hbraces, fencedOr_eq_iff]
  refine or_congr_left ⟨blank_of_loads hs hp, fun h => ?_⟩
  exact loads_of_blank hs h.1 h.2

/-- The functions of the agents. -/
def extractors : List (LoadsLimits → List Char → Except Fault (Option Value)) :=
  [Agents.parseJsonFromResponse, UTestAgent.parseJsonFromResponse,
    AcceptanceAgent.parseJsonFromResponse, SecurityAgent.parseJsonFromResponse]

/-- **When an object in an answer is what is read**: always where the answer is the object, or a
fence for JSON with it.  Among other words the whole answer must be no JSON text, and so must be
what each of the first fences holds, unless that is the object. -/
theorem parse_eq_iff {parse : LoadsLimits → List Char → Except Fault (Option Value)}
    (hparse : parse ∈ extractors) (hs : loads limits.maxDigits limits.depth s = .ok (.obj d)) :
    parse limits s = .ok (some (.obj d)) ∧
      (∀ w w', Spaces w → Spaces w' → parse limits (inFence w s w') = .ok (some (.obj d))) ∧
      ∀ p q, '\x7b' ∉ p → '\x7d' ∉ q →
        (parse limits (p ++ s ++ q) = .ok (some (.obj d)) ↔
          Blank p ∧ Blank q ∨
            loads limits.maxDigits limits.depth (p ++ s ++ q) = .error .decodeError ∧
              Unmisled limits (p ++ s ++ q) (.obj d) labels) := by
  obtain rfl : parse = parseJsonFromResponse := by simpa [extractors] using hparse
  refine ⟨?_, fun w w' => parse_inFence hs, fun p q => parse_amid_iff hs⟩
  rw [parseJsonFromResponse, loadsOr, hs]

/-- The limits of the interpreter. -/
def exampleLimits : LoadsLimits := ⟨4300, 1000⟩

theorem parse_eq_object :
    parseJsonFromResponse exampleLimits "Result: \x7b\x7d Done.".toList = .ok (some (.obj [])) :=
  have hs : loads exampleLimits.maxDigits exampleLimits.depth "\x7b\x7d".toList =
      .ok (.obj []) := by
    decide +kernel
  ((parse_eq_iff List.mem_cons_self hs).2.2 "Result: ".toList " Done.".toList (by decide)
    (by decide)).mpr (.inr ⟨by decide +kernel, (fencedOr_eq_iff labels).mp (by decide +kernel)⟩)

/-- The object has a text with a fence, and what is read is what that fence holds. -/
theorem misled_by_fence :
    loads exampleLimits.maxDigits exampleLimits.depth
        "\x7b\"doc\": \"```json \x7b\x7d ```\"\x7d".toList =
      .ok (.obj [(some "doc", .str (some "```json \x7b\x7d ```"))]) ∧
    parseJsonFromResponse exampleLimits
        ("Result: ".toList ++ "\x7b\"doc\": \"```json \x7b\x7d ```\"\x7d".toList) =
      .ok (some (.obj [])) := by
  decide +kernel

end JsonExtraction

end DoxAsdlc.Agents
