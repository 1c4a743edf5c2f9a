import DoxAsdlc.Text.JsonText
import Mathlib.Data.List.DropRight

/-!
# JSON texts that go on

What is read from the begin of a text is read from it too when the text goes on, unless it ends in
a number that goes on.  So a text that goes on behind a value is no JSON text, and neither is what
is cut off from one.

## Main definitions

* `Stops` — a text does not go on with a part of a number.
* `Local` — a parser reads the same when the text goes on.

## Main results

* `local_value` — the parser of values is local.
* `loads_append_blank` — blanks around an object.
* `loads_of_proper` — a part that is cut off is no JSON text.
-/

namespace JsonText

variable {A : Type} {maxDigits depth : ℕ} {l r : List Char}

/-- A part of a number. -/
def inNumber (c : Char) : Bool := isDigit c || c ∈ ['.', 'e', 'E', '+', '-']

/-- A text does not begin with a part of a number. -/
def Stops (r : List Char) : Prop := ∀ c ∈ r.head?, inNumber c = false

/-- A text is put behind what is left. -/
def extend (r : List Char) (x : Parsed A) : Parsed A := x.map fun (a, rest) => (a, rest ++ r)

/-- A parser reads the same when the text goes on. -/
structure Local (p : List Char → Parsed A) : Prop where
  nil : p [] = .error .decodeError
  ok {l r rest : List Char} {a : A} (h : p l = .ok (a, rest)) (hr : Stops (rest ++ r)) :
    p (l ++ r) = .ok (a, rest ++ r)
  error {l r : List Char} {fault : Fault} (h : p l = .error fault) (hne : fault ≠ .decodeError)
    (hr : Stops r) : p (l ++ r) = .error fault

/-! ## Numbers -/

theorem Stops.head_not_digit (hr : Stops r) : ∀ c ∈ r.head?, isDigit c = false := by
  intro c hc
  have hnot := hr c hc
  simp only [inNumber, Bool.or_eq_false_iff] at hnot
  exact hnot.1

theorem span_append {p : Char → Bool} (hr : ∀ c ∈ r.head?, p c = false) :
    (l ++ r).span p = ((l.span p).1, (l.span p).2 ++ r) := by
  simp only [List.span_eq_takeWhile_dropWhile]
  induction l with
  | nil => cases r <;> simp_all
  | cons c l ih => by_cases hc : p c <;> simp_all

theorem intDigits_append (hr : Stops r) :
    intDigits (l ++ r) = (intDigits l).map fun x => (x.1, x.2 ++ r) := by
  match l with
  | [] =>
    match r with
    | [] => rfl
    | c :: r =>
      have hc : isDigit c = false := hr.head_not_digit c rfl
      have hzero : c ≠ '0' := by
        rintro rfl
        simp [isDigit] at hc
      simp [intDigits, hc]
  | c :: rest =>
    by_cases hzero : c = '0'
    · simp [hzero, intDigits]
    · by_cases hc : isDigit c
      · simp only [List.cons_append, intDigits, hc, if_true]
        rw [← List.cons_append, span_append hr.head_not_digit]
        rfl
      · simp [intDigits, hc]

theorem fraction_append (hr : Stops r) :
    fraction (l ++ r) = (fraction l).map fun x => (x.1, x.2 ++ r) := by
  match l with
  | [] =>
    match r with
    | [] => rfl
    | c :: r =>
      have hc : c ≠ '.' := by
        rintro rfl
        simp [Stops, inNumber] at hr
      simp [fraction, hc]
  | [c] =>
    match r with
    | [] => by_cases hc : c = '.' <;> simp [fraction, hc]
    | d :: r =>
      have hd : isDigit d = false := hr.head_not_digit d rfl
      by_cases hc : c = '.' <;> simp [fraction, hc, hd]
  | c :: d :: rest =>
    by_cases hc : c = '.'
    · subst hc
      by_cases hd : isDigit d
      · simp only [List.cons_append, fraction, hd, if_true]
        rw [← List.cons_append, span_append hr.head_not_digit]
        rfl
      · simp [fraction, hd]
    · simp [fraction, hc]

/-- The sign of an exponent, and what is behind it. -/
def signed : List Char → Bool × List Char
  | '-' :: rest => (true, rest)
  | '+' :: rest => (false, rest)
  | rest => (false, rest)

/-- An exponent behind its sign. -/
def exponentDigits (negative : Bool) (l : List Char) : Option (ℤ × List Char) :=
  let (digits, rest) := l.span isDigit
  if digits = [] then none
  else some (if negative then -(ofDigits digits : ℤ) else ofDigits digits, rest)

theorem exponent_cons {c : Char} (hc : c = 'e' ∨ c = 'E') (l : List Char) :
    exponent (c :: l) = exponentDigits (signed l).1 (signed l).2 := by
  simp only [exponent, hc, if_true]
  rfl

theorem signed_append (hr : Stops r) : signed (l ++ r) = ((signed l).1, (signed l).2 ++ r) := by
  match l with
  | [] =>
    match r with
    | [] => rfl
    | c :: r =>
      have hminus : c ≠ '-' := by
        rintro rfl
        simp [Stops, inNumber] at hr
      have hplus : c ≠ '+' := by
        rintro rfl
        simp [Stops, inNumber] at hr
      simp [signed, hminus, hplus]
  | c :: l =>
    by_cases hminus : c = '-'
    · simp [hminus, signed]
    · by_cases hplus : c = '+'
      · simp [hplus, signed]
      · simp [signed, hminus, hplus]

theorem exponent_append (hr : Stops r) :
    exponent (l ++ r) = (exponent l).map fun x => (x.1, x.2 ++ r) := by
  match l with
  | [] =>
    match r with
    | [] => rfl
    | c :: r =>
      have hc : ¬ (c = 'e' ∨ c = 'E') := by
        rintro (rfl | rfl) <;> simp [Stops, inNumber] at hr
      simp [exponent, hc]
  | c :: l =>
    by_cases hc : c = 'e' ∨ c = 'E'
    · rw [List.cons_append, exponent_cons hc, exponent_cons hc, signed_append hr,
        exponentDigits, span_append hr.head_not_digit]
      by_cases h : (signed l).2.takeWhile isDigit = [] <;> simp [exponentDigits, h]
    · simp [exponent, hc]

/-- A number behind its sign. -/
def unsigned (maxDigits : ℕ) (negative : Bool) (l : List Char) : Parsed Value :=
  match intDigits l with
  | none => .error .decodeError
  | some (digits, rest) =>
    let fractionPart := fraction rest
    let (fractionDigits, rest) := fractionPart.getD ([], rest)
    let exponentPart := exponent rest
    let (power, rest) := exponentPart.getD (0, rest)
    if fractionPart.isNone ∧ exponentPart.isNone then
      if maxDigits < digits.length then .error .valueError
      else .ok (.int (if negative then -(ofDigits digits : ℤ) else ofDigits digits), rest)
    else
      let x : ℚ := ofDigits (digits ++ fractionDigits) * 10 ^ (power - fractionDigits.length)
      .ok (.float (toFloat (if negative then -x else x)), rest)

theorem number_minus (l : List Char) :
    number maxDigits ('-' :: l) = unsigned maxDigits true l :=
  rfl

theorem number_of_ne (h : l.head? ≠ some '-') :
    number maxDigits l = unsigned maxDigits false l := by
  rw [number]
  · rfl
  · rintro rest rfl
    exact h rfl

theorem unsigned_append (hr : Stops r) (negative : Bool) :
    unsigned maxDigits negative (l ++ r) = extend r (unsigned maxDigits negative l) := by
  simp only [unsigned, intDigits_append hr]
  cases hint : intDigits l with
  | none => rfl
  | some digits =>
    simp only [Option.map_some, fraction_append hr]
    cases hfraction : fraction digits.2 with
    | none =>
      simp only [Option.map_none, Option.getD_none, exponent_append hr]
      cases exponent digits.2 with
      | none =>
        by_cases hdigits : maxDigits < digits.1.length <;> simp [hdigits, extend, Except.map]
      | some power => simp [extend, Except.map]
    | some part =>
      simp only [Option.map_some, Option.getD_some, exponent_append hr]
      cases exponent part.2 <;> simp [extend, Except.map]

theorem number_append (hr : Stops r) :
    number maxDigits (l ++ r) = extend r (number maxDigits l) := by
  by_cases h : l.head? = some '-'
  · obtain ⟨l, rfl⟩ := List.head?_eq_some_iff.mp h
    exact unsigned_append hr true
  · rw [number_of_ne h, number_of_ne, unsigned_append hr]
    cases l with
    | nil =>
      intro hminus
      have hnot := hr '-' (by simpa using hminus)
      simp [inNumber] at hnot
    | cons c l => simpa using h

theorem suffix_span {p : Char → Bool} : (l.span p).2 <:+ l := by
  rw [List.span_eq_takeWhile_dropWhile]
  exact List.dropWhile_suffix p

theorem suffix_intDigits {x : List Char × List Char} (h : intDigits l = some x) : x.2 <:+ l := by
  match l with
  | [] => cases h
  | '0' :: rest =>
    cases h
    exact List.suffix_cons '0' rest
  | c :: rest =>
    by_cases hzero : c = '0'
    · subst hzero
      cases h
      exact List.suffix_cons '0' rest
    · by_cases hc : isDigit c
      · simp only [intDigits, hc, if_true, Option.some.injEq] at h
        exact h ▸ suffix_span
      · simp [intDigits, hc] at h

theorem suffix_fraction {x : List Char × List Char} (h : fraction l = some x) : x.2 <:+ l := by
  match l with
  | [] => cases h
  | [c] => by_cases hc : c = '.' <;> simp [fraction, hc] at h
  | c :: d :: rest =>
    by_cases hc : c = '.'
    · by_cases hd : isDigit d
      · simp only [hc, fraction, hd, if_true, Option.some.injEq] at h
        exact h ▸ suffix_span.trans (List.suffix_cons c _)
      · simp [fraction, hc, hd] at h
    · simp [fraction, hc] at h

theorem suffix_signed : (signed l).2 <:+ l := by
  match l with
  | [] => exact List.suffix_refl _
  | c :: l =>
    by_cases hminus : c = '-'
    · simp [hminus, signed]
    · by_cases hplus : c = '+'
      · simp [hplus, signed]
      · simp [signed, hminus, hplus]

theorem suffix_exponent {x : ℤ × List Char} (h : exponent l = some x) : x.2 <:+ l := by
  match l with
  | [] => cases h
  | c :: l =>
    by_cases hc : c = 'e' ∨ c = 'E'
    · rw [exponent_cons hc, exponentDigits] at h
      by_cases hnil : ((signed l).2.span isDigit).1 = []
      · simp only [hnil, if_true] at h
        cases h
      · simp only [hnil, if_false, Option.some.injEq] at h
        exact h ▸ (suffix_span.trans suffix_signed).trans (List.suffix_cons c l)
    · simp [exponent, hc] at h

/-- What is left of a number is the end of the text. -/
theorem suffix_number {a : Value} {rest : List Char} (h : number maxDigits l = .ok (a, rest)) :
    rest <:+ l := by
  have hunsigned : ∀ negative l, unsigned maxDigits negative l = .ok (a, rest) → rest <:+ l := by
    intro negative l h
    rw [unsigned] at h
    cases hint : intDigits l with
    | none => simp [hint] at h
    | some digits =>
      have hfractionRest : ((fraction digits.2).getD ([], digits.2)).2 <:+ digits.2 := by
        cases hfraction : fraction digits.2 with
        | none => exact List.suffix_refl _
        | some part => exact suffix_fraction hfraction
      have hexponentRest : ((exponent ((fraction digits.2).getD ([], digits.2)).2).getD
          (0, ((fraction digits.2).getD ([], digits.2)).2)).2 <:+ digits.2 := by
        cases hexponent : exponent ((fraction digits.2).getD ([], digits.2)).2 with
        | none => exact hfractionRest
        | some power => exact (suffix_exponent hexponent).trans hfractionRest
      have hrest := hexponentRest.trans (suffix_intDigits hint)
      simp only [hint] at h
      split_ifs at h <;> cases h <;> exact hrest
  by_cases hminus : l.head? = some '-'
  · obtain ⟨l, rfl⟩ := List.head?_eq_some_iff.mp hminus
    exact (hunsigned true l h).trans (List.suffix_cons '-' l)
  · exact hunsigned false l (number_of_ne hminus ▸ h)

theorem Stops.of_append {rest : List Char} (hr : Stops (rest ++ r)) : Stops rest := by
  cases rest with
  | nil => simp [Stops]
  | cons c rest => exact hr

theorem local_number : Local (number maxDigits) where
  nil := rfl
  ok := by
    intro l r rest a h hr
    obtain ⟨c, rfl⟩ := suffix_number h
    rw [number_append hr.of_append] at h
    rw [List.append_assoc, number_append hr]
    cases hc : number maxDigits c with
    | error fault => simp [hc, extend, Except.map] at h
    | ok x =>
      simp only [hc, extend, Except.map, Except.ok.injEq, Prod.mk.injEq] at h ⊢
      have hnil : x.2 = [] := by simpa using h.2
      simp [h.1, hnil]
  error := by
    intro l r fault h _ hr
    rw [number_append hr, h]
    rfl

/-! ## Words -/

theorem words_head : ∀ w ∈ words, ∀ w' ∈ words, w.1.head? = w'.1.head? → w = w' := by
  decide

theorem words_ne_nil : ∀ w ∈ words, w.1 ≠ [] := by
  decide

theorem head?_eq_head? {w : List Char} (h : w <+: l) (hne : w ≠ []) : w.head? = l.head? := by
  obtain ⟨t, rfl⟩ := h
  rw [List.head?_append_of_ne_nil _ hne]

/-- A word that a text begins with is the only one, also when the text goes on. -/
theorem find?_words_append {word : List Char × Value}
    (h : words.find? (·.1.isPrefixOf l) = some word) :
    words.find? (·.1.isPrefixOf (l ++ r)) = some word := by
  have hmem := List.mem_of_find?_eq_some h
  have hword : word.1 <+: l := by simpa using List.find?_some h
  have hword' := hword.trans (List.prefix_append l r)
  have hsome : (words.find? (·.1.isPrefixOf (l ++ r))).isSome := by
    rw [List.find?_isSome]
    exact ⟨word, hmem, by simpa using hword'⟩
  obtain ⟨other, hother⟩ := Option.isSome_iff_exists.mp hsome
  have hmem' := List.mem_of_find?_eq_some hother
  have hpre : other.1 <+: l ++ r := by simpa using List.find?_some hother
  have hhead : other.1.head? = word.1.head? := by
    rw [head?_eq_head? hpre (words_ne_nil _ hmem'), head?_eq_head? hword' (words_ne_nil _ hmem)]
  rw [hother, words_head other hmem' word hmem hhead]

theorem head_words : ∀ w ∈ words, ∀ c ∈ w.1.head?,
    isDigit c = false ∧ (c = '-' → w.1 = ['-', 'I', 'n', 'f', 'i', 'n', 'i', 't', 'y']) := by
  intro w hw c hc
  simp only [words, List.mem_cons, List.not_mem_nil, or_false] at hw
  obtain rfl | rfl | rfl | rfl | rfl | rfl := hw <;>
    · cases Option.some.inj hc
      decide

theorem head_of_intDigits {x : List Char × List Char} (h : intDigits l = some x) :
    ∃ c rest, l = c :: rest ∧ isDigit c = true := by
  match l with
  | [] => cases h
  | c :: rest =>
    refine ⟨c, rest, rfl, ?_⟩
    by_cases hzero : c = '0'
    · simp [hzero, isDigit]
    · by_contra hc
      simp [intDigits, hc] at h

theorem head_of_unsigned {negative : Bool}
    (h : unsigned maxDigits negative l ≠ .error .decodeError) :
    ∃ c rest, l = c :: rest ∧ isDigit c = true := by
  cases hint : intDigits l with
  | none => simp [unsigned, hint] at h
  | some x => exact head_of_intDigits hint

/-- What is read as a number begins with no word. -/
theorem find?_words_of_number {x : Parsed Value} (hx : number maxDigits l = x)
    (hne : x ≠ .error .decodeError) : words.find? (·.1.isPrefixOf (l ++ r)) = none := by
  have h : number maxDigits l ≠ .error .decodeError := hx ▸ hne
  rw [List.find?_eq_none]
  intro w hw hpre
  replace hpre : w.1 <+: l ++ r := by simpa using hpre
  have hhead := head?_eq_head? hpre (words_ne_nil w hw)
  by_cases hminus : l.head? = some '-'
  · obtain ⟨l, rfl⟩ := List.head?_eq_some_iff.mp hminus
    obtain ⟨d, rest, rfl, hd⟩ := head_of_unsigned (number_minus l ▸ h)
    rw [(head_words w hw '-' (by simpa using hhead)).2 rfl] at hpre
    simp only [List.cons_append, List.cons_prefix_cons, true_and] at hpre
    simp [← hpre.1, isDigit] at hd
  · obtain ⟨c, rest, rfl, hc⟩ := head_of_unsigned (number_of_ne hminus ▸ h)
    have hnot := (head_words w hw c (by simpa using hhead)).1
    simp [hc] at hnot

theorem local_scalar : Local (scalar maxDigits) where
  nil := rfl
  ok := by
    intro l r rest a h hr
    rw [scalar] at h ⊢
    cases hword : words.find? (·.1.isPrefixOf l) with
    | some word =>
      rw [hword] at h
      have hpre : word.1 <+: l := by simpa using List.find?_some hword
      rw [find?_words_append hword]
      cases h
      simp [List.drop_append_of_le_length hpre.length_le]
    | none =>
      rw [hword] at h
      have hnumber : number maxDigits l = .ok (a, rest) := h
      rw [find?_words_of_number hnumber (by simp)]
      exact local_number.ok h hr
  error := by
    intro l r fault h hne hr
    rw [scalar] at h ⊢
    cases hword : words.find? (·.1.isPrefixOf l) with
    | some word =>
      rw [hword] at h
      cases h
    | none =>
      rw [hword] at h
      have hnumber : number maxDigits l = .error fault := h
      rw [find?_words_of_number hnumber (by simpa using hne)]
      exact local_number.error h hne hr

/-! ## Texts -/

theorem skipWs_append (h : skipWs l ≠ []) : skipWs (l ++ r) = skipWs l ++ r := by
  rw [skipWs, skipWs, List.dropWhile_append, if_neg]
  simpa [skipWs] using h

/-- A text is not the begin of an escape. -/
def Whole (l : List Char) : Prop :=
  l ≠ [] ∧ l ≠ ['\\'] ∧ ∀ t, l = '\\' :: 'u' :: t → 4 ≤ t.length

theorem stringBody_of_error {fault : Fault} (hquote : l.head? ≠ some '"')
    (h : character l = .error fault) : stringBody l = .error fault := by
  rw [stringBody]
  · rw [h]
    rfl
  · rintro rest rfl
    exact hquote rfl

theorem stringBody_of_ok {x : Option Char} {rest : List Char} (hquote : l.head? ≠ some '"')
    (h : character l = .ok (x, rest)) : stringBody l =
      if rest.length < l.length then
        (stringBody rest).map fun xs => (x.bind fun c => xs.1.map (c :: ·), xs.2)
      else .error .decodeError := by
  rw [stringBody]
  · rw [h]
    simp only [bind, Except.bind]
    split
    · cases stringBody rest <;> rfl
    · rfl
  · rintro rest rfl
    exact hquote rfl

theorem whole_of_stringBody {x : Option (List Char) × List Char} (h : stringBody l = .ok x) :
    Whole l := by
  have hnil : stringBody [] = .error .decodeError := stringBody_of_error (by simp) rfl
  refine ⟨?_, ?_, fun t ht => ?_⟩
  · rintro rfl
    simp [hnil] at h
  · rintro rfl
    rw [stringBody_of_ok (by simp) rfl] at h
    simp [hnil, Except.map] at h
  · by_contra hlt
    have herror : character ('\\' :: 'u' :: t) = .error .decodeError := by
      match t with
      | [] | [_] | [_, _] | [_, _, _] => rfl
      | _ :: _ :: _ :: _ :: t => simp at hlt
    rw [ht, stringBody_of_error (by simp) herror] at h
    cases h

theorem character_escape {c x : Char} {rest : List Char} (h : escape? c = some x) :
    character ('\\' :: c :: rest) = .ok (some x, rest) := by
  have hu : c ≠ 'u' := by
    rintro rfl
    revert h
    simp [show escape? 'u' = none by decide]
  simp [character, hu, h]

theorem character_plain {c : Char} {rest : List Char} (hc : c ≠ '\\') (hmin : ¬ c.toNat < 0x20) :
    character (c :: rest) = .ok (some c, rest) := by
  simp [character, hc, hmin]

/-- A whole text is no half of an escape, also when it goes on. -/
theorem Whole.append {rest : List Char} (h : Whole rest)
    (hnot : ∀ (e f g h : Char) (rest' : List Char),
      rest ≠ '\\' :: 'u' :: e :: f :: g :: h :: rest') :
    ∀ (e f g h : Char) (rest' : List Char),
      rest ++ r ≠ '\\' :: 'u' :: e :: f :: g :: h :: rest' := by
  intro e f g k rest' heq
  obtain ⟨hnil, hone, hmore⟩ := h
  match rest with
  | [] => exact hnil rfl
  | [c] => simp_all
  | c :: d :: t =>
    have hlength := hmore t (by simp_all)
    match t with
    | [] | [_] | [_, _] | [_, _, _] => simp at hlength
    | e' :: f' :: g' :: k' :: t => exact hnot e' f' g' k' t (by simp_all)

theorem character_half {a b c d : Char} {m : ℕ} {rest : List Char} (hm : hex4 a b c d = some m)
    (hrange : ¬ (m < 0xD800 ∨ 0xDFFF < m))
    (hnot : ∀ (e f g h : Char) (rest' : List Char),
      rest ≠ '\\' :: 'u' :: e :: f :: g :: h :: rest') :
    character ('\\' :: 'u' :: a :: b :: c :: d :: rest) = .ok (none, rest) := by
  simp only [character, hm, if_neg hrange]

theorem character_append {x : Option Char} {rest : List Char} (h : character l = .ok (x, rest))
    (hrest : Whole rest) : character (l ++ r) = .ok (x, rest ++ r) := by
  fun_cases character l
  case case6 a b c d rest' m hm hrange hnot =>
    rw [character_half hm hrange hnot] at h
    cases h
    exact character_half hm hrange (hrest.append hnot)
  case case8 c rest' y _ hy =>
    rw [character_escape hy] at h
    cases h
    exact character_escape hy
  case case10 c rest' _ hnot hmin =>
    have hc : c ≠ '\\' := by
      rintro rfl
      cases rest' with
      | nil =>
        cases h
        exact hrest.1 rfl
      | cons d rest' => exact hnot d rest' rfl rfl
    rw [character_plain hc hmin] at h
    cases h
    exact character_plain hc hmin
  all_goals
    simp_all [character]
  all_goals split_ifs at h ⊢ <;> grind

theorem character_error {fault : Fault} (h : character l = .error fault) :
    fault = .decodeError := by
  fun_cases character l <;> simp_all [character]
  all_goals split_ifs at h <;> simp_all

/-- A text is read up to its closing quote, whatever is behind it. -/
theorem stringBody_append {x : Option (List Char)} {rest : List Char}
    (h : stringBody l = .ok (x, rest)) : stringBody (l ++ r) = .ok (x, rest ++ r) := by
  induction hn : l.length using Nat.strong_induction_on generalizing l x rest with
  | _ n ih =>
    by_cases hquote : l.head? = some '"'
    · obtain ⟨l, rfl⟩ := List.head?_eq_some_iff.mp hquote
      rw [stringBody] at h
      cases h
      rw [List.cons_append, stringBody]
    · have hquote' : (l ++ r).head? ≠ some '"' := by
        rwa [List.head?_append_of_ne_nil _ (whole_of_stringBody h).1]
      cases hfirst : character l with
      | error fault => simp [stringBody_of_error hquote hfirst] at h
      | ok y =>
        rw [stringBody_of_ok hquote hfirst] at h
        split_ifs at h with hlt
        cases hlater : stringBody y.2 with
        | error fault => simp [hlater, Except.map] at h
        | ok xs =>
          have hchar := character_append (r := r) hfirst (whole_of_stringBody hlater)
          rw [stringBody_of_ok hquote' hchar, if_pos (by simpa using hlt),
            ih _ (hn ▸ hlt) hlater rfl]
          simp only [hlater, Except.map, Except.ok.injEq, Prod.mk.injEq] at h ⊢
          simp [h.1, ← h.2]

theorem stringBody_error {fault : Fault} (h : stringBody l = .error fault) :
    fault = .decodeError := by
  induction hn : l.length using Nat.strong_induction_on generalizing l with
  | _ n ih =>
    by_cases hquote : l.head? = some '"'
    · obtain ⟨l, rfl⟩ := List.head?_eq_some_iff.mp hquote
      rw [stringBody] at h
      cases h
    · cases hfirst : character l with
      | error fault' =>
        rw [stringBody_of_error hquote hfirst] at h
        cases h
        exact character_error hfirst
      | ok y =>
        rw [stringBody_of_ok hquote hfirst] at h
        split_ifs at h with hlt
        · cases hlater : stringBody y.2 with
          | error fault' =>
            simp only [hlater, Except.map, Except.error.injEq] at h
            exact ih _ (hn ▸ hlt) (h ▸ hlater) rfl
          | ok xs => simp [hlater, Except.map] at h
        · cases h
          rfl

/-! ## Values -/

theorem stops_of_skipWs {c : Char} {t : List Char} (h : skipWs l = c :: t)
    (hc : inNumber c = false) : Stops (l ++ r) := by
  cases l with
  | nil => simp [skipWs] at h
  | cons d l =>
    intro x hx
    obtain rfl : d = x := by simpa using hx
    by_cases hd : d ∈ [' ', '\t', '\n', '\r']
    · simp only [List.mem_cons, List.not_mem_nil, or_false] at hd
      obtain rfl | rfl | rfl | rfl := hd <;> decide
    · have hkept : skipWs (d :: l) = d :: l := List.dropWhile_cons_of_neg (by simpa using hd)
      cases hkept.symm.trans h
      exact hc

section

variable {p : List Char → Parsed A} {closing : Char} {item : A} {behind : List Char}

/-- What is read one after another, with commas between, up to a closing character. -/
def listOf (closing : Char) (p : List Char → Parsed A) (l : List Char) : Parsed (List A) :=
  match p l with
  | .error fault => .error fault
  | .ok (item, behind) =>
    match skipWs behind with
    | [] => .error .decodeError
    | c :: t =>
      if c = closing then .ok ([item], t)
      else if c = ',' ∧ (skipWs t).length < l.length then
        (listOf closing p (skipWs t)).map fun x => (item :: x.1, x.2)
      else .error .decodeError
termination_by l.length
decreasing_by simp_all

theorem listOf_of_error {fault : Fault} (h : p l = .error fault) :
    listOf closing p l = .error fault := by
  rw [listOf, h]

theorem listOf_of_ok (h : p l = .ok (item, behind)) {c : Char} {t : List Char}
    (hskip : skipWs behind = c :: t) : listOf closing p l =
      if c = closing then .ok ([item], t)
      else if c = ',' ∧ (skipWs t).length < l.length then
        (listOf closing p (skipWs t)).map fun x => (item :: x.1, x.2)
      else .error .decodeError := by
  rw [listOf, h]
  simp only [hskip]

/-- A list is read up to its end, whatever is behind it. -/
theorem Local.listOf_append (hp : Local p) (hclosing : inNumber closing = false)
    {x : Parsed (List A)} (h : listOf closing p l = x) (hne : x ≠ .error .decodeError)
    (hr : (∃ a, x = .ok a) ∨ Stops r) : listOf closing p (l ++ r) = extend r x := by
  induction hn : l.length using Nat.strong_induction_on generalizing l x with
  | _ n ih =>
    cases hitem : p l with
    | error fault =>
      rw [listOf_of_error hitem] at h
      subst h
      exact listOf_of_error (hp.error hitem (by simpa using hne) (by simpa using hr))
    | ok item =>
      obtain ⟨item, behind⟩ := item
      cases hskip : skipWs behind with
      | nil =>
        rw [listOf, hitem] at h
        simp only [hskip] at h
        exact absurd h.symm hne
      | cons c t =>
        rw [listOf_of_ok hitem hskip] at h
        have hskip' : skipWs (behind ++ r) = c :: (t ++ r) := by
          rw [skipWs_append (by simp [hskip]), hskip]
          rfl
        split_ifs at h with hc hmore
        · subst hc h
          have hitem' := hp.ok hitem (stops_of_skipWs (r := r) hskip hclosing)
          rw [listOf_of_ok hitem' hskip', if_pos rfl]
          rfl
        · have hcomma : inNumber c = false := hmore.1 ▸ by decide
          have hitem' := hp.ok hitem (stops_of_skipWs (r := r) hskip hcomma)
          have hrest : skipWs t ≠ [] := by
            intro hnil
            rw [hnil, listOf_of_error hp.nil] at h
            exact hne h.symm
          have hmore' : listOf closing p (l ++ r) =
              (listOf closing p (skipWs t ++ r)).map fun x => (item :: x.1, x.2) := by
            rw [listOf_of_ok hitem' hskip', if_neg hc, skipWs_append hrest,
              if_pos ⟨hmore.1, by simpa using hmore.2⟩]
          cases hlater : listOf closing p (skipWs t) with
          | error fault =>
            rw [hlater] at h
            subst h
            rw [hmore', ih _ (hn ▸ hmore.2) hlater (by simpa [Except.map] using hne) hr rfl]
            rfl
          | ok y =>
            rw [hlater] at h
            subst h
            rw [hmore', ih _ (hn ▸ hmore.2) hlater (by simp) (.inl ⟨y, rfl⟩) rfl]
            rfl
        · exact absurd h.symm hne

end

/-- The items of a list are read one after another. -/
theorem items_eq (p : List Char → Parsed Value) (l : List Char) : items p l = listOf ']' p l := by
  induction hn : l.length using Nat.strong_induction_on generalizing l with
  | _ n ih =>
    rw [items, listOf]
    cases hitem : p l with
    | error fault => rfl
    | ok item =>
      cases hskip : skipWs item.2 with
      | nil => simp [bind, Except.bind, hskip, throw, throwThe, MonadExceptOf.throw]
      | cons c t =>
        by_cases hlast : c = ']'
        · simp [bind, Except.bind, pure, Except.pure, hskip, hlast]
        · by_cases hmore : c = ','
          · subst hmore
            by_cases hlt : (skipWs t).length < l.length
            · have hih := ih _ (hn ▸ hlt) (skipWs t) rfl
              simp only [bind, Except.bind, hskip, hlt, hih, hlast]
              cases listOf ']' p (skipWs t) <;> rfl
            · simp [bind, Except.bind, hskip, hlt, throw, throwThe, MonadExceptOf.throw]
          · simp [bind, Except.bind, hskip, hlast, hmore, throw, throwThe,
              MonadExceptOf.throw]

/-- A field: its key, a colon and its value. -/
def field (p : List Char → Parsed Value) (l : List Char) :
    Except Fault ((Option String × Value) × List Char) :=
  if l.head? = some '"' then do
    let (key, rest) ← stringBody l.tail
    match skipWs rest with
    | ':' :: rest => do
        let (item, rest) ← p (skipWs rest)
        return ((key.map String.ofList, item), rest)
    | _ => throw .decodeError
  else throw .decodeError

/-- The fields of an object are read one after another. -/
theorem fields_eq (p : List Char → Parsed Value) (l : List Char) :
    fields p l = listOf '\x7d' (field p) l := by
  induction hn : l.length using Nat.strong_induction_on generalizing l with
  | _ n ih =>
    rw [fields, listOf, field]
    by_cases hquote : l.head? = some '"'
    · simp only [hquote, if_true]
      cases hkey : stringBody l.tail with
      | error fault => rfl
      | ok key =>
        cases hcolon : skipWs key.2 with
        | nil => simp [bind, Except.bind, hcolon, throw, throwThe, MonadExceptOf.throw]
        | cons c t =>
          by_cases hc : c = ':'
          · subst hc
            cases hitem : p (skipWs t) with
            | error fault => simp [bind, Except.bind, hcolon, hitem]
            | ok item =>
              simp only [bind, Except.bind, hcolon, hitem, pure, Except.pure]
              cases hskip : skipWs item.2 with
              | nil => rfl
              | cons d u =>
                by_cases hlast : d = '\x7d'
                · simp [hlast]
                · by_cases hmore : d = ','
                  · subst hmore
                    by_cases hlt : (skipWs u).length < l.length
                    · simp only [hlt, ih _ (hn ▸ hlt) _ rfl, hlast]
                      cases listOf '\x7d' (field p) (skipWs u) <;> rfl
                    · simp [hlt, throw, throwThe, MonadExceptOf.throw]
                  · simp [hlast, hmore, throw, throwThe, MonadExceptOf.throw]
          · simp [bind, Except.bind, hcolon, hc, throw, throwThe, MonadExceptOf.throw]
    · simp only [hquote, if_false]
      rfl

theorem field_of_colon {p : List Char → Parsed Value} {t u rest : List Char}
    {key : Option (List Char)} (hkey : stringBody t = .ok (key, rest))
    (hcolon : skipWs rest = ':' :: u) : field p ('"' :: t) =
      (p (skipWs u)).map fun x => ((key.map String.ofList, x.1), x.2) := by
  rw [field, List.head?_cons, if_pos rfl, List.tail_cons, hkey]
  simp only [bind, Except.bind, hcolon]
  cases p (skipWs u) <;> rfl

theorem exists_of_field {p : List Char → Parsed Value} (h : field p l ≠ .error .decodeError) :
    ∃ t key rest u, l = '"' :: t ∧ stringBody t = .ok (key, rest) ∧ skipWs rest = ':' :: u := by
  by_cases hquote : l.head? = some '"'
  · obtain ⟨t, rfl⟩ := List.head?_eq_some_iff.mp hquote
    rw [field, List.head?_cons, if_pos rfl, List.tail_cons] at h
    cases hkey : stringBody t with
    | error fault =>
      rw [hkey, stringBody_error hkey] at h
      exact absurd rfl h
    | ok key =>
      rw [hkey] at h
      cases hcolon : skipWs key.2 with
      | nil => simp [bind, Except.bind, hcolon, throw, throwThe, MonadExceptOf.throw] at h
      | cons c u =>
        by_cases hc : c = ':'
        · exact ⟨t, key.1, key.2, u, rfl, hkey, hc ▸ hcolon⟩
        · simp [bind, Except.bind, hcolon, hc, throw, throwThe, MonadExceptOf.throw] at h
  · exact absurd (if_neg hquote) h

/-- What a parser that is local reads when the text goes on. -/
theorem Local.append {p : List Char → Parsed A} (hp : Local p) {x : Parsed A} (h : p l = x)
    (hne : x ≠ .error .decodeError) (hok : ∀ a rest, x = .ok (a, rest) → Stops (rest ++ r))
    (herror : ∀ fault, x = .error fault → Stops r) : p (l ++ r) = extend r x := by
  cases x with
  | ok a => exact hp.ok h (hok a.1 a.2 rfl)
  | error fault => exact hp.error h (by simpa using hne) (herror fault rfl)

theorem Local.of_append {p : List Char → Parsed A} (hnil : p [] = .error .decodeError)
    (h : ∀ l r x, p l = x → x ≠ .error .decodeError →
      (∀ a rest, x = .ok (a, rest) → Stops (rest ++ r)) → (∀ fault, x = .error fault → Stops r) →
        p (l ++ r) = extend r x) : Local p where
  nil := hnil
  ok := by
    intro l r rest a hx hr
    refine h l r _ hx (by simp) ?_ (by simp)
    intro a' rest' heq
    cases heq
    exact hr
  error := by
    intro l r fault hx hne hr
    exact h l r _ hx (by simpa using hne) (by simp) fun _ _ => hr

theorem Local.field {p : List Char → Parsed Value} (hp : Local p) : Local (field p) := by
  refine .of_append rfl fun l r x h hne hok herror => ?_
  obtain ⟨t, key, rest, u, rfl, hkey, hcolon⟩ := exists_of_field (h ▸ hne)
  have hcolon' : skipWs (rest ++ r) = ':' :: (u ++ r) := by
    rw [skipWs_append (by simp [hcolon]), hcolon]
    rfl
  rw [field_of_colon hkey hcolon] at h
  have hu : skipWs u ≠ [] := by
    intro hnil
    rw [hnil, hp.nil] at h
    exact hne h.symm
  rw [List.cons_append, field_of_colon (stringBody_append hkey) hcolon', skipWs_append hu]
  cases hitem : p (skipWs u) with
  | error fault =>
    rw [hitem] at h
    subst h
    rw [hp.error hitem (by simpa [Except.map] using hne) (herror fault rfl)]
    rfl
  | ok item =>
    rw [hitem] at h
    subst h
    rw [hp.ok hitem (hok _ item.2 rfl)]
    rfl

/-- A list between brackets, from behind the opening one; it may be empty. -/
def bracketed (closing : Char) (p : List Char → Parsed A) (l : List Char) : Parsed (List A) :=
  match skipWs l with
  | [] => .error .decodeError
  | c :: t => if c = closing then .ok ([], t) else listOf closing p (c :: t)

theorem Local.bracketed_append {p : List Char → Parsed A} (hp : Local p) {closing : Char}
    (hclosing : inNumber closing = false) {x : Parsed (List A)} (h : bracketed closing p l = x)
    (hne : x ≠ .error .decodeError) (hr : (∃ a, x = .ok a) ∨ Stops r) :
    bracketed closing p (l ++ r) = extend r x := by
  cases hskip : skipWs l with
  | nil =>
    simp only [bracketed, hskip] at h
    exact absurd h.symm hne
  | cons c t =>
    have hskip' : skipWs (l ++ r) = c :: (t ++ r) := by
      rw [skipWs_append (by simp [hskip]), hskip]
      rfl
    simp only [bracketed, hskip, hskip'] at h ⊢
    split_ifs at h ⊢
    · subst h
      rfl
    · exact hp.listOf_append hclosing h hne hr

/-- What becomes of a list between brackets. -/
theorem Local.bracketed_map {B : Type} {p : List Char → Parsed A} (hp : Local p) {closing : Char}
    (hclosing : inNumber closing = false) (g : List A → B) {x : Parsed B}
    (h : (bracketed closing p l).map (fun a => (g a.1, a.2)) = x) (hne : x ≠ .error .decodeError)
    (herror : ∀ fault, x = .error fault → Stops r) :
    (bracketed closing p (l ++ r)).map (fun a => (g a.1, a.2)) = extend r x := by
  cases hlist : bracketed closing p l with
  | error fault =>
    rw [hlist] at h
    subst h
    rw [hp.bracketed_append hclosing hlist (by simpa [Except.map] using hne)
      (.inr (herror fault rfl))]
    rfl
  | ok a =>
    rw [hlist] at h
    subst h
    rw [hp.bracketed_append hclosing hlist (by simp) (.inl ⟨a, rfl⟩)]
    rfl

theorem value_nil : value maxDigits depth [] = .error .decodeError := by
  cases depth <;> rfl

theorem value_string (t : List Char) : value maxDigits depth ('"' :: t) =
    (stringBody t).map fun x => (.str (x.1.map String.ofList), x.2) := by
  cases depth <;> simp only [value, if_true] <;> cases stringBody t <;> rfl

theorem value_zero {c : Char} (hc : c = '[' ∨ c = '\x7b') (t : List Char) :
    value maxDigits 0 (c :: t) = .error .recursionError := by
  obtain rfl | rfl := hc <;> simp [value]

theorem value_list (t : List Char) : value maxDigits (depth + 1) ('[' :: t) =
    (bracketed ']' (value maxDigits depth) t).map fun x => (.arr x.1, x.2) := by
  have hnil : items (value maxDigits depth) [] = .error .decodeError := by
    rw [items_eq, listOf_of_error value_nil]
  simp only [value, bracketed]
  cases hskip : skipWs t with
  | nil => simp [hnil, Except.map]
  | cons c u =>
    by_cases hc : c = ']'
    · simp [hc, Except.map]
    · simp [hc, items_eq]

theorem value_object (t : List Char) : value maxDigits (depth + 1) ('\x7b' :: t) =
    (bracketed '\x7d' (field (value maxDigits depth)) t).map fun x => (.obj x.1, x.2) := by
  simp only [value, bracketed]
  cases hskip : skipWs t with
  | nil => simp [fields, Except.map, throw, throwThe, MonadExceptOf.throw]
  | cons c u =>
    by_cases hc : c = '\x7d'
    · simp [hc, Except.map]
    · simp [hc, fields_eq]

theorem value_scalar {c : Char} {t : List Char} (hquote : c ≠ '"') (hlist : c ≠ '[')
    (hobject : c ≠ '\x7b') : value maxDigits depth (c :: t) = scalar maxDigits (c :: t) := by
  cases depth <;> simp [value, hquote, hlist, hobject]

theorem value_flat_append {c : Char} {t : List Char} {x : Parsed Value} (hlist : c ≠ '[')
    (hobject : c ≠ '\x7b') (h : value maxDigits depth (c :: t) = x) (hne : x ≠ .error .decodeError)
    (hok : ∀ a rest, x = .ok (a, rest) → Stops (rest ++ r))
    (herror : ∀ fault, x = .error fault → Stops r) :
    value maxDigits depth (c :: t ++ r) = extend r x := by
  by_cases hquote : c = '"'
  · subst hquote
    rw [value_string] at h
    cases hbody : stringBody t with
    | error fault =>
      rw [hbody, stringBody_error hbody] at h
      exact absurd h.symm hne
    | ok a =>
      rw [hbody] at h
      subst h
      rw [List.cons_append, value_string, stringBody_append hbody]
      rfl
  · rw [value_scalar hquote hlist hobject] at h
    rw [List.cons_append, value_scalar hquote hlist hobject]
    exact local_scalar.append h hne hok herror

/-- **Values are read locally**, however deep they are. -/
theorem local_value (depth : ℕ) : Local (value maxDigits depth) := by
  induction depth with
  | zero =>
    refine .of_append value_nil fun l r x h hne hok herror => ?_
    match l with
    | [] => exact absurd (h.symm.trans value_nil) hne
    | c :: t =>
      by_cases hopen : c = '[' ∨ c = '\x7b'
      · rw [value_zero hopen] at h
        subst h
        exact value_zero hopen (t ++ r)
      · rw [not_or] at hopen
        exact value_flat_append hopen.1 hopen.2 h hne hok herror
  | succ depth ih =>
    refine .of_append value_nil fun l r x h hne hok herror => ?_
    match l with
    | [] => exact absurd (h.symm.trans value_nil) hne
    | c :: t =>
      by_cases hlist : c = '['
      · subst hlist
        rw [value_list] at h
        rw [List.cons_append, value_list]
        exact ih.bracketed_map (by decide) _ h hne herror
      · by_cases hobject : c = '\x7b'
        · subst hobject
          rw [value_object] at h
          rw [List.cons_append, value_object]
          exact ih.field.bracketed_map (by decide) _ h hne herror
        · exact value_flat_append hlist hobject h hne hok herror

/-- An object is read up to its end, whatever is behind it. -/
theorem value_object_append {t rest : List Char} {a : Value}
    (h : value maxDigits depth ('\x7b' :: t) = .ok (a, rest)) (r : List Char) :
    value maxDigits depth ('\x7b' :: t ++ r) = .ok (a, rest ++ r) := by
  cases depth with
  | zero =>
    rw [value_zero (.inr rfl)] at h
    cases h
  | succ depth =>
    rw [value_object] at h
    rw [List.cons_append, value_object]
    exact (local_value depth).field.bracketed_map (by decide) _ h (by simp) (by simp)

/-! ## What was read -/

/-- A text is white space. -/
def Blank (l : List Char) : Prop := skipWs l = []

theorem blank_iff : Blank l ↔ ∀ c ∈ l, c ∈ [' ', '\t', '\n', '\r'] := by
  rw [Blank, skipWs, List.dropWhile_eq_nil_iff]
  simp only [decide_eq_true_eq]

theorem skipWs_blank_append {p : List Char} (hp : Blank p) (l : List Char) :
    skipWs (p ++ l) = skipWs l := by
  have hempty : (skipWs p).isEmpty = true := by simp [show skipWs p = [] from hp]
  exact (List.dropWhile_append ..).trans (if_pos hempty)

theorem exists_blank (l : List Char) : ∃ w, Blank w ∧ l = w ++ skipWs l := by
  refine ⟨l.takeWhile (· ∈ [' ', '\t', '\n', '\r']), blank_iff.mpr fun c hc => ?_,
    (List.takeWhile_append_dropWhile ..).symm⟩
  simpa using List.mem_takeWhile_imp hc

/-- What is left begins with no white space. -/
theorem skipWs_cons {c : Char} {t : List Char} (h : skipWs l = c :: t) (t' : List Char) :
    skipWs (c :: t') = c :: t' := by
  refine List.dropWhile_cons_of_neg fun hc => ?_
  have hnot := List.head?_dropWhile_not (fun x => decide (x ∈ [' ', '\t', '\n', '\r'])) l
  rw [show l.dropWhile _ = c :: t from h] at hnot
  simp_all

/-- A text whose begin is not left out. -/
theorem skipWs_of_append {u : List Char} (h : skipWs l = u ++ r) (hu : u ≠ []) :
    skipWs u = u := by
  cases u with
  | nil => exact absurd rfl hu
  | cons c u => exact skipWs_cons h u

theorem Blank.stops_append (hl : Blank l) (hr : Stops r) : Stops (l ++ r) := by
  cases l with
  | nil => exact hr
  | cons c l =>
    intro x hx
    obtain rfl : c = x := by simpa using hx
    have hc := blank_iff.mp hl c List.mem_cons_self
    simp only [List.mem_cons, List.not_mem_nil, or_false] at hc
    obtain rfl | rfl | rfl | rfl := hc <;> decide

/-- What was read can be told from what is left. -/
def Covers (p : List Char → Parsed A) : Prop :=
  ∀ l a rest, p l = .ok (a, rest) → Stops rest → ∃ u, l = u ++ rest ∧ p u = .ok (a, [])

/-- A whole text that goes on with an escape has the escape. -/
theorem Whole.escape {e f g k : Char} {t v w : List Char} (hv : Whole v)
    (h : '\\' :: 'u' :: e :: f :: g :: k :: t = v ++ w) :
    ∃ t', v = '\\' :: 'u' :: e :: f :: g :: k :: t' := by
  by_contra hnone
  exact hv.append (r := w) (fun e' f' g' k' t' hv' => by simp_all) e f g k t h.symm

/-- What was read of a character, in a text that goes on in the same way. -/
theorem covers_character {x : Option Char} {rest v w : List Char}
    (h : character l = .ok (x, rest)) (hrest : rest = v ++ w) (hv : Whole v)
    (hquote : l.head? ≠ some '"') :
    ∃ u, l = u ++ rest ∧ u ≠ [] ∧ u.head? ≠ some '"' ∧ character (u ++ v) = .ok (x, v) := by
  fun_cases character l
  case case2 a b c d rest' m hm hrange =>
    simp only [character, hm, if_pos hrange, Except.ok.injEq, Prod.mk.injEq] at h
    exact ⟨['\\', 'u', a, b, c, d], by simp [h.2], by simp, by simp,
      by simp [character, hm, hrange, h.1]⟩
  case case3 a b c d m hm hrange e f g k rest' hm' => simp [character, hm, hm', hrange] at h
  case case4 a b c d m hm hrange e f g k rest' m' hm' hpair =>
    simp only [character, hm, hm', if_neg hrange, if_pos hpair, Except.ok.injEq,
      Prod.mk.injEq] at h
    refine ⟨['\\', 'u', a, b, c, d, '\\', 'u', e, f, g, k], by simp [h.2], by simp, by simp, ?_⟩
    simp only [List.cons_append, List.nil_append, character, hm, hm', if_neg hrange, if_pos hpair,
      h.1]
  case case5 a b c d m hm hrange e f g k rest' m' hm' hpair =>
    simp only [character, hm, hm', if_neg hrange, if_neg hpair, Except.ok.injEq,
      Prod.mk.injEq] at h
    obtain ⟨t', rfl⟩ := hv.escape (h.2.trans hrest)
    refine ⟨['\\', 'u', a, b, c, d], by simp [← h.2], by simp, by simp, ?_⟩
    simp only [List.cons_append, List.nil_append, character, hm, hm', if_neg hrange, if_neg hpair,
      h.1]
  case case6 a b c d rest' m hm hrange hnot =>
    rw [character_half hm hrange hnot] at h
    cases h
    refine ⟨['\\', 'u', a, b, c, d], rfl, by simp, by simp, character_half hm hrange ?_⟩
    intro e f g k t ht
    have hv' : v = '\\' :: 'u' :: e :: f :: g :: k :: t := ht
    exact hnot e f g k (t ++ w) (by simp [hrest, hv'])
  case case8 c rest' y _ hy =>
    rw [character_escape hy] at h
    cases h
    exact ⟨['\\', c], rfl, by simp, by simp, character_escape hy⟩
  case case10 c rest' _ hnot hmin =>
    have hc : c ≠ '\\' := by
      rintro rfl
      cases rest' with
      | nil =>
        cases h
        exact hv.1 (List.append_eq_nil_iff.mp hrest.symm).1
      | cons d rest' => exact hnot d rest' rfl rfl
    rw [character_plain hc hmin] at h
    cases h
    exact ⟨[c], rfl, by simp, by simpa using hquote, character_plain hc hmin⟩
  all_goals simp_all [character]

theorem covers_stringBody {x : Option (List Char)} {rest : List Char}
    (h : stringBody l = .ok (x, rest)) : ∃ u, l = u ++ rest ∧ stringBody u = .ok (x, []) := by
  induction hn : l.length using Nat.strong_induction_on generalizing l x rest with
  | _ n ih =>
    by_cases hquote : l.head? = some '"'
    · obtain ⟨l, rfl⟩ := List.head?_eq_some_iff.mp hquote
      rw [stringBody] at h
      cases h
      exact ⟨['"'], rfl, by rw [stringBody]⟩
    · cases hfirst : character l with
      | error fault => simp [stringBody_of_error hquote hfirst] at h
      | ok y =>
        rw [stringBody_of_ok hquote hfirst] at h
        split_ifs at h with hlt
        cases hlater : stringBody y.2 with
        | error fault => simp [hlater, Except.map] at h
        | ok xs =>
          simp only [hlater, Except.map, Except.ok.injEq, Prod.mk.injEq] at h
          obtain ⟨v, hv, hbody⟩ := ih _ (hn ▸ hlt) hlater rfl
          obtain ⟨u, hu, hne, hhead, hchar⟩ :=
            covers_character hfirst hv (whole_of_stringBody hbody) hquote
          have hquote' : (u ++ v).head? ≠ some '"' := by
            rwa [List.head?_append_of_ne_nil _ hne]
          refine ⟨u ++ v, by rw [hu, hv, h.2, List.append_assoc], ?_⟩
          rw [stringBody_of_ok hquote' hchar, hbody,
            if_pos (by simpa using List.length_pos_iff.mpr hne)]
          simp [Except.map, h.1]

theorem find?_words_self : ∀ w ∈ words, words.find? (·.1.isPrefixOf w.1) = some w := by
  decide

theorem covers_scalar : Covers (scalar maxDigits) := by
  intro l a rest h hr
  rw [scalar] at h
  cases hword : words.find? (·.1.isPrefixOf l) with
  | some word =>
    have hpre : word.1 <+: l := by simpa using List.find?_some hword
    rw [hword] at h
    cases h
    refine ⟨word.1, (List.prefix_iff_eq_append.mp hpre).symm, ?_⟩
    rw [scalar, find?_words_self word (List.mem_of_find?_eq_some hword)]
    simp
  | none =>
    have hnumber : number maxDigits l = .ok (a, rest) := by simpa [hword] using h
    obtain ⟨c, rfl⟩ := suffix_number hnumber
    rw [number_append hr] at hnumber
    cases hc : number maxDigits c with
    | error fault => simp [hc, extend, Except.map] at hnumber
    | ok x =>
      simp only [hc, extend, Except.map, Except.ok.injEq, Prod.mk.injEq] at hnumber
      have hnil : x.2 = [] := by simpa using hnumber.2
      have hnone := find?_words_of_number (r := []) hc (by simp)
      rw [List.append_nil] at hnone
      refine ⟨c, rfl, ?_⟩
      rw [scalar, hnone]
      simp [hc, ← hnumber.1, ← hnil]

/-- What was read of a list, and its closing character. -/
theorem Covers.listOf {p : List Char → Parsed A} (hp : Covers p) (hlocal : Local p)
    {closing : Char} (hclosing : inNumber closing = false) {a : List A} {rest : List Char}
    (h : listOf closing p l = .ok (a, rest)) :
    ∃ u, l = u ++ closing :: rest ∧ listOf closing p (u ++ [closing]) = .ok (a, []) := by
  induction hn : l.length using Nat.strong_induction_on generalizing l a with
  | _ n ih =>
    cases hitem : p l with
    | error fault => simp [listOf_of_error hitem] at h
    | ok item =>
      obtain ⟨item, behind⟩ := item
      obtain ⟨w, hw, hbehind⟩ := exists_blank behind
      cases hskip : skipWs behind with
      | nil =>
        rw [JsonText.listOf, hitem] at h
        simp [hskip] at h
      | cons c t =>
        rw [listOf_of_ok hitem hskip] at h
        -- what is read again of the item, when white space and the character go on
        have hagain (hc : inNumber c = false) (t' : List Char) :
            ∃ u, l = u ++ behind ∧ p (u ++ (w ++ c :: t')) = .ok (item, w ++ c :: t') ∧
              skipWs (w ++ c :: t') = c :: t' := by
          obtain ⟨u, hu, hread⟩ := hp l item behind hitem
            (by simpa using stops_of_skipWs (r := []) hskip hc)
          have hstops : Stops (c :: t') := by simpa [Stops] using hc
          exact ⟨u, hu, hlocal.ok hread (hw.stops_append hstops),
            (skipWs_blank_append hw _).trans (skipWs_cons hskip t')⟩
        split_ifs at h with hc hmore
        · cases h
          subst hc
          obtain ⟨u, hu, hread, hskip'⟩ := hagain hclosing []
          refine ⟨u ++ w, by rw [hu, hbehind, hskip]; simp, ?_⟩
          rw [List.append_assoc, listOf_of_ok hread hskip', if_pos rfl]
        · obtain ⟨w', hw', ht⟩ := exists_blank t
          cases hlater : JsonText.listOf closing p (skipWs t) with
          | error fault => simp [hlater, Except.map] at h
          | ok y =>
            obtain ⟨more, rest'⟩ := y
            simp only [hlater, Except.map, Except.ok.injEq, Prod.mk.injEq] at h
            obtain ⟨rfl, rfl⟩ := h
            obtain ⟨v, hv, hlist⟩ := ih _ (hn ▸ hmore.2) hlater rfl
            obtain ⟨u, hu, hread, hskip'⟩ :=
              hagain (hmore.1 ▸ by decide) (w' ++ (v ++ [closing]))
            have hskip'' : skipWs (w' ++ (v ++ [closing])) = v ++ [closing] := by
              rw [skipWs_blank_append hw']
              exact skipWs_of_append (r := rest') (by simpa using hv) (by simp)
            refine ⟨u ++ w ++ c :: w' ++ v, ?_, ?_⟩
            · rw [hu, hbehind, hskip, ht, hv]
              simp
            · have hwhole : u ++ w ++ c :: w' ++ v ++ [closing] =
                  u ++ (w ++ c :: (w' ++ (v ++ [closing]))) := by simp
              rw [hwhole, listOf_of_ok hread hskip', if_neg hc, hskip'',
                if_pos ⟨hmore.1, by simp; omega⟩, hlist]
              rfl

theorem Covers.bracketed {p : List Char → Parsed A} (hp : Covers p) (hlocal : Local p)
    {closing : Char} (hclosing : inNumber closing = false) {a : List A} {rest : List Char}
    (h : bracketed closing p l = .ok (a, rest)) :
    ∃ u, l = u ++ closing :: rest ∧ bracketed closing p (u ++ [closing]) = .ok (a, []) := by
  obtain ⟨w, hw, hl⟩ := exists_blank l
  cases hskip : skipWs l with
  | nil => simp [JsonText.bracketed, hskip] at h
  | cons c t =>
    have hkept (t' : List Char) : skipWs (w ++ c :: t') = c :: t' :=
      (skipWs_blank_append hw _).trans (skipWs_cons hskip t')
    simp only [JsonText.bracketed, hskip] at h
    split_ifs at h with hc
    · cases h
      subst hc
      refine ⟨w, by rw [hl, hskip], ?_⟩
      simp [JsonText.bracketed, hkept []]
    · obtain ⟨v, hv, hlist⟩ := hp.listOf hlocal hclosing h
      cases v with
      | nil => exact absurd (List.cons_eq_cons.mp hv).1 hc
      | cons d v =>
        obtain rfl : c = d := (List.cons_eq_cons.mp hv).1
        refine ⟨w ++ c :: v, by rw [hl, hskip, hv]; simp, ?_⟩
        have hwhole : w ++ c :: v ++ [closing] = w ++ c :: (v ++ [closing]) := by simp
        simp only [JsonText.bracketed, hwhole, hkept, if_neg hc]
        exact hlist

theorem Covers.field {p : List Char → Parsed Value} (hp : Covers p) (hlocal : Local p) :
    Covers (field p) := by
  intro l a rest h hr
  have hne : JsonText.field p l ≠ .error .decodeError := by simp [h]
  obtain ⟨t, key, behind, u, rfl, hkey, hcolon⟩ := exists_of_field hne
  rw [field_of_colon hkey hcolon] at h
  cases hitem : p (skipWs u) with
  | error fault => simp [hitem, Except.map] at h
  | ok item =>
    obtain ⟨item, rest'⟩ := item
    simp only [hitem, Except.map, Except.ok.injEq, Prod.mk.injEq] at h
    obtain ⟨rfl, rfl⟩ := h
    obtain ⟨k, hk, hread⟩ := covers_stringBody hkey
    obtain ⟨w, hw, hbehind⟩ := exists_blank behind
    obtain ⟨w', hw', hu⟩ := exists_blank u
    obtain ⟨v, hv, hitem'⟩ := hp _ item rest' hitem hr
    have hvne : v ≠ [] := by
      rintro rfl
      simp [hlocal.nil] at hitem'
    have hskip : skipWs (w ++ ':' :: (w' ++ v)) = ':' :: (w' ++ v) :=
      (skipWs_blank_append hw _).trans (skipWs_cons hcolon _)
    have hskip' : skipWs (w' ++ v) = v :=
      (skipWs_blank_append hw' v).trans (skipWs_of_append hv hvne)
    refine ⟨'"' :: (k ++ (w ++ ':' :: (w' ++ v))), ?_, ?_⟩
    · rw [hk, hbehind, hcolon, hu, hv]
      simp
    · have hkey' : stringBody (k ++ (w ++ ':' :: (w' ++ v))) = .ok (key, w ++ ':' :: (w' ++ v)) :=
        stringBody_append hread
      rw [field_of_colon hkey' hskip, hskip', hitem']
      rfl

theorem covers_flat {c : Char} {t rest : List Char} {a : Value} (hlist : c ≠ '[')
    (hobject : c ≠ '\x7b') (h : value maxDigits depth (c :: t) = .ok (a, rest)) (hr : Stops rest) :
    ∃ u, c :: t = u ++ rest ∧ value maxDigits depth u = .ok (a, []) := by
  by_cases hquote : c = '"'
  · subst hquote
    rw [value_string] at h
    cases hbody : stringBody t with
    | error fault => simp [hbody, Except.map] at h
    | ok x =>
      simp only [hbody, Except.map, Except.ok.injEq, Prod.mk.injEq] at h
      obtain ⟨u, hu, hread⟩ := covers_stringBody hbody
      refine ⟨'"' :: u, by rw [hu, h.2]; rfl, ?_⟩
      rw [value_string, hread]
      simp [Except.map, h.1]
  · rw [value_scalar hquote hlist hobject] at h
    obtain ⟨u, hu, hread⟩ := covers_scalar _ a rest h hr
    cases u with
    | nil => simp [local_scalar.nil] at hread
    | cons d u =>
      obtain rfl : c = d := (List.cons_eq_cons.mp hu).1
      exact ⟨c :: u, hu, (value_scalar hquote hlist hobject).trans hread⟩

theorem Covers.object (hp : Covers (value maxDigits depth)) {t rest : List Char} {a : Value}
    (h : value maxDigits (depth + 1) ('\x7b' :: t) = .ok (a, rest)) :
    ∃ u, t = u ++ '\x7d' :: rest ∧
      value maxDigits (depth + 1) ('\x7b' :: (u ++ ['\x7d'])) = .ok (a, []) := by
  rw [value_object] at h
  cases hbody : JsonText.bracketed '\x7d' (JsonText.field (value maxDigits depth)) t with
  | error fault => simp [hbody, Except.map] at h
  | ok x =>
    simp only [hbody, Except.map, Except.ok.injEq, Prod.mk.injEq] at h
    obtain ⟨u, hu, hread⟩ :=
      (hp.field (local_value depth)).bracketed (local_value depth).field (by decide) hbody
    refine ⟨u, by rw [hu, h.2], ?_⟩
    rw [value_object, hread]
    simp [Except.map, h.1]

theorem covers_value (depth : ℕ) : Covers (value maxDigits depth) := by
  induction depth with
  | zero =>
    intro l a rest h hr
    match l with
    | [] => simp [value_nil] at h
    | c :: t =>
      by_cases hopen : c = '[' ∨ c = '\x7b'
      · simp [value_zero hopen] at h
      · rw [not_or] at hopen
        exact covers_flat hopen.1 hopen.2 h hr
  | succ depth ih =>
    intro l a rest h hr
    match l with
    | [] => simp [value_nil] at h
    | c :: t =>
      by_cases hlist : c = '['
      · subst hlist
        rw [value_list] at h
        cases hbody : JsonText.bracketed ']' (value maxDigits depth) t with
        | error fault => simp [hbody, Except.map] at h
        | ok x =>
          simp only [hbody, Except.map, Except.ok.injEq, Prod.mk.injEq] at h
          obtain ⟨u, hu, hread⟩ := ih.bracketed (local_value depth) (by decide) hbody
          refine ⟨'[' :: (u ++ [']']), by rw [hu, h.2]; simp, ?_⟩
          rw [value_list, hread]
          simp [Except.map, h.1]
      · by_cases hobject : c = '\x7b'
        · subst hobject
          obtain ⟨u, hu, hread⟩ := ih.object h
          exact ⟨'\x7b' :: (u ++ ['\x7d']), by rw [hu]; simp, hread⟩
        · exact covers_flat hlist hobject h hr

/-- What was read of an object ends with its closing brace. -/
theorem exists_object {t rest : List Char} {a : Value}
    (h : value maxDigits depth ('\x7b' :: t) = .ok (a, rest)) :
    ∃ u, t = u ++ '\x7d' :: rest ∧
      value maxDigits depth ('\x7b' :: (u ++ ['\x7d'])) = .ok (a, []) := by
  cases depth with
  | zero => simp [value_zero (.inr rfl)] at h
  | succ depth => exact (covers_value depth).object h

/-! ## Texts that go on -/

theorem loads_eq_ok {text : List Char} {a : Value} : loads maxDigits depth text = .ok a ↔
    text.head? ≠ some '\uFEFF' ∧ ∃ rest, value maxDigits depth (skipWs text) = .ok (a, rest) ∧
      Blank rest := by
  rw [loads]
  split_ifs with hbom
  · simp [hbom]
  · cases hvalue : value maxDigits depth (skipWs text) with
    | error fault => simp
    | ok x =>
      obtain ⟨b, rest⟩ := x
      by_cases hrest : skipWs rest = [] <;> simp [hrest, hbom, Blank]

theorem loads_eq_error {text : List Char} {fault : Fault} (hne : fault ≠ .decodeError)
    (h : loads maxDigits depth text = .error fault) :
    value maxDigits depth (skipWs text) = .error fault := by
  rw [loads] at h
  split_ifs at h
  · cases h
    exact absurd rfl hne
  · cases hvalue : value maxDigits depth (skipWs text) with
    | error fault' => simpa [hvalue] using h
    | ok x =>
      obtain ⟨b, rest⟩ := x
      by_cases hrest : skipWs rest = []
      · simp [hvalue, hrest] at h
      · simp only [hvalue, hrest, if_false, Except.error.injEq] at h
        exact absurd h.symm hne

theorem skipWs_ne_nil {x : Parsed Value} (h : value maxDigits depth (skipWs l) = x)
    (hne : x ≠ .error .decodeError) : skipWs l ≠ [] := by
  intro hnil
  rw [hnil, value_nil] at h
  exact hne h.symm

/-- A character that no value begins with. -/
def Foreign (c : Char) : Prop :=
  c ∉ [' ', '\t', '\n', '\r', '"', '[', '\x7b', '-'] ∧ isDigit c = false ∧
    ∀ w ∈ words, w.1.head? ≠ some c

theorem loads_of_foreign {c : Char} (h : Foreign c) (t : List Char) :
    loads maxDigits depth (c :: t) = .error .decodeError := by
  obtain ⟨hnot, hdigit, hwords⟩ := h
  simp only [List.mem_cons, List.not_mem_nil, or_false, not_or] at hnot
  have hskip : skipWs (c :: t) = c :: t := List.dropWhile_cons_of_neg (by simp [hnot])
  have hnone : words.find? (·.1.isPrefixOf (c :: t)) = none := by
    rw [List.find?_eq_none]
    intro w hw hpre
    have hhead := head?_eq_head? (List.isPrefixOf_iff_prefix.mp hpre) (words_ne_nil w hw)
    exact hwords w hw hhead
  have hint : intDigits (c :: t) = none := by
    cases hdigits : intDigits (c :: t) with
    | none => rfl
    | some x =>
      obtain ⟨d, rest, heq, hd⟩ := head_of_intDigits hdigits
      cases heq
      simp [hdigit] at hd
  have hvalue : value maxDigits depth (c :: t) = .error .decodeError := by
    rw [value_scalar (by simp [hnot]) (by simp [hnot]) (by simp [hnot]), scalar, hnone]
    simp only
    rw [number_of_ne (by simp [hnot]), unsigned, hint]
  rw [loads, hskip, hvalue]
  split_ifs <;> rfl

/-- **What is cut off from a JSON text is no JSON text**, and nothing worse. -/
theorem loads_of_cut {u v : List Char} {a : Value} (h : loads maxDigits depth (u ++ v) = .ok a)
    (hv : Stops v) (hblank : ¬ Blank v) : loads maxDigits depth u = .error .decodeError := by
  obtain ⟨-, rest, hvalue, hrest⟩ := loads_eq_ok.mp h
  cases hu : loads maxDigits depth u with
  | ok b =>
    obtain ⟨-, rest', hvalue', hrest'⟩ := loads_eq_ok.mp hu
    rw [skipWs_append (skipWs_ne_nil hvalue' (by simp)),
      (local_value depth).ok hvalue' (hrest'.stops_append hv)] at hvalue
    cases hvalue
    exact absurd ((skipWs_blank_append hrest' v).symm.trans hrest) hblank
  | error fault =>
    by_contra hfault
    have hne : fault ≠ .decodeError := fun heq => hfault (congrArg Except.error heq)
    have hvalue' := loads_eq_error hne hu
    rw [skipWs_append (skipWs_ne_nil hvalue' (by simpa using hne)),
      (local_value depth).error hvalue' hne hv] at hvalue
    cases hvalue

/-- Blanks around a JSON text. -/
theorem loads_of_blank {p s q : List Char} {a : Value} (hs : loads maxDigits depth s = .ok a)
    (hp : Blank p) (hq : Blank q) : loads maxDigits depth (p ++ s ++ q) = .ok a := by
  obtain ⟨hbom, rest, hvalue, hrest⟩ := loads_eq_ok.mp hs
  have hne := skipWs_ne_nil hvalue (by simp)
  have hqs : Stops q := by simpa using hq.stops_append (r := []) (by simp [Stops])
  refine loads_eq_ok.mpr ⟨?_, rest ++ q, ?_, (skipWs_blank_append hrest q).trans hq⟩
  · cases p with
    | nil => rwa [List.nil_append, List.head?_append_of_ne_nil _ (by rintro rfl; exact hne rfl)]
    | cons c p =>
      intro hhead
      obtain rfl : c = '\uFEFF' := by simpa using hhead
      exact absurd (blank_iff.mp hp _ List.mem_cons_self) (by decide)
  · rw [List.append_assoc, skipWs_blank_append hp, skipWs_append hne]
    exact (local_value depth).ok hvalue (hrest.stops_append hqs)

theorem words_ne_obj (w : List Char × Value) (hw : w ∈ words) (d : List (Option String × Value)) :
    w.2 ≠ .obj d := by
  simp only [words, List.mem_cons, List.not_mem_nil, or_false] at hw
  obtain rfl | rfl | rfl | rfl | rfl | rfl := hw <;> simp

theorem unsigned_ne_obj {negative : Bool} (d : List (Option String × Value)) {rest : List Char} :
    unsigned maxDigits negative l ≠ .ok (.obj d, rest) := by
  rw [unsigned]
  cases intDigits l with
  | none => simp
  | some digits =>
    simp only
    split_ifs <;> simp

theorem number_ne_obj (d : List (Option String × Value)) {rest : List Char} :
    number maxDigits l ≠ .ok (.obj d, rest) := by
  by_cases hminus : l.head? = some '-'
  · obtain ⟨l, rfl⟩ := List.head?_eq_some_iff.mp hminus
    exact unsigned_ne_obj d
  · exact number_of_ne hminus ▸ unsigned_ne_obj d

theorem head_of_value_obj {c : Char} {t rest : List Char} {d : List (Option String × Value)}
    (h : value maxDigits depth (c :: t) = .ok (.obj d, rest)) : c = '\x7b' := by
  by_contra hobject
  by_cases hlist : c = '['
  · subst hlist
    cases depth with
    | zero => simp [value_zero (.inl rfl)] at h
    | succ depth =>
      rw [value_list] at h
      cases hbody : bracketed ']' (value maxDigits depth) t <;> simp [hbody, Except.map] at h
  · by_cases hquote : c = '"'
    · subst hquote
      rw [value_string] at h
      cases hbody : stringBody t <;> simp [hbody, Except.map] at h
    · rw [value_scalar hquote hlist hobject, scalar] at h
      cases hword : words.find? (·.1.isPrefixOf (c :: t)) with
      | some word =>
        simp only [hword, Except.ok.injEq, Prod.mk.injEq] at h
        exact words_ne_obj _ (List.mem_of_find?_eq_some hword) d h.1
      | none =>
        rw [hword] at h
        exact number_ne_obj d h

/-- Only blanks leave an object what it is. -/
theorem blank_of_loads {p s q : List Char} {d d' : List (Option String × Value)}
    (hs : loads maxDigits depth s = .ok (.obj d)) (hp : '\x7b' ∉ p)
    (h : loads maxDigits depth (p ++ s ++ q) = .ok (.obj d')) : Blank p ∧ Blank q := by
  obtain ⟨-, rest, hvalue, hrest⟩ := loads_eq_ok.mp hs
  obtain ⟨-, rest', hvalue', hrest'⟩ := loads_eq_ok.mp h
  have hblank : Blank p := by
    by_contra hne
    rw [List.append_assoc, skipWs_append hne] at hvalue'
    cases hskip : skipWs p with
    | nil => exact hne hskip
    | cons c t =>
      rw [hskip] at hvalue'
      have hmem : c ∈ p := (List.dropWhile_suffix _).subset (hskip ▸ List.mem_cons_self)
      exact hp (head_of_value_obj hvalue' ▸ hmem)
  refine ⟨hblank, ?_⟩
  rw [List.append_assoc, skipWs_blank_append hblank] at hvalue'
  cases hskip : skipWs s with
  | nil => exact absurd hskip (skipWs_ne_nil hvalue (by simp))
  | cons c t =>
    rw [hskip] at hvalue
    obtain rfl := head_of_value_obj hvalue
    rw [skipWs_append (by simp [hskip]), hskip, value_object_append hvalue] at hvalue'
    cases hvalue'
    exact (skipWs_blank_append hrest q).symm.trans hrest'

/-- An object between its braces, and blanks around it. -/
theorem exists_braces {s : List Char} {d : List (Option String × Value)}
    (hs : loads maxDigits depth s = .ok (.obj d)) :
    ∃ p u q, s = p ++ '\x7b' :: (u ++ '\x7d' :: q) ∧ Blank p ∧ Blank q ∧
      loads maxDigits depth ('\x7b' :: (u ++ ['\x7d'])) = .ok (.obj d) := by
  obtain ⟨-, rest, hvalue, hrest⟩ := loads_eq_ok.mp hs
  obtain ⟨p, hp, hps⟩ := exists_blank s
  cases hskip : skipWs s with
  | nil => exact absurd hskip (skipWs_ne_nil hvalue (by simp))
  | cons c t =>
    rw [hskip] at hvalue
    obtain rfl := head_of_value_obj hvalue
    obtain ⟨u, hu, hread⟩ := exists_object hvalue
    refine ⟨p, u, rest, by rw [hps, hskip, hu], hp, hrest, loads_eq_ok.mpr ⟨by simp, [], ?_, rfl⟩⟩
    rw [skipWs_cons hskip]
    exact hread

end JsonText
