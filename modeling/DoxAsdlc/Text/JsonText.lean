import DoxAsdlc.Numeric.Binary64

/-!
# Decoding JSON texts

A JSON text is decoded as Python's `json.loads` does: besides the grammar, `NaN`, `Infinity` and
`-Infinity` stand for numbers, a number with a fraction or an exponent is a binary64 number, an
integer has so many digits at most, and a text is nested only so deep.

A text may have an escape that is half of a surrogate pair. Such a text is not made of
characters, and stands as `none`.

## Main definitions

* `JsonText.Value` — the values.
* `JsonText.loads` — the decoder.
-/

namespace JsonText

/-- A floating-point number. -/
inductive FloatValue where
  | finite (x : ℚ)
  | infinite (negative : Bool)
  | nan
  deriving DecidableEq, Repr

/-- A JSON value. -/
inductive Value where
  | null
  | bool (b : Bool)
  | int (n : ℤ)
  | float (x : FloatValue)
  | str (text : Option String)
  | arr (items : List Value)
  | obj (fields : List (Option String × Value))

mutual

/-- Whether two values are the same. -/
def Value.same : Value → Value → Bool
  | .null, .null => true
  | .bool b, .bool c => b = c
  | .int n, .int m => n = m
  | .float x, .float y => x = y
  | .str s, .str t => s = t
  | .arr l, .arr k => sameItems l k
  | .obj l, .obj k => sameFields l k
  | _, _ => false

/-- Whether two lists have the same values. -/
def sameItems : List Value → List Value → Bool
  | [], [] => true
  | v :: l, w :: k => v.same w && sameItems l k
  | _, _ => false

/-- Whether two objects have the same fields. -/
def sameFields : List (Option String × Value) → List (Option String × Value) → Bool
  | [], [] => true
  | (s, v) :: l, (t, w) :: k => s = t && v.same w && sameFields l k
  | _, _ => false

end

mutual

theorem Value.same_iff : ∀ v w : Value, v.same w = true ↔ v = w
  | .arr l, w => by cases w <;> simp [Value.same, sameItems_iff l]
  | .obj l, w => by cases w <;> simp [Value.same, sameFields_iff l]
  | .null, w | .bool _, w | .int _, w | .float _, w | .str _, w => by cases w <;> simp [Value.same]

theorem sameItems_iff : ∀ l k : List Value, sameItems l k = true ↔ l = k
  | [], k => by cases k <;> simp [sameItems]
  | v :: l, k => by cases k <;> simp [sameItems, v.same_iff, sameItems_iff l]

theorem sameFields_iff : ∀ l k : List (Option String × Value), sameFields l k = true ↔ l = k
  | [], k => by cases k <;> simp [sameFields]
  | (s, v) :: l, k => by
    rcases k with _ | ⟨⟨t, w⟩, k⟩ <;> simp [sameFields, v.same_iff, sameFields_iff l]

end

instance : DecidableEq Value := fun v w => decidable_of_iff _ (v.same_iff w)

/-- The value of a key, the last one that was given. -/
def field? (fields : List (Option String × Value)) (key : String) : Option Value :=
  ((fields.filter (·.1 = some key)).map Prod.snd).getLast?

/-- What the decoder raises: a `JSONDecodeError` for what is no JSON text, another `ValueError` for
an integer of too many digits, a `RecursionError` for a text that is nested too deep. -/
inductive Fault where
  | decodeError
  | valueError
  | recursionError
  deriving DecidableEq, Repr

/-- What is read from the begin of a text, and what is left. -/
abbrev Parsed (A : Type) := Except Fault (A × List Char)

/-! ## Parts -/

/-- Leave white space out. -/
def skipWs (l : List Char) : List Char := l.dropWhile (· ∈ [' ', '\t', '\n', '\r'])

/-- The value of a hexadecimal digit. -/
def hexDigit (c : Char) : Option ℕ :=
  if '0' ≤ c ∧ c ≤ '9' then some (c.toNat - 48)
  else if 'a' ≤ c ∧ c ≤ 'f' then some (c.toNat - 87)
  else if 'A' ≤ c ∧ c ≤ 'F' then some (c.toNat - 55)
  else none

/-- The value of four hexadecimal digits. -/
def hex4 (a b c d : Char) : Option ℕ := do
  return ((← hexDigit a) * 16 + (← hexDigit b)) * 256 + ((← hexDigit c) * 16 + (← hexDigit d))

/-- The character of an escape of one letter. -/
def escape? (c : Char) : Option Char :=
  [('"', '"'), ('\\', '\\'), ('/', '/'), ('b', '\x08'), ('f', '\x0c'), ('n', '\n'), ('r', '\r'),
    ('t', '\t')].lookup c

/-- A character of a text; `none` for half of a surrogate pair. -/
def character : List Char → Parsed (Option Char)
  | '\\' :: 'u' :: a :: b :: c :: d :: rest =>
    match hex4 a b c d with
    | none => .error .decodeError
    | some n =>
      if n < 0xD800 ∨ 0xDFFF < n then .ok (some (Char.ofNat n), rest)
      else
        match rest with
        | '\\' :: 'u' :: e :: f :: g :: h :: rest' =>
          match hex4 e f g h with
          | none => .error .decodeError
          | some m =>
            if n < 0xDC00 ∧ 0xDC00 ≤ m ∧ m ≤ 0xDFFF then
              .ok (some (Char.ofNat (0x10000 + (n - 0xD800) * 0x400 + (m - 0xDC00))), rest')
            else .ok (none, rest)
        | _ => .ok (none, rest)
  | '\\' :: c :: rest =>
    match escape? c with
    | none => .error .decodeError
    | some x => .ok (some x, rest)
  | c :: rest => if c.toNat < 0x20 then .error .decodeError else .ok (some c, rest)
  | [] => .error .decodeError

/-- A text from behind its opening quote. -/
def stringBody (l : List Char) : Except Fault (Option (List Char) × List Char) :=
  match l with
  | '"' :: rest => .ok (some [], rest)
  | l => do
      let (x, rest) ← character l
      if rest.length < l.length then do
        let (xs, rest) ← stringBody rest
        return (x.bind fun c => xs.map (c :: ·), rest)
      else throw .decodeError
termination_by l.length

/-- A decimal digit. -/
def isDigit (c : Char) : Bool := '0' ≤ c ∧ c ≤ '9'

/-- The number that digits stand for. -/
def ofDigits (digits : List Char) : ℕ := digits.foldl (fun n c => 10 * n + (c.toNat - 48)) 0

/-- The integer part of a number. -/
def intDigits : List Char → Option (List Char × List Char)
  | '0' :: rest => some (['0'], rest)
  | c :: rest => if isDigit c then some ((c :: rest).span isDigit) else none
  | [] => none

/-- The fraction of a number. -/
def fraction : List Char → Option (List Char × List Char)
  | '.' :: c :: rest => if isDigit c then some ((c :: rest).span isDigit) else none
  | _ => none

/-- The exponent of a number. -/
def exponent : List Char → Option (ℤ × List Char)
  | [] => none
  | e :: rest =>
    if e = 'e' ∨ e = 'E' then
      let (negative, rest) := match rest with
        | '-' :: rest => (true, rest)
        | '+' :: rest => (false, rest)
        | rest => (false, rest)
      let (digits, rest) := rest.span isDigit
      if digits = [] then none
      else some (if negative then -(ofDigits digits : ℤ) else ofDigits digits, rest)
    else none

/-- The binary64 number of a rational one. -/
@[irreducible] def toFloat (x : ℚ) : FloatValue :=
  if 2 ^ 1024 - 2 ^ 970 ≤ |x| then .infinite (x < 0) else .finite (Binary64.round x)

/-- A number; an integer of more than so many digits is refused. -/
def number (maxDigits : ℕ) (l : List Char) : Parsed Value :=
  let (negative, unsigned) := match l with
    | '-' :: rest => (true, rest)
    | _ => (false, l)
  match intDigits unsigned with
  | none => .error .decodeError
  | some (digits, rest) =>
    let fractionPart := fraction rest
    let (fractionDigits, rest) := fractionPart.getD ([], rest)
    let exponentPart := exponent rest
    let (power, rest) := exponentPart.getD (0, rest)
    if fractionPart.isNone ∧ exponentPart.isNone then
      if maxDigits < digits.length then .error .valueError
      else .ok (.int (if negative then -(ofDigits digits : ℤ) else ofDigits digits), rest)
    else
      let x : ℚ := ofDigits (digits ++ fractionDigits) * 10 ^ (power - fractionDigits.length)
      .ok (.float (toFloat (if negative then -x else x)), rest)

/-- The values that words stand for. -/
def words : List (List Char × Value) :=
  [("null".toList, .null), ("true".toList, .bool true), ("false".toList, .bool false),
    ("NaN".toList, .float .nan), ("Infinity".toList, .float (.infinite false)),
    ("-Infinity".toList, .float (.infinite true))]

/-- A word or a number. -/
def scalar (maxDigits : ℕ) (l : List Char) : Parsed Value :=
  match words.find? fun word => word.1.isPrefixOf l with
  | some (word, value) => .ok (value, l.drop word.length)
  | none => number maxDigits l

/-! ## Values -/

section

variable (value : List Char → Parsed Value)

/-- The items of a list. -/
def items (l : List Char) : Except Fault (List Value × List Char) := do
  let (item, rest) ← value l
  match skipWs rest with
  | ']' :: rest => return ([item], rest)
  | ',' :: rest =>
    if (skipWs rest).length < l.length then do
      let (more, rest) ← items (skipWs rest)
      return (item :: more, rest)
    else throw .decodeError
  | _ => throw .decodeError
termination_by l.length

/-- The fields of an object. -/
def fields (l : List Char) : Except Fault (List (Option String × Value) × List Char) :=
  if l.head? = some '"' then do
    let (key, rest) ← stringBody l.tail
    match skipWs rest with
    | ':' :: rest => do
        let (item, rest) ← value (skipWs rest)
        match skipWs rest with
        | '\x7d' :: rest => return ([(key.map String.ofList, item)], rest)
        | ',' :: rest =>
          if (skipWs rest).length < l.length then do
            let (more, rest) ← fields (skipWs rest)
            return ((key.map String.ofList, item) :: more, rest)
          else throw .decodeError
        | _ => throw .decodeError
    | _ => throw .decodeError
  else throw .decodeError
termination_by l.length

end

/-- A value, with lists and objects nested so deep at most. -/
def value (maxDigits : ℕ) : ℕ → List Char → Except Fault (Value × List Char)
  | _, [] => .error .decodeError
  | depth, c :: rest =>
    if c = '"' then do
      let (text, rest) ← stringBody rest
      return (.str (text.map String.ofList), rest)
    else if c = '[' then
      match depth with
      | 0 => .error .recursionError
      | depth + 1 =>
        match skipWs rest with
        | ']' :: rest => .ok (.arr [], rest)
        | rest => (items (value maxDigits depth) rest).map fun (l, rest) => (.arr l, rest)
    else if c = '\x7b' then
      match depth with
      | 0 => .error .recursionError
      | depth + 1 =>
        match skipWs rest with
        | '\x7d' :: rest => .ok (.obj [], rest)
        | rest => (fields (value maxDigits depth) rest).map fun (l, rest) => (.obj l, rest)
    else scalar maxDigits (c :: rest)

/-- `json.loads`. -/
def loads (maxDigits depth : ℕ) (text : List Char) : Except Fault Value :=
  if text.head? = some '\uFEFF' then .error .decodeError
  else
    match value maxDigits depth (skipWs text) with
    | .error fault => .error fault
    | .ok (result, rest) => if skipWs rest = [] then .ok result else .error .decodeError

end JsonText
