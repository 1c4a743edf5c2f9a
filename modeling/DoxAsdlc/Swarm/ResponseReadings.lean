import DoxAsdlc.Swarm.ResponseParser

/-!
# What the parser reads out of an answer

An answer holds a JSON object: by itself, in a code fence, or in prose.  Its list of findings is
read item by item if the code fence that the parser finds is the one around the object, and not
one in a text of the object, and if the outermost braces are the object's.  The parser raises where
a text is nested too deep for `json.loads`, and where a number is too large to be converted.

## Main definitions

* `Describes`, `WellFormed` — the items that describe a finding.
* `Tried`, `Sound` — the texts that are decoded, and those that raise nothing.
* `Holds`, `Undisturbed` — an answer holds a JSON object, and the parser finds it.

## Main results

* `parse_ok` — when the parser raises nothing.
* `parse_findings` — when it returns one finding for each item, too.
-/

namespace DoxAsdlc.Swarm.ResponseParser

open Backtracking Matcher JsonText

variable {env : ResponseEnv} {reviewerType id : String}

/-! ## Items -/

/-- The fields of an item describe a finding. -/
structure Describes (env : ResponseEnv) (fields : List (Option String × Value))
    (finding : ReviewFinding) : Prop where
  severity : ∃ text, field? fields "severity" = some (.str (some text)) ∧
    severityOf (env.upper text) = some finding.severity
  category : field? fields "category" = some (.str (some finding.category))
  title : field? fields "title" = some (.str (some finding.title))
  description : field? fields "description" = some (.str (some finding.description))
  recommendation : field? fields "recommendation" = some (.str (some finding.recommendation))
  confidence : ∃ value x, field? fields "confidence" = some value ∧
    float env value = .ok (.finite x) ∧ finding.confidence = clamp (.finite x)
  filePath : getOf fields "file_path" (.str (some "")) = .str (some finding.filePath)
  lineStart : getOf fields "line_start" .null = .int finding.lineStart ∨
    getOf fields "line_start" .null = .null ∧ finding.lineStart = 0
  lineEnd : (∃ n, getOf fields "line_end" .null = .int n ∧ finding.lineEnd = some n) ∨
    getOf fields "line_end" .null = .null ∧ finding.lineEnd = none
  codeSnippet : (∃ text, getOf fields "code_snippet" .null = .str (some text) ∧
      finding.codeSnippet = some text) ∨
    getOf fields "code_snippet" .null = .null ∧ finding.codeSnippet = none

/-- A finding of a reviewer is made of an item. -/
def MadeOf (env : ResponseEnv) (reviewerType : String) (item : Value) (finding : ReviewFinding) :
    Prop :=
  finding.reviewerType = reviewerType ∧ ∃ fields, item = .obj fields ∧ Describes env fields finding

/-- An item that describes a finding. -/
def WellFormed (env : ResponseEnv) (item : Value) : Prop :=
  ∃ fields finding, item = .obj fields ∧ Describes env fields finding

variable {fields : List (Option String × Value)} {finding : ReviewFinding}

theorem getOf_of_field? {key : String} {value default : Value}
    (h : field? fields key = some value) : getOf fields key default = value := by
  simp [getOf, h]

@[simp] theorem str_str (text : Option String) : str env (.str text) = text := rfl

theorem Describes.construct (h : Describes env fields finding) :
    construct env reviewerType id finding.severity finding.confidence (getOf fields) =
      .ok { finding with id := id, reviewerType := reviewerType } := by
  have hstart : lineOf env (getOf fields "line_start" .null) = .ok finding.lineStart := by
    rcases h.lineStart with hint | ⟨hnull, hzero⟩
    · by_cases hn : finding.lineStart = 0 <;> simp [hint, lineOf, truthy, int, hn]
    · simp [hnull, hzero, lineOf, truthy]
  have hend : env.optionalInt (getOf fields "line_end" .null) = some finding.lineEnd := by
    rcases h.lineEnd with ⟨n, hn, hfinding⟩ | ⟨hnull, hfinding⟩
    · rw [hn, hfinding, env.optionalInt_int]
    · rw [hnull, hfinding, env.optionalInt_null]
  have hsnippet : optionalText (getOf fields "code_snippet" .null) = some finding.codeSnippet := by
    rcases h.codeSnippet with ⟨text, htext, hfinding⟩ | ⟨hnull, hfinding⟩
    · rw [htext, hfinding, optionalText]
    · rw [hnull, hfinding, optionalText]
  have hstored : stored env reviewerType id finding.severity finding.confidence finding.lineStart
      (getOf fields) = some { finding with id := id, reviewerType := reviewerType } := by
    simp [stored, hend, hsnippet, h.filePath, getOf_of_field? h.category, getOf_of_field? h.title,
      getOf_of_field? h.description, getOf_of_field? h.recommendation]
  rw [ResponseParser.construct, hstart, ok_bind, hstored]
  rfl

theorem dictToFinding_of_describes (h : Describes env fields finding) :
    dictToFinding env reviewerType id (.obj fields) =
      .ok (some { finding with id := id, reviewerType := reviewerType }) := by
  obtain ⟨text, hseverity, hvalue⟩ := h.severity
  obtain ⟨value, x, hconfidence, hx, hclamp⟩ := h.confidence
  have hrequired : (required.all fun key => (field? fields key).isSome) = true := by
    simp [required, hseverity, hconfidence, h.category, h.title, h.description, h.recommendation]
  simp only [dictToFinding, hrequired, if_true, getOf_of_field? hseverity, str_str,
    Option.map_some, Option.bind_some, hvalue, getOf_of_field? hconfidence, hx, ok_bind, ← hclamp,
    h.construct, orNone]

theorem itemFindings_of_wellFormed {items : List Value} (h : ∀ item ∈ items, WellFormed env item)
    (i : ℕ) : ∃ findings, itemFindings env reviewerType i items = .ok findings ∧
      List.Forall₂ (MadeOf env reviewerType) items findings := by
  induction items generalizing i with
  | nil => exact ⟨[], rfl, .nil⟩
  | cons item items ih =>
    obtain ⟨fields, finding, hitem, hdescribes⟩ := h item List.mem_cons_self
    obtain ⟨findings, hfindings, hmade⟩ := ih (fun a ha => h a (List.mem_cons_of_mem _ ha)) (i + 1)
    refine ⟨{ finding with id := env.ids i, reviewerType := reviewerType } :: findings, ?_, ?_⟩
    · rw [itemFindings, hitem, dictToFinding_of_describes hdescribes, ok_bind, hfindings]
      rfl
    · refine .cons ⟨rfl, fields, hitem, ?_⟩ hmade
      exact { hdescribes with }

/-! ## What raises -/

/-- An item of which a number is too large: its severity is valid, nothing is missing, and its
confidence is an integer beyond the binary64 numbers or its line is infinite. -/
def Overflows (env : ResponseEnv) (item : Value) : Prop :=
  ∃ fields, item = .obj fields ∧ (∀ key ∈ required, (field? fields key).isSome) ∧
    (∃ text severity, str env (getOf fields "severity" .null) = some text ∧
      severityOf (env.upper text) = some severity) ∧
    ((∃ n negative, getOf fields "confidence" .null = .int n ∧ toFloat n = .infinite negative) ∨
      (∃ x, float env (getOf fields "confidence" .null) = .ok x) ∧
        ∃ negative, getOf fields "line_start" .null = .float (.infinite negative))

theorem float_eq_overflowError {value : Value} : float env value = .error .overflowError ↔
    ∃ n negative, value = .int n ∧ toFloat n = .infinite negative := by
  cases value with
  | int n =>
    cases h : toFloat n <;> simp [float, h]
  | str text => cases h : text.bind env.floatOf <;> simp [float, h]
  | _ => simp [float]

theorem lineOf_eq_overflowError {value : Value} : lineOf env value = .error .overflowError ↔
    ∃ negative, value = .float (.infinite negative) := by
  cases value with
  | float x =>
    cases x with
    | finite x => by_cases hx : x = 0 <;> simp [lineOf, truthy, int, hx]
    | _ => simp [lineOf, truthy, int]
  | str text =>
    by_cases h : text = some ""
    · simp [lineOf, truthy, h]
    · cases h' : text.bind env.intOf <;> simp [lineOf, truthy, int, h, h']
  | int n => by_cases hn : n = 0 <;> simp [lineOf, truthy, int, hn]
  | bool b => cases b <;> simp [lineOf, truthy, int]
  | null => simp [lineOf, truthy]
  | arr items => cases items <;> simp [lineOf, truthy, int]
  | obj fields => cases fields <;> simp [lineOf, truthy, int]

theorem construct_eq_overflowError {severity : Severity} {confidence : Confidence}
    {get : String → Value → Value} :
    construct env reviewerType id severity confidence get = .error .overflowError ↔
      ∃ negative, get "line_start" .null = .float (.infinite negative) := by
  rw [construct, bind_eq_error, lineOf_eq_overflowError, or_iff_left]
  intro ⟨lineStart, _, h⟩
  split at h
  · exact absurd h (by simp [pure, Except.pure])
  · exact absurd h (by simp [throw, throwThe, MonadExceptOf.throw])

theorem orNone_ok {A : Type} {x : Except Refused A} :
    (∃ a, orNone x = .ok a) ↔ x ≠ .error .overflowError := by
  match x with
  | .ok a => simp [orNone]
  | .error .caught => simp [orNone]
  | .error .overflowError => simp [orNone]

theorem overflows_obj : Overflows env (.obj fields) ↔
    (∀ key ∈ required, (field? fields key).isSome) ∧
    (∃ text severity, str env (getOf fields "severity" .null) = some text ∧
      severityOf (env.upper text) = some severity) ∧
    ((∃ n negative, getOf fields "confidence" .null = .int n ∧ toFloat n = .infinite negative) ∨
      (∃ x, float env (getOf fields "confidence" .null) = .ok x) ∧
        ∃ negative, getOf fields "line_start" .null = .float (.infinite negative)) := by
  constructor
  · intro ⟨_, hfields, h⟩
    cases hfields
    exact h
  · exact fun h => ⟨fields, rfl, h⟩

/-- An item raises if it overflows. -/
theorem dictToFinding_ok {item : Value} :
    (∃ finding, dictToFinding env reviewerType id item = .ok finding) ↔ ¬ Overflows env item := by
  cases item with
  | obj fields =>
    rw [overflows_obj]
    by_cases hrequired : (required.all fun key => (field? fields key).isSome) = true
    · have hall := List.all_eq_true.mp hrequired
      cases hseverity :
          ((str env (getOf fields "severity" .null)).map env.upper).bind severityOf with
      | none =>
        have hnot : ¬ ∃ text severity, str env (getOf fields "severity" .null) = some text ∧
            severityOf (env.upper text) = some severity := by
          intro ⟨text, severity, htext, hvalue⟩
          simp [htext, hvalue] at hseverity
        refine iff_of_true ⟨none, ?_⟩ fun h => hnot h.2.1
        simp [dictToFinding, hrequired, hseverity]
      | some severity =>
        have hvalid : ∃ text severity, str env (getOf fields "severity" .null) = some text ∧
            severityOf (env.upper text) = some severity := by
          obtain ⟨value, hvalue, hvalid⟩ := Option.bind_eq_some_iff.mp hseverity
          obtain ⟨text, htext, rfl⟩ := Option.map_eq_some_iff.mp hvalue
          exact ⟨text, severity, htext, hvalid⟩
        simp only [dictToFinding, hrequired, if_true, hseverity, orNone_ok, ne_eq, bind_eq_error,
          float_eq_overflowError, construct_eq_overflowError]
        refine not_congr ⟨fun h => ⟨hall, hvalid, ?_⟩, fun h => ?_⟩
        · simpa using h
        · simpa using h.2.2
    · have hnot : ¬ ∀ key ∈ required, (field? fields key).isSome :=
        fun hall => hrequired (List.all_eq_true.mpr hall)
      refine iff_of_true ⟨none, ?_⟩ fun h => hnot h.1
      simp [dictToFinding, hrequired]
  | _ => simp [dictToFinding, Overflows]

theorem itemFindings_ok {items : List Value} (i : ℕ) :
    (∃ findings, itemFindings env reviewerType i items = .ok findings) ↔
      ∀ item ∈ items, ¬ Overflows env item := by
  induction items generalizing i with
  | nil => simp [itemFindings]
  | cons item items ih =>
    have hfirst := @dictToFinding_ok env reviewerType (env.ids i) item
    have hlater := ih (i + 1)
    constructor
    · intro ⟨findings, hfindings⟩
      obtain ⟨finding, hfinding, hrest⟩ := bind_eq_ok.mp hfindings
      obtain ⟨later, hlate, _⟩ := bind_eq_ok.mp hrest
      simpa using ⟨hfirst.mp ⟨finding, hfinding⟩, hlater.mp ⟨later, hlate⟩⟩
    · intro h
      obtain ⟨finding, hfinding⟩ := hfirst.mpr (h item List.mem_cons_self)
      obtain ⟨later, hlate⟩ := hlater.mpr fun a ha => h a (List.mem_cons_of_mem _ ha)
      exact ⟨finding.toList ++ later, by rw [itemFindings, hfinding, ok_bind, hlate]; rfl⟩

/-- A text that is no JSON text. -/
def Invalid (env : ResponseEnv) (text : List Char) : Prop :=
  loads env.maxDigits env.depth text = .error .decodeError ∨
    loads env.maxDigits env.depth text = .error .valueError

/-- The parts of a text that are decoded, one after another as long as they are invalid. -/
inductive TriedIn (env : ResponseEnv) (text : List Char) : List (Char × Char) → List Char → Prop
  | here {opening closing pairs part} (h : outermost opening closing text = some part) :
      TriedIn env text ((opening, closing) :: pairs) part
  | later {opening closing pairs part}
      (h : ∀ part, outermost opening closing text = some part → Invalid env part)
      (hpart : TriedIn env text pairs part) : TriedIn env text ((opening, closing) :: pairs) part

/-- The texts that are decoded: the code fence's or the answer, and its parts if it is invalid. -/
def Tried (env : ResponseEnv) (raw text : List Char) : Prop :=
  text = textOf raw ∨
    Invalid env (textOf raw) ∧ TriedIn env (textOf raw) [('\x7b', '\x7d'), ('[', ']')] text

/-- A text that raises nothing: it is not nested too deep, and no item of its findings has a number
that is too large. -/
def Sound (env : ResponseEnv) (text : List Char) : Prop :=
  loads env.maxDigits env.depth text ≠ .error .recursionError ∧
    ∀ value, loads env.maxDigits env.depth text = .ok value →
      ∀ items, rawFindings value = some items → ∀ item ∈ items, ¬ Overflows env item

/-- What was decoded leads to findings, or to none. -/
def Settles (env : ResponseEnv) (x : Except Uncaught (Option Value)) : Prop :=
  ∃ value, x = .ok value ∧
    ∀ items, value.bind rawFindings = some items → ∀ item ∈ items, ¬ Overflows env item

variable {text : List Char} {raw : String}

/-- A text is decoded, and what comes next is if the text is invalid. -/
theorem loadsOr_settles {next : Except Uncaught (Option Value)} :
    Settles env (loadsOr env text next) ↔
      Sound env text ∧ (Invalid env text → Settles env next) := by
  cases h : loads env.maxDigits env.depth text with
  | ok value =>
    have hvalue : loadsOr env text next = .ok (some value) := by simp [loadsOr, tryLoads, h]; rfl
    simp [Settles, Sound, Invalid, h, hvalue]
  | error fault =>
    cases fault with
    | decodeError | valueError =>
      have hnext : loadsOr env text next = next := by simp [loadsOr, tryLoads, h]; rfl
      simp [Sound, Invalid, h, hnext]
    | recursionError =>
      have hraised : loadsOr env text next = .error .recursionError := by
        simp [loadsOr, tryLoads, h]; rfl
      simp [Settles, Sound, h, hraised]

theorem decodeParts_settles {pairs : List (Char × Char)} :
    Settles env (decodeParts env text pairs) ↔
      ∀ part, TriedIn env text pairs part → Sound env part := by
  induction pairs with
  | nil => exact ⟨fun _ part h => (nomatch h), fun _ => ⟨none, rfl, by simp⟩⟩
  | cons pair pairs ih =>
    obtain ⟨opening, closing⟩ := pair
    cases hpart : outermost opening closing text with
    | none =>
      rw [decodeParts, hpart, ih]
      refine forall_congr' fun part => imp_congr_left ⟨.later (by simp [hpart]), fun h => ?_⟩
      cases h with
      | here h => simp [hpart] at h
      | later _ h => exact h
    | some part =>
      rw [decodeParts, hpart]
      refine loadsOr_settles.trans ⟨?_, ?_⟩
      · intro ⟨hsound, hlater⟩ other hother
        cases hother with
        | here h =>
          obtain rfl : part = other := by simpa [hpart] using h
          exact hsound
        | later hinvalid h => exact ih.mp (hlater (hinvalid part hpart)) other h
      · intro h
        refine ⟨h part (.here hpart), fun hinvalid => ih.mpr fun other hother =>
          h other (.later ?_ hother)⟩
        simpa [hpart] using hinvalid

theorem decode_settles {raw : List Char} :
    Settles env (decode env (textOf raw)) ↔ ∀ text, Tried env raw text → Sound env text := by
  rw [decode, loadsOr_settles, decodeParts_settles]
  constructor
  · intro ⟨hsound, hparts⟩ text htried
    rcases htried with rfl | ⟨hinvalid, htried⟩
    · exact hsound
    · exact hparts hinvalid text htried
  · exact fun h => ⟨h _ (.inl rfl), fun hinvalid part hpart => h part (.inr ⟨hinvalid, hpart⟩)⟩

/-- **When the parser raises nothing**: when no text that it decodes does. -/
theorem parse_ok : (∃ findings, parse env raw reviewerType = .ok findings) ↔
    ∀ text, Tried env raw.toList text → Sound env text := by
  rw [← decode_settles]
  constructor
  · intro ⟨findings, hfindings⟩
    obtain ⟨result, hresult, _⟩ := bind_eq_ok.mp hfindings
    obtain ⟨value, hvalue, hitems⟩ := bind_eq_ok.mp hresult
    refine ⟨value, hvalue, fun items h => ?_⟩
    rw [h] at hitems
    obtain ⟨found, hfound, _⟩ := bind_eq_ok.mp hitems
    exact (itemFindings_ok 0).mp ⟨found, hfound⟩
  · intro ⟨value, hvalue, hitems⟩
    cases h : value.bind rawFindings with
    | none => exact ⟨_, by rw [parse, tryJsonParse, hvalue, ok_bind, h]; rfl⟩
    | some items =>
      obtain ⟨found, hfound⟩ := (@itemFindings_ok env reviewerType items 0).mpr (hitems items h)
      exact ⟨found, by simp only [parse, tryJsonParse, hvalue, ok_bind, h, hfound]; rfl⟩

/-! ## Answers that hold an object -/

/-- What is around the text of an object: white space, a code fence in a text, or prose, so that
the whole is invalid. -/
inductive Around (env : ResponseEnv) (before body after : List Char) : Prop
  | bare (hbefore : ∀ c ∈ before, isSpace c) (hafter : ∀ c ∈ after, isSpace c)
  | fenced (start tag space space' stop : List Char)
      (hbefore : before = start ++ "```".toList ++ tag ++ space)
      (hafter : after = space' ++ "```".toList ++ stop) (htag : tag ∈ [[], "json".toList])
      (hspace : ∀ c ∈ space ++ space', isSpace c)
  | prose (hwhole : Invalid env (strip (before ++ body ++ after)))

/-- An answer holds the text of a JSON object whose list of findings has well-formed items. -/
structure Holds (env : ResponseEnv) (raw before body after : List Char) (items : List Value) :
    Prop where
  raw_eq : raw = before ++ body ++ after
  around : Around env before body after
  opens : body.head? = some '\x7b'
  closes : body.getLast? = some '\x7d'
  value : ∃ fields, loads env.maxDigits env.depth body = .ok (.obj fields) ∧
    field? fields "findings" = some (.arr items)
  wellFormed : ∀ item ∈ items, WellFormed env item

/-- The parser finds the object: the first code fence is the one around it, or there is none and
the outermost braces are its own. -/
def Undisturbed (raw before body after : List Char) : Prop :=
  match fence? (strip raw) with
  | some content => strip content = body
  | none => '\x7b' ∉ before ∧ '\x7d' ∉ after

theorem dropWhile_append_of_head {p : Char → Bool} {c : Char} {k : List Char}
    (hk : k.head? = some c) (hc : p c = false) (l : List Char) :
    (l ++ k).dropWhile p = l.dropWhile p ++ k := by
  induction l with
  | nil => cases k <;> simp_all
  | cons x l ih => by_cases hx : p x <;> simp [hx, ih]

/-- What is cut off at both ends does not reach into a text that keeps its ends. -/
theorem trim_append {p q : Char → Bool} {c d : Char} {k : List Char} (hk : k.head? = some c)
    (hc : p c = false) (hlast : k.getLast? = some d) (hd : q d = false) (l r : List Char) :
    (((l ++ k ++ r).dropWhile p).reverse.dropWhile q).reverse =
      l.dropWhile p ++ k ++ (r.reverse.dropWhile q).reverse := by
  have hfirst : (l ++ k ++ r).dropWhile p = l.dropWhile p ++ k ++ r := by
    rw [List.append_assoc, dropWhile_append_of_head (by simp [hk]) hc, List.append_assoc]
  have hsecond : (k.reverse ++ (l.dropWhile p).reverse).head? = some d := by simp [hlast]
  rw [hfirst, List.reverse_append, List.reverse_append, dropWhile_append_of_head hsecond hd]
  simp

theorem mem_oneOf_pure {σ α : Type} (m : Matcher σ α) (a : α) (c : Cursor σ) :
    (a, c) ∈ oneOf [m, pure a] c := by
  simp [oneOf, pure_apply]

theorem fence?_ne_none (before x after : List Char) :
    fence? (before ++ ("```".toList ++ (x ++ ("```".toList ++ after)))) ≠ none := by
  rw [fence?, ne_eq, Option.map_eq_none_iff]
  refine search_ne_none (fun b => ?_) before none
  rw [fencePattern, literal_bind]
  refine bind_ne_nil (mem_oneOf_pure _ _ _) ?_
  refine bind_ne_nil (List.mem_reverse.mpr (nil_mem_takes _ _ _)) ?_
  refine bind_ne_nil (mem_oneOf_pure _ _ _) ?_
  refine bind_ne_nil (append_mem_takes (fun _ _ => rfl) _ _) ?_
  refine bind_ne_nil (mem_oneOf_pure _ _ _) ?_
  refine bind_ne_nil (List.mem_reverse.mpr (nil_mem_takes _ _ _)) ?_
  rw [Cursor.past, literal_bind]
  simp [pure_apply]

section

variable {answer before body after : List Char} {items : List Value}

theorem Holds.strip_eq (h : Holds env answer before body after items) : strip answer =
    before.dropWhile isSpace ++ body ++ (after.reverse.dropWhile isSpace).reverse := by
  rw [h.raw_eq, strip, trim_append h.opens rfl h.closes rfl]

theorem Holds.outermost_eq (h : Holds env answer before body after items)
    (hbefore : '\x7b' ∉ before) (hafter : '\x7d' ∉ after) :
    outermost '\x7b' '\x7d' (strip answer) = some body := by
  have hfirst : (before.dropWhile isSpace).dropWhile (· ≠ '\x7b') = [] := by
    rw [List.dropWhile_eq_nil_iff]
    intro c hc
    have hmem : c ∈ before := (List.dropWhile_sublist _).mem hc
    simpa using fun heq : c = '\x7b' => hbefore (heq ▸ hmem)
  have hlast : ((after.reverse.dropWhile isSpace).reverse).reverse.dropWhile (· ≠ '\x7d') = [] := by
    rw [List.reverse_reverse, List.dropWhile_eq_nil_iff]
    intro c hc
    have hmem : c ∈ after := List.mem_reverse.mp ((List.dropWhile_sublist _).mem hc)
    simpa using fun heq : c = '\x7d' => hafter (heq ▸ hmem)
  have hbody : body ≠ [] := fun hnil => by simpa [hnil] using h.opens
  have hpart := trim_append (p := (· ≠ '\x7b')) (q := (· ≠ '\x7d')) h.opens rfl h.closes rfl
    (before.dropWhile isSpace) (after.reverse.dropWhile isSpace).reverse
  rw [hfirst, hlast] at hpart
  rw [h.strip_eq, outermost, hpart]
  simp [hbody]

theorem Holds.fence?_ne_none {start tag space space' stop : List Char}
    (h : Holds env answer before body after items)
    (hbefore : before = start ++ "```".toList ++ tag ++ space)
    (hafter : after = space' ++ "```".toList ++ stop) : fence? (strip answer) ≠ none := by
  have hraw : answer = start ++ ("```".toList ++ ((tag ++ space ++ body ++ space') ++ "```".toList))
      ++ stop := by
    rw [h.raw_eq, hbefore, hafter]
    simp
  rw [hraw, strip, trim_append (c := '\x60') (d := '\x60') (by simp) rfl
    (by simp [List.getLast?_cons]) rfl]
  simpa using ResponseParser.fence?_ne_none (start.dropWhile isSpace)
    (tag ++ space ++ body ++ space') (stop.reverse.dropWhile isSpace).reverse

theorem loadsOr_of_ok {value : Value} (h : loads env.maxDigits env.depth text = .ok value)
    (next : Except Uncaught (Option Value)) : loadsOr env text next = .ok (some value) := by
  simp [loadsOr, tryLoads, h]
  rfl

theorem Invalid.loadsOr (h : Invalid env text) (next : Except Uncaught (Option Value)) :
    loadsOr env text next = next := by
  cases h with
  | inl h => simp only [ResponseParser.loadsOr, tryLoads, h]; rfl
  | inr h => simp only [ResponseParser.loadsOr, tryLoads, h]; rfl

/-- The object is what is decoded. -/
theorem Holds.decode_eq (h : Holds env answer before body after items)
    (hclear : Undisturbed answer before body after) {value : Value}
    (hvalue : loads env.maxDigits env.depth body = .ok value) :
    decode env (textOf answer) = .ok (some value) := by
  cases hfence : fence? (strip answer) with
  | some content =>
    have htext : textOf answer = body := by simpa [textOf, Undisturbed, hfence] using hclear
    rw [htext, decode, loadsOr_of_ok hvalue]
  | none =>
    have hbraces : '\x7b' ∉ before ∧ '\x7d' ∉ after := by
      simpa [Undisturbed, hfence] using hclear
    have htext : textOf answer = strip answer := by simp [textOf, hfence]
    rw [htext, decode]
    cases h.around with
    | bare hbefore hafter =>
      have hwhole : strip answer = body := by
        have hfirst : before.dropWhile isSpace = [] := List.dropWhile_eq_nil_iff.mpr hbefore
        have hlast : after.reverse.dropWhile isSpace = [] :=
          List.dropWhile_eq_nil_iff.mpr fun c hc => hafter c (List.mem_reverse.mp hc)
        simp [h.strip_eq, hfirst, hlast]
      rw [hwhole, loadsOr_of_ok hvalue]
    | fenced start tag space space' stop hbefore hafter =>
      exact absurd hfence (h.fence?_ne_none hbefore hafter)
    | prose hwhole =>
      rw [← h.raw_eq] at hwhole
      rw [hwhole.loadsOr, decodeParts, h.outermost_eq hbraces.1 hbraces.2]
      exact loadsOr_of_ok hvalue _

end

/-- Texts are put in capitals letter by letter, and no text is a number. -/
private def plain : ResponseEnv where
  maxDigits := 4300
  depth := 900
  upper text := String.ofList (text.toList.map Char.toUpper)
  render _ := ""
  intOf _ := none
  floatOf _ := none
  optionalInt
    | .null => some none
    | .int n => some (some n)
    | _ => none
  ids _ := "finding-0"
  optionalInt_null := rfl
  optionalInt_int _ := rfl

private def fencedAnswer : String :=
  "\x7b\"findings\":[\x7b\"severity\":\"LOW\",\"category\":\"\",\"title\":\"\"," ++
    "\"description\":\"```x```\",\"recommendation\":\"\",\"confidence\":1\x7d]\x7d"

private def fencedFields : List (Option String × Value) :=
  [("severity", "LOW"), ("category", ""), ("title", ""), ("description", "```x```"),
    ("recommendation", "")].map (fun (key, text) => (some key, .str (some text))) ++
      [(some "confidence", .int 1)]

private theorem fencedAnswer_holds : Holds plain fencedAnswer.toList [] fencedAnswer.toList []
    [.obj fencedFields] where
  raw_eq := by simp
  around := .bare (by simp) (by simp)
  opens := by decide +kernel
  closes := by decide +kernel
  value := ⟨[(some "findings", .arr [.obj fencedFields])], by decide +kernel, by decide +kernel⟩
  wellFormed := by
    intro item hitem
    obtain rfl : item = .obj fencedFields := by simpa using hitem
    refine ⟨fencedFields, ⟨"", "", .low, "", "", "```x```", "", 0, none, none, "",
      ⟨1, by norm_num, le_rfl⟩⟩, rfl, ⟨⟨"LOW", ?_⟩, ?_, ?_, ?_, ?_, ⟨.int 1, 1, ?_⟩,
      ?_, .inr ?_, .inr ?_, .inr ?_⟩⟩
    all_goals decide +kernel

end DoxAsdlc.Swarm.ResponseParser
