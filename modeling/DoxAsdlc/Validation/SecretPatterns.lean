import DoxAsdlc.Core.Events
import DoxAsdlc.Text.Backtracking

/-!
# The patterns of secrets

The patterns by which the security agent looks for secrets in a line, and those by which it takes a
line as safe: look-ups of the environment or of a configuration, and comments.  They are matched as
`re` matches them.

Whether a line is safe is asked of the whole line.  What a secret is found in is its code: what
stands before the comment, which begins at the first `#` that is in no string.

## Main definitions

* `secretPatterns`, `safePatterns` — the patterns.
* `isSafeLine`, `secretMatches` — what is found in a line.
* `codeOf` — the code of a line.
* `SecretInCode` — the code of a line has a secret.

## Main results

* `secretMatches_ne_nil` — a secret in the code of a line is found in the line.
-/

namespace DoxAsdlc.Validation

open Backtracking Matcher

/-! ## Parts of patterns -/

/-- What a letter of a pattern matches with `re.IGNORECASE`, the letter being a small one: besides
the capital letter, the others of Unicode that are the same in lower case. -/
def sameLetter (letter c : Char) : Bool :=
  c.toLower == letter || (letter, c) ∈ [('i', '\u0130'), ('i', '\u0131'), ('s', '\u017f'),
    ('k', '\u212a')]

/-- A word, with `re.IGNORECASE`. -/
def word : List Char → Matcher Char Unit
  | [] => pure ()
  | letter :: letters => do
      let _ ← one (sameLetter letter)
      word letters

/-- `[a-zA-Z0-9]`. -/
def alphanumeric (c : Char) : Bool := c.isAlphanum

/-- `[0-9A-Z]`, with `re.IGNORECASE`. -/
def anyAlphanumeric (c : Char) : Bool :=
  c.isAlphanum || c ∈ ['\u0130', '\u0131', '\u017f', '\u212a']

/-- `["\']`. -/
def isQuote (c : Char) : Bool := c == '"' || c == '\''

/-! ## Secrets -/

/-- `(?i)name\s*[=:]\s*["\'][^"\']+["\']`, of the pattern of the name. -/
def assignment (name : Matcher Char Unit) : Matcher Char Unit := do
  let _ ← name
  let _ ← many isSpace
  let _ ← one fun c => c == '=' || c == ':'
  let _ ← many isSpace
  let _ ← one isQuote
  let _ ← plus fun c => !isQuote c
  let _ ← one isQuote
  pure ()

/-- Names, one of which is assigned to. -/
def names (l : List String) : Matcher Char Unit := oneOf (l.map fun name => word name.toList)

/-- `api[_-]?key|apikey`. -/
def apiKey : Matcher Char Unit :=
  oneOf [
    do
      let _ ← word "api".toList
      let _ ← optional (one fun c => c == '_' || c == '-')
      word "key".toList,
    word "apikey".toList]

/-- `(?i)AKIA[0-9A-Z]{16}`. -/
def awsAccessKey : Matcher Char Unit := do
  let _ ← word "akia".toList
  let _ ← times anyAlphanumeric 16
  pure ()

/-- `start[a-zA-Z0-9]{n,}`. -/
def keyFrom (start : String) (n : ℕ) : Matcher Char Unit := do
  let _ ← literal start.toList
  let _ ← times alphanumeric n
  let _ ← many alphanumeric
  pure ()

/-- `(?i)eyJ[a-zA-Z0-9_-]+`. -/
def tokenPart : Matcher Char Unit := do
  let _ ← word "eyj".toList
  let _ ← plus fun c => anyAlphanumeric c || c == '_' || c == '-'
  pure ()

/-- `(?i)eyJ[a-zA-Z0-9_-]+\.eyJ[a-zA-Z0-9_-]+`. -/
def jsonWebToken : Matcher Char Unit := do
  let _ ← tokenPart
  let _ ← literal ['.']
  tokenPart

/-- `SECRET_PATTERNS`: the pattern and what it detects. -/
def secretPatterns : List (Matcher Char Unit × String) := [
  (assignment apiKey, "Hardcoded API key detected"),
  (awsAccessKey, "AWS Access Key ID detected"),
  (keyFrom "sk-" 20, "OpenAI/Stripe API key detected"),
  (assignment (names ["password", "passwd", "pwd"]), "Hardcoded password detected"),
  (assignment (names ["db_password", "database_password", "mysql_password"]),
    "Hardcoded database password detected"),
  (assignment (names ["token", "auth_token", "access_token", "bearer"]),
    "Hardcoded token detected"),
  (keyFrom "ghp_" 36, "GitHub Personal Access Token detected"),
  (jsonWebToken, "JWT token detected"),
  (assignment (names ["secret", "private_key", "secret_key"]), "Hardcoded secret detected")]

/-! ## Safe lines -/

/-- `call\s*\(`. -/
def callOf (call : String) : Matcher Char Unit := do
  let _ ← literal call.toList
  let _ ← many isSpace
  let _ ← literal ['(']
  pure ()

/-- The text itself. -/
def text (s : String) : Matcher Char Unit := do
  let _ ← literal s.toList
  pure ()

/-- The look-ups among the patterns: `os\.environ\.get\s*\(`, `os\.getenv\s*\(`,
`config\.get\s*\(`, `settings\.` and `env\.`. -/
def lookUps : List (Matcher Char Unit) := [
  callOf "os.environ.get", callOf "os.getenv", callOf "config.get", text "settings.", text "env."]

/-- `#.*`. -/
def comment : Matcher Char Unit := do
  let _ ← literal ['#']
  let _ ← many fun c => c ≠ '\n'
  pure ()

/-- `SAFE_PATTERNS`. -/
def safePatterns : List (Matcher Char Unit) := lookUps ++ [comment]

/-- `_is_safe_line`. -/
def isSafeLine (line : String) : Bool :=
  safePatterns.any fun pattern => (search pattern ⟨none, line.toList⟩).isSome

/-- What the matches of the secret patterns in a line detect. -/
def secretMatches (line : String) : List String :=
  secretPatterns.flatMap fun (pattern, description) =>
    (finditer pattern ⟨none, line.toList⟩).map fun _ => description

/-! ## The code of a line -/

/-- A string that was opened by a quote is closed. -/
def closes (quote : Char) : List Char → Bool
  | [] => false
  | '\\' :: _ :: rest => closes quote rest
  | c :: rest => c == quote || closes quote rest

/-- What stands before the comment, in the string that a quote has opened, or in none.  A quote
that nothing closes opens no string. -/
def codeFrom : Option Char → List Char → List Char
  | _, [] => []
  | none, c :: rest =>
    if c = '#' then []
    else c :: codeFrom (if isQuote c && closes c rest then some c else none) rest
  | some quote, '\\' :: c :: rest => '\\' :: c :: codeFrom (some quote) rest
  | some quote, c :: rest => c :: codeFrom (if c = quote then none else some quote) rest

/-- The code of a line. -/
def codeOf (line : List Char) : List Char := codeFrom none line

/-- A part of the code of a line without a look-up is what a secret pattern matches. -/
def SecretInCode (line : String) : Prop :=
  ∃ part, part <:+: codeOf line.toList ∧
    (∃ secret ∈ secretPatterns, search secret.1 ⟨none, part⟩ ≠ none) ∧
      ∀ lookUp ∈ lookUps, search lookUp ⟨none, part⟩ = none

/-- Neither a number sign nor a quote in a string ends it. -/
example : codeOf "a = 'it\\'s #1'  # b".toList = "a = 'it\\'s #1'  ".toList := by decide

theorem codeFrom_prefix_line (quote : Option Char) (line : List Char) :
    codeFrom quote line <+: line := by
  induction quote, line using codeFrom.induct with
  | case1 quote => simp [codeFrom]
  | case2 rest => simp [codeFrom]
  | case3 c rest hc ih =>
    rw [codeFrom, if_neg hc, List.cons_prefix_cons]
    exact ⟨rfl, ih⟩
  | case4 quote c rest ih => simpa [codeFrom] using ih
  | case5 quote c rest hescape ih =>
    rw [codeFrom.eq_4 _ _ _ hescape, List.cons_prefix_cons]
    exact ⟨rfl, ih⟩

/-! ## Secrets in the code are found in the line -/

theorem extends_word (letters : List Char) : Extends (word letters) := by
  induction letters with
  | nil => exact extends_pure ()
  | cons letter letters ih => exact (extends_one _).bind fun _ => ih

theorem extends_names (l : List String) : Extends (names l) := by
  refine extends_oneOf fun m hm => ?_
  obtain ⟨name, -, rfl⟩ := List.mem_map.mp hm
  exact extends_word _

theorem extends_apiKey : Extends apiKey := by
  refine extends_oneOf fun m hm => ?_
  simp only [List.mem_cons, List.not_mem_nil, or_false] at hm
  cases hm with
  | inl h =>
    rw [h]
    exact (extends_word _).bind fun _ => (extends_one _).optional.bind fun _ => extends_word _
  | inr h =>
    rw [h]
    exact extends_word _

theorem extends_assignment {name : Matcher Char Unit} (hname : Extends name) :
    Extends (assignment name) :=
  hname.bind fun _ => (extends_many _).bind fun _ => (extends_one _).bind fun _ =>
    (extends_many _).bind fun _ => (extends_one _).bind fun _ => (extends_plus _).bind fun _ =>
      (extends_one _).bind fun _ => extends_pure ()

theorem extends_keyFrom (start : String) (n : ℕ) : Extends (keyFrom start n) :=
  (extends_literal _).bind fun _ => (extends_times _ n).bind fun _ =>
    (extends_many _).bind fun _ => extends_pure ()

theorem extends_tokenPart : Extends tokenPart :=
  (extends_word _).bind fun _ => (extends_plus _).bind fun _ => extends_pure ()

/-- No secret pattern asks what stands around a match. -/
theorem extends_secretPatterns : ∀ secret ∈ secretPatterns, Extends secret.1 := by
  simp only [secretPatterns, List.forall_mem_cons]
  refine ⟨extends_assignment extends_apiKey, ?_, extends_keyFrom _ _,
    extends_assignment (extends_names _), extends_assignment (extends_names _),
    extends_assignment (extends_names _), extends_keyFrom _ _, ?_,
    extends_assignment (extends_names _), by simp⟩
  · exact (extends_word _).bind fun _ => (extends_times _ 16).bind fun _ => extends_pure ()
  · exact extends_tokenPart.bind fun _ => (extends_literal _).bind fun _ => extends_tokenPart

/-- **A secret in the code of a line is found in the line.** -/
theorem secretMatches_ne_nil {line : String} (h : SecretInCode line) : secretMatches line ≠ [] := by
  obtain ⟨part, hpart, ⟨secret, hsecret, hfound⟩, -⟩ := h
  have hline : part <:+: line.toList := hpart.trans (codeFrom_prefix_line none _).isInfix
  have hmatch : search secret.1 ⟨none, line.toList⟩ ≠ none :=
    (extends_secretPatterns secret hsecret).search_ne_none hline hfound
  rw [secretMatches, Ne, List.flatMap_eq_nil_iff]
  intro hnil
  exact finditer_ne_nil hmatch (List.map_eq_nil_iff.mp (hnil secret hsecret))

end DoxAsdlc.Validation
