import DoxAsdlc.Development.Agents
import Mathlib.Data.List.Nodup

/-!
# The security scan

The patterns by which the reviewer looks for secrets, for injections and for what OWASP warns of,
line by line, and the findings that it makes of them.  Each of the three scans numbers its own
findings.  Nothing is asked of the matching of a pattern, which is a parameter.

## Main definitions

* `Patterns` — how a pattern matches a line.
* `scanForSecrets`, `scanForInjectionVulnerabilities`, `scanForOwaspVulnerabilities` — the scans.
* `runSecurityScan` — all findings.

## Main results

* `nodup_ids` — findings have identifiers of their own.
* `found_of_mem` — findings are severe.
-/

namespace DoxAsdlc.Development.SecurityScan

open Rlm (Json)

/-- `re.search` in a line, perhaps with `re.IGNORECASE`, and the number of matches of
`re.finditer`. -/
structure Patterns where
  search : (ignoreCase : Bool) → (pattern line : String) → Bool
  finditer : (pattern line : String) → ℕ

/-! ## The patterns -/

/-- `SECRET_PATTERNS`: the pattern and what it detects. -/
def secretPatterns : List (String × String) := [
  ("(?i)(api[_-]?key|apikey)\\s*[=:]\\s*[\"\\'][^\"\\']+[\"\\']", "Hardcoded API key detected"),
  ("(?i)AKIA[0-9A-Z]\x7b16\x7d", "AWS Access Key ID detected"),
  ("sk-[a-zA-Z0-9]\x7b20,\x7d", "OpenAI/Stripe API key detected"),
  ("(?i)(password|passwd|pwd)\\s*[=:]\\s*[\"\\'][^\"\\']+[\"\\']", "Hardcoded password detected"),
  ("(?i)(db_password|database_password|mysql_password)\\s*[=:]\\s*[\"\\'][^\"\\']+[\"\\']",
    "Hardcoded database password detected"),
  ("(?i)(token|auth_token|access_token|bearer)\\s*[=:]\\s*[\"\\'][^\"\\']+[\"\\']",
    "Hardcoded token detected"),
  ("ghp_[a-zA-Z0-9]\x7b36,\x7d", "GitHub Personal Access Token detected"),
  ("(?i)eyJ[a-zA-Z0-9_-]+\\.eyJ[a-zA-Z0-9_-]+", "JWT token detected"),
  ("(?i)(secret|private_key|secret_key)\\s*[=:]\\s*[\"\\'][^\"\\']+[\"\\']",
    "Hardcoded secret detected")]

/-- `SAFE_PATTERNS`. -/
def safePatterns : List String := [
  "os\\.environ\\.get\\s*\\(",
  "os\\.getenv\\s*\\(",
  "config\\.get\\s*\\(",
  "settings\\.",
  "env\\.",
  "#.*"]

/-- `INJECTION_PATTERNS`. -/
def injectionPatterns : List (String × String) := [
  ("f[\"\\']SELECT\\s+.*\\\x7b", "Potential SQL injection via f-string"),
  ("f[\"\\']INSERT\\s+.*\\\x7b", "Potential SQL injection via f-string"),
  ("f[\"\\']UPDATE\\s+.*\\\x7b", "Potential SQL injection via f-string"),
  ("f[\"\\']DELETE\\s+.*\\\x7b", "Potential SQL injection via f-string"),
  ("[\"\\']SELECT\\s+.*[\"\\']\\s*\\+\\s*", "Potential SQL injection via string concatenation"),
  ("[\"\\']INSERT\\s+.*[\"\\']\\s*\\+\\s*", "Potential SQL injection via string concatenation"),
  ("\\.format\\(.*\\).*SELECT", "Potential SQL injection via format()"),
  ("%\\s*\\(.*\\).*SELECT", "Potential SQL injection via % formatting"),
  ("os\\.system\\s*\\(\\s*f[\"\\']", "Command injection via os.system with f-string"),
  ("os\\.system\\s*\\([^)]*\\+", "Command injection via os.system with concatenation"),
  ("subprocess\\.\\w+\\s*\\([^)]*shell\\s*=\\s*True",
    "Shell injection via subprocess with shell=True"),
  ("subprocess\\.call\\s*\\([^)]*\\+", "Command injection via subprocess.call with concatenation"),
  ("f[\"\\']<[^>]*\\\x7b[^\x7d]+\\\x7d[^>]*>", "Potential XSS via unescaped HTML in f-string"),
  ("[\"\\']<[^>]*[\"\\']\\s*\\+\\s*\\w+\\s*\\+\\s*[\"\\']",
    "Potential XSS via HTML concatenation"),
  ("f\"<\\w+>\\\x7b[^\x7d]+\\\x7d</\\w+>\"",
    "Potential XSS via unescaped user content in HTML f-string"),
  ("f'<\\w+>\\\x7b[^\x7d]+\\\x7d</\\w+>'",
    "Potential XSS via unescaped user content in HTML f-string")]

/-- `OWASP_PATTERNS`. -/
def owaspPatterns : List (String × String) := [
  ("pickle\\.loads?\\s*\\(", "Insecure deserialization with pickle.loads()"),
  ("yaml\\.load\\s*\\([^)]*\\)", "Potentially unsafe YAML loading (use safe_load)"),
  ("marshal\\.loads?\\s*\\(", "Insecure deserialization with marshal"),
  ("\\beval\\s*\\(", "Dangerous use of eval()"),
  ("\\bexec\\s*\\(", "Dangerous use of exec()"),
  ("__import__\\s*\\(", "Dynamic import can be dangerous"),
  ("open\\s*\\([^)]*\\+[^)]*\\)", "Potential path traversal via string concatenation in open()"),
  ("(?i)with\\s+open\\s*\\([^)]*\\+[^)]*filename", "Potential path traversal vulnerability"),
  ("/data/.*\\+\\s*\\w+", "Potential path traversal in file path construction"),
  ("hashlib\\.md5\\s*\\(", "Weak cryptography: MD5 should not be used for security"),
  ("hashlib\\.sha1\\s*\\(", "Weak cryptography: SHA1 should not be used for security"),
  ("(?i)admin.*password", "Possible hardcoded admin credentials")]

/-! ## The scans -/

/-- What a pattern has found. -/
structure Hit where
  lineNumber : ℕ
  description : String
  severity : IssueSeverity
  suggestion : String

/-- The lines of a text with their numbers, from one on. -/
def numberedLines (code : String) : List (String × ℕ) := (code.splitOn "\n").zipIdx 1

/-- The finding of a scan, by its position. -/
def finding (tag kind : String) (i : ℕ) (hit : Hit) : ReviewIssue where
  id := .str (tag ++ "-" ++ pad3 (i + 1))
  description := .str hit.description
  severity := hit.severity
  filePath := .str ""
  lineNumber := .int hit.lineNumber
  suggestion := .str hit.suggestion
  metadata := .obj [("category", .str "security"), ("type", .str kind)]

/-- The findings of a scan. -/
def findings (tag kind : String) (hits : List Hit) : List ReviewIssue :=
  hits.mapIdx (finding tag kind)

variable (P : Patterns)

/-- `is_safe_line`. -/
def isSafeLine (line : String) : Bool := safePatterns.any fun pattern => P.search false pattern line

/-- The secrets of a line. -/
def secretHits (line : String × ℕ) : List Hit :=
  if isSafeLine P line.1 then [] else
    secretPatterns.flatMap fun (pattern, description) =>
      List.replicate (P.finditer pattern line.1)
        ⟨line.2, description, .critical,
          "Use environment variables or a secrets manager instead of hardcoding credentials"⟩

/-- `scan_for_secrets`. -/
def scanForSecrets (code : String) : List ReviewIssue :=
  findings "SEC" "secret" ((numberedLines code).flatMap (secretHits P))

/-- The injections of a line. -/
def injectionHits (line : String × ℕ) : List Hit :=
  (injectionPatterns.filter fun pattern => P.search true pattern.1 line.1).map
    fun (_, description) =>
      ⟨line.2, description, .critical, "Use parameterized queries for SQL, subprocess with list " ++
        "arguments for commands, and proper escaping for HTML"⟩

/-- `scan_for_injection_vulnerabilities`. -/
def scanForInjectionVulnerabilities (code : String) : List ReviewIssue :=
  findings "INJ" "injection" ((numberedLines code).flatMap (injectionHits P))

/-- The severity and the suggestion for a description. -/
def owaspAdvice (description : String) : IssueSeverity × String :=
  let lower := description.toLower
  if contains "pickle" lower || contains "eval" lower then
    (.critical, "Use JSON or other safe serialization formats; avoid eval/exec")
  else if contains "path" lower then
    (.high, "Validate and sanitize file paths; use os.path.join with basename")
  else if contains "yaml" lower then
    (.critical, "Use yaml.safe_load() instead of yaml.load()")
  else if contains "md5" lower || contains "sha1" lower then
    (.high, "Use SHA-256 or stronger hashing algorithms for security purposes")
  else (.critical, "Review and replace with a secure alternative")

/-- What OWASP warns of in a line. -/
def owaspHits (line : String × ℕ) : List Hit :=
  (owaspPatterns.filter fun pattern => P.search true pattern.1 line.1).map
    fun (_, description) =>
      ⟨line.2, description, (owaspAdvice description).1, (owaspAdvice description).2⟩

/-- `scan_for_owasp_vulnerabilities`. -/
def scanForOwaspVulnerabilities (code : String) : List ReviewIssue :=
  findings "OWASP" "owasp" ((numberedLines code).flatMap (owaspHits P))

/-- `run_security_scan`. -/
def runSecurityScan (code : String) : List ReviewIssue :=
  scanForSecrets P code ++ scanForInjectionVulnerabilities P code ++
    scanForOwaspVulnerabilities P code

/-! ## What findings are like -/

/-- Numbers with three digits at least are told apart. -/
theorem pad3_inj {m n : ℕ} : pad3 m = pad3 n ↔ m = n := by
  refine ⟨fun h => ?_, fun h => by rw [h]⟩
  have hvalue : ∀ k : ℕ, Nat.ofDigitChars 10 (pad3 k).toList 0 = k := by
    intro k
    simp [pad3, Nat.ofDigitChars_append, Nat.ofDigitChars_replicate_zero]
  rw [← hvalue m, ← hvalue n, h]

variable {P} {code tag kind : String} {hits : List Hit} {f : ReviewIssue}

theorem mem_findings :
    f ∈ findings tag kind hits ↔ ∃ i hit, hits[i]? = some hit ∧ finding tag kind i hit = f := by
  rw [findings, List.mem_iff_getElem?]
  simp only [List.getElem?_mapIdx, Option.map_eq_some_iff]

/-- The text of the identifier of a finding. -/
def idText (f : ReviewIssue) : String :=
  match f.id with
  | .str s => s
  | _ => ""

/-- The identifiers of a scan are those of its positions. -/
theorem map_idText_findings (tag kind : String) (hits : List Hit) :
    (findings tag kind hits).map idText
      = (List.range hits.length).map fun i => tag ++ "-" ++ pad3 (i + 1) := by
  apply List.ext_getElem?
  intro i
  by_cases hi : i < hits.length <;> simp [findings, finding, idText, hi]

theorem nodup_idText_findings (tag kind : String) (hits : List Hit) :
    ((findings tag kind hits).map idText).Nodup := by
  rw [map_idText_findings]
  refine List.Nodup.map (fun i j h => ?_) List.nodup_range
  have hnumber := (String.append_right_inj _).mp h
  rw [pad3_inj] at hnumber
  omega

/-- Findings of scans with different tags have different identifiers. -/
theorem disjoint_idText {tag tag' kind kind' : String} {hits hits' : List Hit}
    (h : tag.toList.head? ≠ tag'.toList.head?) (hne : tag ≠ "") (hne' : tag' ≠ "") :
    List.Disjoint ((findings tag kind hits).map idText) ((findings tag' kind' hits').map idText) := by
  intro s hs hs'
  rw [map_idText_findings, List.mem_map] at hs hs'
  obtain ⟨i, -, rfl⟩ := hs
  obtain ⟨j, -, hsame⟩ := hs'
  have hhead := congrArg (fun t => t.toList.head?) hsame
  have hnil := String.toList_eq_nil_iff.not.mpr hne
  have hnil' := String.toList_eq_nil_iff.not.mpr hne'
  simp only [String.toList_append, List.append_assoc, List.head?_append_of_ne_nil _ hnil,
    List.head?_append_of_ne_nil _ hnil'] at hhead
  exact h hhead.symm

/-- **Findings have identifiers of their own.** -/
theorem nodup_ids (P : Patterns) (code : String) :
    ((runSecurityScan P code).map idText).Nodup := by
  rw [runSecurityScan, List.map_append, List.map_append]
  refine List.Nodup.append (List.Nodup.append (nodup_idText_findings _ _ _)
    (nodup_idText_findings _ _ _) ?_) (nodup_idText_findings _ _ _)
    (List.disjoint_append_left.mpr ⟨?_, ?_⟩)
  · exact disjoint_idText (by decide) (by decide) (by decide)
  · exact disjoint_idText (by decide) (by decide) (by decide)
  · exact disjoint_idText (by decide) (by decide) (by decide)

/-- What holds of what the patterns find in every line holds of the findings. -/
theorem forall_mem_scan {Q : ReviewIssue → Prop} {scan : String × ℕ → List Hit}
    (h : ∀ line, ∀ hit ∈ scan line, ∀ i, Q (finding tag kind i hit)) :
    ∀ f ∈ findings tag kind ((numberedLines code).flatMap scan), Q f := by
  intro f hf
  obtain ⟨i, hit, hhit, rfl⟩ := mem_findings.mp hf
  obtain ⟨line, -, hline⟩ := List.mem_flatMap.mp (List.mem_of_getElem? hhit)
  exact h line hit hline i

/-- A finding is severe. -/
def Severe (issue : ReviewIssue) : Prop := issue.severity = .critical ∨ issue.severity = .high

instance : DecidablePred Severe := fun _ => inferInstanceAs (Decidable (_ ∨ _))

theorem owaspAdvice_severe (description : String) :
    (owaspAdvice description).1 = .critical ∨ (owaspAdvice description).1 = .high := by
  unfold owaspAdvice
  dsimp only
  split_ifs <;> simp

/-- What a finding is: severe, under the text of its identifier, and with its kind. -/
structure Found (f : ReviewIssue) : Prop where
  severe : Severe f
  id_eq : f.id = .str (idText f)
  metadata_eq : ∃ kind, f.metadata = .obj [("category", .str "security"), ("type", .str kind)]

theorem found_finding {i : ℕ} {hit : Hit} (h : hit.severity = .critical ∨ hit.severity = .high) :
    Found (finding tag kind i hit) :=
  ⟨h, rfl, kind, rfl⟩

/-- **Findings are severe**, and not of the form of the issues of a model. -/
theorem found_of_mem (h : f ∈ runSecurityScan P code) : Found f := by
  rw [runSecurityScan, List.mem_append, List.mem_append] at h
  rcases h with (h | h) | h
  · refine forall_mem_scan (fun line hit hhit i => found_finding ?_) f h
    rw [secretHits] at hhit
    split at hhit
    · simp at hhit
    · obtain ⟨pattern, -, hhit⟩ := List.mem_flatMap.mp hhit
      rw [(List.mem_replicate.mp hhit).2]
      exact Or.inl rfl
  · refine forall_mem_scan (fun line hit hhit i => found_finding ?_) f h
    obtain ⟨pattern, -, rfl⟩ := List.mem_map.mp hhit
    exact Or.inl rfl
  · refine forall_mem_scan (fun line hit hhit i => found_finding ?_) f h
    obtain ⟨pattern, -, rfl⟩ := List.mem_map.mp hhit
    exact owaspAdvice_severe _

end DoxAsdlc.Development.SecurityScan
