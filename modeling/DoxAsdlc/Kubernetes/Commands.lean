import DoxAsdlc.Core.Exceptions
import DoxAsdlc.Interaction.Contract
import DoxAsdlc.Text.Backtracking
import DoxAsdlc.Text.Joined

/-!
# kubectl commands

A command is requested by its parts, which a validator checks against whitelists one after another,
and the argument vector is built from the parts.

## Main definitions

* `CommandRequest`, `CommandValidator` — the parts of a command, and what is allowed of them.
* `CommandValidator.validate`, `buildKubectlCommand`, `executeCommand` — a command is checked, built
  and run.
* `DnsLabel` — what the pattern for namespaces says.

## Main results

* `namespacePattern_iff` — the pattern matches labels and nothing else.
* `CommandValidator.validate_eq_ok` — what is accepted.
-/

namespace DoxAsdlc.Kubernetes

open Backtracking Interaction

/-! ## Whitelists -/

/-- `ALLOWED_ACTIONS`. -/
def allowedActions : Finset String := {"get", "describe", "logs", "top"}

/-- `ALLOWED_RESOURCES`. -/
def allowedResources : Finset String :=
  {"pods", "nodes", "services", "deployments", "events",
    "ingresses", "namespaces", "replicasets", "statefulsets",
    "daemonsets", "jobs", "cronjobs", "endpoints",
    "persistentvolumeclaims", "persistentvolumes", "componentstatuses"}

/-- `ALLOWED_FLAGS`. -/
def allowedFlags : Finset String :=
  {"-o", "--output", "-n", "--namespace", "-l", "--selector",
    "-w", "--watch", "--all-namespaces", "-A", "--show-labels",
    "--tail", "--since", "--since-time", "-c", "--container",
    "-p", "--previous", "-f", "--follow", "--timestamps",
    "--sort-by", "--field-selector"}

/-- The characters of `DISALLOWED_CHARS`. -/
def disallowedChars : List Char :=
  [';', '|', '&', '\x60', '(', ')', '\x7b', '\x7d', '[', ']', '<', '>', '!', '\\', '$']

/-- `DISALLOWED_CHARS.search(s)`. -/
def hasDisallowed (s : String) : Bool := s.toList.any fun c => c ∈ disallowedChars

/-- `"\n" in s or "\r" in s`. -/
def hasNewline (s : String) : Bool := s.toList.any fun c => c = '\n' ∨ c = '\r'

/-- `[a-z0-9]`. -/
def labelChar (c : Char) : Bool := c.isLower || c.isDigit

/-- `[a-z0-9-]`. -/
def innerChar (c : Char) : Bool := labelChar c || c == '-'

/-- `NAMESPACE_PATTERN`, at the begin of the text. -/
def namespacePattern : Matcher Char PUnit := do
  let _ ← Matcher.one labelChar
  let _ ← Matcher.optional do
    let _ ← Matcher.atMost innerChar 61
    Matcher.one labelChar
  Matcher.lastLineEnd '\n'

/-- `NAMESPACE_PATTERN.match(s)`. -/
def matchesNamespace (s : String) : Bool := !(namespacePattern ⟨none, s.toList⟩).isEmpty

/-- A label of the domain name system. -/
structure DnsLabel (l : List Char) : Prop where
  length_le : l.length ≤ 63
  inner : ∀ c ∈ l, innerChar c = true
  first : ∃ c ∈ l.head?, labelChar c = true
  last : ∃ c ∈ l.getLast?, labelChar c = true

theorem innerChar_of_labelChar {c : Char} (h : labelChar c = true) : innerChar c = true := by
  simp [innerChar, h]

/-- A label has one character, or two with some between them. -/
theorem dnsLabel_iff {l : List Char} : DnsLabel l ↔ ∃ x, labelChar x = true ∧
    (l = [x] ∨ ∃ xs y, xs.length ≤ 61 ∧ (∀ c ∈ xs, innerChar c = true) ∧ labelChar y = true ∧
      l = x :: (xs ++ [y])) := by
  constructor
  · intro h
    cases l with
    | nil => simpa using h.first
    | cons x rest =>
      have hx : labelChar x = true := by simpa using h.first
      refine ⟨x, hx, ?_⟩
      rcases List.eq_nil_or_concat rest with rfl | ⟨xs, y, rfl⟩
      · exact .inl rfl
      · have hlength := h.length_le
        have hlast := h.last
        simp only [List.concat_eq_append, List.length_cons, List.length_append,
          List.length_nil] at hlength
        refine .inr ⟨xs, y, by omega, fun c hc => h.inner c (by simp [hc]), ?_, by simp⟩
        simpa [List.getLast?_cons] using hlast
  · intro ⟨x, hx, h⟩
    rcases h with rfl | ⟨xs, y, hlength, hxs, hy, rfl⟩
    · have hinner := innerChar_of_labelChar hx
      exact ⟨by simp, by simpa using hinner, by simpa using hx, by simpa using hx⟩
    · refine ⟨by simp; omega, ?_, by simpa using hx, by simpa [List.getLast?_cons] using hy⟩
      simp only [List.mem_cons, List.mem_append, List.not_mem_nil, or_false]
      intro c hc
      rcases hc with rfl | hc | rfl
      · exact innerChar_of_labelChar hx
      · exact hxs c hc
      · exact innerChar_of_labelChar hy

/-- The pattern matches a label, with a newline behind it or without one. -/
theorem namespacePattern_iff {b : Option Char} {l : List Char} : namespacePattern ⟨b, l⟩ ≠ [] ↔
    ∃ name, DnsLabel name ∧ (l = name ∨ l = name ++ ['\n']) := by
  simp only [namespacePattern, Matcher.bind_ne_nil_iff, Matcher.mem_one, Matcher.mem_optional,
    Matcher.mem_bind, Matcher.mem_atMost, Matcher.lastLineEnd_ne_nil]
  constructor
  · rintro ⟨x, _, ⟨hx, rest, rfl, rfl⟩, _, _, ⟨-, rfl⟩ |
      ⟨y, ⟨xs, _, ⟨hlength, hxs, after, hafter, rfl⟩, hy, final, hfinal, rfl⟩, -⟩, hend⟩
    · refine ⟨[x], dnsLabel_iff.mpr ⟨x, hx, .inl rfl⟩, ?_⟩
      simpa using hend
    · refine ⟨x :: (xs ++ [y]), dnsLabel_iff.mpr ⟨x, hx, .inr ⟨xs, y, hlength, hxs, hy, rfl⟩⟩, ?_⟩
      simp only [Cursor.past_rest] at hafter hfinal hend
      subst hafter hfinal
      simpa using hend
  · intro ⟨name, hname, hl⟩
    have htail : ∃ tail, l = name ++ tail ∧ (tail = [] ∨ tail = ['\n']) := by
      rcases hl with rfl | rfl
      · exact ⟨[], by simp⟩
      · exact ⟨_, rfl, .inr rfl⟩
    obtain ⟨tail, rfl, htail⟩ := htail
    obtain ⟨x, hx, rfl | ⟨xs, y, hlength, hxs, hy, rfl⟩⟩ := dnsLabel_iff.mp hname
    · exact ⟨x, ⟨some x, tail⟩, ⟨hx, tail, rfl, rfl⟩, none, _, .inl ⟨rfl, rfl⟩, htail⟩
    · refine ⟨x, ⟨some x, xs ++ y :: tail⟩, ⟨hx, _, by simp, rfl⟩, some y, ⟨some y, tail⟩, ?_,
        htail⟩
      exact .inr ⟨y, ⟨xs, _, ⟨hlength, hxs, _, rfl, rfl⟩, hy, tail, rfl, rfl⟩, rfl⟩

/-- Of the texts without a newline the pattern matches the labels. -/
theorem matchesNamespace_iff {s : String} (h : hasNewline s = false) :
    matchesNamespace s = true ↔ DnsLabel s.toList := by
  have hiff : matchesNamespace s = true ↔ namespacePattern ⟨none, s.toList⟩ ≠ [] := by
    simp [matchesNamespace]
  rw [hiff, namespacePattern_iff]
  constructor
  · intro ⟨name, hname, hs⟩
    rcases hs with rfl | hs
    · exact hname
    · simp [hasNewline, hs] at h
  · intro hname
    exact ⟨_, hname, .inl rfl⟩

/-! ## Validation -/

/-- `CommandRequest`. -/
structure CommandRequest where
  action : String
  resource : String
  inNamespace : Option String := none
  flags : List String := []
  deriving DecidableEq, Repr

/-- `CommandNotAllowedError`. -/
structure CommandNotAllowedError where
  message : String
  deriving DecidableEq, Repr

/-- `CommandValidator`. -/
structure CommandValidator where
  allowedActions : Finset String
  allowedResources : Finset String
  allowedFlags : Finset String

/-- `given or default`, of sets. -/
def orDefault (given : Option (Finset String)) (default : Finset String) : Finset String :=
  match given with
  | none => default
  | some names => if names = ∅ then default else names

/-- `CommandValidator(allowed_actions, allowed_resources, allowed_flags)`. -/
def CommandValidator.new (actions resources flags : Option (Finset String)) : CommandValidator where
  allowedActions := orDefault actions Kubernetes.allowedActions
  allowedResources := orDefault resources Kubernetes.allowedResources
  allowedFlags := orDefault flags Kubernetes.allowedFlags

/-- `CommandValidator()`. -/
def CommandValidator.default : CommandValidator := .new none none none

/-- `sorted(names)` in a message, of names without quotes. -/
def listed (names : Finset String) : String :=
  "[" ++ ", ".intercalate ((Joined.sorted names).map fun name => "'" ++ name ++ "'") ++ "]"

/-- What is raised when a check fails. -/
def notAllowed (message : String) : Except CommandNotAllowedError Unit := .error ⟨message⟩

/-- `_validate_action` and `_validate_resource`, which differ in what they call the word. -/
def validateWord (kind : String) (allowed : Finset String) (word : String) :
    Except CommandNotAllowedError Unit :=
  if word = "" then notAllowed (kind ++ " cannot be empty")
  else if word ∉ allowed then
    notAllowed (kind ++ " '" ++ word ++ "' is not allowed. Allowed: " ++ listed allowed)
  else .ok ()

/-- `flag.split("=")[0]`. -/
def flagName (flag : String) : String := .ofList (flag.toList.takeWhile (· ≠ '='))

/-- `flag.startswith("-")`. -/
def isOption (flag : String) : Bool := flag.toList.head? = some '-'

namespace CommandValidator

variable (v : CommandValidator)

/-- `_validate_action`. -/
def validateAction (action : String) : Except CommandNotAllowedError Unit :=
  validateWord "Action" v.allowedActions action

/-- `_validate_resource`. -/
def validateResource (resource : String) : Except CommandNotAllowedError Unit :=
  validateWord "Resource" v.allowedResources resource

/-- `_validate_namespace`. -/
def validateNamespace : Option String → Except CommandNotAllowedError Unit
  | none => .ok ()
  | some name =>
    if hasDisallowed name then
      notAllowed ("Invalid namespace '" ++ name ++ "': contains disallowed characters")
    else if hasNewline name then
      notAllowed ("Invalid namespace '" ++ name ++ "': contains newline characters")
    else if !matchesNamespace name then
      notAllowed ("Invalid namespace '" ++ name ++ "': must be a valid DNS label")
    else .ok ()

/-- One round of the loop of `_validate_flags`. -/
def validateFlag (flag : String) : Except CommandNotAllowedError Unit :=
  if hasDisallowed flag then notAllowed ("Flag '" ++ flag ++ "' contains disallowed characters")
  else if hasNewline flag then notAllowed ("Flag '" ++ flag ++ "' contains newline characters")
  else if isOption flag ∧ flagName flag ∉ v.allowedFlags then
    notAllowed
      ("Flag '" ++ flagName flag ++ "' is not allowed. Allowed: " ++ listed v.allowedFlags)
  else .ok ()

/-- `_validate_flags`. -/
def validateFlags : List String → Except CommandNotAllowedError Unit
  | [] => .ok ()
  | flag :: flags => do
      v.validateFlag flag
      validateFlags flags

/-- `validate`. -/
def validate (request : CommandRequest) : Except CommandNotAllowedError Unit := do
  v.validateAction request.action
  v.validateResource request.resource
  validateNamespace request.inNamespace
  v.validateFlags request.flags

end CommandValidator

/-- No character that is disallowed, and no line break. -/
def Plain (s : String) : Prop := ∀ c ∈ s.toList, c ∉ disallowedChars ∧ c ≠ '\n' ∧ c ≠ '\r'

theorem plain_iff {s : String} : Plain s ↔ hasDisallowed s = false ∧ hasNewline s = false := by
  simp only [Plain, hasDisallowed, hasNewline, List.any_eq_false, decide_eq_true_eq, not_or,
    ← forall_and]

theorem notAllowed_ne_ok (message : String) : notAllowed message ≠ .ok () := nofun

theorem validateWord_eq_ok {kind word : String} {allowed : Finset String} :
    validateWord kind allowed word = .ok () ↔ word ≠ "" ∧ word ∈ allowed := by
  by_cases hempty : word = ""
  · simp [validateWord, hempty, notAllowed_ne_ok]
  · by_cases hmem : word ∈ allowed <;> simp [validateWord, hempty, hmem, notAllowed_ne_ok]

theorem validateNamespace_eq_ok {name : String} :
    CommandValidator.validateNamespace (some name) = .ok () ↔
      Plain name ∧ DnsLabel name.toList := by
  rw [plain_iff]
  cases hchars : hasDisallowed name with
  | true => simp [CommandValidator.validateNamespace, hchars, notAllowed_ne_ok]
  | false =>
    cases hlines : hasNewline name with
    | true => simp [CommandValidator.validateNamespace, hchars, hlines, notAllowed_ne_ok]
    | false =>
      rw [← matchesNamespace_iff hlines]
      cases hlabel : matchesNamespace name <;>
        simp [CommandValidator.validateNamespace, hchars, hlines, hlabel, notAllowed_ne_ok]

namespace CommandValidator

variable {v : CommandValidator}

theorem validateFlag_eq_ok {flag : String} : v.validateFlag flag = .ok () ↔
    Plain flag ∧ (isOption flag = true → flagName flag ∈ v.allowedFlags) := by
  rw [plain_iff]
  cases hchars : hasDisallowed flag with
  | true => simp [validateFlag, hchars, notAllowed_ne_ok]
  | false =>
    cases hlines : hasNewline flag with
    | true => simp [validateFlag, hchars, hlines, notAllowed_ne_ok]
    | false =>
      by_cases hname : isOption flag = true ∧ flagName flag ∉ v.allowedFlags
      · simp [validateFlag, hchars, hlines, hname, notAllowed_ne_ok]
      · have himp : isOption flag = true → flagName flag ∈ v.allowedFlags := by
          simpa using hname
        simpa [validateFlag, hchars, hlines, hname] using himp

theorem validateFlags_eq_ok {flags : List String} :
    v.validateFlags flags = .ok () ↔ ∀ flag ∈ flags, v.validateFlag flag = .ok () := by
  induction flags with
  | nil => simp [validateFlags]
  | cons flag flags ih => simp [validateFlags, check_bind_eq_ok, ih]

/-- **What is accepted**: words and flags that are on the whitelists, and a namespace that is a
label. -/
theorem validate_eq_ok {request : CommandRequest} : v.validate request = .ok () ↔
    (request.action ≠ "" ∧ request.action ∈ v.allowedActions) ∧
    (request.resource ≠ "" ∧ request.resource ∈ v.allowedResources) ∧
    (∀ name ∈ request.inNamespace, Plain name ∧ DnsLabel name.toList) ∧
    ∀ flag ∈ request.flags,
      Plain flag ∧ (isOption flag = true → flagName flag ∈ v.allowedFlags) := by
  have hnamespace : validateNamespace request.inNamespace = .ok () ↔
      ∀ name ∈ request.inNamespace, Plain name ∧ DnsLabel name.toList := by
    cases request.inNamespace with
    | none => simp [validateNamespace]
    | some name => simp [validateNamespace_eq_ok]
  simp [validate, validateAction, validateResource, check_bind_eq_ok, validateWord_eq_ok,
    hnamespace, validateFlags_eq_ok, validateFlag_eq_ok, and_assoc]

end CommandValidator

/-! ## Execution -/

/-- `build_kubectl_command`. -/
def buildKubectlCommand (request : CommandRequest) : List String :=
  ["kubectl", request.action, request.resource] ++
    (match request.inNamespace with
      | none => []
      | some name => if name = "" then [] else ["-n", name]) ++ request.flags

/-- `CommandResponse`. -/
structure CommandResponse where
  output : String
  exitCode : ℤ
  duration : ℤ
  error : Option String
  deriving DecidableEq, Repr

/-- What running a process comes to. -/
structure CompletedProcess where
  stdout : String
  stderr : String
  returncode : ℤ
  deriving DecidableEq, Repr

/-- What `execute_command` raises and what it handles; `other` is any other exception, by its
text. -/
inductive Raised where
  | notAllowed (e : CommandNotAllowedError)
  | executionError (message : String)
  | timeoutExpired
  | other (text : String)
  deriving DecidableEq, Repr

/-- What is asked of the operating system. -/
inductive ProcessCmd where
  | monotonic
  | run (cmd : List String) (timeout : ℤ)
  deriving DecidableEq, Repr

/-- The operating system. -/
def Processes : Interface where
  Cmd := ProcessCmd
  Reply
    | .monotonic => Time
    | .run _ _ => CompletedProcess

/-- The milliseconds since an instant. -/
def elapsed (startTime : Time) : Program Processes Raised ℤ := do
  let now : Time ← Program.command (I := Processes) .monotonic
  return (now - startTime).tdiv 1000

/-- `execute_command`. -/
def executeCommand (request : CommandRequest) (timeout : ℤ) :
    Program Processes Raised CommandResponse :=
  match CommandValidator.default.validate request with
  | .error e => throw (.notAllowed e)
  | .ok () => do
      let startTime : Time ← Program.command (I := Processes) .monotonic
      try
        let result : CompletedProcess ← Program.command (I := Processes)
          (.run (buildKubectlCommand request) timeout)
        let duration ← elapsed startTime
        pure {
          output := result.stdout
          exitCode := result.returncode
          duration := duration
          error := if result.returncode ≠ 0 then some result.stderr else none }
      catch e =>
        let duration ← elapsed startTime
        match e with
        | .timeoutExpired => pure {
            output := ""
            exitCode := -1
            duration := duration
            error := some ("Command timed out after " ++ toString timeout ++ " seconds") }
        | .other text => throw (.executionError ("Command execution failed: " ++ text))
        | e => throw e

end DoxAsdlc.Kubernetes
