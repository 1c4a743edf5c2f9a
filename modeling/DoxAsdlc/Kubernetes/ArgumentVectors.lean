import DoxAsdlc.Kubernetes.Commands

/-!
# The argument vectors of accepted commands

Options, characters and the namespace of an accepted command are as the whitelists say.  The flags
for namespaces are on the whitelist of flags, so that the flags of a command can name namespaces
that its own namespace says nothing of.

## Main definitions

* `namesIn` — the namespaces that an argument vector names, in any spelling of the flags.
* `Screened`, `Confined` — what holds of the argument vector, and what would confine the command to
  its namespace.

## Main results

* `namesIn_build` — the namespaces of a command are its own one and those that its flags name.
* `argv_screened` — what holds of the argument vector of an accepted command.
* `executeCommand_meets` — no other argument vector is run.
-/

namespace DoxAsdlc.Kubernetes

open Interaction

/-! ## Namespaces in an argument vector -/

/-- What an argument can name: a namespace, or all of them. -/
inductive Named where
  | one (name : String)
  | all
  deriving DecidableEq, Repr

/-- The value of an option: what is left of the argument, or the argument after it. -/
def optionValue (next : Option String) : List Char → Option String
  | [] => next
  | '=' :: value => some (.ofList value)
  | value => some (.ofList value)

/-- What options of one letter in one argument name, `-n` and `-A` among them. -/
def namedShort (next : Option String) : List Char → List Named
  | [] => []
  | c :: rest =>
    if c = '=' then []
    else if c = 'n' then (optionValue next rest).toList.map .one
    else if c = 'A' then .all :: namedShort next rest
    else namedShort next rest

/-- The name of a long option, an underscore read as a dash. -/
def longName (option : List Char) : String :=
  .ofList ((option.takeWhile (· ≠ '=')).map fun c => if c = '_' then '-' else c)

/-- What an option with a long name names. -/
def namedLong (next : Option String) (option : List Char) : List Named :=
  if longName option = "namespace" then
    (optionValue next (option.dropWhile (· ≠ '='))).toList.map .one
  else if longName option = "all-namespaces" then [.all]
  else []

/-- What an argument names, with the argument after it. -/
def namedBy (next : Option String) (arg : String) : List Named :=
  if ['-', '-'] <+: arg.toList then namedLong next (arg.toList.drop 2)
  else if ['-'] <+: arg.toList then namedShort next (arg.toList.drop 1)
  else []

/-- What an argument vector names. -/
def namesIn : List String → List Named
  | [] => []
  | arg :: args => namedBy args.head? arg ++ namesIn args

/-- The flags of the whitelist that name namespaces. -/
def namespaceFlags : Finset String := {"-n", "--namespace", "-A", "--all-namespaces"}

/-! ## What arguments name -/

theorem namedBy_of_not_isOption {arg : String} (h : isOption arg = false) (next : Option String) :
    namedBy next arg = [] := by
  have hdash : ¬ ['-'] <+: arg.toList := by
    intro ⟨rest, hrest⟩
    simp [isOption, ← hrest] at h
  have hdashes : ¬ ['-', '-'] <+: arg.toList := by
    intro ⟨rest, hrest⟩
    exact hdash ⟨'-' :: rest, hrest⟩
  simp [namedBy, hdash, hdashes]

theorem namesIn_append_of_not_isOption {args args' : List String}
    (h : ∀ arg ∈ args, isOption arg = false) : namesIn (args ++ args') = namesIn args' := by
  induction args with
  | nil => rfl
  | cons arg args ih =>
    rw [List.forall_mem_cons] at h
    rw [List.cons_append, namesIn, namedBy_of_not_isOption h.1, ih h.2, List.nil_append]

theorem mem_namesIn {args : List String} {named : Named} : named ∈ namesIn args ↔
    ∃ before arg after, args = before ++ arg :: after ∧ named ∈ namedBy after.head? arg := by
  induction args with
  | nil => simp [namesIn]
  | cons arg args ih =>
    rw [namesIn, List.mem_append, ih]
    constructor
    · intro h
      rcases h with h | ⟨before, arg', after, rfl, h⟩
      · exact ⟨[], arg, args, rfl, h⟩
      · exact ⟨arg :: before, arg', after, rfl, h⟩
    · intro ⟨before, arg', after, heq, h⟩
      cases before with
      | nil =>
        cases heq
        exact .inl h
      | cons first before =>
        cases heq
        exact .inr ⟨before, arg', after, rfl, h⟩

theorem namedShort_eq_nil {letters : List Char}
    (h : ∀ c ∈ letters.takeWhile (· ≠ '='), c ≠ 'n' ∧ c ≠ 'A') (next : Option String) :
    namedShort next letters = [] := by
  induction letters with
  | nil => rfl
  | cons c rest ih =>
    by_cases hc : c = '='
    · simp [namedShort, hc]
    · rw [List.takeWhile_cons_of_pos (by simpa using hc), List.forall_mem_cons] at h
      simp [namedShort, hc, h.1, ih h.2]

/-- Does an option of this name name namespaces? -/
def namesNamespaces (name : String) : Bool :=
  if ['-', '-'] <+: name.toList then
    longName (name.toList.drop 2) = "namespace" ∨
      longName (name.toList.drop 2) = "all-namespaces"
  else 'n' ∈ name.toList ∨ 'A' ∈ name.toList

theorem namedBy_long {arg : String} {option : List Char} (h : arg.toList = '-' :: '-' :: option)
    (next : Option String) : namedBy next arg = namedLong next option := by
  have hlong : ['-', '-'] <+: '-' :: '-' :: option := ⟨option, rfl⟩
  rw [namedBy, h, if_pos hlong]
  rfl

theorem namesNamespaces_long {name : String} {option : List Char}
    (h : name.toList = '-' :: '-' :: option) : namesNamespaces name = true ↔
      longName option = "namespace" ∨ longName option = "all-namespaces" := by
  have hlong : ['-', '-'] <+: '-' :: '-' :: option := ⟨option, rfl⟩
  rw [namesNamespaces, h, if_pos hlong, decide_eq_true_eq]
  rfl

/-- It is the name of an option that says whether it names namespaces. -/
theorem namedBy_eq_nil {arg : String} (h : namesNamespaces (flagName arg) = false)
    (next : Option String) : namedBy next arg = [] := by
  have hname : (flagName arg).toList = arg.toList.takeWhile (· ≠ '=') := by simp [flagName]
  by_cases hlong : ['-', '-'] <+: arg.toList
  · obtain ⟨option, hoption⟩ : ∃ option, '-' :: '-' :: option = arg.toList := hlong
    have hsame : longName (option.takeWhile (· ≠ '=')) = longName option := by
      rw [longName, List.takeWhile_idem, longName]
    have hchars : (flagName arg).toList = '-' :: '-' :: option.takeWhile (· ≠ '=') := by
      rw [hname, ← hoption]
      simp
    rw [Bool.eq_false_iff, ne_eq, namesNamespaces_long hchars, hsame, not_or] at h
    rw [namedBy_long hoption.symm, namedLong, if_neg h.1, if_neg h.2]
  · have hshort : ¬ ['-', '-'] <+: (flagName arg).toList := by
      rw [hname]
      exact fun hlong' => hlong (hlong'.trans (List.takeWhile_prefix _))
    rw [namesNamespaces, if_neg hshort, decide_eq_false_iff_not, not_or, hname] at h
    by_cases hdash : ['-'] <+: arg.toList
    · obtain ⟨letters, hletters⟩ := hdash
      rw [namedBy, if_neg hlong, if_pos ⟨letters, hletters⟩, ← hletters]
      refine namedShort_eq_nil (fun c hc => ?_) next
      have hmem : c ∈ arg.toList.takeWhile (· ≠ '=') := by
        rw [← hletters, List.singleton_append, List.takeWhile_cons_of_pos (by simp)]
        exact List.mem_cons_of_mem _ hc
      exact ⟨fun heq => h.1 (heq ▸ hmem), fun heq => h.2 (heq ▸ hmem)⟩
    · rw [namedBy, if_neg hlong, if_neg hdash]

/-- Of the flags on the whitelist four name namespaces. -/
theorem mem_namespaceFlags {name : String} (h : name ∈ allowedFlags)
    (hnames : namesNamespaces name = true) : name ∈ namespaceFlags := by
  revert name
  decide

/-! ## The argument vector of an accepted command -/

/-- What the whitelists promise of the argument vector of a request. -/
structure Screened (request : CommandRequest) (argv : List String) : Prop where
  options : ∀ arg ∈ argv, isOption arg = true → flagName arg ∈ allowedFlags
  plain : ∀ arg ∈ argv, Plain arg
  label : ∀ name ∈ request.inNamespace, DnsLabel name.toList

/-- The argument vector names no namespace but the one of the request. -/
structure Confined (request : CommandRequest) (argv : List String) : Prop
    extends Screened request argv where
  named : ∀ named ∈ namesIn argv, request.inNamespace.map .one = some named

variable {request : CommandRequest}

theorem DnsLabel.not_isOption {name : String} (h : DnsLabel name.toList) :
    isOption name = false := by
  obtain ⟨c, hc, hlabel⟩ := h.first
  simp only [isOption, decide_eq_false_iff_not]
  intro hdash
  rw [hdash] at hc
  cases hc
  revert hlabel
  decide

/-- The argument vector before the flags of the request. -/
def ownArguments (request : CommandRequest) : List String :=
  ["kubectl", request.action, request.resource] ++
    request.inNamespace.toList.flatMap fun name => ["-n", name]

theorem buildKubectlCommand_eq (h : CommandValidator.default.validate request = .ok ()) :
    buildKubectlCommand request = ownArguments request ++ request.flags := by
  obtain ⟨-, -, hnamespace, -⟩ := CommandValidator.validate_eq_ok.mp h
  cases hname : request.inNamespace with
  | none => simp [buildKubectlCommand, ownArguments, hname]
  | some name =>
    have hne : name ≠ "" := by
      intro hempty
      obtain ⟨c, hc, -⟩ := (hnamespace name hname).2.first
      simp [hempty] at hc
    simp [buildKubectlCommand, ownArguments, hname, hne]

theorem words_plain {word : String} (h : word ∈ allowedActions ∪ allowedResources) :
    Plain word ∧ isOption word = false := by
  rw [plain_iff]
  revert word
  decide

theorem request_words (h : CommandValidator.default.validate request = .ok ()) :
    ∀ word ∈ ["kubectl", request.action, request.resource],
      Plain word ∧ isOption word = false := by
  obtain ⟨⟨-, haction⟩, ⟨-, hresource⟩, -, -⟩ := CommandValidator.validate_eq_ok.mp h
  have hkubectl : Plain "kubectl" ∧ isOption "kubectl" = false := by
    rw [plain_iff]
    decide
  simp only [List.forall_mem_cons]
  exact ⟨hkubectl, words_plain (Finset.mem_union_left _ haction),
    words_plain (Finset.mem_union_right _ hresource), by simp⟩

/-- **The namespaces of a command** are its own one and those that its flags name. -/
theorem namesIn_build (h : CommandValidator.default.validate request = .ok ()) :
    namesIn (buildKubectlCommand request)
      = request.inNamespace.toList.map .one ++ namesIn request.flags := by
  obtain ⟨-, -, hnamespace, -⟩ := CommandValidator.validate_eq_ok.mp h
  have hwords := fun word hword => (request_words h word hword).2
  rw [buildKubectlCommand_eq h, ownArguments, List.append_assoc,
    namesIn_append_of_not_isOption hwords]
  cases hname : request.inNamespace with
  | none => rfl
  | some name =>
    have hown : namedBy (some name) "-n" = [.one name] := rfl
    have hquiet := (hnamespace name hname).2.not_isOption
    simp [namesIn, hown, namedBy_of_not_isOption hquiet]

theorem argv_screened (h : CommandValidator.default.validate request = .ok ()) :
    Screened request (buildKubectlCommand request) := by
  obtain ⟨-, -, hnamespace, hflags⟩ := CommandValidator.validate_eq_ok.mp h
  have hown : ∀ arg ∈ ownArguments request,
      Plain arg ∧ (isOption arg = true → flagName arg ∈ allowedFlags) := by
    intro arg harg
    rcases List.mem_append.mp harg with hword | hnamed
    · have hplain := request_words h arg hword
      exact ⟨hplain.1, by simp [hplain.2]⟩
    · obtain ⟨name, hname, harg⟩ := List.mem_flatMap.mp hnamed
      have hlabel := hnamespace name (by simpa using hname)
      rcases List.mem_pair.mp harg with rfl | rfl
      · rw [plain_iff]
        decide
      · exact ⟨hlabel.1, by simp [hlabel.2.not_isOption]⟩
  have hall : ∀ arg ∈ buildKubectlCommand request,
      Plain arg ∧ (isOption arg = true → flagName arg ∈ allowedFlags) := by
    rw [buildKubectlCommand_eq h]
    intro arg harg
    rcases List.mem_append.mp harg with harg | harg
    · exact hown arg harg
    · exact hflags arg harg
  exact ⟨fun arg harg => (hall arg harg).2, fun arg harg => (hall arg harg).1,
    fun name hname => (hnamespace name hname).2⟩

/-- What a flag on the whitelist names, it names by one of four flags. -/
theorem mem_namedBy_flag {flag : String} {next : Option String} {named : Named}
    (hallowed : isOption flag = true → flagName flag ∈ allowedFlags)
    (h : named ∈ namedBy next flag) : flagName flag ∈ namespaceFlags := by
  cases hoption : isOption flag with
  | false => simp [namedBy_of_not_isOption hoption] at h
  | true =>
    cases hnames : namesNamespaces (flagName flag) with
    | false => simp [namedBy_eq_nil hnames] at h
    | true => exact mem_namespaceFlags (hallowed hoption) hnames

/-- Pods of the default namespace, as a table of names. -/
def podNames : CommandRequest := ⟨"get", "pods", some "default", ["-o", "name"]⟩

/-- Pods of the default namespace, and a flag for another one. -/
def otherNamespace : CommandRequest :=
  ⟨"get", "pods", some "default", ["-n", "kube-system"]⟩

/-- What may be asked of the operating system, for a request that is accepted. -/
def Allowed (request : CommandRequest) (timeout : ℤ) (c : ProcessCmd) : Prop :=
  CommandValidator.default.validate request = .ok () ∧
    ∀ argv t, c = .run argv t →
      Screened request argv ∧ argv = buildKubectlCommand request ∧ t = timeout

theorem command_meets {timeout : ℤ} {c : ProcessCmd} (hc : Allowed request timeout c) :
    (Program.command (I := Processes) c : Program Processes Raised _).Meets (fun _ _ => True)
      (Allowed request timeout) fun _ => True :=
  Program.meets_command (I := Processes) hc fun _ _ => trivial

theorem elapsed_meets {timeout : ℤ} (h : CommandValidator.default.validate request = .ok ())
    (startTime : Time) :
    (elapsed startTime).Meets (fun _ _ => True) (Allowed request timeout) fun _ => True :=
  Program.meets_bind (command_meets (c := .monotonic) ⟨h, by simp⟩) fun _ _ => trivial

/-- **No command is run** but by the argument vector of an accepted request, and a response tells
of an error exactly when its exit code does. -/
theorem executeCommand_meets (request : CommandRequest) (timeout : ℤ) :
    (executeCommand request timeout).Meets (fun _ _ => True) (Allowed request timeout)
      fun response => response.error = none ↔ response.exitCode = 0 := by
  cases hvalid : CommandValidator.default.validate request with
  | error e =>
    simp only [executeCommand, hvalid]
    trivial
  | ok _ =>
    have hrun : Allowed request timeout (.run (buildKubectlCommand request) timeout) := by
      refine ⟨hvalid, ?_⟩
      rintro _ _ ⟨⟩
      exact ⟨argv_screened hvalid, rfl, rfl⟩
    simp only [executeCommand, hvalid]
    refine Program.meets_bind (command_meets (c := .monotonic) ⟨hvalid, by simp⟩) ?_
    intro startTime _
    refine Program.meets_tryCatch ?_ ?_
    · refine Program.meets_bind (command_meets hrun) fun result _ => ?_
      refine Program.meets_bind (elapsed_meets hvalid startTime) fun duration _ => ?_
      by_cases hcode : result.returncode = 0 <;> simp [Program.Meets, hcode, pure]
    · intro e
      refine Program.meets_bind (elapsed_meets hvalid startTime) fun duration _ => ?_
      cases e <;> simp [Program.Meets, pure, throw]

end DoxAsdlc.Kubernetes
