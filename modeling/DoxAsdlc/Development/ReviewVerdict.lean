import DoxAsdlc.Development.HandOver
import DoxAsdlc.Development.SecurityScan
import DoxAsdlc.Text.Joined

/-!
# The verdict of a review

The findings of the security scan are merged into the review of the model.  A finding under whose
identifier the model has an issue of its own is left out, and a review is left as it is when there
are no findings, whatever its issues.

## Main definitions

* `VerdictSound` — the findings are in the review, and one that passed has no severe issue.
* `Uncontested` — when the review of the model lets the verdict be sound.

## Main results

* `verdictSound_iff` — when the verdict of a review that is reported is sound.
-/

namespace DoxAsdlc.Development.Reviewer

open Interaction Interaction.Program
open Rlm (Json)
open SecurityScan (Severe Found idText)

/-- Every finding is among the issues, and the review passed only without a severe issue. -/
def VerdictSound (findings : List ReviewIssue) (review : CodeReview) : Prop :=
  (∀ f ∈ findings, f ∈ review.issues) ∧
    (review.passed.truthy = true → ∀ issue ∈ review.issues, ¬ Severe issue)

/-- The review of the model has no issue under the identifier of a finding; and where there are no
findings it passes only without a severe issue. -/
def Uncontested (findings : List ReviewIssue) (llm : CodeReview) : Prop :=
  (∀ f ∈ findings, ∀ issue ∈ llm.issues, issue.id ≠ f.id) ∧
    (findings = [] → llm.passed.truthy = true → ∀ issue ∈ llm.issues, ¬ Severe issue)

variable {S : Setting}

/-! ## The issues of the model -/

/-- An issue of the model: its metadata is its category. -/
def OfModel (issue : ReviewIssue) : Prop := ∃ category, issue.metadata = .obj [("category", category)]

theorem ofModel_addIssue {built issues : List ReviewIssue} {data : Json}
    (h : addIssue S built data = .ok issues) (hbuilt : ∀ issue ∈ built, OfModel issue) :
    ∀ issue ∈ issues, OfModel issue := by
  obtain ⟨given, -, h⟩ := bind_eq_ok.mp h
  obtain ⟨severity, -, h⟩ := bind_eq_ok.mp h
  cases hseverity : IssueSeverity.of (.str severity) with
  | error e =>
    simp only [hseverity] at h
    cases h
    exact hbuilt
  | ok severity =>
    simp only [hseverity] at h
    obtain ⟨id, -, h⟩ := bind_eq_ok.mp h
    obtain ⟨description, -, h⟩ := bind_eq_ok.mp h
    obtain ⟨filePath, -, h⟩ := bind_eq_ok.mp h
    obtain ⟨lineNumber, -, h⟩ := bind_eq_ok.mp h
    obtain ⟨suggestion, -, h⟩ := bind_eq_ok.mp h
    obtain ⟨category, -, h⟩ := bind_eq_ok.mp h
    cases h
    intro issue hissue
    rcases List.mem_append.mp hissue with hissue | hissue
    · exact hbuilt issue hissue
    · rw [List.mem_singleton.mp hissue]
      exact ⟨category, rfl⟩

theorem ofModel_foldlM {datas : List Json} {built issues : List ReviewIssue}
    (h : datas.foldlM (addIssue S) built = .ok issues) (hbuilt : ∀ issue ∈ built, OfModel issue) :
    ∀ issue ∈ issues, OfModel issue := by
  induction datas generalizing built with
  | nil =>
    cases h
    exact hbuilt
  | cons data datas ih =>
    rw [List.foldlM_cons] at h
    obtain ⟨next, hnext, h⟩ := bind_eq_ok.mp h
    exact ih h (ofModel_addIssue hnext hbuilt)

/-- **The issues of a review** that is made of an answer are those of the model. -/
theorem ofModel_buildCodeReview {taskId content : String} {llm : CodeReview}
    (h : buildCodeReview S taskId content = .ok (some llm)) :
    ∀ issue ∈ llm.issues, OfModel issue := by
  rw [buildCodeReview] at h
  split at h
  case h_1 => cases h
  case h_2 data hdata =>
    split at h
    case isTrue => cases h
    case isFalse =>
      obtain ⟨given, -, h⟩ := bind_eq_ok.mp h
      obtain ⟨datas, -, h⟩ := bind_eq_ok.mp h
      obtain ⟨issues, hissues, h⟩ := bind_eq_ok.mp h
      obtain ⟨passed, -, h⟩ := bind_eq_ok.mp h
      obtain ⟨suggestions, -, h⟩ := bind_eq_ok.mp h
      obtain ⟨concerns, -, h⟩ := bind_eq_ok.mp h
      cases h
      exact ofModel_foldlM hissues (by simp)

/-- A finding is no issue of the model. -/
theorem not_ofModel_of_found {f : ReviewIssue} (hf : Found f) : ¬ OfModel f := by
  intro ⟨category, hcategory⟩
  obtain ⟨kind, hkind⟩ := hf.metadata_eq
  rw [hkind] at hcategory
  cases hcategory

/-! ## The merge -/

/-- There is no issue under the identifier of the finding. -/
def isNew (issues : List ReviewIssue) (f : ReviewIssue) : Bool :=
  !issues.any fun issue => issue.id.isText (idText f)

theorem isText_eq_true {v : Json} {s : String} : v.isText s = true ↔ v = .str s := by
  cases v <;> simp [Json.isText]

theorem isNew_iff {issues : List ReviewIssue} {f : ReviewIssue} (hf : Found f) :
    isNew issues f = true ↔ ∀ issue ∈ issues, issue.id ≠ f.id := by
  simp only [isNew, Bool.not_eq_true', List.any_eq_false, isText_eq_true, hf.id_eq, ne_eq]

/-- **The findings that are added** are those under identifiers that the model did not use. -/
theorem foldl_addFinding (hstr : ∀ s, S.str (.str s) = s) {findings issues : List ReviewIssue}
    (hfound : ∀ f ∈ findings, Found f) (hnodup : (findings.map idText).Nodup) :
    findings.foldl (addFinding S) issues = issues ++ findings.filter (isNew issues) := by
  induction findings generalizing issues with
  | nil => simp
  | cons f findings ih =>
    obtain ⟨hf, hfound⟩ := List.forall_mem_cons.mp hfound
    rw [List.map_cons, List.nodup_cons] at hnodup
    have hadd : addFinding S issues f = if isNew issues f then issues ++ [f] else issues := by
      rw [addFinding, hf.id_eq, hstr, isNew]
      cases issues.any fun issue => issue.id.isText (idText f) <;> rfl
    rw [List.foldl_cons, hadd]
    by_cases hnew : isNew issues f = true
    · -- the findings that follow have other identifiers
      have hsame : findings.filter (isNew (issues ++ [f])) = findings.filter (isNew issues) := by
        refine List.filter_congr fun g hg => ?_
        have hne : idText f ≠ idText g := fun heq =>
          hnodup.1 (heq ▸ List.mem_map_of_mem hg)
        simp [isNew, hf.id_eq, Json.isText, hne]
      rw [if_pos hnew, ih hfound hnodup.2, hsame, List.filter_cons_of_pos hnew,
        List.append_assoc, List.singleton_append]
    · rw [if_neg hnew, ih hfound hnodup.2, List.filter_cons_of_neg hnew]

/-- What is merged. -/
theorem mergeSecurityFindings_eq_ok (hstr : ∀ s, S.str (.str s) = s) {findings : List ReviewIssue}
    (hfound : ∀ f ∈ findings, Found f) (hnodup : (findings.map idText).Nodup)
    {llm review : CodeReview} (h : mergeSecurityFindings S llm findings = .ok review)
    (hne : findings ≠ []) :
    review.issues = llm.issues ++ findings.filter (isNew llm.issues) ∧
      review.passed = if ∃ issue ∈ review.issues, Severe issue then .bool false else llm.passed := by
  rw [mergeSecurityFindings, if_neg (by simpa using hne)] at h
  obtain ⟨ids, -, h⟩ := bind_eq_ok.mp h
  obtain ⟨concerns, -, h⟩ := bind_eq_ok.mp h
  cases h
  rw [foldl_addFinding hstr hfound hnodup]
  refine ⟨rfl, if_congr ?_ rfl rfl⟩
  simp only [Severe, List.any_eq_true, decide_eq_true_eq]

/-- **When a merged review is sound.** -/
theorem verdictSound_merge_iff (hstr : ∀ s, S.str (.str s) = s) {findings : List ReviewIssue}
    (hfound : ∀ f ∈ findings, Found f) (hnodup : (findings.map idText).Nodup)
    {llm review : CodeReview} (hmodel : ∀ issue ∈ llm.issues, OfModel issue)
    (h : mergeSecurityFindings S llm findings = .ok review) :
    VerdictSound findings review ↔ Uncontested findings llm := by
  by_cases hne : findings = []
  · subst hne
    cases h
    simp [VerdictSound, Uncontested]
  · obtain ⟨hissues, hpassed⟩ := mergeSecurityFindings_eq_ok hstr hfound hnodup h hne
    -- a review with a severe issue did not pass
    have hverdict : review.passed.truthy = true → ∀ issue ∈ review.issues, ¬ Severe issue := by
      intro htruthy issue hissue hsevere
      rw [hpassed, if_pos ⟨issue, hissue, hsevere⟩] at htruthy
      cases htruthy
    have hmem : ∀ f ∈ findings, f ∈ review.issues ↔ ∀ issue ∈ llm.issues, issue.id ≠ f.id := by
      intro f hf
      have hnot : f ∉ llm.issues := fun hllm =>
        not_ofModel_of_found (hfound f hf) (hmodel f hllm)
      rw [hissues, List.mem_append, List.mem_filter, isNew_iff (hfound f hf)]
      simp [hnot, hf]
    simp only [VerdictSound, Uncontested, hne, false_imp_iff, and_true, and_iff_left hverdict]
    exact forall₂_congr hmem

/-! ## Runs -/

/-- The reviewer with the scan of the patterns. -/
def scanning (S : Setting) (P : SecurityScan.Patterns) : Setting :=
  { S with runSecurityScan := SecurityScan.runSecurityScan P }

/-- **The shape of a run that reports a review**: the model answers, what it found is merged with
the findings, and the merged review is written and reported. -/
theorem execute_success {context : Context} {input : Input}
    {h : List (Exchange interface Error)} {result : Agents.AgentResult Value}
    (hrun : (execute S context input).Yields h (.ok result)) (hsuccess : result.success = true) :
    ∃ content llm review, responses h = [content] ∧
      buildCodeReview S context.taskId content = .ok (some llm) ∧
      mergeSecurityFindings S llm (S.runSecurityScan input.implementation) = .ok review ∧
      made h = [.review review] ∧ result.get "passed" = some (.json review.passed) := by
  rw [execute, guarded] at hrun
  by_cases himplementation : input.implementation = ""
  · simp [himplementation, failure] at hrun
    simp [hrun.2] at hsuccess
  simp only [himplementation, if_false, tryCatch_eq, bind_eq, elim_elim, send, command_eq,
    elim_call, yields_call] at hrun
  obtain ⟨reply, b, h, rfl, hrun⟩ := hrun
  cases reply with
  | error e =>
    obtain ⟨-, hresult⟩ := hrun
    cases hresult
    cases hsuccess
  | ok content =>
    simp only [answer_ok, elim_ret] at hrun
    cases hbuild : buildCodeReview S context.taskId content with
    | error e =>
      simp [hbuild, failure] at hrun
      simp [hrun.2] at hsuccess
    | ok built =>
      cases built with
      | none =>
        simp [hbuild, failure] at hrun
        simp [hrun.2] at hsuccess
      | some llm =>
        cases hmerge : mergeSecurityFindings S llm
            (S.runSecurityScan input.implementation) with
        | error e =>
          simp [hbuild, hmerge, failure] at hrun
          simp [hrun.2] at hsuccess
        | ok review =>
          simp only [hbuild, hmerge, writeArtifacts, send, answer_ok, elim_ret, command_eq,
            bind_eq, elim_call, elim_elim, yields_call] at hrun
          obtain ⟨reply', b', h', rfl, hrun⟩ := hrun
          cases reply' with
          | error e =>
            obtain ⟨-, hresult⟩ := hrun
            cases hresult
            cases hsuccess
          | ok jsonPath =>
            cases hmarkdown : review.toMarkdown S.str S.today with
            | error e =>
              simp [hmarkdown, failure] at hrun
              simp [hrun.2] at hsuccess
            | ok markdown =>
              simp only [hmarkdown, answer_ok, elim_ret, yields_call] at hrun
              obtain ⟨reply'', b'', h'', rfl, hrun⟩ := hrun
              cases reply'' with
              | error e =>
                obtain ⟨-, hresult⟩ := hrun
                cases hresult
                cases hsuccess
              | ok markdownPath =>
                obtain ⟨rfl, hresult⟩ := hrun
                cases hresult
                exact ⟨content, llm, review, rfl, hbuild, hmerge, rfl, rfl⟩

/-- **When the verdict of a review that is reported is sound.** -/
theorem verdictSound_iff (S : Setting) (P : SecurityScan.Patterns)
    (hstr : ∀ s, S.str (.str s) = s) (context : Context) (input : Input)
    (h : List (Exchange interface Error)) (result : Agents.AgentResult Value)
    (hrun : (execute (scanning S P) context input).Yields h (.ok result))
    (hsuccess : result.success = true) :
    ∃ content llm review, responses h = [content] ∧
      buildCodeReview S context.taskId content = .ok (some llm) ∧
      made h = [.review review] ∧ result.get "passed" = some (.json review.passed) ∧
      (VerdictSound (SecurityScan.runSecurityScan P input.implementation) review ↔
        Uncontested (SecurityScan.runSecurityScan P input.implementation) llm) := by
  obtain ⟨content, llm, review, hcontent, hbuild, hmerge, hmade, hpassed⟩ :=
    execute_success hrun hsuccess
  refine ⟨content, llm, review, hcontent, hbuild, hmade, hpassed, ?_⟩
  exact verdictSound_merge_iff hstr (fun f hf => SecurityScan.found_of_mem hf)
    (SecurityScan.nodup_ids P _) (ofModel_buildCodeReview hbuild) hmerge

/-! ## A dangerous line -/

/-- Everything is answered, and what is merged can be written out. -/
theorem execute_yields {context : Context} {input : Input} {content markdown : String}
    {llm review : CodeReview} (himplementation : input.implementation ≠ "")
    (hbuild : buildCodeReview S context.taskId content = .ok (some llm))
    (hmerge : mergeSecurityFindings S llm (S.runSecurityScan input.implementation) = .ok review)
    (hmarkdown : review.toMarkdown S.str S.today = .ok markdown) :
    (execute S context input).Yields
      [⟨.generate (S.prompts.qualityReview input.implementation input.testSuite input.testResults),
          .ok content, true⟩,
        ⟨.writeArtifact context.sessionId context.taskId (.json (.review review)) .report
          (context.taskId ++ "_review.json"), .ok "review.json", true⟩,
        ⟨.writeArtifact context.sessionId context.taskId (.value (.str markdown)) .text
          (context.taskId ++ "_review.md"), .ok "review.md", true⟩]
      (.ok (succeeded review ["review.json", "review.md"]
        (S.runSecurityScan input.implementation).length)) := by
  simp [execute, guarded, himplementation, hbuild, hmerge, hmarkdown, writeArtifacts, send]

/-- An approval with one issue, as it is answered and as it is read. -/
def approval (id : String) : String × Json :=
  ("\x7b\"passed\": true, \"issues\": [\x7b\"id\": \"" ++ id ++ "\", \"severity\": \"low\"\x7d]\x7d",
    .obj [("passed", .bool true),
      ("issues", .arr [.obj [("id", .str id), ("severity", .str "low")]])])

/-- A model that approves. -/
def approving : Setting :=
  { demo with
    str := fun
      | .str s => s
      | .int n => toString n
      | _ => ""
    loads := fun s => ([approval "ISSUE-001", approval "OWASP-001"].find? fun a => a.1 = s).map
      Prod.snd }

/-- The patterns on the line `eval(x)`. -/
def evalPatterns : SecurityScan.Patterns where
  search _ pattern line := pattern = "\\beval\\s*\\(" ∧ line = "eval(x)"
  finditer _ _ := 0

/-- The line is reviewed. -/
def evalInput : Input := ⟨"eval(x)", "", ""⟩

/-- The finding of the line. -/
def evalFinding : ReviewIssue :=
  SecurityScan.finding "OWASP" "owasp" 0 ⟨1, "Dangerous use of eval()", .critical,
    "Use JSON or other safe serialization formats; avoid eval/exec"⟩

theorem runSecurityScan_evalInput :
    SecurityScan.runSecurityScan evalPatterns evalInput.implementation = [evalFinding] := by
  have hline : "eval(x)".splitOn "\n" = ["eval(x)"] := Joined.splitOn_of_not_mem (by decide)
  have hlines : SecurityScan.numberedLines evalInput.implementation = [("eval(x)", 1)] := by
    rw [SecurityScan.numberedLines, evalInput, hline]
    rfl
  have hadvice : SecurityScan.owaspAdvice "Dangerous use of eval()"
      = (.critical, "Use JSON or other safe serialization formats; avoid eval/exec") := by
    decide +kernel
  have howasp : SecurityScan.owaspHits evalPatterns ("eval(x)", 1)
      = [⟨1, "Dangerous use of eval()", .critical,
          "Use JSON or other safe serialization formats; avoid eval/exec"⟩] := by
    have hmatches : (SecurityScan.owaspPatterns.filter fun pattern =>
        evalPatterns.search true pattern.1 "eval(x)")
          = [("\\beval\\s*\\(", "Dangerous use of eval()")] := by
      decide
    simp [SecurityScan.owaspHits, hmatches, hadvice]
  have hsecrets : SecurityScan.secretHits evalPatterns ("eval(x)", 1) = [] := rfl
  have hinjections : SecurityScan.injectionHits evalPatterns ("eval(x)", 1) = [] := by
    have hmatches : (SecurityScan.injectionPatterns.filter fun pattern =>
        evalPatterns.search true pattern.1 "eval(x)") = [] := by
      decide
    rw [SecurityScan.injectionHits, hmatches, List.map_nil]
  rw [SecurityScan.runSecurityScan, SecurityScan.scanForSecrets,
    SecurityScan.scanForInjectionVulnerabilities, SecurityScan.scanForOwaspVulnerabilities, hlines,
    List.flatMap_singleton, List.flatMap_singleton, List.flatMap_singleton, howasp, hsecrets,
    hinjections]
  rfl

/-- The review that is made of an approval. -/
def approved (id : String) : CodeReview where
  implementationId := .str "t"
  passed := .bool true
  issues := [{
    id := .str id, description := .str "", severity := .low, filePath := .str ""
    lineNumber := .int 0, suggestion := .str ""
    metadata := .obj [("category", .str "quality")] }]
  suggestions := .arr []
  securityConcerns := .arr []

theorem buildCodeReview_approval :
    buildCodeReview approving "t" (approval "ISSUE-001").1 = .ok (some (approved "ISSUE-001")) ∧
      buildCodeReview approving "t" (approval "OWASP-001").1
        = .ok (some (approved "OWASP-001")) := by
  refine ⟨?_, ?_⟩ <;> rfl

/-- What is found in the line is merged into the approval, unless the issue has its identifier. -/
theorem mergeSecurityFindings_approved :
    mergeSecurityFindings approving (approved "ISSUE-001") [evalFinding] = .ok
        { approved "ISSUE-001" with
          passed := .bool false
          issues := (approved "ISSUE-001").issues ++ [evalFinding]
          securityConcerns := .arr [.str "Dangerous use of eval() (line 1)"] } ∧
      mergeSecurityFindings approving (approved "OWASP-001") [evalFinding] = .ok
        { approved "OWASP-001" with
          securityConcerns := .arr [.str "Dangerous use of eval() (line 1)"] } := by
  refine ⟨?_, ?_⟩ <;> rfl

/-- The line is approved of, with an issue under another identifier. -/
theorem verdictSound_iff_approval :
    ∃ (h : List (Exchange interface Error)) (result : Agents.AgentResult Value),
      result.success = true ∧ ∃ content llm review, responses h = [content] ∧
      buildCodeReview approving demoContext.taskId content = .ok (some llm) ∧
      made h = [.review review] ∧ result.get "passed" = some (.json review.passed) ∧
      (VerdictSound (SecurityScan.runSecurityScan evalPatterns evalInput.implementation) review ↔
        Uncontested (SecurityScan.runSecurityScan evalPatterns evalInput.implementation) llm) := by
  have hrun := @execute_yields (scanning approving evalPatterns) demoContext evalInput
    (approval "ISSUE-001").1 _ (approved "ISSUE-001") _ (by decide) buildCodeReview_approval.1
    (runSecurityScan_evalInput ▸ mergeSecurityFindings_approved.1) rfl
  exact ⟨_, _, rfl, verdictSound_iff approving evalPatterns (fun s => rfl) demoContext evalInput _ _
    hrun rfl⟩

/-- The line is approved of with an issue under the identifier of the finding: the review passes
without it. -/
theorem not_verdictSound_sameId :
    ¬ ∀ (S : Setting) (P : SecurityScan.Patterns), (∀ s, S.str (.str s) = s) →
      ∀ (context : Context) (input : Input) (h : List (Exchange interface Error))
        (result : Agents.AgentResult Value),
        (execute (scanning S P) context input).Yields h (.ok result) → result.success = true →
          ∀ review, made h = [.review review] →
            VerdictSound (SecurityScan.runSecurityScan P input.implementation) review := by
  intro hall
  have hrun := @execute_yields (scanning approving evalPatterns) demoContext evalInput
    (approval "OWASP-001").1 _ (approved "OWASP-001") _ (by decide) buildCodeReview_approval.2
    (runSecurityScan_evalInput ▸ mergeSecurityFindings_approved.2) rfl
  have hsound := hall approving evalPatterns (fun s => rfl) demoContext evalInput _ _ hrun rfl _ rfl
  rw [runSecurityScan_evalInput] at hsound
  have hmem := hsound.1 evalFinding (by simp)
  simp [approved, evalFinding, SecurityScan.finding] at hmem

end DoxAsdlc.Development.Reviewer
