import DoxAsdlc.Core.Events
import DoxAsdlc.Text.PosixPath
import Mathlib.Data.List.DropRight

/-!
# The hook that checks the paths of edits

A command line instance is known by the email of its git configuration.  An edit or a write by an
identity is blocked where its path begins with a forbidden one.  The path is read as it is spelled:
only what leads to the project root is taken off.

An entry of the forbidden paths is a directory, which ends in a slash, a file, or the beginning of
names, which ends in a hyphen.

The patterns with stars are matched by a parameter.

## Main definitions

* `identityRules`, `emailToIdentity` — the identities.
* `normalizePath`, `matchesPattern`, `main` — the hook.
* `Forbidden` — the rule, for a path that is resolved.
* `Harmless` — the paths that the hook decides as the rule says.

## Main results

* `isPathForbidden_iff` — the paths that are blocked.
* `obeys_iff` — where the hook follows the rule.
-/

namespace DoxAsdlc.Hooks

/-! ## The hook -/

/-- The rules of an identity. -/
structure Rules where
  forbiddenPaths : List String
  canMerge : Bool

/-- The identities that have rules. -/
inductive Identity where
  | backend | frontend | orchestrator
  deriving DecidableEq

/-- `IDENTITY_RULES`. -/
def identityRules : Identity → Rules
  | .backend =>
    { forbiddenPaths := ["src/hitl_ui/", "docker/hitl-ui/", "tests/unit/hitl_ui/", "CLAUDE.md",
        "README.md", "docs/", "contracts/", ".claude/rules/", ".claude/skills/",
        ".workitems/P05-"]
      canMerge := true }
  | .frontend =>
    { forbiddenPaths := ["src/workers/", "src/orchestrator/", "src/infrastructure/",
        "docker/workers/", "docker/orchestrator/", "docker/infrastructure/", "CLAUDE.md",
        "README.md", "docs/", "contracts/", ".claude/rules/", ".claude/skills/",
        ".workitems/P01-", ".workitems/P02-", ".workitems/P03-", ".workitems/P06-"]
      canMerge := true }
  | .orchestrator => { forbiddenPaths := [], canMerge := true }

/-- The name of an identity. -/
def Identity.name : Identity → String
  | backend => "backend"
  | frontend => "frontend"
  | orchestrator => "orchestrator"

/-- `EMAIL_TO_IDENTITY`. -/
def emailToIdentity (email : String) : Option Identity :=
  if email = "claude-backend@asdlc.local" then some .backend
  else if email = "claude-frontend@asdlc.local" then some .frontend
  else if email = "claude-orchestrator@asdlc.local" then some .orchestrator
  else none

/-- The root of a project: a directory without dots in its path. -/
structure ProjectRoot where
  names : List String
  proper : ∀ name ∈ names, name ≠ "" ∧ name ≠ "." ∧ name ≠ ".." ∧ '/' ∉ name.toList

/-- The path of the root. -/
def ProjectRoot.path (root : ProjectRoot) : PosixPath := ⟨"/", root.names⟩

/-- `p.relative_to(other)`; there may be no way down. -/
def relativeTo (p other : PosixPath) : Option PosixPath :=
  if p.root = other.root ∧ other.parts <+: p.parts then
    some ⟨"", p.parts.drop other.parts.length⟩
  else none

/-- `normalize_path`. -/
def normalizePath (path : String) (projectRoot : ProjectRoot) : String :=
  let p := PosixPath.parse path
  if p.root ≠ "" then
    match relativeTo p projectRoot.path with
    | some q => q.str
    | none => p.str
  else p.str

/-- `pattern.rstrip("/")`. -/
def withoutSlashes (pattern : String) : String :=
  String.ofList (pattern.toList.rdropWhile (· = '/'))

/-- `path.startswith(start)`. -/
def startsWith (path start : String) : Bool := decide (start.toList <+: path.toList)

section

-- Whether a text begins with what a pattern with stars stands for, by `re.match`.
variable (matchesStars : String → String → Bool)

/-- `matches_pattern`. -/
def matchesPattern (path pattern : String) : Bool :=
  if pattern.toList.getLast? = some '/' then
    startsWith path pattern || startsWith path (withoutSlashes pattern)
  else if '*' ∈ pattern.toList then matchesStars pattern path
  else decide (path = pattern) || startsWith path (pattern ++ "/")

/-- `is_path_forbidden`. -/
def isPathForbidden (path : String) (forbiddenPaths : List String) : Bool :=
  forbiddenPaths.any (matchesPattern matchesStars path)

/-- A call of a tool, as far as the hook reads it. -/
structure ToolCall where
  toolName : String
  filePath : Option String
  command : Option String

/-- How the hook exits. -/
inductive Exit where
  | allow
  | block (reason : String)
  deriving DecidableEq

/-- `main`, of the project root, the email and the call; there is none where the input cannot be
parsed. -/
def main (projectRoot : ProjectRoot) (gitEmail : String) (toolCall : Option ToolCall) : Exit :=
  match emailToIdentity gitEmail, toolCall with
  | none, _ => .allow
  | some _, none => .allow
  | some instance_, some toolCall =>
    if toolCall.toolName ∈ ["Edit", "Write"] then
      let filePath := toolCall.filePath.getD ""
      if filePath = "" then .allow
      else
        let relPath := normalizePath filePath projectRoot
        if isPathForbidden matchesStars relPath (identityRules instance_).forbiddenPaths then
          .block ("FORBIDDEN PATH\nInstance '" ++ instance_.name ++ "' cannot modify: " ++
            relPath ++ "\nThis path is restricted for your role.\n" ++
            "Use the appropriate launcher if you need a different role.")
        else .allow
    else .allow

end

/-! ## The rule -/

/-- Names joined by slashes. -/
def joined (names : List String) : String := "/".intercalate names

/-- The names of an entry. -/
def entryNames (entry : String) : List String := (PosixPath.parse entry).parts

/-- The entry of a directory. -/
def IsDirectory (entry : String) : Prop := entry.toList.getLast? = some '/'

/-- An entry that is the beginning of names. -/
def IsNamePrefix (entry : String) : Prop := entry.toList.getLast? = some '-'

instance (entry : String) : Decidable (IsDirectory entry) := inferInstanceAs (Decidable (_ = _))

instance (entry : String) : Decidable (IsNamePrefix entry) := inferInstanceAs (Decidable (_ = _))

/-- An entry covers names: they are its own or lie below them, or they begin as it does. -/
def Covers (names : List String) (entry : String) : Prop :=
  entryNames entry <+: names ∨ IsNamePrefix entry ∧ startsWith (joined names) entry = true

/-- The names below the project root that a path leads to. Slashes in front count as one. -/
def resolved (root : ProjectRoot) (path : String) : Option (List String) :=
  let p := PosixPath.parse path
  let names := PosixPath.resolve ⟨"/", if p.root = "" then root.names ++ p.parts else p.parts⟩
  if root.names <+: names then some (names.drop root.names.length) else none

/-- An identity must not edit a path. -/
def Forbidden (identity : Identity) (root : ProjectRoot) (path : String) : Prop :=
  ∃ names, resolved root path = some names ∧
    ∃ entry ∈ (identityRules identity).forbiddenPaths, Covers names entry

/-- The email of an identity. -/
def Identity.email : Identity → String
  | backend => "claude-backend@asdlc.local"
  | frontend => "claude-frontend@asdlc.local"
  | orchestrator => "claude-orchestrator@asdlc.local"

/-- A path is blocked, for each of the tools that edit. -/
def Obeys (matchesStars : String → String → Bool) (identity : Identity) (root : ProjectRoot)
    (path : String) : Prop :=
  ∀ tool ∈ ["Edit", "Write"], ∀ command,
    (∃ reason, main matchesStars root identity.email (some ⟨tool, some path, command⟩)
      = .block reason) ↔ Forbidden identity root path

/-! ## When the hook follows the rule -/

/-- The names below the project root that a path is spelled with. -/
def spelled (root : ProjectRoot) (path : String) : Option (List String) :=
  let p := PosixPath.parse path
  if p.root ≠ "" then (relativeTo p root.path).map PosixPath.parts else some p.parts

/-- An entry begins names: as a text if it is a directory, and as names if not. -/
def Begins (names : List String) (entry : String) : Prop :=
  if IsDirectory entry then startsWith (joined names) (withoutSlashes entry) = true
  else entryNames entry <+: names

/-- A path without names that lead up, and with one slash in front at most. -/
def Straight (path : String) : Prop :=
  (PosixPath.parse path).root ≠ "//" ∧ ".." ∉ (PosixPath.parse path).parts

/-- Where a directory or a beginning of names stands in front of a straight path, a name ends there.
A path with two slashes in front does not lead to what is forbidden.  An entry begins the names that
a path with names that lead up is spelled with exactly if one covers those that it leads to. -/
structure Harmless (identity : Identity) (root : ProjectRoot) (path : String) : Prop where
  straight : Straight path → ∀ names, spelled root path = some names →
    ∀ entry ∈ (identityRules identity).forbiddenPaths, IsDirectory entry ∨ IsNamePrefix entry →
      startsWith (joined names) (withoutSlashes entry) = true → entryNames entry <+: names
  doubled : (PosixPath.parse path).root = "//" → ¬ Forbidden identity root path
  upward : (PosixPath.parse path).root ≠ "//" → ".." ∈ (PosixPath.parse path).parts →
    ((∃ names, spelled root path = some names ∧
      ∃ entry ∈ (identityRules identity).forbiddenPaths, Begins names entry) ↔
        Forbidden identity root path)

/-! ## Entries -/

/-- What the entries of the identities are like: names joined by slashes, with a slash at the end of
a directory, and without stars. -/
structure Formed (entry : String) : Prop where
  names : entryNames entry ≠ []
  text : withoutSlashes entry = joined (entryNames entry)
  plain : ¬ IsDirectory entry → withoutSlashes entry = entry
  stars : '*' ∉ entry.toList
  front : ∃ c ∈ (withoutSlashes entry).toList.head?, c ≠ '/'
  dot : withoutSlashes entry ≠ "."

instance (entry : String) : Decidable (Formed entry) :=
  decidable_of_iff
    (entryNames entry ≠ [] ∧ withoutSlashes entry = joined (entryNames entry) ∧
      (¬ IsDirectory entry → withoutSlashes entry = entry) ∧ '*' ∉ entry.toList ∧
      (withoutSlashes entry).toList.head?.any (· ≠ '/') = true ∧ withoutSlashes entry ≠ ".")
    ⟨fun ⟨names, text, plain, stars, front, dot⟩ =>
      ⟨names, text, plain, stars, by simpa [Option.any_eq_true] using front, dot⟩,
      fun h => ⟨h.names, h.text, h.plain, h.stars, by simpa [Option.any_eq_true] using h.front,
        h.dot⟩⟩

/-- The entries are like that, and none begins as another one does. -/
theorem entries (identity : Identity) :
    (∀ entry ∈ (identityRules identity).forbiddenPaths, Formed entry) ∧
      ∀ entry ∈ (identityRules identity).forbiddenPaths,
        ∀ entry' ∈ (identityRules identity).forbiddenPaths,
          (withoutSlashes entry).toList <+: (withoutSlashes entry').toList → entry = entry' := by
  cases identity <;> decide

/-! ## Texts and names -/

theorem startsWith_iff {path start : String} :
    startsWith path start = true ↔ start.toList <+: path.toList := by
  simp [startsWith]

variable {names names' : List String}

theorem toList_joined : (joined names).toList = ['/'].intercalate (names.map String.toList) :=
  String.toList_intercalate

/-- Joining and splitting. -/
theorem splitOn_joined (hne : names ≠ []) (hfree : ∀ name ∈ names, '/' ∉ name.toList) :
    (joined names).toList.splitOn '/' = names.map String.toList := by
  have hpieces : ∀ piece ∈ names.map String.toList, '/' ∉ piece := by
    intro piece hpiece
    obtain ⟨name, hname, rfl⟩ := List.mem_map.mp hpiece
    exact hfree name hname
  rw [toList_joined, List.splitOn_intercalate _ hpieces (by simpa using hne)]

theorem joined_append (hnames : names ≠ []) (hnames' : names' ≠ []) :
    (joined (names ++ names')).toList = (joined names).toList ++ '/' :: (joined names').toList := by
  rw [toList_joined, toList_joined, toList_joined, List.map_append]
  generalize hl : names.map String.toList = l
  generalize hl' : names'.map String.toList = l'
  have hne : l ≠ [] := by simpa [← hl] using hnames
  have hne' : l' ≠ [] := by simpa [← hl'] using hnames'
  clear hl hl'
  induction l with
  | nil => exact absurd rfl hne
  | cons first rest ih =>
    cases rest with
    | nil => simp [List.intercalate_cons_of_ne_nil hne']
    | cons second rest =>
      have hcons : second :: rest ≠ [] := by simp
      have hrest := ih hcons
      rw [List.cons_append, List.intercalate_cons_of_ne_nil (by simp), hrest,
        List.intercalate_cons_of_ne_nil hcons]
      simp

/-- Names begin names where their texts do, with nothing behind or a slash. -/
theorem prefix_iff (hne : names ≠ []) (hne' : names' ≠ [])
    (hfree : ∀ name ∈ names, '/' ∉ name.toList) (hfree' : ∀ name ∈ names', '/' ∉ name.toList) :
    names <+: names' ↔
      joined names' = joined names ∨ startsWith (joined names') (joined names ++ "/") = true := by
  have hinj : Function.Injective (List.map String.toList) :=
    List.map_injective_iff.mpr fun _ _ => String.toList_inj.mp
  have hsplit := splitOn_joined hne' hfree'
  rw [startsWith_iff]
  constructor
  · intro h
    obtain ⟨rest, rfl⟩ := h
    by_cases hrest : rest = []
    · simp [hrest]
    · right
      rw [joined_append hne hrest]
      simp
  · intro h
    cases h with
    | inl heq =>
      rw [heq, splitOn_joined hne hfree] at hsplit
      exact hinj hsplit ▸ List.prefix_refl names'
    | inr hstart =>
      obtain ⟨rest, hrest⟩ := hstart
      rw [← hrest, String.toList_append, List.append_assoc, show "/".toList = ['/'] from rfl,
        List.singleton_append, List.splitOn_append_cons_self, splitOn_joined hne hfree,
        eq_comm, List.map_eq_append_iff] at hsplit
      obtain ⟨front, back, hnames', hfront, -⟩ := hsplit
      exact ⟨back, by rw [hnames', hinj hfront]⟩

/-! ## What is blocked -/

variable {matchesStars : String → String → Bool} {entry path : String} {root : ProjectRoot}

/-- A name of a path. -/
abbrev Proper (name : String) : Prop := name ≠ "" ∧ name ≠ "." ∧ '/' ∉ name.toList

theorem entryNames_proper : ∀ name ∈ entryNames entry, Proper name :=
  (PosixPath.normal_parse entry).names

/-- A text that begins with an entry has a character in front that is no slash. -/
theorem front_of_startsWith (h : Formed entry)
    (hstarts : startsWith path (withoutSlashes entry) = true) :
    ∃ c ∈ path.toList.head?, c ≠ '/' := by
  obtain ⟨c, hc, hslash⟩ := h.front
  obtain ⟨rest, hrest⟩ := startsWith_iff.mp hstarts
  refine ⟨c, ?_, hslash⟩
  rw [← hrest]
  cases hchars : (withoutSlashes entry).toList with
  | nil => simp [hchars] at hc
  | cons first chars => simpa [hchars] using hc

/-- An entry as it is looked for. -/
theorem matchesPattern_eq (h : Formed entry) :
    matchesPattern matchesStars path entry = true ↔
      if IsDirectory entry then startsWith path (withoutSlashes entry) = true
      else path = withoutSlashes entry ∨ startsWith path (withoutSlashes entry ++ "/") = true := by
  by_cases hdirectory : IsDirectory entry
  · have hwhole : startsWith path entry = true → startsWith path (withoutSlashes entry) = true := by
      rw [startsWith_iff, startsWith_iff]
      intro hentry
      have hfront : (withoutSlashes entry).toList <+: entry.toList := by
        rw [withoutSlashes, String.toList_ofList]
        exact List.rdropWhile_prefix _ _
      exact hfront.trans hentry
    have hlast : entry.toList.getLast? = some '/' := hdirectory
    rw [matchesPattern, if_pos hlast, if_pos hdirectory, Bool.or_eq_true]
    exact ⟨fun h => h.elim hwhole id, .inr⟩
  · have hlast : ¬ entry.toList.getLast? = some '/' := hdirectory
    rw [matchesPattern, if_neg hlast, if_neg h.stars, if_neg hdirectory, h.plain hdirectory]
    simp

/-- No entry is in front of the text of no names. -/
theorem not_matchesPattern_dot (h : Formed entry) :
    ¬ matchesPattern matchesStars "." entry = true := by
  obtain ⟨c, hc, hslash⟩ := h.front
  have hempty : withoutSlashes entry ≠ "" := by
    intro hempty
    simp [hempty] at hc
  rw [matchesPattern_eq h, startsWith_iff, startsWith_iff, show ".".toList = ['.'] from rfl]
  split
  · intro hstarts
    cases List.prefix_cons_iff.mp hstarts with
    | inl hnil => exact hempty (String.toList_eq_nil_iff.mp hnil)
    | inr hdot =>
      obtain ⟨rest, hchars, hrest⟩ := hdot
      rw [List.prefix_nil.mp hrest] at hchars
      exact h.dot (String.toList_inj.mp hchars)
  · intro hstarts
    cases hstarts with
    | inl heq => exact h.dot heq.symm
    | inr hstart =>
      have hlength := hstart.length_le
      have hchars : (withoutSlashes entry).toList = [] := by
        simpa using hlength
      exact hempty (String.toList_eq_nil_iff.mp hchars)

theorem not_begins_nil (h : Formed entry) : ¬ Begins [] entry := by
  obtain ⟨c, hc, hslash⟩ := h.front
  rw [Begins, startsWith_iff]
  split
  · intro hstarts
    rw [List.prefix_nil.mp hstarts] at hc
    simp at hc
  · intro hbegins
    exact h.names (List.prefix_nil.mp hbegins)

/-- An entry is found in front of the text of names exactly if it begins them. -/
theorem matchesPattern_iff (h : Formed entry) (hnames : ∀ name ∈ names, Proper name) :
    matchesPattern matchesStars (PosixPath.str ⟨"", names⟩) entry = true ↔ Begins names entry := by
  by_cases hempty : names = []
  · subst hempty
    exact iff_of_false (not_matchesPattern_dot h) (not_begins_nil h)
  · have hstr : PosixPath.str ⟨"", names⟩ = joined names := by simp [PosixPath.str, hempty, joined]
    rw [hstr, matchesPattern_eq h, Begins]
    split
    · rfl
    · rw [h.text, prefix_iff h.names hempty (fun name hname => (entryNames_proper name hname).2.2)
        fun name hname => (hnames name hname).2.2]

/-- No entry is in front of a path with a root. -/
theorem not_matchesPattern_root (h : Formed entry) (hpath : path.toList.head? = some '/') :
    ¬ matchesPattern matchesStars path entry = true := by
  have hfront : ¬ startsWith path (withoutSlashes entry) = true := by
    intro hstarts
    obtain ⟨c, hc, hslash⟩ := front_of_startsWith h hstarts
    rw [hpath, Option.mem_some_iff] at hc
    exact hslash hc.symm
  rw [matchesPattern_eq h]
  split
  · exact hfront
  · intro hstarts
    apply hfront
    rw [startsWith_iff]
    cases hstarts with
    | inl heq => exact heq ▸ List.prefix_refl _
    | inr hstart =>
      rw [startsWith_iff, String.toList_append] at hstart
      exact (List.prefix_append _ _).trans hstart

/-- The names that a path is spelled with are names of it. -/
theorem spelled_proper (h : spelled root path = some names) : ∀ name ∈ names, Proper name := by
  have hparts := (PosixPath.normal_parse path).names
  rw [spelled] at h
  split at h
  · rw [relativeTo] at h
    split at h
    · obtain rfl := Option.some.inj h
      intro name hname
      exact hparts name (List.mem_of_mem_drop hname)
    · simp at h
  · obtain rfl := Option.some.inj h
    exact hparts

theorem normalizePath_of_spelled (h : spelled root path = some names) :
    normalizePath path root = PosixPath.str ⟨"", names⟩ := by
  rw [spelled] at h
  rw [normalizePath]
  by_cases hrelative : (PosixPath.parse path).root = ""
  · rw [if_neg (not_not.mpr hrelative), Option.some.injEq] at h
    rw [if_neg (not_not.mpr hrelative), ← h, ← hrelative]
  · rw [if_pos hrelative, Option.map_eq_some_iff] at h
    obtain ⟨q, hq, rfl⟩ := h
    rw [if_pos hrelative, hq]
    have hroot : q.root = "" := by
      rw [relativeTo] at hq
      split at hq
      · exact Option.some.inj hq ▸ rfl
      · simp at hq
    rw [← hroot]

/-- A path that leads away from the root stays as it is. -/
theorem normalizePath_of_not_spelled (h : spelled root path = none) :
    (normalizePath path root).toList.head? = some '/' := by
  have hnormal := PosixPath.normal_parse path
  rw [spelled] at h
  split at h
  · next habsolute =>
    rw [Option.map_eq_none_iff] at h
    rw [normalizePath, if_pos habsolute, h, PosixPath.str, if_neg fun hempty => habsolute hempty.1,
      String.toList_append]
    cases hnormal.root.resolve_left habsolute with
    | inl hone => simp [hone]
    | inr htwo => simp [htwo]
  · simp at h

/-- **What is blocked**: the paths whose names, as they are spelled, an entry begins. -/
theorem isPathForbidden_iff (identity : Identity) :
    isPathForbidden matchesStars (normalizePath path root) (identityRules identity).forbiddenPaths
        = true ↔
      ∃ names, spelled root path = some names ∧
        ∃ entry ∈ (identityRules identity).forbiddenPaths, Begins names entry := by
  have hformed := (entries identity).1
  rw [isPathForbidden, List.any_eq_true]
  cases hspelled : spelled root path with
  | none =>
    have hblocked : ¬ ∃ entry ∈ (identityRules identity).forbiddenPaths,
        matchesPattern matchesStars (normalizePath path root) entry = true := by
      intro ⟨entry, hentry, hmatch⟩
      exact not_matchesPattern_root (hformed entry hentry) (normalizePath_of_not_spelled hspelled)
        hmatch
    simpa using hblocked
  | some names =>
    simp only [normalizePath_of_spelled hspelled, Option.some.injEq, exists_eq_left']
    exact exists_congr fun entry => and_congr_right fun hentry =>
      matchesPattern_iff (hformed entry hentry) (spelled_proper hspelled)

/-! ## Where the rule is followed -/

/-- Names that do not lead up lead where they are. -/
theorem resolve_straight (hup : ".." ∉ names) : PosixPath.resolve ⟨"/", names⟩ = names := by
  induction names using List.reverseRecOn with
  | nil => rfl
  | append_singleton front last ih =>
    simp only [List.mem_append, List.mem_singleton, not_or] at hup
    rw [PosixPath.resolve_concat (Ne.symm hup.2), ih hup.1]

/-- A path that is straight leads where it is spelled. -/
theorem resolved_eq (h : Straight path) : resolved root path = spelled root path := by
  have hroot : ".." ∉ root.names := fun hmem => (root.proper _ hmem).2.2.1 rfl
  rw [resolved, spelled]
  by_cases hrelative : (PosixPath.parse path).root = ""
  · have hnames : ".." ∉ root.names ++ (PosixPath.parse path).parts := by
      simpa using ⟨hroot, h.2⟩
    simp [hrelative, resolve_straight hnames]
  · have habsolute : (PosixPath.parse path).root = "/" := by
      have hcases := (PosixPath.normal_parse path).root.resolve_left hrelative
      exact hcases.resolve_right h.1
    rw [if_neg hrelative, if_pos hrelative, resolve_straight h.2, relativeTo]
    simp only [ProjectRoot.path, habsolute, true_and]
    split <;> rfl

/-- The text of an entry that begins names is in front of theirs. -/
theorem startsWith_of_names (h : Formed entry) (hnames : ∀ name ∈ names, Proper name)
    (hbegins : entryNames entry <+: names) :
    startsWith (joined names) (withoutSlashes entry) = true := by
  have hempty : names ≠ [] := by
    intro hempty
    rw [hempty] at hbegins
    exact h.names (List.prefix_nil.mp hbegins)
  rw [prefix_iff h.names hempty (fun name hname => (entryNames_proper name hname).2.2)
    fun name hname => (hnames name hname).2.2, ← h.text] at hbegins
  rw [startsWith_iff]
  cases hbegins with
  | inl heq => exact heq ▸ List.prefix_refl _
  | inr hstart =>
    rw [startsWith_iff, String.toList_append] at hstart
    exact (List.prefix_append _ _).trans hstart


/-- So is the text of an entry that the hook finds, and of one that covers names. -/
theorem startsWith_of_begins (h : Formed entry) (hnames : ∀ name ∈ names, Proper name)
    (hbegins : Begins names entry) : startsWith (joined names) (withoutSlashes entry) = true := by
  rw [Begins] at hbegins
  split at hbegins
  · exact hbegins
  · exact startsWith_of_names h hnames hbegins

theorem IsNamePrefix.not_isDirectory (h : IsNamePrefix entry) : ¬ IsDirectory entry := by
  have hlast : entry.toList.getLast? = some '-' := h
  simp [IsDirectory, hlast]

theorem startsWith_of_covers (h : Formed entry) (hnames : ∀ name ∈ names, Proper name)
    (hcovers : Covers names entry) : startsWith (joined names) (withoutSlashes entry) = true := by
  cases hcovers with
  | inl hbegins => exact startsWith_of_names h hnames hbegins
  | inr hstart =>
    rw [h.plain hstart.1.not_isDirectory]
    exact hstart.2

/-- At most one entry is in front of names, as a text. -/
theorem entry_unique {identity : Identity} {entry' : String}
    (hentry : entry ∈ (identityRules identity).forbiddenPaths)
    (hentry' : entry' ∈ (identityRules identity).forbiddenPaths)
    (h : startsWith (joined names) (withoutSlashes entry) = true)
    (h' : startsWith (joined names) (withoutSlashes entry') = true) : entry = entry' := by
  have hnone := (entries identity).2
  rw [startsWith_iff] at h h'
  cases List.prefix_or_prefix_of_prefix h h' with
  | inl hfront => exact hnone entry hentry entry' hentry' hfront
  | inr hfront => exact (hnone entry' hentry' entry hentry hfront).symm

/-- Where names are what a path leads to, the hook follows the rule exactly if a name ends where an
entry does. -/
theorem begins_iff_covers {identity : Identity} (hnames : ∀ name ∈ names, Proper name) :
    ((∃ entry ∈ (identityRules identity).forbiddenPaths, Begins names entry) ↔
        ∃ entry ∈ (identityRules identity).forbiddenPaths, Covers names entry) ↔
      ∀ entry ∈ (identityRules identity).forbiddenPaths, IsDirectory entry ∨ IsNamePrefix entry →
        startsWith (joined names) (withoutSlashes entry) = true → entryNames entry <+: names := by
  have hformed := (entries identity).1
  constructor
  · intro h entry hentry hkind hstarts
    cases hkind with
    | inl hdirectory =>
      obtain ⟨entry', hentry', hcovers⟩ := h.mp ⟨entry, hentry, by rwa [Begins, if_pos hdirectory]⟩
      obtain rfl := entry_unique hentry hentry' hstarts
        (startsWith_of_covers (hformed entry' hentry') hnames hcovers)
      exact hcovers.resolve_right fun hstart => hstart.1.not_isDirectory hdirectory
    | inr hstart =>
      have hplain := (hformed entry hentry).plain hstart.not_isDirectory
      obtain ⟨entry', hentry', hbegins⟩ :=
        h.mpr ⟨entry, hentry, .inr ⟨hstart, by rwa [hplain] at hstarts⟩⟩
      obtain rfl := entry_unique hentry hentry' hstarts
        (startsWith_of_begins (hformed entry' hentry') hnames hbegins)
      rwa [Begins, if_neg hstart.not_isDirectory] at hbegins
  · intro h
    refine exists_congr fun entry => and_congr_right fun hentry => ?_
    have hstep := h entry hentry
    constructor
    · intro hbegins
      by_cases hdirectory : IsDirectory entry
      · rw [Begins, if_pos hdirectory] at hbegins
        exact .inl (hstep (.inl hdirectory) hbegins)
      · rw [Begins, if_neg hdirectory] at hbegins
        exact .inl hbegins
    · intro hcovers
      have hstarts := startsWith_of_covers (hformed entry hentry) hnames hcovers
      rw [Begins]
      split
      · exact hstarts
      · cases hcovers with
        | inl hbegins => exact hbegins
        | inr hstart => exact hstep (.inr hstart.1) hstarts

/-- Nothing is in front of the empty path. -/
theorem not_begins_empty (identity : Identity) (h : spelled root "" = some names) :
    ¬ ∃ entry ∈ (identityRules identity).forbiddenPaths, Begins names entry := by
  obtain rfl : [] = names := by
    simpa [spelled, PosixPath.parse, PosixPath.rootOf] using h
  rintro ⟨entry, hentry, hbegins⟩
  exact not_begins_nil ((entries identity).1 entry hentry) hbegins

/-- The hook blocks an edit exactly if an entry begins the names that its path is spelled with. -/
theorem main_blocks_iff (identity : Identity) {tool : String} (htool : tool ∈ ["Edit", "Write"])
    (command : Option String) :
    (∃ reason, main matchesStars root identity.email (some ⟨tool, some path, command⟩)
        = .block reason) ↔
      ∃ names, spelled root path = some names ∧
        ∃ entry ∈ (identityRules identity).forbiddenPaths, Begins names entry := by
  have hidentity : emailToIdentity identity.email = some identity := by
    cases identity <;> decide
  simp only [main, hidentity, if_pos htool, Option.getD_some]
  by_cases hempty : path = ""
  · rw [if_pos hempty, hempty]
    refine iff_of_false (fun ⟨_, hblock⟩ => Exit.noConfusion hblock) ?_
    intro ⟨names, hspelled, hbegins⟩
    exact not_begins_empty identity hspelled hbegins
  · rw [if_neg hempty, ← @isPathForbidden_iff matchesStars path root identity]
    split
    · next hblocked => exact iff_of_true ⟨_, rfl⟩ hblocked
    · next hallowed => exact iff_of_false (fun ⟨_, hblock⟩ => Exit.noConfusion hblock) hallowed

/-- **The hook and the rule**: the hook follows the rule exactly on the paths that are harmless. -/
theorem obeys_iff (matchesStars : String → String → Bool) (identity : Identity)
    (root : ProjectRoot) (path : String) :
    Obeys matchesStars identity root path ↔ Harmless identity root path := by
  have hobeys : Obeys matchesStars identity root path ↔
      ((∃ names, spelled root path = some names ∧
        ∃ entry ∈ (identityRules identity).forbiddenPaths, Begins names entry) ↔
          Forbidden identity root path) := by
    constructor
    · intro h
      rw [← main_blocks_iff identity List.mem_cons_self none, h "Edit" List.mem_cons_self none]
    · intro h tool htool command
      rw [main_blocks_iff identity htool command, h]
  rw [hobeys]
  by_cases hstraight : Straight path
  · have hforbidden : Forbidden identity root path ↔ ∃ names, spelled root path = some names ∧
        ∃ entry ∈ (identityRules identity).forbiddenPaths, Covers names entry := by
      rw [Forbidden, resolved_eq hstraight]
    have hharmless : Harmless identity root path ↔ ∀ names, spelled root path = some names →
        ∀ entry ∈ (identityRules identity).forbiddenPaths, IsDirectory entry ∨ IsNamePrefix entry →
          startsWith (joined names) (withoutSlashes entry) = true → entryNames entry <+: names :=
      ⟨fun h => h.straight hstraight, fun h =>
        ⟨fun _ => h, fun htwo => absurd htwo hstraight.1, fun _ hup => absurd hup hstraight.2⟩⟩
    rw [hforbidden, hharmless]
    cases hspelled : spelled root path with
    | none => simp
    | some names =>
      simp only [Option.some.injEq, exists_eq_left', forall_eq']
      exact begins_iff_covers (spelled_proper hspelled)
  · by_cases hdoubled : (PosixPath.parse path).root = "//"
    · have hspelled : ¬ ∃ names, spelled root path = some names ∧
          ∃ entry ∈ (identityRules identity).forbiddenPaths, Begins names entry := by
        simp [spelled, relativeTo, ProjectRoot.path, hdoubled]
      rw [iff_false_left hspelled]
      exact ⟨fun h =>
        ⟨fun hyes => absurd hyes hstraight, fun _ => h, fun hone => absurd hdoubled hone⟩,
        fun h => h.doubled hdoubled⟩
    · have hup : ".." ∈ (PosixPath.parse path).parts := by
        by_contra hup
        exact hstraight ⟨hdoubled, hup⟩
      exact ⟨fun h => ⟨fun hyes => absurd hyes hstraight, fun htwo => absurd htwo hdoubled,
        fun _ _ => h⟩, fun h => h.upward hdoubled hup⟩

/-- The items of a feature are not kept from an identity. -/
theorem not_obeys_workitem :
    ¬ Obeys (fun _ _ => false) .backend ⟨["home", "dox"], by decide⟩
      ".workitems/P05-F01/tasks.md" := by
  intro h
  have hforbidden :
      Forbidden .backend ⟨["home", "dox"], by decide⟩ ".workitems/P05-F01/tasks.md" :=
    ⟨[".workitems", "P05-F01", "tasks.md"], by decide, ".workitems/P05-", by decide,
      .inr ⟨by decide, by decide⟩⟩
  obtain ⟨reason, hblock⟩ := (h "Edit" (by decide) none).mpr hforbidden
  have hallowed : main (fun _ _ => false) ⟨["home", "dox"], by decide⟩ Identity.backend.email
      (some ⟨"Edit", some ".workitems/P05-F01/tasks.md", none⟩) = .allow := by decide
  rw [hallowed] at hblock
  exact Exit.noConfusion hblock

end DoxAsdlc.Hooks
