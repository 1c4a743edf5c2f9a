import DoxAsdlc.Development.TestRunner

/-!
# What the test pattern finds

A result is read where a line goes on, behind one character at least, with `::`, a word, blanks
and a status.  The blanks may run over the end of the line.  The matches of the pattern are
these, line by line; after a match the search goes on in the line behind it.

## Main definitions

* `Tells` — a text that begins with an outcome.
* `Reads` — a line in which an outcome is told.
* `Told` — what is told, line by line.

## Main results

* `told_iff` — the results of the parser are what is told.
-/

namespace DoxAsdlc.Development

open Backtracking Matcher
open Rlm (isSpace)

variable (cls : CharClasses)

/-- A word of `\w`. -/
def IsWord (w : List Char) : Prop := w ≠ [] ∧ ∀ c ∈ w, cls.word c = true

/-- The statuses that the pattern knows. -/
def statuses : List (List Char) := ["PASSED", "FAILED", "ERROR", "SKIPPED"].map String.toList

/-- The text begins with an outcome. -/
structure Tells (rest name status after : List Char) : Prop where
  word : IsWord cls name
  listed : status ∈ statuses
  shape : ∃ blanks, blanks ≠ [] ∧ (∀ c ∈ blanks, isSpace c = true) ∧
    rest = ':' :: ':' :: (name ++ (blanks ++ (status ++ after)))

/-- What is told first in the rest of a line. -/
inductive TellsFirst : List Char → List Char → List Char → List Char → Prop
  | here {rest name status after} :
      Tells cls rest name status after → TellsFirst rest name status after
  | later {x rest name status after} : x ≠ '\n' →
      (∀ name status after, ¬ Tells cls (x :: rest) name status after) →
      TellsFirst rest name status after → TellsFirst (x :: rest) name status after

/-- What is told in the line that begins here, behind its first character. -/
def Reads (text name status after : List Char) : Prop :=
  ∃ x rest, text = x :: rest ∧ x ≠ '\n' ∧ TellsFirst cls rest name status after

/-- What comes behind the line. -/
def nextLine : List Char → List Char
  | [] => []
  | x :: rest => if x = '\n' then rest else nextLine rest

/-- What is told, line by line: names and whether the test passed. -/
inductive Told : List Char → List (List Char × Bool) → Prop
  | nil : Told [] []
  | silent {text outcomes} : text ≠ [] → (∀ name status after, ¬ Reads cls text name status after) →
      Told (nextLine text) outcomes → Told text outcomes
  | reads {text name status after outcomes} : Reads cls text name status after →
      Told (nextLine after) outcomes →
      Told text ((name, status == "PASSED".toList) :: outcomes)

/-! ## The outcome behind a path -/

variable {cls}

theorem word_of_isSpace {c : Char} (h : isSpace c = true) : cls.word c = false := by
  have hc : c ≠ '_' := by
    rintro rfl
    exact absurd h (by decide)
  simp [CharClasses.word, cls.alnum_space c h, hc]

theorem word_colon : cls.word ':' = false := by
  have halnum : cls.alnum ':' = false := cls.alnum_ascii ':' (by decide)
  simp [CharClasses.word, halnum]

/-- The statuses begin with letters, and none with another. -/
theorem not_isSpace_of_status {status rest : List Char} {x : Char} (h : status ∈ statuses)
    (hx : isSpace x = true) : ¬ status <+: x :: rest := by
  simp only [statuses, List.map_cons, List.map_nil, List.mem_cons, List.not_mem_nil,
    or_false] at h
  rcases h with rfl | rfl | rfl | rfl
  all_goals
    intro hprefix
    obtain ⟨rfl, -⟩ := List.cons_prefix_cons.mp hprefix
    exact absurd hx (by decide)

theorem status_unique {s t rest : List Char} (hs : s ∈ statuses) (ht : t ∈ statuses)
    (hsp : s <+: rest) (htp : t <+: rest) : s = t := by
  have hcomparable : ∀ s ∈ statuses, ∀ t ∈ statuses, s <+: t → s = t := by decide
  rcases le_total s.length t.length with hle | hle
  · exact hcomparable s hs t ht (List.prefix_of_prefix_length_le hsp htp hle)
  · exact (hcomparable t ht s hs (List.prefix_of_prefix_length_le htp hsp hle)).symm

theorem status_ends {status : List Char} (h : status ∈ statuses) :
    ∃ x, x ≠ '\n' ∧ status.getLast? = some x := by
  have hends : ∀ status ∈ statuses, status.getLast? ≠ some '\n' ∧ status ≠ [] := by decide
  obtain ⟨hlast, hne⟩ := hends status h
  refine ⟨status.getLast hne, ?_, List.getLast?_eq_some_getLast hne⟩
  intro heq
  exact hlast (by rw [List.getLast?_eq_some_getLast hne, heq])

/-- Taking a word that ends where it is said to. -/
theorem takeWhile_of_run {p : Char → Bool} {run rest : List Char} (hrun : ∀ c ∈ run, p c = true)
    (hrest : ∀ x ∈ rest.head?, p x = false) :
    (run ++ rest).takeWhile p = run ∧ (run ++ rest).dropWhile p = rest := by
  rw [List.takeWhile_append_of_pos hrun, List.dropWhile_append_of_pos hrun]
  cases rest with
  | nil => simp
  | cons x rest => simp [hrest x rfl]

/-- One of the statuses. -/
def statusPattern : Matcher Char (List Char) := oneOf (statuses.map literal)

theorem outcomePattern_eq : outcomePattern cls = literal [':', ':'] >>= fun _ =>
    plus cls.word >>= fun testName => plus isSpace >>= fun _ =>
      statusPattern >>= fun status => pure (testName, status) := by
  simp [outcomePattern, statusPattern, statuses]

theorem mem_statusPattern {name : List Char} {c : Cursor Char}
    {way : (List Char × List Char) × Cursor Char} :
    way ∈ (statusPattern >>= fun status => (pure (name, status) : Matcher Char _)) c ↔
      ∃ status ∈ statuses, status <+: c.rest ∧
        way = ((name, status), c.past status (c.rest.drop status.length)) := by
  simp only [statusPattern, mem_bind, mem_oneOf, List.mem_map, exists_exists_and_eq_and,
    mem_literal, pure_apply, List.mem_singleton]
  constructor
  · intro ⟨found, c', ⟨status, hstatus, hprefix, hfound⟩, hway⟩
    cases hfound
    exact ⟨found, hstatus, hprefix, hway⟩
  · intro ⟨status, hstatus, hprefix, hway⟩
    exact ⟨status, _, ⟨status, hstatus, hprefix, rfl⟩, hway⟩

/-- What the pattern finds where a text goes on with `::`: nothing shorter than the whole word
and all the blanks behind it will do. -/
theorem outcomePattern_colons (b : Option Char) (r : List Char) :
    ∃ c : Cursor Char, c.rest = (r.dropWhile cls.word).dropWhile isSpace ∧
      outcomePattern cls ⟨b, ':' :: ':' :: r⟩ =
        if r.takeWhile cls.word = [] ∨ (r.dropWhile cls.word).takeWhile isSpace = [] then []
        else (statusPattern >>= fun status => pure (r.takeWhile cls.word, status)) c := by
  have hblanks : ∀ (name : List Char) (_ : List Char) (b : Option Char) (x : Char)
      (rest : List Char), isSpace x = true →
      (statusPattern >>= fun status => (pure (name, status) : Matcher Char _)) ⟨b, x :: rest⟩
        = [] := by
    intro name _ b x rest hx
    refine List.eq_nil_iff_forall_not_mem.mpr fun way hway => ?_
    obtain ⟨status, hstatus, hprefix, -⟩ := mem_statusPattern.mp hway
    exact not_isSpace_of_status hstatus hx hprefix
  have hword : ∀ (name : List Char) (b : Option Char) (x : Char) (rest : List Char),
      cls.word x = true → (plus isSpace >>= fun _ =>
        statusPattern >>= fun status => (pure (name, status) : Matcher Char _)) ⟨b, x :: rest⟩
        = [] := by
    intro name b x rest hx
    have hspace : ¬ isSpace x = true := fun h => by simp [word_of_isSpace h] at hx
    rw [plus_bind (hblanks name), List.takeWhile_cons_of_neg hspace, if_pos rfl]
  have hcolons := literal_bind [':', ':'] r (fun _ => plus cls.word >>= fun testName =>
    plus isSpace >>= fun _ => statusPattern >>= fun status =>
      (pure (testName, status) : Matcher Char _)) b
  rw [plus_bind hword, Cursor.past_rest, plus_bind (hblanks _), Cursor.past_rest] at hcolons
  refine ⟨((Cursor.past ⟨b, []⟩ [':', ':'] r).past (r.takeWhile cls.word)
    (r.dropWhile cls.word)).past ((r.dropWhile cls.word).takeWhile isSpace)
      ((r.dropWhile cls.word).dropWhile isSpace), rfl, ?_⟩
  rw [outcomePattern_eq]
  refine hcolons.trans ?_
  by_cases hname : r.takeWhile cls.word = []
  · simp [hname]
  · simp [hname]

/-- The name, the blanks and the rest of what is told. -/
theorem Tells.parts {rest name status after : List Char} (h : Tells cls rest name status after) :
    ∃ r, rest = ':' :: ':' :: r ∧ r.takeWhile cls.word = name ∧
      (r.dropWhile cls.word).takeWhile isSpace ≠ [] ∧
      (r.dropWhile cls.word).dropWhile isSpace = status ++ after := by
  obtain ⟨blanks, hne, hblanks, hrest⟩ := h.shape
  have hname := @takeWhile_of_run cls.word name (blanks ++ (status ++ after)) h.word.2 (by
    intro x hx
    cases blanks with
    | nil => exact absurd rfl hne
    | cons y blanks =>
      obtain rfl : y = x := by simpa using hx
      exact word_of_isSpace (hblanks y List.mem_cons_self))
  have hspace := @takeWhile_of_run isSpace blanks (status ++ after) hblanks (by
    intro x hx
    by_contra hx'
    obtain ⟨l, hl⟩ := List.head?_eq_some_iff.mp hx
    exact not_isSpace_of_status h.listed (Bool.not_eq_false _ ▸ hx')
      (hl ▸ List.prefix_append status after))
  refine ⟨_, hrest, hname.1, ?_, ?_⟩
  · rw [hname.2, hspace.1]
    exact hne
  · rw [hname.2, hspace.2]

theorem Tells.unique {rest name status after name' status' after' : List Char}
    (h : Tells cls rest name status after) (h' : Tells cls rest name' status' after') :
    name = name' ∧ status = status' ∧ after = after' := by
  obtain ⟨r, hr, hname, -, hrest⟩ := h.parts
  obtain ⟨r', hr', hname', -, hrest'⟩ := h'.parts
  obtain rfl : r = r' := by simpa using hr.symm.trans hr'
  have hstatus : status = status' := status_unique h.listed h'.listed
    (hrest ▸ List.prefix_append status after) (hrest' ▸ List.prefix_append status' after')
  refine ⟨hname.symm.trans hname', hstatus, ?_⟩
  subst hstatus
  exact List.append_cancel_left (hrest.symm.trans hrest')

/-- The pattern finds what is told. -/
theorem mem_outcomePattern {b : Option Char} {rest : List Char}
    {way : (List Char × List Char) × Cursor Char} (h : way ∈ outcomePattern cls ⟨b, rest⟩) :
    Tells cls rest way.1.1 way.1.2 way.2.rest ∧ ∃ x, x ≠ '\n' ∧ way.2.before = some x := by
  by_cases hcolons : [':', ':'] <+: rest
  · obtain ⟨r, rfl⟩ := hcolons
    obtain ⟨c, hc, hways⟩ := @outcomePattern_colons cls b r
    rw [List.cons_append, List.cons_append, List.nil_append, hways] at h
    split at h
    · simp at h
    · next hne =>
      obtain ⟨hname, hblanks⟩ := not_or.mp hne
      obtain ⟨status, hstatus, ⟨after, hafter⟩, rfl⟩ := mem_statusPattern.mp h
      obtain ⟨x, hx, hlast⟩ := status_ends hstatus
      refine ⟨⟨⟨hname, fun c => List.mem_takeWhile_imp⟩, hstatus, _, hblanks,
        fun c => List.mem_takeWhile_imp, ?_⟩, x, hx, by simp [Cursor.past, hlast]⟩
      have hleft : after = c.rest.drop status.length := by simp [← hafter]
      have hsplit : r = r.takeWhile cls.word ++ ((r.dropWhile cls.word).takeWhile isSpace ++
          (status ++ after)) := by
        rw [hafter, hc, List.takeWhile_append_dropWhile, List.takeWhile_append_dropWhile]
      simp only [Cursor.past_rest, ← hleft]
      exact congrArg (':' :: ':' :: ·) hsplit
  · rw [outcomePattern_eq, literal_bind_of_not hcolons] at h
    simp at h

/-- What is told is found. -/
theorem outcomePattern_of_tells {rest name status after : List Char}
    (h : Tells cls rest name status after) (b : Option Char) :
    ∃ x, x ≠ '\n' ∧
      (outcomePattern cls ⟨b, rest⟩).head? = some ((name, status), ⟨some x, after⟩) := by
  obtain ⟨r, rfl, hname, hblanks, hrest⟩ := h.parts
  obtain ⟨c, hc, hways⟩ := @outcomePattern_colons cls b r
  have hfound : outcomePattern cls ⟨b, ':' :: ':' :: r⟩ ≠ [] := by
    rw [hways, if_neg (not_or.mpr ⟨hname ▸ h.word.1, hblanks⟩)]
    refine List.ne_nil_of_mem (mem_statusPattern.mpr ⟨status, h.listed, ?_, rfl⟩)
    rw [hc, hrest]
    exact List.prefix_append status after
  obtain ⟨way, later, hl⟩ := List.exists_cons_of_ne_nil hfound
  have hway : (outcomePattern cls ⟨b, ':' :: ':' :: r⟩).head? = some way := by
    rw [hl, List.head?_cons]
  obtain ⟨htells, x, hx, hbefore⟩ := mem_outcomePattern (List.mem_of_head? hway)
  obtain ⟨h₁, h₂, h₃⟩ := htells.unique h
  obtain ⟨⟨found, foundStatus⟩, ⟨before, left⟩⟩ := way
  subst h₁ h₂ h₃ hbefore
  exact ⟨x, hx, hway⟩

theorem outcomePattern_of_not {rest : List Char}
    (h : ∀ name status after, ¬ Tells cls rest name status after) (b : Option Char) :
    outcomePattern cls ⟨b, rest⟩ = [] :=
  List.eq_nil_iff_forall_not_mem.mpr fun _ hway => h _ _ _ (mem_outcomePattern hway).1

/-! ## The line that is read -/

/-- The path is as short as can be. -/
theorem path_of_tellsFirst {rest name status after : List Char}
    (h : TellsFirst cls rest name status after) (b : Option Char) :
    ∃ x, x ≠ '\n' ∧ ((lazyMany (· ≠ '\n') >>= fun _ => outcomePattern cls) ⟨b, rest⟩).head?
      = some ((name, status), ⟨some x, after⟩) := by
  induction h generalizing b with
  | @here rest name status after htells =>
    obtain ⟨x, hx, hfound⟩ := outcomePattern_of_tells htells b
    refine ⟨x, hx, ?_⟩
    cases rest with
    | nil => rw [lazyMany_bind_nil, hfound]
    | cons y rest => rw [lazyMany_bind_cons, List.head?_append, hfound, Option.some_or]
  | @later y rest name status after hy hnot _ ih =>
    obtain ⟨x, hx, hfound⟩ := ih (some y)
    refine ⟨x, hx, ?_⟩
    rw [lazyMany_bind_cons, outcomePattern_of_not hnot, List.nil_append,
      if_pos (by simpa using hy), hfound]

theorem path_of_not {rest : List Char}
    (h : ∀ name status after, ¬ TellsFirst cls rest name status after) (b : Option Char) :
    (lazyMany (· ≠ '\n') >>= fun _ => outcomePattern cls) ⟨b, rest⟩ = [] := by
  induction rest generalizing b with
  | nil =>
    rw [lazyMany_bind_nil]
    exact outcomePattern_of_not (fun _ _ _ htells => h _ _ _ (.here htells)) b
  | cons x rest ih =>
    have hnot : ∀ name status after, ¬ Tells cls (x :: rest) name status after :=
      fun _ _ _ htells => h _ _ _ (.here htells)
    rw [lazyMany_bind_cons, outcomePattern_of_not hnot, List.nil_append]
    split
    · next hx =>
      exact ih (fun _ _ _ hlater => h _ _ _ (.later (by simpa using hx) hnot hlater)) (some x)
    · rfl

theorem not_reads_nil (name status after : List Char) : ¬ Reads cls [] name status after := by
  rintro ⟨x, rest, h, -⟩
  cases h

/-- At the begin of a line the pattern finds what is read. -/
theorem testPattern_of_reads {text name status after : List Char}
    (h : Reads cls text name status after) {b : Option Char} (hb : b.all (· = '\n') = true) :
    ∃ x, x ≠ '\n' ∧
      (testPattern cls ⟨b, text⟩).head? = some ((name, status), ⟨some x, after⟩) := by
  obtain ⟨y, rest, rfl, hy, hfirst⟩ := h
  obtain ⟨x, hx, hfound⟩ := path_of_tellsFirst hfirst (some y)
  refine ⟨x, hx, ?_⟩
  rw [testPattern, lineStart_bind, if_pos hb, lazyPlus_bind]
  simpa [bind_apply, hy] using hfound

theorem testPattern_of_not {text : List Char}
    (h : ∀ name status after, ¬ Reads cls text name status after) (b : Option Char) :
    testPattern cls ⟨b, text⟩ = [] := by
  rw [testPattern, lineStart_bind]
  split
  · rw [lazyPlus_bind]
    cases text with
    | nil => simp [bind_apply]
    | cons y rest =>
      by_cases hy : y = '\n'
      · simp [bind_apply, hy]
      · have hnot := path_of_not (fun name status after hfirst =>
          h name status after ⟨y, rest, rfl, hy, hfirst⟩) (some y)
        simpa [bind_apply, hy] using hnot
  · rfl

/-- Within a line it finds nothing. -/
theorem testPattern_within {x : Char} (hx : x ≠ '\n') (l : List Char) :
    testPattern cls ⟨some x, l⟩ = [] := by
  rw [testPattern, lineStart_bind, if_neg (by simpa using hx)]

/-! ## All that is read -/

theorem consumes_testPattern : Consumes (testPattern cls) := by
  refine (keeps_lineStart '\n').bind_consumes fun _ => (consumes_lazyPlus _).bind fun _ => ?_
  rw [outcomePattern_eq]
  refine (keeps_literal _).bind fun _ => (consumes_plus _).keeps.bind fun _ =>
    (consumes_plus _).keeps.bind fun _ =>
      Keeps.bind (keeps_oneOf fun m hm => ?_) fun _ => keeps_pure _
  obtain ⟨status, -, rfl⟩ := List.mem_map.mp hm
  exact keeps_literal status

/-- Within a line, the search goes on in the next one. -/
theorem search_within {x : Char} (hx : x ≠ '\n') (l : List Char) :
    search (testPattern cls) ⟨some x, l⟩
      = search (testPattern cls) ⟨some '\n', nextLine l⟩ := by
  induction l generalizing x with
  | nil =>
    rw [nextLine, search_nil, search_nil, testPattern_of_not not_reads_nil,
      testPattern_of_not not_reads_nil]
  | cons y l ih =>
    rw [search_of_skip (testPattern_within hx _), nextLine]
    split
    · next hy => rw [hy]
    · next hy => exact ih hy

/-- A line in which nothing is read is passed. -/
theorem search_silent {text : List Char}
    (h : ∀ name status after, ¬ Reads cls text name status after) (b : Option Char) :
    search (testPattern cls) ⟨b, text⟩
      = search (testPattern cls) ⟨some '\n', nextLine text⟩ := by
  cases text with
  | nil => rw [nextLine, search_nil, search_nil, testPattern_of_not h, testPattern_of_not h]
  | cons x rest =>
    rw [search_of_skip (testPattern_of_not h b), nextLine]
    split
    · next hx => rw [hx]
    · next hx => exact search_within hx rest

/-- The outcomes of the matches from a place on. -/
def outcomesFrom (cls : CharClasses) (c : Cursor Char) : List (List Char × Bool) :=
  (finditer (testPattern cls) c).map fun found => (found.1, found.2 == "PASSED".toList)

theorem outcomesFrom_congr {c d : Cursor Char}
    (h : search (testPattern cls) c = search (testPattern cls) d) :
    outcomesFrom cls c = outcomesFrom cls d := by
  rw [outcomesFrom, outcomesFrom, consumes_testPattern.finditer_congr h]

theorem outcomesFrom_of_reads {text name status after : List Char}
    (h : Reads cls text name status after) {b : Option Char} (hb : b.all (· = '\n') = true) :
    outcomesFrom cls ⟨b, text⟩ = (name, status == "PASSED".toList) ::
      outcomesFrom cls ⟨some '\n', nextLine after⟩ := by
  obtain ⟨x, hx, hfound⟩ := testPattern_of_reads h hb
  rw [outcomesFrom, consumes_testPattern.finditer_of_some (search_of_match hfound), List.map_cons,
    ← outcomesFrom, outcomesFrom_congr (search_within hx after)]

/-- What is told is what the matches say. -/
theorem Told.outcomesFrom_eq {text : List Char} {outcomes : List (List Char × Bool)}
    (h : Told cls text outcomes) {b : Option Char} (hb : b.all (· = '\n') = true) :
    outcomesFrom cls ⟨b, text⟩ = outcomes := by
  induction h generalizing b with
  | nil =>
    rw [outcomesFrom, finditer_of_none, List.map_nil]
    rw [search_nil, testPattern_of_not not_reads_nil, List.head?_nil]
  | silent hne hnot _ ih =>
    rw [outcomesFrom_congr (search_silent hnot b)]
    exact ih (by simp)
  | reads hreads _ ih =>
    rw [outcomesFrom_of_reads hreads hb, ih (by simp)]

theorem nextLine_length_le (l : List Char) : (nextLine l).length ≤ l.length := by
  induction l with
  | nil => rfl
  | cons x l ih =>
    rw [nextLine]
    split
    · simp
    · exact Nat.le_succ_of_le ih

theorem nextLine_length_lt {l : List Char} (hne : l ≠ []) : (nextLine l).length < l.length := by
  cases l with
  | nil => exact absurd rfl hne
  | cons x l =>
    rw [nextLine]
    split
    · simp
    · exact Nat.lt_succ_of_le (nextLine_length_le l)

theorem Reads.length_lt {text name status after : List Char}
    (h : Reads cls text name status after) : after.length < text.length := by
  obtain ⟨x, rest, rfl, -, hfirst⟩ := h
  have hle : after.length ≤ rest.length := by
    clear * - hfirst
    induction hfirst with
    | here htells =>
      obtain ⟨blanks, -, -, rfl⟩ := htells.shape
      simp only [List.length_cons, List.length_append]
      omega
    | later _ _ _ ih => exact Nat.le_succ_of_le ih
  exact Nat.lt_succ_of_le hle

/-- Every text tells something, if only nothing. -/
theorem exists_told (text : List Char) : ∃ outcomes, Told cls text outcomes := by
  induction hn : text.length using Nat.strong_induction_on generalizing text with
  | _ n ih =>
    subst hn
    by_cases hne : text = []
    · exact ⟨[], hne ▸ .nil⟩
    by_cases hreads : ∃ name status after, Reads cls text name status after
    · obtain ⟨name, status, after, hreads⟩ := hreads
      have hlt := (nextLine_length_le after).trans_lt hreads.length_lt
      obtain ⟨outcomes, htold⟩ := ih _ hlt (nextLine after) rfl
      exact ⟨_, .reads hreads htold⟩
    · obtain ⟨outcomes, htold⟩ := ih _ (nextLine_length_lt hne) (nextLine text) rfl
      exact ⟨_, .silent hne (fun name status after h => hreads ⟨name, status, after, h⟩) htold⟩

/-- **The matches of the test pattern are what is told**, line by line. -/
theorem told_iff {text : List Char} {outcomes : List (List Char × Bool)} :
    Told cls text outcomes ↔ outcomesFrom cls (start text) = outcomes := by
  refine ⟨fun h => h.outcomesFrom_eq rfl, fun h => ?_⟩
  obtain ⟨outcomes', htold⟩ := @exists_told cls text
  rwa [← h, start, htold.outcomesFrom_eq rfl]

end DoxAsdlc.Development
