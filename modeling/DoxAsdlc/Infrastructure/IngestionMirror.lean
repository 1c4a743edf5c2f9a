import DoxAsdlc.Infrastructure.Chunking
import DoxAsdlc.Interaction.Run
import DoxAsdlc.Structures.Upserts
import Std.Data.String.ToNat

/-!
# What the knowledge store holds of the repositories

Repositories are ingested one after the other, each in whatever state it is in, by calls that
report no errors.  Nothing is ever removed from the store, and a document does not say in its
identifier of which repository it is.  So what is stored under an identifier is the chunk of the
last call that has one with it, and the store holds the last states of the repositories exactly
if no file of an earlier state has become shorter or is gone, and no two repositories have a file
of the same path.

## Main definitions

* `Call` — one call of `ingest_repository`, and the state it finds.
* `Clean`, `after` — calls that report no errors, and what is stored after them.
* `Mirrored`, `Unreplaced` — what is promised of the store.
* `Lasting`, `Separate` — when the promise is kept.
-/

namespace DoxAsdlc.Ingestion

open Interaction Interaction.Program

/-! ## Identifiers -/

theorem colon_notMem_toString (n : ℕ) : ':' ∉ (toString n).toList := by
  rw [Nat.toString_eq_repr, Nat.toList_repr]
  intro h
  have hdigit := Nat.isDigit_of_mem_toDigits (by omega) (by omega) h
  revert hdigit
  decide

theorem takeWhile_digits (n : ℕ) (rest : List Char) :
    ((toString n).toList.reverse ++ ':' :: rest).takeWhile (· ≠ ':')
      = (toString n).toList.reverse := by
  rw [List.takeWhile_append_of_pos]
  · simp
  · intro c hc
    have hne : c ≠ ':' := by
      rintro rfl
      exact colon_notMem_toString n (List.mem_reverse.mp hc)
    simpa using hne

/-- A path and a number are read back from the last colon on. -/
theorem docId_inj {p q : String} {i j : ℕ} : docId p i = docId q j ↔ p = q ∧ i = j := by
  constructor
  · intro h
    have hlist : p.toList ++ ':' :: (toString i).toList
        = q.toList ++ ':' :: (toString j).toList := by
      simpa [docId] using congrArg String.toList h
    have hrev := congrArg List.reverse hlist
    simp only [List.reverse_append, List.reverse_cons, List.append_assoc,
      List.singleton_append] at hrev
    -- The number is what comes after the last colon.
    have hdigits := congrArg (List.takeWhile (· ≠ ':')) hrev
    rw [takeWhile_digits, takeWhile_digits] at hdigits
    have hnumber := String.toList_injective (List.reverse_injective hdigits)
    rw [Nat.toString_eq_repr, Nat.toString_eq_repr, Nat.repr_inj] at hnumber
    subst hnumber
    refine ⟨String.toList_injective (List.append_cancel_right hlist), rfl⟩
  · rintro ⟨rfl, rfl⟩
    rfl

/-- What a document has of its file. -/
structure Chunk where
  repoPath : String
  filePath : String
  index : ℕ
  total : ℕ
  content : String
  deriving DecidableEq

/-- The chunk of a document. -/
def Document.chunk (d : Document) : Chunk where
  repoPath := d.repoPath
  filePath := d.filePath
  index := d.chunkIndex
  total := d.totalChunks
  content := d.content

/-! ## One call -/

/-- One call of `ingest_repository`: the state it finds, and what becomes of its requests. -/
structure Call where
  setting : Setting
  repoPath : String
  outcomes : List (Outcome Error)

namespace Call

variable (c : Call)

/-- The repository that is ingested. -/
def repo : String := c.setting.files.realpath c.repoPath

/-- The client of the call. -/
def program : Async IngestionResult := ingestRepository c.setting c.repoPath

/-- The files that are to be ingested, by their paths in the walk. -/
def chosen : List String :=
  (c.setting.files.walk c.repo).filter (shouldIncludeFile c.setting.config c.setting.lower)

/-- The path and the chunks of a file. -/
def source (relativePath : String) : Except Error (String × List String) :=
  readChunks c.setting (join c.repo relativePath) c.repo

/-- The files of the state, each with its chunks. -/
def sources : List (String × List String) := c.chosen.filterMap fun rel => (c.source rel).toOption

/-- The chunks of the state, by identifier. -/
def entries : List (String × Chunk) :=
  c.sources.flatMap fun s =>
    s.2.mapIdx fun i text => (docId s.1 i, ⟨c.repo, s.1, i, s.2.length, text⟩)

/-- The identifiers of the state. -/
def ids : List String := c.entries.map Prod.fst

end Call

/-- A call on a store. -/
def step (shelf : Shelf) (c : Call) : Shelf := (play serve c.outcomes c.program shelf).2

/-- What is stored after calls, from nothing. -/
def after (calls : List Call) : Shelf := run step (fun _ => none) calls

/-- The call returns, and reports no errors. -/
def Call.succeeds (shelf : Shelf) (c : Call) : Bool :=
  match (play serve c.outcomes c.program shelf).1 with
  | .ret result => result.errors.isEmpty
  | _ => false

/-- Every call reports no errors. -/
def Clean (calls : List Call) : Prop :=
  Each step (fun shelf c => c.succeeds shelf = true) (fun _ => none) calls

/-! ## What one call does -/

/-- Documents, by identifier. -/
def indexed (ds : List Document) : List (String × Document) := ds.map fun d => (d.docId, d)

theorem indexed_append (ds ds' : List Document) :
    indexed (ds ++ ds') = indexed ds ++ indexed ds' := List.map_append

/-- Documents that are all indexed are all stored. -/
theorem indexAll_spec (ds : List Document) (shelf : Shelf) :
    wp serve (fun _ shelf' => shelf' = Upserts.write (indexed ds) shelf) (fun _ _ => True)
      (fun _ => True) (indexAll ds) shelf := by
  induction ds generalizing shelf with
  | nil => simp [indexAll, indexed]
  | cons d ds ih =>
    simp only [indexAll, indexDocument]
    split
    · simp
    · have hrest : wp serve (fun _ shelf' => shelf' = Upserts.write (indexed (d :: ds)) shelf)
          (fun _ _ => True) (fun _ => True)
          ((indexAll ds).elim (fun docIds => .ret (d.docId :: docIds)) .raise)
          (Function.update shelf d.docId (some d)) := by
        apply wp_elim
        refine wp_mono _ _ ?_ ?_ (fun _ h => h) (ih _)
        · intro docIds shelf' _ hshelf
          exact ⟨trivial, hshelf⟩
        · intro e shelf' _ _
          exact ⟨trivial, trivial⟩
      simpa [serve] using hrest

namespace Call

variable (c : Call)

/-- The documents of a file of the walk, if it is ingested. -/
def fileDocuments (relativePath : String) : List Document :=
  if shouldIncludeFile c.setting.config c.setting.lower relativePath then
    match c.source relativePath with
    | .ok (path, chunks) => documents c.setting (join c.repo relativePath) c.repo path chunks
    | .error _ => []
  else []

/-- One file: without an error it is read, and its documents are stored. -/
theorem ingestNext_spec (result : IngestionResult) (rel : String) (shelf : Shelf) :
    wp serve (fun result' shelf' => result'.errors = [] → result.errors = [] ∧
        (shouldIncludeFile c.setting.config c.setting.lower rel = true →
          ∃ source, c.source rel = .ok source) ∧
        shelf' = Upserts.write (indexed (c.fileDocuments rel)) shelf)
      (fun _ _ => False) (fun _ => True) (ingestNext c.setting c.repo result rel) shelf := by
  rw [ingestNext]
  by_cases hchosen : shouldIncludeFile c.setting.config c.setting.lower rel = true
  · simp only [hchosen, not_true_eq_false, if_false, ingestFile, tryCatch_eq, bind_eq, pure_eq,
      forall_const]
    cases hsource : readChunks c.setting (join c.repo rel) c.repo with
    | error e => simp
    | ok source =>
      have hdocs : c.fileDocuments rel
          = documents c.setting (join c.repo rel) c.repo source.1 source.2 := by
        simp [fileDocuments, hchosen, Call.source, hsource]
      rw [elim_elim]
      apply wp_elim
      refine wp_mono _ _ ?_ ?_ (fun _ h => h) (indexAll_spec _ shelf)
      · intro docIds shelf' _ hshelf
        refine ⟨trivial, fun herrors => ⟨herrors, ⟨source, hsource⟩, ?_⟩⟩
        rw [hdocs]
        exact hshelf
      · intro e shelf' _ _
        refine ⟨trivial, fun herrors => ?_⟩
        simp at herrors
  · simp [hchosen, fileDocuments, indexed]

/-- The files of a state, one after the other. -/
theorem loop_spec (rels : List String) (result : IngestionResult) (shelf : Shelf) :
    wp serve (fun result' shelf' => result'.errors = [] → result.errors = [] ∧
        (∀ rel ∈ rels, shouldIncludeFile c.setting.config c.setting.lower rel = true →
          ∃ source, c.source rel = .ok source) ∧
        shelf' = Upserts.write (indexed (rels.flatMap c.fileDocuments)) shelf)
      (fun _ _ => False) (fun _ => True)
      (rels.foldlM (ingestNext c.setting c.repo) result) shelf := by
  induction rels generalizing result shelf with
  | nil => simp [indexed]
  | cons rel rels ih =>
    rw [List.foldlM_cons]
    apply wp_bind
    refine wp_mono _ _ ?_ (fun _ _ _ h => h.elim) (fun _ h => h) (c.ingestNext_spec result rel shelf)
    intro result' shelf' _ hfirst
    refine wp_mono _ _ ?_ (fun _ _ _ h => h) (fun _ h => h) (ih result' shelf')
    intro result'' shelf'' _ hrest herrors
    obtain ⟨herrors', hreads, hshelf''⟩ := hrest herrors
    obtain ⟨herrors, hread, hshelf'⟩ := hfirst herrors'
    refine ⟨herrors, List.forall_mem_cons.mpr ⟨hread, hreads⟩, ?_⟩
    rw [hshelf'', hshelf', ← Upserts.write_append, List.flatMap_cons, indexed_append]

/-- **One call.**  Without errors every chosen file is read, and the chunks of all of them are
stored. -/
theorem spec_of_succeeds {shelf : Shelf} {c : Call} (h : c.succeeds shelf = true) :
    (∀ rel ∈ c.chosen, ∃ source, c.source rel = .ok source) ∧
      step shelf c = Upserts.write
        (indexed ((c.setting.files.walk c.repo).flatMap c.fileDocuments)) shelf := by
  have hspec := (c.loop_spec (c.setting.files.walk c.repo) ⟨0, 0, 0, []⟩ shelf).play c.outcomes
  change wp _ _ _ _ (play serve c.outcomes c.program shelf).1 (step shelf c) at hspec
  unfold succeeds at h
  split at h
  · next result hret =>
    rw [hret, wp_ret] at hspec
    obtain ⟨-, hreads, hshelf⟩ := hspec.2 (List.isEmpty_iff.mp h)
    refine ⟨?_, hshelf⟩
    intro rel hrel
    obtain ⟨hwalk, hchosen⟩ := List.mem_filter.mp hrel
    exact hreads rel hwalk hchosen
  · cases h

variable (c : Call)

/-- The chunks of the documents are those of the state. -/
theorem entries_eq : ((c.setting.files.walk c.repo).flatMap c.fileDocuments).map
    (fun d => (d.docId, d.chunk)) = c.entries := by
  rw [entries, sources, chosen]
  induction c.setting.files.walk c.repo with
  | nil => rfl
  | cons rel rels ih =>
    rw [List.flatMap_cons, List.map_append, ih, List.filter_cons, fileDocuments]
    split
    · cases hsource : c.source rel with
      | error e => simp [hsource, Except.toOption]
      | ok source =>
        simp [hsource, Except.toOption, documents, List.mapIdx_eq_zipIdx_map, Document.chunk]
    · simp

theorem mem_entries {id : String} {chunk : Chunk} : (id, chunk) ∈ c.entries ↔
    ∃ s ∈ c.sources, ∃ (i : ℕ) (h : i < s.2.length),
      id = docId s.1 i ∧ chunk = ⟨c.repo, s.1, i, s.2.length, s.2[i]⟩ := by
  simp only [entries, List.mem_flatMap, List.mem_mapIdx, Prod.mk.injEq, eq_comm]

theorem mem_sources {s : String × List String} :
    s ∈ c.sources ↔ ∃ rel ∈ c.chosen, c.source rel = .ok s := by
  simp only [sources, List.mem_filterMap, Except.toOption]
  refine exists_congr fun rel => and_congr_right fun _ => ?_
  cases c.source rel <;> simp

/-- A file that is read is in its repository. -/
theorem source_eq_ok {rel : String} {s : String × List String} (h : c.source rel = .ok s) :
    validatePathWithinRepo c.setting.files (join c.repo rel) c.repo = true ∧
      ∃ bytes, c.setting.files.bytes (join c.repo rel) = some bytes ∧
        s = (relpath (c.setting.files.realpath (join c.repo rel)) (c.setting.files.realpath c.repo),
          chunkContent c.setting.config.overlapLines (decode bytes)
            c.setting.config.maxChunkSize) := by
  rw [source, readChunks] at h
  by_cases hwithin : validatePathWithinRepo c.setting.files (join c.repo rel) c.repo = true
  · by_cases hsize : checkFileSize c.setting.config c.setting.files (join c.repo rel) = true
    · cases hbytes : c.setting.files.bytes (join c.repo rel) with
      | none => simp [hwithin, hsize, readFileContent, hbytes] at h
      | some bytes =>
        simp only [hwithin, hsize, readFileContent, hbytes, not_true_eq_false, if_false,
          Option.map_some, Except.ok.injEq] at h
        exact ⟨hwithin, bytes, rfl, h.symm⟩
    · simp [hwithin, hsize] at h
  · simp [hwithin] at h

end Call

/-! ## Files of a state -/

/-- A path in a directory tells the file. -/
theorem relpath_inj {fs : FileSystem} {p q directory : String}
    (hp : validatePathWithinRepo fs p directory = true)
    (hq : validatePathWithinRepo fs q directory = true)
    (h : relpath (fs.realpath p) (fs.realpath directory)
      = relpath (fs.realpath q) (fs.realpath directory)) : fs.realpath p = fs.realpath q := by
  -- A file is the directory, or what is below it.
  have hcases (p : String) (hp : validatePathWithinRepo fs p directory = true) :
      fs.realpath p = fs.realpath directory ∨
        ∃ rest, fs.realpath p = fs.realpath directory ++ "/" ++ rest := by
    simp only [validatePathWithinRepo, startsWith, Bool.or_eq_true, beq_iff_eq,
      List.isPrefixOf_iff_prefix] at hp
    refine hp.symm.imp_right ?_
    rintro ⟨rest, hrest⟩
    exact ⟨String.ofList rest, String.toList_injective (by simpa using hrest.symm)⟩
  have hbelow (p rest : String) (hrest : fs.realpath p = fs.realpath directory ++ "/" ++ rest) :
      relpath (fs.realpath p) (fs.realpath directory) = rest := by
    have hne : fs.realpath p ≠ fs.realpath directory := by
      intro heq
      have hlength := congrArg String.length (heq.symm.trans hrest)
      simp only [String.length_append] at hlength
      have hslash : "/".length = 1 := rfl
      omega
    have hdrop : ((fs.realpath directory).toList ++ ['/'] ++ rest.toList).drop
        ((fs.realpath directory).length + 1) = rest.toList := by
      refine List.drop_left' ?_
      rw [List.length_append, String.length_toList]
      rfl
    rw [relpath, if_neg hne, hrest]
    apply String.toList_injective
    simpa using hdrop
  rcases hcases p hp with hp | ⟨rest, hp⟩
  · rcases hcases q hq with hq | ⟨rest, hq⟩
    · rw [hp, hq]
    · rw [hbelow q rest hq, relpath, if_pos hp] at h
      subst h
      exact absurd hq (by simpa [String.append_assoc] using fs.realpath_ne_dot q _)
  · rcases hcases q hq with hq | ⟨rest', hq⟩
    · rw [hbelow p rest hp, relpath, if_pos hq] at h
      subst h
      exact absurd hp (by simpa [String.append_assoc] using fs.realpath_ne_dot p _)
    · rw [hbelow p rest hp, hbelow q rest' hq] at h
      rw [hp, hq, h]

namespace Call

variable {c : Call}

/-- The files of a state with one path have the same chunks. -/
theorem chunks_eq {s t : String × List String} (hs : s ∈ c.sources) (ht : t ∈ c.sources)
    (h : s.1 = t.1) : s.2 = t.2 := by
  obtain ⟨rel, -, hrel⟩ := c.mem_sources.mp hs
  obtain ⟨rel', -, hrel'⟩ := c.mem_sources.mp ht
  obtain ⟨hwithin, bytes, hbytes, rfl⟩ := c.source_eq_ok hrel
  obtain ⟨hwithin', bytes', hbytes', rfl⟩ := c.source_eq_ok hrel'
  have hreal := relpath_inj hwithin hwithin' h
  rw [c.setting.files.bytes_eq _ _ hreal _ _ hbytes hbytes']

theorem chunks_ne_nil {s : String × List String} (hs : s ∈ c.sources) : s.2 ≠ [] := by
  obtain ⟨rel, -, hrel⟩ := c.mem_sources.mp hs
  obtain ⟨-, bytes, -, rfl⟩ := c.source_eq_ok hrel
  exact chunkContent_ne_nil _ _ _

variable (c)

/-- A state of a repository, as a batch. -/
def batch : Batch String Chunk.repoPath where
  owner := c.repo
  entries := c.entries
  owned := by
    rintro ⟨id, chunk⟩ he
    obtain ⟨s, -, i, h, -, rfl⟩ := c.mem_entries.mp he
    rfl
  functional := by
    rintro ⟨id, chunk⟩ he ⟨id', chunk'⟩ he' heq
    obtain ⟨s, hs, i, hi, rfl, rfl⟩ := c.mem_entries.mp he
    obtain ⟨t, ht, j, hj, hid, rfl⟩ := c.mem_entries.mp he'
    obtain ⟨hpath, rfl⟩ := docId_inj.mp (heq.trans hid)
    have hchunks := chunks_eq hs ht hpath
    simp [hpath, hchunks]

/-- The identifiers of a state. -/
theorem mem_keys_batch {id : String} : id ∈ Upserts.keys c.batch ↔
    ∃ s ∈ c.sources, ∃ i < s.2.length, id = docId s.1 i := by
  rw [Upserts.mem_keys]
  constructor
  · rintro ⟨chunk, he⟩
    obtain ⟨s, hs, i, hi, hid, -⟩ := c.mem_entries.mp he
    exact ⟨s, hs, i, hi, hid⟩
  · rintro ⟨s, hs, i, hi, hid⟩
    exact ⟨_, c.mem_entries.mpr ⟨s, hs, i, hi, hid, rfl⟩⟩

end Call

/-! ## Runs -/

/-- The chunk that is stored under an identifier. -/
def stored (shelf : Shelf) (id : String) : Option Chunk := (shelf id).map Document.chunk

/-- **The store after calls** is that of the states, as batches. -/
theorem stored_after {calls : List Call} (h : Clean calls) :
    stored (after calls) = Upserts.store (calls.map Call.batch) := by
  induction calls using List.reverseRecOn with
  | nil => rfl
  | append_singleton calls c ih =>
    obtain ⟨hcalls, hc⟩ := (each_append _ calls [c]).mp h
    have hstep : step (run step (fun _ => none) calls) c
        = Upserts.write (indexed ((c.setting.files.walk c.repo).flatMap c.fileDocuments))
          (run step (fun _ => none) calls) := (Call.spec_of_succeeds hc.1).2
    rw [List.map_append, List.map_singleton, Upserts.store_append, ← ih hcalls, after, run_append,
      run_cons, run_nil, hstep]
    ext1 id
    rw [stored, Upserts.write_map, indexed, List.map_map]
    exact congrArg (fun es => Upserts.write es (stored (run step (fun _ => none) calls)) id)
      c.entries_eq

/-- The last of the calls that satisfy a condition. -/
def lastWith (calls : List Call) (p : Call → Bool) : Option Call := (calls.filter p).getLast?

/-- The last call that ingests a repository. -/
def lastOf (calls : List Call) (repo : String) : Option Call :=
  lastWith calls fun c => c.repo = repo

/-- The store holds exactly the chunks of the last states of the repositories. -/
def Mirrored (calls : List Call) : Prop :=
  ∀ id chunk, stored (after calls) id = some chunk ↔
    ∃ repo last, lastOf calls repo = some last ∧ (id, chunk) ∈ last.entries

/-- No call replaces a document of another repository. -/
def Unreplaced (calls : List Call) : Prop :=
  ∀ before c rest, calls = before ++ c :: rest → ∀ s ∈ c.sources, ∀ i < s.2.length,
    ∀ d, after before (docId s.1 i) = some d → d.repoPath = c.repo

/-- Every file of a state is in the last state of its repository, and has not become shorter. -/
def Lasting (calls : List Call) : Prop :=
  ∀ c ∈ calls, ∀ last, lastOf calls c.repo = some last → ∀ s ∈ c.sources,
    ∃ t ∈ last.sources, t.1 = s.1 ∧ s.2.length ≤ t.2.length

/-- No two repositories have a file of the same path. -/
def Separate (calls : List Call) : Prop :=
  ∀ c ∈ calls, ∀ d ∈ calls, ∀ s ∈ c.sources, ∀ t ∈ d.sources, s.1 = t.1 → c.repo = d.repo

section

variable {calls : List Call}

theorem latest_map_batch (repo : String) :
    Upserts.latest (calls.map Call.batch) repo = (lastOf calls repo).map Call.batch := by
  rw [Upserts.latest, lastOf, lastWith, List.filter_map, List.getLast?_map]
  rfl

theorem mirrors_iff_mirrored (h : Clean calls) :
    Upserts.Mirrors (calls.map Call.batch) ↔ Mirrored calls := by
  refine forall_congr' fun id => forall_congr' fun chunk => ?_
  rw [stored_after h]
  refine iff_congr Iff.rfl (exists_congr fun repo => ?_)
  simp only [latest_map_batch, Option.map_eq_some_iff]
  constructor
  · rintro ⟨_, ⟨last, hlast, rfl⟩, hmem⟩
    exact ⟨last, hlast, hmem⟩
  · rintro ⟨last, hlast, hmem⟩
    exact ⟨_, ⟨last, hlast, rfl⟩, hmem⟩

theorem undisturbed_iff_unreplaced (h : Clean calls) :
    Upserts.Undisturbed (calls.map Call.batch) ↔ Unreplaced calls := by
  constructor
  · rintro hu before c rest rfl s hs i hi d hd
    have hbefore : Clean before := ((each_append _ before (c :: rest)).mp h).1
    refine hu (before.map Call.batch) c.batch (rest.map Call.batch) (by simp) (docId s.1 i)
      (c.mem_keys_batch.mpr ⟨s, hs, i, hi, rfl⟩) d.chunk ?_
    rw [← stored_after hbefore, stored, hd]
    rfl
  · intro hu before b rest hsplit k hk chunk hchunk
    obtain ⟨before, tail, rfl, rfl, htail⟩ := List.map_eq_append_iff.mp hsplit
    obtain ⟨c, rest, rfl, rfl, rfl⟩ := List.map_eq_cons_iff.mp htail
    have hbefore : Clean before := ((each_append _ before (c :: rest)).mp h).1
    obtain ⟨s, hs, i, hi, rfl⟩ := c.mem_keys_batch.mp hk
    rw [← stored_after hbefore] at hchunk
    obtain ⟨d, hd, rfl⟩ := Option.map_eq_some_iff.mp hchunk
    exact hu before c rest rfl s hs i hi d hd

theorem kept_iff_lasting : Upserts.Kept (calls.map Call.batch) ↔ Lasting calls := by
  constructor
  · intro hk c hc last hlast s hs
    have hpos : 0 < s.2.length := List.length_pos_iff.mpr (Call.chunks_ne_nil hs)
    -- The last chunk of the file is still there.
    have hkey := hk c.repo last.batch (by rw [latest_map_batch, hlast]; rfl) c.batch
      (List.mem_map_of_mem hc) rfl (docId s.1 (s.2.length - 1))
      (c.mem_keys_batch.mpr ⟨s, hs, _, by omega, rfl⟩)
    obtain ⟨t, ht, i, hi, hid⟩ := last.mem_keys_batch.mp hkey
    obtain ⟨hpath, hindex⟩ := docId_inj.mp hid
    exact ⟨t, ht, hpath.symm, by omega⟩
  · intro hl repo b hb b' hb' howner k hk
    rw [latest_map_batch] at hb
    obtain ⟨last, hlast, rfl⟩ := Option.map_eq_some_iff.mp hb
    obtain ⟨c, hc, rfl⟩ := List.mem_map.mp hb'
    obtain ⟨s, hs, i, hi, rfl⟩ := c.mem_keys_batch.mp hk
    obtain rfl : c.repo = repo := howner
    obtain ⟨t, ht, hpath, hlength⟩ := hl c hc last hlast s hs
    exact last.mem_keys_batch.mpr ⟨t, ht, i, by omega, by rw [hpath]⟩

theorem apart_iff_separate : Upserts.Apart (calls.map Call.batch) ↔ Separate calls := by
  constructor
  · intro ha c hc d hd s hs t ht hpath
    have hs0 : 0 < s.2.length := List.length_pos_iff.mpr (Call.chunks_ne_nil hs)
    have ht0 : 0 < t.2.length := List.length_pos_iff.mpr (Call.chunks_ne_nil ht)
    refine ha c.batch (List.mem_map_of_mem hc) d.batch (List.mem_map_of_mem hd) (docId s.1 0)
      (c.mem_keys_batch.mpr ⟨s, hs, 0, hs0, rfl⟩) (d.mem_keys_batch.mpr ⟨t, ht, 0, ht0, ?_⟩)
    rw [hpath]
  · intro hs b hb b' hb' k hk hk'
    obtain ⟨c, hc, rfl⟩ := List.mem_map.mp hb
    obtain ⟨d, hd, rfl⟩ := List.mem_map.mp hb'
    obtain ⟨s, hsc, i, hi, rfl⟩ := c.mem_keys_batch.mp hk
    obtain ⟨t, htd, j, hj, hid⟩ := d.mem_keys_batch.mp hk'
    exact hs c hc d hd s hsc t htd (docId_inj.mp hid).1

/-- **What is stored, and when it is what it should be.**  After calls without errors every
chosen file has been read; under an identifier there is the chunk of the last call that has one
with it; and the store is what the last states have, without one repository having replaced a
document of another, exactly if no file is gone or has become shorter since, and no two
repositories have a file of the same path. -/
theorem mirrored_iff (calls : List Call) (h : Clean calls) :
    (∀ c ∈ calls, ∀ rel ∈ c.chosen, ∃ s ∈ c.sources, c.source rel = .ok s) ∧
    (∀ id chunk, stored (after calls) id = some chunk ↔
      ∃ c, lastWith calls (fun c => id ∈ c.ids) = some c ∧ (id, chunk) ∈ c.entries) ∧
    (Mirrored calls ∧ Unreplaced calls ↔ Lasting calls ∧ Separate calls) := by
  refine ⟨?_, ?_, ?_⟩
  · intro c hc rel hrel
    obtain ⟨before, rest, rfl⟩ := List.append_of_mem hc
    have hsucceeds := (each_iff_split.mp h) before c rest rfl
    obtain ⟨s, hs⟩ := (Call.spec_of_succeeds hsucceeds).1 rel hrel
    exact ⟨s, c.mem_sources.mpr ⟨rel, hrel, hs⟩, hs⟩
  · intro id chunk
    rw [stored_after h, Upserts.store_eq_some, List.filter_map, List.getLast?_map]
    simp only [Option.map_eq_some_iff]
    constructor
    · rintro ⟨_, ⟨c, hc, rfl⟩, hmem⟩
      exact ⟨c, hc, hmem⟩
    · rintro ⟨c, hc, hmem⟩
      exact ⟨_, ⟨c, hc, rfl⟩, hmem⟩
  · rw [← mirrors_iff_mirrored h, ← undisturbed_iff_unreplaced h, ← kept_iff_lasting,
      ← apart_iff_separate]
    exact Upserts.mirrors_iff

end

/-- A directory without links. -/
def plainDirectory (root : String) (files : List (String × List UInt8)) : FileSystem where
  realpath p := if p.toList.reverse.take 2 = ['.', '/'] then "/" else p
  walk directory := if directory = root then files.map Prod.fst else []
  getsize p := (files.find? fun f => join root f.1 = p).map fun f => f.2.length
  bytes p := if p.toList.reverse.take 2 = ['.', '/'] then none
    else (files.find? fun f => join root f.1 = p).map Prod.snd
  realpath_ne_dot p directory := by
    split
    · intro h
      have hlength := congrArg String.length h
      rw [String.length_append] at hlength
      have htwo : "/.".length = 2 := rfl
      have hone : "/".length = 1 := rfl
      omega
    · next hp =>
      rintro rfl
      simp at hp
  bytes_eq p q hpq a b ha hb := by
    by_cases hp : p.toList.reverse.take 2 = ['.', '/']
    · simp [hp] at ha
    · by_cases hq : q.toList.reverse.take 2 = ['.', '/']
      · simp [hq] at hb
      · simp only [hp, hq, if_false] at hpq ha hb
        subst hpq
        exact Option.some.inj (ha.symm.trans hb)

/-- A call that is answered to the end. -/
def ingesting (root : String) (files : List (String × List UInt8)) : Call where
  setting :=
    { config := { excludePatterns := ["**/build/**"] }, lower := id, files := plainDirectory root files
      now := fun _ => "2026-01-01T00:00:00+00:00" }
  repoPath := root
  outcomes := List.replicate files.length .ok

/-- A repository that grows, and another one beside it. -/
def growing : List Call :=
  [ingesting "/r" [("a.py", [120])], ingesting "/s" [("b.py", [121])],
    ingesting "/r" [("a.py", [122]), ("c.py", [120, 10])]]

theorem mirrored_growing : Clean growing ∧ Mirrored growing ∧ Unreplaced growing := by
  have hclean : Clean growing := by
    refine ⟨?_, ?_, ?_, trivial⟩ <;> decide +kernel
  have hfirst : (ingesting "/r" [("a.py", [120])]).sources = [("a.py", ["x"])] := by
    decide +kernel
  have hother : (ingesting "/s" [("b.py", [121])]).sources = [("b.py", ["y"])] := by
    decide +kernel
  have hlast : (ingesting "/r" [("a.py", [122]), ("c.py", [120, 10])]).sources
      = [("a.py", ["z"]), ("c.py", ["x\n"])] := by decide +kernel
  have hrepo : (ingesting "/r" [("a.py", [120])]).repo = "/r" := by decide +kernel
  have hrepo' : (ingesting "/s" [("b.py", [121])]).repo = "/s" := by decide +kernel
  have hrepo'' : (ingesting "/r" [("a.py", [122]), ("c.py", [120, 10])]).repo = "/r" := by
    decide +kernel
  refine ⟨hclean, (mirrored_iff growing hclean).2.2.mpr ⟨?_, ?_⟩⟩
  · simp [Lasting, growing, lastOf, lastWith, hfirst, hother, hlast, hrepo, hrepo', hrepo'']
    intro path chunks h
    exact ⟨chunks, h, le_rfl⟩
  · simp [Separate, growing, hfirst, hother, hlast, hrepo, hrepo', hrepo'']
    constructor
    · rintro path chunks (⟨rfl, -⟩ | ⟨rfl, -⟩) <;> decide
    · rintro path chunks (⟨rfl, -⟩ | ⟨rfl, -⟩) <;> decide

/-- A file that is deleted, and another repository with the same file. -/
def shrinking : List Call :=
  [ingesting "/r" [("a.py", [120]), ("b.py", [121])], ingesting "/r" [("a.py", [120])],
    ingesting "/s" [("a.py", [122])]]

theorem not_mirrored_shrinking :
    Clean shrinking ∧ ¬ Mirrored shrinking ∧ ¬ Unreplaced shrinking := by
  have hsources : (ingesting "/s" [("a.py", [122])]).sources = [("a.py", ["z"])] := by
    decide +kernel
  have hsecond : "b.py:0" ∉ (ingesting "/r" [("a.py", [120])]).ids := by decide +kernel
  have hthird : "b.py:0" ∉ (ingesting "/s" [("a.py", [122])]).ids := by decide +kernel
  have hstored : stored (after shrinking) "b.py:0" = some ⟨"/r", "b.py", 0, 1, "y"⟩ := by
    decide +kernel
  have hheld : (after (shrinking.take 2) "a.py:0").map Document.repoPath = some "/r" := by
    decide +kernel
  have hr : (ingesting "/r" [("a.py", [120]), ("b.py", [121])]).repo = "/r" := by decide +kernel
  have hr' : (ingesting "/r" [("a.py", [120])]).repo = "/r" := by decide +kernel
  have hr'' : (ingesting "/s" [("a.py", [122])]).repo = "/s" := by decide +kernel
  refine ⟨?_, ?_, ?_⟩
  · refine ⟨?_, ?_, ?_, trivial⟩ <;> decide +kernel
  · intro hm
    obtain ⟨repo, last, hlast, hmem⟩ := (hm _ _).mp hstored
    -- Only the first state has the file, and it is not the last one of its repository.
    have hcalls : last ∈ shrinking := (List.mem_filter.mp (List.mem_of_getLast? hlast)).1
    simp only [shrinking, List.mem_cons, List.not_mem_nil, or_false] at hcalls
    have hid : "b.py:0" ∈ last.ids := List.mem_map_of_mem hmem
    have hrepo : last.repo = repo := by
      simpa using (List.mem_filter.mp (List.mem_of_getLast? hlast)).2
    rcases hcalls with rfl | rfl | rfl
    · have hlatest : lastOf shrinking repo = some (ingesting "/r" [("a.py", [120])]) := by
        simp [lastOf, lastWith, shrinking, ← hrepo, hr, hr', hr'']
      exact hsecond (Option.some.inj (hlast.symm.trans hlatest) ▸ hid)
    · exact hsecond hid
    · exact hthird hid
  · intro hu
    obtain ⟨d, hd, hpath⟩ := Option.map_eq_some_iff.mp hheld
    have hsame := hu (shrinking.take 2) _ [] rfl ("a.py", ["z"]) (by rw [hsources]; simp) 0
      (by simp) d hd
    rw [hpath, hr''] at hsame
    revert hsame
    decide

end DoxAsdlc.Ingestion
