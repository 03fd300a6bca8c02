import CallCensus.Proofs.Archive.Stored
import CallCensus.Proofs.Census.Meaning
import CallCensus.Proofs.Pipeline.Order
import CallCensus.Proofs.Pipeline.Progress

/-!
The pipeline makes a census, on every schedule.

The archives of a directory are listed once each, and the rows of the table are laid out for
those that are known. The counts that reach the main thread are those of the specification,
in some order; they all have their cells, so none is refused, and the cells end up with the
sums of the specification.

* `list_eq_ok`: the archives that are listed;
* `exists_consume?_of_returned`, `run_eq_of_returned`: what a main thread returns, and what a run
  makes of it;
* `isCensus_of_returned`: a pipeline whose main thread has returned has made a census;
* `run_isCensus`: every execution comes to an end and makes a census, and so does `run`.
-/

namespace CallCensus

namespace Census

open Pipeline

variable {tree : FileTree} {settings : Settings} {operators : Operators}
  {entries : List (String × Place)} {names : List String}

lemma list_eq_ok (hdir : tree.readDirectory settings.archives = .ok entries) :
    ∃ (names : List String) (notices : List Notice),
      Archive.list tree settings.archives settings.excluded =
          .ok (names.map (archiveAt settings), notices) ∧
        names.Nodup ∧ ∀ a, a ∈ names ↔
        a ∈ Archive.namesIn entries ∧ settings.excluded.contains a = false := by
  refine ⟨_, _, by simp only [Archive.list, hdir]; rfl, Dict.nodup_keys _, fun a => ?_⟩
  rw [← NameSet.toList, NameSet.mem_toList_ofList, List.mem_filter]
  simp

/-- The rows of a census are those of the archives that are known and not excluded. -/
lemma mem_rowNames_iff
    (hnames : ∀ a, a ∈ names ↔
      a ∈ Archive.namesIn entries ∧ settings.excluded.contains a = false) (a : String) :
    a ∈ rowNames settings (names.map (archiveAt settings)) ↔
      a ∈ knownNames settings entries ∧ settings.excluded.contains a = false := by
  cases hknown : settings.known with
  | some known => simp [rowNames, knownNames, hknown]
  | none =>
      have hmap : (names.map (archiveAt settings)).map (·.name) = names := by
        rw [List.map_map]
        exact List.map_id' names
      simp only [rowNames, knownNames, hknown, Option.getD_none, hmap, hnames]

/-- The number of surviving files, archive by archive. -/
lemma sum_length_survivors (hnodup : names.Nodup)
    (hnames : ∀ a, a ∈ names ↔
      a ∈ Archive.namesIn entries ∧ settings.excluded.contains a = false) :
    ((names.map (archiveAt settings)).map fun r => (survivors tree settings r).length).sum =
      surviving tree settings entries := by
  have hset : names.toFinset = included settings entries := by
    ext a
    simp [included, hnames]
  calc ((names.map (archiveAt settings)).map fun r => (survivors tree settings r).length).sum
      = (names.map fun a => (survivors tree settings (archiveAt settings a)).length).sum := by
        rw [List.map_map]
        rfl
    _ = ∑ a ∈ names.toFinset, (survivors tree settings (archiveAt settings a)).length :=
        (List.sum_toFinset _ hnodup).symm
    _ = surviving tree settings entries := by rw [hset, surviving]

lemma one_le_workers_of_validate (hvalid : settings.validate = .ok ()) : 1 ≤ settings.workers := by
  rw [Settings.validate] at hvalid
  split_ifs at hvalid
  omega

/-- What the main thread returns is what comes of adding up the counts of the specification, in
some order. -/
lemma exists_consume?_of_returned (hworkers : 1 ≤ settings.workers)
    (hread : ∀ a ∈ names, Archive.ReadsWell tree settings.allowed (archiveAt settings a))
    {s : State} (hreach : Relation.ReflTransGen
      (State.Step (plan tree settings operators.names))
      (start settings operators (names.map (archiveAt settings))) s)
    {result : Except (Failure Cause) Outcome} (hmain : s.main = .returned result) :
    ∃ counts : List CallCount, counts.Perm
        ((meaning tree settings operators.names).outputs (names.map (archiveAt settings))) ∧
      result.map Prod.fst = ((Aggregate.start
        (.dense (rowNames settings (names.map (archiveAt settings))) operators.names)
        (settings.sample.map AuditReport.start)).consume? counts).mapError .cause := by
  have hmeans : (plan tree settings operators.names).Means
      (meaning tree settings operators.names) (names.map (archiveAt settings)) :=
    plan_means operators.names (List.forall_mem_map.2 hread)
  have hoperators : (plan tree settings operators.names).counters.length =
      operators.names.length := by simp [plan]
  exact exists_order hmeans hoperators hworkers (Nat.le_max_left 1 _) hreach hmain

/-- A pipeline whose main thread has returned has made a census. -/
lemma isCensus_of_returned (hworkers : 1 ≤ settings.workers) (hnodup : names.Nodup)
    (hnames : ∀ a, a ∈ names ↔
      a ∈ Archive.namesIn entries ∧ settings.excluded.contains a = false)
    (hread : ∀ a ∈ names, Archive.ReadsWell tree settings.allowed (archiveAt settings a))
    (hknown : ∀ a ∈ names, survivors tree settings (archiveAt settings a) ≠ [] →
      a ∈ knownNames settings entries)
    {s : State} (hreach : Relation.ReflTransGen
      (State.Step (plan tree settings operators.names))
      (start settings operators (names.map (archiveAt settings))) s)
    {result : Except (Failure Cause) Outcome} (hmain : s.main = .returned result) :
    ∃ outcome, result = .ok outcome ∧
      IsCensus tree settings operators entries (Result.ofOutcome outcome) := by
  obtain ⟨counts, hperm, hcounts⟩ := exists_consume?_of_returned hworkers hread hreach hmain
  have hcells : ∀ c ∈ counts, c.archive ∈ rowNames settings (names.map (archiveAt settings)) ∧
      c.operator ∈ operators.names := by
    intro c hc
    refine cells_of_mem_outputs ?_ (hperm.mem_iff.1 hc)
    refine List.forall_mem_map.2 fun a ha hsurvivors => ?_
    exact (mem_rowNames_iff hnames a).2 ⟨hknown a ha hsurvivors, ((hnames a).1 ha).2⟩
  have hstart : (Aggregate.start
      (.dense (rowNames settings (names.map (archiveAt settings))) operators.names)
      (settings.sample.map AuditReport.start)).table.Holds _ _ _ :=
    Table.holds_dense (rowNames settings (names.map (archiveAt settings))) operators.names
  obtain ⟨now, hnow, hmessages, hholds⟩ := Aggregate.consume?_eq_ok hstart hcells
  obtain ⟨tallies, rfl⟩ : ∃ tallies, result = .ok (now, tallies) := by
    rw [hnow] at hcounts
    cases result with
    | error f => cases hcounts
    | ok outcome => exact ⟨outcome.2, by cases hcounts; rfl⟩
  have hlength : now.messages = surviving tree settings entries * operators.names.length := by
    rw [hmessages, hperm.length_eq, length_outputs, sum_length_survivors hnodup hnames]
    simp [Aggregate.start]
  refine ⟨(now, tallies), rfl, ⟨fun a => ?_, fun a row hrow o => ?_, fun a ha o ho => ?_, hlength,
    ?_⟩⟩
  · exact hholds.mem_archives_iff.trans (mem_rowNames_iff hnames a)
  · exact hholds.mem_keys_iff hrow
  · have hrow := hholds.mem_archives_iff.1 ha
    have hexcluded := ((mem_rowNames_iff hnames a).1 hrow).2
    refine (hholds.get?_eq hrow ho).trans (congrArg some ?_)
    rw [zero_add, CallCount.sumFor_perm hperm, sumFor_outputs operators.distinct hnodup ho, total]
    simp only [hnames, hexcluded, and_true]
  · have hpos : 1 ≤ operators.names.length := List.length_pos_iff.2 operators.nonempty
    show now.messages / max operators.names.length 1 = _
    rw [hlength, Nat.max_eq_left hpos, Nat.mul_div_cancel _ hpos]

/-- A run gives what the main thread returns on its schedule. -/
lemma run_eq_of_returned (hvalid : settings.validate = .ok ()) {archives : List Archive.Reference}
    {notices : List Notice}
    (hlist : Archive.list tree settings.archives settings.excluded = .ok (archives, notices))
    {result : Except (Failure Cause) Outcome}
    (hmain : ((start settings operators archives).run
      (plan tree settings operators.names)).main = .returned result) :
    (run tree settings operators).1 = result.map Result.ofOutcome := by
  simp only [run, hvalid, hlist, finalResult, hmain]
  cases result <;> rfl

/-- **A pipeline makes a census.** Let the settings be valid, let the directory of the archives
be readable, and let all archives that are not excluded read without error and be known if
any of their files survives. Then every execution of the pipeline ends, whatever the order of
turns, with a result that is the census of the specification, and so does the run. -/
theorem run_isCensus (tree : FileTree) (settings : Settings) (operators : Operators)
    (entries : List (String × Place)) (hvalid : settings.validate = .ok ())
    (hdir : tree.readDirectory settings.archives = .ok entries)
    (hread : ∀ a ∈ Archive.namesIn entries, settings.excluded.contains a = false →
      Archive.ReadsWell tree settings.allowed (archiveAt settings a))
    (hknown : ∀ a ∈ Archive.namesIn entries, settings.excluded.contains a = false →
      survivors tree settings (archiveAt settings a) ≠ [] → a ∈ knownNames settings entries) :
    ∃ archives notices,
      Archive.list tree settings.archives settings.excluded = .ok (archives, notices) ∧
      (∀ s, Relation.ReflTransGen (State.Step (plan tree settings operators.names))
          (start settings operators archives) s →
        (∀ t, ¬State.Step (plan tree settings operators.names) s t) →
          ∃ outcome, s.main = .returned (.ok outcome) ∧
            IsCensus tree settings operators entries (Result.ofOutcome outcome)) ∧
      (¬∃ states : ℕ → State, states 0 = start settings operators archives ∧
        ∀ n, State.Step (plan tree settings operators.names) (states n) (states (n + 1))) ∧
      ∃ result, (run tree settings operators).1 = .ok result ∧
        IsCensus tree settings operators entries result := by
  have hworkers := one_le_workers_of_validate hvalid
  obtain ⟨names, notices, hlist, hnodup, hnames⟩ := list_eq_ok hdir
  have hread' : ∀ a ∈ names, Archive.ReadsWell tree settings.allowed (archiveAt settings a) :=
    fun a ha => hread a ((hnames a).1 ha).1 ((hnames a).1 ha).2
  have hknown' : ∀ a ∈ names, survivors tree settings (archiveAt settings a) ≠ [] →
      a ∈ knownNames settings entries :=
    fun a ha => hknown a ((hnames a).1 ha).1 ((hnames a).1 ha).2
  have hoperators : (plan tree settings operators.names).counters.length =
      operators.names.length := by simp [plan]
  obtain ⟨hend, hterminates, result, hmain, outcome, rfl, hcensus⟩ :=
    execution_ends hoperators fun _ hreach _ hmain =>
      isCensus_of_returned hworkers hnodup hnames hread' hknown' hreach hmain
  refine ⟨names.map (archiveAt settings), notices, hlist, fun s hreach hstuck => ?_, hterminates,
    Result.ofOutcome outcome, run_eq_of_returned hvalid hlist hmain, hcensus⟩
  obtain ⟨result, hresult, outcome, rfl, hcensus⟩ := hend s hreach hstuck
  exact ⟨outcome, hresult, hcensus⟩

lemma readsWell_of_open? {allowed : NameSet} {r : Archive.Reference}
    {members : List Archive.Member}
    (hopen : Archive.Contents.open? tree r.path =
      .ok ⟨members.map Archive.Member.entry, none⟩) : Archive.ReadsWell tree allowed r := by
  refine ⟨_, hopen, rfl, fun e he _ => ?_⟩
  obtain ⟨m, -, rfl⟩ := List.mem_map.1 he
  exact ⟨_, rfl, fun _ => ⟨_, rfl⟩⟩

/-- A file that names the library and calls `map` once, and once more in a comment. -/
def commentedFile : Archive.Member where
  header := Archive.fileHeader "F.java" "33" "1574"
  data := "RxJava; x.map(f) // .map(g)".toUTF8
  describes := by decide +kernel

/-- A file that names the library and calls `map` twice, and once more in a literal. -/
def quotedFile : Archive.Member where
  header := Archive.fileHeader "G.java" "35" "1577"
  data := "rxjava x.map(\".map(\")\n.map(g)".toUTF8
  describes := by decide +kernel

/-- A file that calls `map` without naming the library. -/
def foreignFile : Archive.Member where
  header := Archive.fileHeader "N.java" "10" "1577"
  data := "x.map(f)".toUTF8
  describes := by decide +kernel

/-- The files of an archive. -/
def archivedFiles : List Archive.Member :=
  [commentedFile, quotedFile, foreignFile]

/-- A file tree with a directory of one archive, which holds three files. -/
def oneArchive : FileTree where
  places := [(["data"], .directory),
    (["data", "a.tgz"], .file (Archive.storedGzip (Archive.joined archivedFiles)))]
  current := []

/-- Settings for a census of that directory. -/
def oneArchiveSettings : Settings where
  archives := "/data"
  distribution := "RxJava"
  allowed := NameSet.ofList [".java"]
  known := none
  excluded := .empty
  workers := 2
  counterWorkers := none
  queueCapacity := 1
  backtrackLimit := 1000
  sample := none

/-- The operators of that census. -/
def twoOperators : Operators :=
  ⟨"RxJava", ["map", "just"], by decide, by decide⟩

/-- The entries of that directory. -/
lemma exists_entries_oneArchive : ∃ entries,
    oneArchive.readDirectory "/data" = .ok entries ∧ Archive.namesIn entries = ["a.tgz"] := by
  have hnames : (oneArchive.readDirectory "/data").map Archive.namesIn = .ok ["a.tgz"] := by
    decide +kernel
  cases hdir : oneArchive.readDirectory "/data" with
  | error why => simp [hdir, Except.map] at hnames
  | ok entries =>
      rw [hdir] at hnames
      exact ⟨entries, rfl, Except.ok.inj hnames⟩

lemma open?_oneArchive :
    Archive.Contents.open? oneArchive (archiveAt oneArchiveSettings "a.tgz").path =
      .ok ⟨archivedFiles.map Archive.Member.entry, none⟩ := by
  have hwalk : oneArchive.walk (archiveAt oneArchiveSettings "a.tgz").path =
      .ok ["data", "a.tgz"] := by
    decide +kernel
  refine Archive.Contents.open?_storedGzip ?_ (by decide +kernel)
  simp only [FileTree.look, hwalk]
  rfl

lemma callSites_oneArchive :
    (survivors oneArchive oneArchiveSettings (archiveAt oneArchiveSettings "a.tgz")).map
      (callSites oneArchiveSettings "map") = [1, 2] := by
  rw [survivors, Archive.sources, open?_oneArchive]
  decide +kernel

/-- What a census of that directory comes to. -/
lemma IsCensus.of_oneArchive {result : Result}
    (h : IsCensus oneArchive oneArchiveSettings twoOperators entries result)
    (hnames : Archive.namesIn entries = ["a.tgz"]) :
    result.table.get? "a.tgz" "map" = some 3 ∧ result.messages = 4 ∧
      result.filesProcessed twoOperators = 2 := by
  have hrow : "a.tgz" ∈ result.table.archives := by
    rw [h.rows, knownNames, oneArchiveSettings, Option.getD_none, hnames]
    decide
  have htotal : total oneArchive oneArchiveSettings entries "a.tgz" "map" = 3 := by
    rw [total, if_pos (by simp [hnames]), callSites_oneArchive]
    rfl
  have hsurviving : surviving oneArchive oneArchiveSettings entries = 2 := by
    have hincluded : included oneArchiveSettings entries = {"a.tgz"} := by
      rw [included, hnames]
      decide
    rw [surviving, hincluded, Finset.sum_singleton,
      ← List.length_map (callSites oneArchiveSettings "map"), callSites_oneArchive]
    rfl
  refine ⟨?_, ?_, ?_⟩
  · rw [h.cells "a.tgz" hrow "map" (by decide), htotal]
    rfl
  · rw [h.messages, hsurviving]
    rfl
  · rw [h.filesProcessed, hsurviving]

/-- The calls of all files that survive are added up, on every schedule, and every file counts once
for each operator. -/
theorem run_isCensus_oneArchive : ∃ archives notices,
    Archive.list oneArchive oneArchiveSettings.archives oneArchiveSettings.excluded =
        .ok (archives, notices) ∧
      (∀ s, Relation.ReflTransGen (State.Step (plan oneArchive oneArchiveSettings
          twoOperators.names)) (start oneArchiveSettings twoOperators archives) s →
        (∀ t, ¬State.Step (plan oneArchive oneArchiveSettings twoOperators.names) s t) →
          ∃ outcome, s.main = .returned (.ok outcome) ∧
            outcome.1.table.get? "a.tgz" "map" = some 3 ∧ outcome.1.messages = 4) ∧
      ∃ result, (run oneArchive oneArchiveSettings twoOperators).1 = .ok result ∧
        (∀ a, a ∈ result.table.archives ↔ a = "a.tgz") ∧
        result.table.get? "a.tgz" "map" = some 3 ∧ result.messages = 4 ∧
        result.filesProcessed twoOperators = 2 := by
  obtain ⟨entries, hdir, hnames⟩ := exists_entries_oneArchive
  have hread : ∀ a ∈ Archive.namesIn entries, oneArchiveSettings.excluded.contains a = false →
      Archive.ReadsWell oneArchive oneArchiveSettings.allowed
        (archiveAt oneArchiveSettings a) := by
    intro a ha _
    rw [hnames, List.mem_singleton] at ha
    exact ha ▸ readsWell_of_open? open?_oneArchive
  obtain ⟨archives, notices, hlist, hend, -, result, hrun, hcensus⟩ :=
    run_isCensus oneArchive oneArchiveSettings twoOperators entries (by decide +kernel) hdir hread
      fun a ha _ _ => ha
  refine ⟨archives, notices, hlist, fun s hreach hstuck => ?_, result, hrun, fun a => ?_,
    hcensus.of_oneArchive hnames⟩
  · obtain ⟨outcome, hmain, houtcome⟩ := hend s hreach hstuck
    obtain ⟨hcell, hmessages, -⟩ := houtcome.of_oneArchive hnames
    exact ⟨outcome, hmain, hcell, hmessages⟩
  · rw [hcensus.rows, knownNames, oneArchiveSettings, Option.getD_none, hnames]
    simp [Dict.contains]

end Census

end CallCensus
