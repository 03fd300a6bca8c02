import CallCensus.Proofs.Census.Refinement
import CallCensus.Proofs.FileTree.Entries

/-!
Which archives a census must know.

The rows of a table come from the settings or from the directory, the counts from the archives
in the directory. A count finds its cell unless its archive has no row, and an archive gives
counts as soon as one of its files survives. So a census of readable archives fails exactly
when such an archive is not known, whichever of its counts is the first to arrive.

* `Uncovered`: the archives that are found and give counts, but have no row;
* `Covers`: a result is an error if and only if there is such an archive, and names one;
* `uncovered_of_missing`, `exists_missing_of_uncovered`: the counts of such an archive are those
  without a cell;
* `covers_of_returned`: what the main thread of a pipeline returns;
* `run_covers`: every execution, and the run.
-/

namespace CallCensus

namespace Census

open Pipeline

variable {tree : FileTree} {settings : Settings} {operators : Operators}
  {entries : List (String × Place)} {names : List String}

/-- An archive that is in the directory and not excluded, and of which a file survives, but
which is not known. -/
structure Uncovered (tree : FileTree) (settings : Settings) (entries : List (String × Place))
    (archive : String) : Prop where
  listed : archive ∈ Archive.namesIn entries
  included : settings.excluded.contains archive = false
  survives : survivors tree settings (archiveAt settings archive) ≠ []
  unknown : archive ∉ knownNames settings entries

/-- A result that is an error if and only if some archive is not covered; the error is then
that of a missing cell, for such an archive and one of the operators. -/
structure Covers (tree : FileTree) (settings : Settings) (operators : Operators)
    (entries : List (String × Place)) {α : Type} (result : Except (Failure Cause) α) : Prop where
  fails_iff : (∃ failure, result = .error failure) ↔ ∃ a, Uncovered tree settings entries a
  names : ∀ failure, result = .error failure → ∃ a, Uncovered tree settings entries a ∧
    ∃ o ∈ operators.names, failure = .cause (.missingCell a o)

namespace Covers

variable {α β : Type} {result : Except (Failure Cause) α}

/-- What is made of a result does not change when it is an error. -/
lemma map (h : Covers tree settings operators entries result) (f : α → β) :
    Covers tree settings operators entries (result.map f) := by
  cases result with
  | ok x =>
      have hcovered : ¬ ∃ a, Uncovered tree settings entries a := by
        rw [← h.fails_iff]
        rintro ⟨failure, ⟨⟩⟩
      refine ⟨iff_of_false ?_ hcovered, ?_⟩
      · rintro ⟨failure, ⟨⟩⟩
      · rintro failure ⟨⟩
  | error failure =>
      refine ⟨iff_of_true ⟨failure, rfl⟩ (h.fails_iff.1 ⟨failure, rfl⟩), ?_⟩
      rintro failure' ⟨⟩
      exact h.names failure rfl

/-- If all archives are covered the result is no error. -/
lemma exists_ok (h : Covers tree settings operators entries result)
    (hcovered : ∀ a, ¬ Uncovered tree settings entries a) : ∃ x, result = .ok x := by
  cases result with
  | ok x => exact ⟨x, rfl⟩
  | error failure =>
      obtain ⟨a, ha⟩ := h.fails_iff.1 ⟨failure, rfl⟩
      exact absurd ha (hcovered a)

end Covers

/-- Only a census that is told which archives are known can miss one. -/
lemma not_uncovered_of_known_eq_none (hknown : settings.known = none) (archive : String) :
    ¬ Uncovered tree settings entries archive := by
  intro h
  refine h.unknown ?_
  rw [knownNames, hknown, Option.getD_none]
  exact h.listed

/-- The archives with a surviving file and no row are those that are not covered. -/
lemma uncovered_iff
    (hnames : ∀ a, a ∈ names ↔
      a ∈ Archive.namesIn entries ∧ settings.excluded.contains a = false) (a : String) :
    Uncovered tree settings entries a ↔
      a ∈ names ∧ survivors tree settings (archiveAt settings a) ≠ [] ∧
        a ∉ rowNames settings (names.map (archiveAt settings)) := by
  rw [mem_rowNames_iff hnames, hnames]
  constructor
  · intro h
    exact ⟨⟨h.listed, h.included⟩, h.survives, fun hrow => h.unknown hrow.1⟩
  · rintro ⟨⟨hlisted, hincluded⟩, hsurvives, hrow⟩
    exact ⟨hlisted, hincluded, hsurvives, fun hknown => hrow ⟨hknown, hincluded⟩⟩

lemma isSome_get?_dense_iff (archives : List Archive.Reference) (a o : String) :
    ((Table.dense (rowNames settings archives) operators.names).get? a o).isSome ↔
      a ∈ rowNames settings archives ∧ o ∈ operators.names :=
  (Table.holds_dense _ _).isSome_get?_iff

/-- A count without a cell is one of an archive that is not covered. -/
lemma uncovered_of_missing
    (hnames : ∀ a, a ∈ names ↔
      a ∈ Archive.namesIn entries ∧ settings.excluded.contains a = false) {c : CallCount}
    (hc : c ∈ (meaning tree settings operators.names).outputs (names.map (archiveAt settings)))
    (hnone : (Table.dense (rowNames settings (names.map (archiveAt settings)))
      operators.names).get? c.archive c.operator = none) :
    Uncovered tree settings entries c.archive ∧ c.operator ∈ operators.names := by
  obtain ⟨r, hr, hsurvivors, hname, hoperator⟩ := exists_of_mem_outputs hc
  obtain ⟨a, ha, rfl⟩ := List.mem_map.1 hr
  rw [← Option.not_isSome_iff_eq_none, isSome_get?_dense_iff, hname] at hnone
  rw [hname, uncovered_iff hnames]
  exact ⟨⟨ha, hsurvivors, fun hrow => hnone ⟨hrow, hoperator⟩⟩, hoperator⟩

/-- An archive that is not covered gives a count without a cell. -/
lemma exists_missing_of_uncovered
    (hnames : ∀ a, a ∈ names ↔
      a ∈ Archive.namesIn entries ∧ settings.excluded.contains a = false) {a : String}
    (ha : Uncovered tree settings entries a) :
    ∃ c ∈ (meaning tree settings operators.names).outputs (names.map (archiveAt settings)),
      (Table.dense (rowNames settings (names.map (archiveAt settings)))
        operators.names).get? c.archive c.operator = none := by
  obtain ⟨hlisted, hsurvivors, hrow⟩ := (uncovered_iff hnames a).1 ha
  obtain ⟨o, ho⟩ := List.exists_mem_of_ne_nil _ operators.nonempty
  obtain ⟨c, hc, hname, -⟩ := exists_mem_outputs
    (List.mem_map_of_mem (f := archiveAt settings) hlisted) hsurvivors ho
  refine ⟨c, hc, ?_⟩
  rw [← Option.not_isSome_iff_eq_none, isSome_get?_dense_iff, hname]
  exact fun hcell => hrow hcell.1

/-- A pipeline whose main thread has returned has failed if and only if an archive is not
covered, and then with a missing cell of such an archive. -/
lemma covers_of_returned (hworkers : 1 ≤ settings.workers)
    (hnames : ∀ a, a ∈ names ↔
      a ∈ Archive.namesIn entries ∧ settings.excluded.contains a = false)
    (hread : ∀ a ∈ names, Archive.ReadsWell tree settings.allowed (archiveAt settings a))
    {s : State} (hreach : Relation.ReflTransGen
      (State.Step (plan tree settings operators.names))
      (start settings operators (names.map (archiveAt settings))) s)
    {result : Except (Failure Cause) Outcome} (hmain : s.main = .returned result) :
    Covers tree settings operators entries result := by
  obtain ⟨counts, hperm, hcounts⟩ := exists_consume?_of_returned hworkers hread hreach hmain
  let total := Aggregate.start
    (.dense (rowNames settings (names.map (archiveAt settings))) operators.names)
    (settings.sample.map AuditReport.start)
  by_cases hmissing : ∃ c ∈ counts, total.table.get? c.archive c.operator = none
  · obtain ⟨c, hc, hnone, herror⟩ := Aggregate.exists_consume?_eq_error hmissing
    obtain ⟨huncovered, hoperator⟩ := uncovered_of_missing hnames (hperm.mem_iff.1 hc) hnone
    have hresult : result = .error (.cause (.missingCell c.archive c.operator)) := by
      rw [herror] at hcounts
      cases result with
      | ok outcome => cases hcounts
      | error failure => exact congrArg Except.error (Except.error.inj hcounts)
    refine ⟨iff_of_true ⟨_, hresult⟩ ⟨_, huncovered⟩, fun failure hfailure => ?_⟩
    exact ⟨_, huncovered, _, hoperator, Except.error.inj (hfailure.symm.trans hresult)⟩
  · have hcells : ∀ c ∈ counts, (total.table.get? c.archive c.operator).isSome :=
      fun c hc => Option.isSome_iff_ne_none.2 fun hnone => hmissing ⟨c, hc, hnone⟩
    obtain ⟨table, hconsume, -⟩ := Aggregate.exists_consume? hcells
    have hresult : ¬ ∃ failure, result = .error failure := by
      rintro ⟨failure, rfl⟩
      rw [hconsume] at hcounts
      cases hcounts
    have hcovered : ¬ ∃ a, Uncovered tree settings entries a := by
      rintro ⟨a, ha⟩
      obtain ⟨c, hc, hnone⟩ := @exists_missing_of_uncovered _ _ operators _ _ hnames _ ha
      exact hmissing ⟨c, hperm.mem_iff.2 hc, hnone⟩
    exact ⟨iff_of_false hresult hcovered, fun failure hfailure => absurd ⟨failure, hfailure⟩ hresult⟩

/-- **A census fails if and only if it misses an archive.** Let the settings be valid, let the
directory of the archives be readable, and let all archives that are not excluded read without
error. Then every execution of the pipeline ends, whatever the order of turns, and what the main
thread returns is an error if and only if an archive with a surviving file is not known; it
names such an archive and an operator. The same holds of the run, which therefore succeeds if
it is not told which archives are known. -/
theorem run_covers (tree : FileTree) (settings : Settings) (operators : Operators)
    (entries : List (String × Place)) (hvalid : settings.validate = .ok ())
    (hdir : tree.readDirectory settings.archives = .ok entries)
    (hread : ∀ a ∈ Archive.namesIn entries, settings.excluded.contains a = false →
      Archive.ReadsWell tree settings.allowed (archiveAt settings a)) :
    ∃ archives notices,
      Archive.list tree settings.archives settings.excluded = .ok (archives, notices) ∧
      (∀ s, Relation.ReflTransGen (State.Step (plan tree settings operators.names))
          (start settings operators archives) s →
        (∀ t, ¬State.Step (plan tree settings operators.names) s t) →
          ∃ result, s.main = .returned result ∧
            Covers tree settings operators entries result) ∧
      (¬∃ states : ℕ → State, states 0 = start settings operators archives ∧
        ∀ n, State.Step (plan tree settings operators.names) (states n) (states (n + 1))) ∧
      Covers tree settings operators entries (run tree settings operators).1 ∧
      (settings.known = none → ∃ result, (run tree settings operators).1 = .ok result) := by
  have hworkers := one_le_workers_of_validate hvalid
  obtain ⟨names, notices, hlist, -, hnames⟩ := list_eq_ok hdir
  have hread' : ∀ a ∈ names, Archive.ReadsWell tree settings.allowed (archiveAt settings a) :=
    fun a ha => hread a ((hnames a).1 ha).1 ((hnames a).1 ha).2
  have hoperators : (plan tree settings operators.names).counters.length =
      operators.names.length := by simp [plan]
  obtain ⟨hend, hterminates, result, hmain, hcovers⟩ := execution_ends hoperators
    fun _ hreach _ hmain => covers_of_returned hworkers hnames hread' hreach hmain
  have hrun : Covers tree settings operators entries (run tree settings operators).1 := by
    rw [run_eq_of_returned hvalid hlist hmain]
    exact hcovers.map _
  exact ⟨_, notices, hlist, hend, hterminates, hrun, fun hknown =>
    hrun.exists_ok (not_uncovered_of_known_eq_none hknown)⟩

/-- A file tree with another archive beside the one of `oneArchive`. None of its files survives. -/
def twoArchives : FileTree :=
  { oneArchive with places := oneArchive.places ++
      [(["data", "b.tgz"], .file (Archive.storedGzip (Archive.joined [foreignFile])))] }

/-- Settings for a census of that directory, of which one archive is known. -/
def knowing (name : String) : Settings :=
  { oneArchiveSettings with known := some [name] }

/-- The contents of the archives. -/
lemma open?_twoArchives (known : String) :
    Archive.Contents.open? twoArchives (archiveAt (knowing known) "a.tgz").path =
        .ok ⟨archivedFiles.map Archive.Member.entry, none⟩ ∧
      Archive.Contents.open? twoArchives (archiveAt (knowing known) "b.tgz").path =
        .ok ⟨[foreignFile].map Archive.Member.entry, none⟩ := by
  have hwalk : twoArchives.walk (archiveAt oneArchiveSettings "a.tgz").path =
        .ok ["data", "a.tgz"] ∧
      twoArchives.walk (archiveAt oneArchiveSettings "b.tgz").path = .ok ["data", "b.tgz"] := by
    decide +kernel
  have hknowing : ∀ a, archiveAt (knowing known) a = archiveAt oneArchiveSettings a := fun _ => rfl
  rw [hknowing, hknowing]
  refine ⟨Archive.Contents.open?_storedGzip ?_ (by decide +kernel),
    Archive.Contents.open?_storedGzip ?_ (by decide +kernel)⟩
  · simp only [FileTree.look, hwalk]
    rfl
  · simp only [FileTree.look, hwalk]
    rfl

/-- A file survives of the one archive, and none of the other. -/
lemma survivors_twoArchives (known : String) :
    survivors twoArchives (knowing known) (archiveAt (knowing known) "a.tgz") ≠ [] ∧
      survivors twoArchives (knowing known) (archiveAt (knowing known) "b.tgz") = [] := by
  obtain ⟨hfull, hforeign⟩ := open?_twoArchives known
  constructor
  · have hsame : survivors twoArchives (knowing known) (archiveAt (knowing known) "a.tgz") =
        survivors oneArchive oneArchiveSettings (archiveAt oneArchiveSettings "a.tgz") := by
      rw [survivors, survivors, Archive.sources, Archive.sources, hfull, open?_oneArchive]
      rfl
    intro hnil
    have hcalls := callSites_oneArchive
    rw [← hsame, hnil] at hcalls
    cases hcalls
  · have hnone : (([foreignFile].map Archive.Member.entry).filterMap
        (Archive.sourceOf? oneArchiveSettings.allowed "b.tgz")).filterMap
          (cleaned? oneArchiveSettings) = [] := by
      decide +kernel
    rw [survivors, Archive.sources, hforeign]
    exact hnone

lemma namesIn_twoArchives :
    Archive.namesIn (twoArchives.children ["data"]) = ["a.tgz", "b.tgz"] := by
  decide +kernel

lemma readsWell_twoArchives (known : String) :
    ∀ a ∈ Archive.namesIn (twoArchives.children ["data"]),
      (knowing known).excluded.contains a = false →
        Archive.ReadsWell twoArchives (knowing known).allowed (archiveAt (knowing known) a) := by
  intro a ha _
  obtain ⟨hfull, hforeign⟩ := open?_twoArchives known
  rw [namesIn_twoArchives] at ha
  rcases List.mem_pair.1 ha with rfl | rfl
  · exact readsWell_of_open? hfull
  · exact readsWell_of_open? hforeign

/-- The census misses the one archive if it is not known, and never the other. -/
lemma uncovered_twoArchives_iff (known a : String) :
    Uncovered twoArchives (knowing known) (twoArchives.children ["data"]) a ↔
      a = "a.tgz" ∧ known ≠ "a.tgz" := by
  obtain ⟨hsurvives, hnone⟩ := survivors_twoArchives known
  constructor
  · intro ha
    have hlisted := ha.listed
    rw [namesIn_twoArchives] at hlisted
    rcases List.mem_pair.1 hlisted with rfl | rfl
    · refine ⟨rfl, ?_⟩
      rintro rfl
      exact ha.unknown List.mem_cons_self
    · exact absurd hnone ha.survives
  · rintro ⟨rfl, hknown⟩
    exact ⟨by simp [namesIn_twoArchives], rfl, hsurvives,
      by simpa [knownNames, knowing] using hknown.symm⟩

/-- An archive that is not known makes the census fail if one of its files survives, and does no
harm otherwise. -/
theorem run_covers_unlisted :
    (∃ result, (run twoArchives (knowing "a.tgz") twoOperators).1 = .ok result) ∧
      ∃ o ∈ ["map", "just"], (run twoArchives (knowing "b.tgz") twoOperators).1 =
        .error (.cause (.missingCell "a.tgz" o)) := by
  have hcovers : ∀ known, Covers twoArchives (knowing known) twoOperators
      (twoArchives.children ["data"]) (run twoArchives (knowing known) twoOperators).1 := by
    intro known
    have hvalid : (knowing known).validate = .ok () := by
      have hsame : (knowing known).validate = oneArchiveSettings.validate := rfl
      rw [hsame]
      decide +kernel
    have hdir : twoArchives.readDirectory (knowing known).archives =
        .ok (twoArchives.children ["data"]) := by
      have hwalk : twoArchives.walk oneArchiveSettings.archives = .ok ["data"] := by
        decide +kernel
      exact FileTree.readDirectory_eq hwalk rfl
    obtain ⟨-, -, -, -, -, hrun, -⟩ := run_covers twoArchives (knowing known) twoOperators _
      hvalid hdir (readsWell_twoArchives known)
    exact hrun
  constructor
  · refine (hcovers "a.tgz").exists_ok fun a ha => ?_
    exact ((uncovered_twoArchives_iff _ a).1 ha).2 rfl
  · have huncovered := (uncovered_twoArchives_iff "b.tgz" "a.tgz").2 ⟨rfl, by decide⟩
    obtain ⟨failure, hfailure⟩ := (hcovers "b.tgz").fails_iff.2 ⟨_, huncovered⟩
    obtain ⟨a, ha, o, ho, rfl⟩ := (hcovers "b.tgz").names failure hfailure
    obtain ⟨rfl, -⟩ := (uncovered_twoArchives_iff _ a).1 ha
    exact ⟨o, ho, hfailure⟩

end Census

end CallCensus
