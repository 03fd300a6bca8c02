import CallCensus.Census.Run
import CallCensus.Proofs.Census.Totals
import CallCensus.Proofs.Pipeline.Flow
import Mathlib.Algebra.BigOperators.Ring.List

/-!
What a census is, said without a pipeline.

A regular member of an archive whose extension is allowed is a source file. Without its
comments it must name the distribution; then it survives, and without its literals too it is
what the call sites are counted in. A census has a row for every known archive that is not
excluded, a column for every operator, and in each cell the number of call sites in the
surviving files of the archive.

* `Archive.sources`, `Archive.ReadsWell`: the source files of an archive that reads without
  error, which are those that are extracted (`extractFrom_eq`);
* `survivors`, `total`, `surviving`: the files that are counted, the total of a cell, and the
  number of files;
* `IsCensus`: the specification of a result;
* `meaning`, `plan_means`: the stages of a census are functions;
* `sumFor_outputs`, `length_outputs`: the counts that come of these functions are those of
  the specification.
-/

namespace CallCensus

/-! ### The source files of an archive -/

namespace Archive

/-- The source file that a member of an archive is, if it is one. -/
def sourceOf? (allowed : NameSet) (archive : String) (e : Entry) : Option SourceFile :=
  match e.regular, e.path, e.data with
  | true, .ok path, .ok bytes =>
    if isAllowed allowed path then some ⟨archive, path, Text.Utf8.decodeLossy bytes⟩ else none
  | _, _, _ => none

/-- The source files of an archive in a file tree. -/
def sources (tree : FileTree) (allowed : NameSet) (r : Reference) : List SourceFile :=
  match Contents.open? tree r.path with
  | .error _ => []
  | .ok contents => contents.entries.filterMap (sourceOf? allowed r.name)

/-- A member of an archive that reads without error, as far as it is wanted. -/
def Entry.ReadsWell (allowed : NameSet) (e : Entry) : Prop :=
  e.regular = true → ∃ path, e.path = .ok path ∧
    (isAllowed allowed path = true → ∃ bytes, e.data = .ok bytes)

/-- An archive that reads without error, to its end. -/
def ReadsWell (tree : FileTree) (allowed : NameSet) (r : Reference) : Prop :=
  ∃ contents, Contents.open? tree r.path = .ok contents ∧ contents.fault = none ∧
    ∀ e ∈ contents.entries, e.ReadsWell allowed

/-- Members that read without error are extracted, each that is a source file, before the rest of
the archive is looked at. -/
lemma extractOnto_append {allowed : NameSet} {archive : String} {before : List Entry}
    (h : ∀ e ∈ before, e.ReadsWell allowed) (fault : Option Fault) (done : List SourceFile)
    (rest : List Entry) :
    extractOnto allowed archive fault done (before ++ rest) =
      extractOnto allowed archive fault
        ((before.filterMap (sourceOf? allowed archive)).reverse ++ done) rest := by
  induction before generalizing done with
  | nil => rfl
  | cons e before ih =>
      have hbefore := ih fun e' he' => h e' (List.mem_cons_of_mem _ he')
      have he := h e List.mem_cons_self
      cases hregular : e.regular with
      | false => simp [extractOnto, sourceOf?, hregular, hbefore]
      | true =>
          obtain ⟨path, hpath, hdata⟩ := he hregular
          cases hallowed : isAllowed allowed path with
          | false => cases hbytes : e.data <;>
              simp [extractOnto, sourceOf?, hregular, hpath, hallowed, hbefore, hbytes]
          | true =>
              obtain ⟨bytes, hbytes⟩ := hdata hallowed
              simp [extractOnto, sourceOf?, hregular, hpath, hallowed, hbefore, hbytes]

/-- An archive whose members read without error is extracted to its end. -/
lemma extractOnto_eq {allowed : NameSet} {archive : String} {entries : List Entry}
    (h : ∀ e ∈ entries, e.ReadsWell allowed) (fault : Option Fault) (done : List SourceFile) :
    extractOnto allowed archive fault done entries =
      (done.reverse ++ entries.filterMap (sourceOf? allowed archive),
        fault.map (.archiveRead archive)) := by
  have happend : extractOnto allowed archive fault done (entries ++ []) = _ :=
    extractOnto_append h fault done []
  rw [List.append_nil] at happend
  rw [happend, extractOnto, List.reverse_append, List.reverse_reverse]

lemma extractFrom_eq {tree : FileTree} {allowed : NameSet} {r : Reference}
    (h : ReadsWell tree allowed r) :
    extractFrom tree allowed r = (sources tree allowed r, none) := by
  obtain ⟨contents, hopen, hfault, hentries⟩ := h
  simp only [extractFrom, sources, hopen, extract]
  rw [extractOnto_eq hentries, hfault]
  rfl

/-- Members whose extraction does not fail read without error. -/
lemma readsWell_of_extractOnto {allowed : NameSet} {archive : String} {entries : List Entry}
    {fault : Option Fault} {done : List SourceFile}
    (h : (extractOnto allowed archive fault done entries).2 = none) :
    fault = none ∧ ∀ e ∈ entries, e.ReadsWell allowed := by
  induction entries generalizing done with
  | nil => simpa [extractOnto] using h
  | cons e entries ih =>
      rw [extractOnto] at h
      split_ifs at h with hregular
      · split at h
        · cases h
        · rename_i path hpath
          split_ifs at h with hallowed
          · split at h
            · cases h
            · rename_i bytes hbytes
              obtain ⟨hfault, hrest⟩ := ih h
              refine ⟨hfault, List.forall_mem_cons.2 ⟨fun _ => ?_, hrest⟩⟩
              exact ⟨path, hpath, fun _ => ⟨bytes, hbytes⟩⟩
          · obtain ⟨hfault, hrest⟩ := ih h
            refine ⟨hfault, List.forall_mem_cons.2 ⟨fun _ => ?_, hrest⟩⟩
            exact ⟨path, hpath, fun hallowed' => absurd hallowed' hallowed⟩
      · obtain ⟨hfault, hrest⟩ := ih h
        exact ⟨hfault, List.forall_mem_cons.2 ⟨fun hregular' => absurd hregular' hregular, hrest⟩⟩

/-- An archive reads without error when its extraction does not fail. -/
lemma readsWell_iff {tree : FileTree} {allowed : NameSet} {r : Reference} :
    ReadsWell tree allowed r ↔ (extractFrom tree allowed r).2 = none := by
  constructor
  · intro h
    rw [extractFrom_eq h]
  · intro h
    rw [extractFrom] at h
    split at h
    · cases h
    · rename_i contents hopen
      obtain ⟨hfault, hentries⟩ := readsWell_of_extractOnto h
      exact ⟨contents, hopen, hfault, hentries⟩

end Archive

namespace Census

open Pipeline

/-! ### The specification -/

/-- The archive with a given name. -/
def archiveAt (settings : Settings) (name : String) : Archive.Reference :=
  ⟨name, Path.join settings.archives name⟩

/-- A source file as it is counted: without comments, where it must name the distribution,
and without literals. -/
def cleaned? (settings : Settings) (file : SourceFile) : Option SourceFile :=
  let text := Comment.strip settings.backtrackLimit file.content
  if Evidence.mentions settings.distribution text then
    some { file with content := Literal.strip settings.backtrackLimit text }
  else none

/-- The files of an archive that are counted, as they are counted. -/
def survivors (tree : FileTree) (settings : Settings) (r : Archive.Reference) :
    List SourceFile :=
  (Archive.sources tree settings.allowed r).filterMap (cleaned? settings)

/-- The number of call sites of an operator in a file. -/
def callSites (settings : Settings) (operator : String) (file : SourceFile) : ℕ :=
  CallSite.count settings.backtrackLimit operator.toList file.content

/-- The number of call sites of an operator in the surviving files of an archive, where the
directory of the archives has the given entries. -/
def total (tree : FileTree) (settings : Settings) (entries : List (String × Place))
    (archive operator : String) : ℕ :=
  if archive ∈ Archive.namesIn entries then
    ((survivors tree settings (archiveAt settings archive)).map (callSites settings operator)).sum
  else 0

/-- The names of the archives in a directory that are not excluded. -/
def included (settings : Settings) (entries : List (String × Place)) : Finset String :=
  {name ∈ (Archive.namesIn entries).toFinset | settings.excluded.contains name = false}

/-- The number of surviving files in all archives. -/
def surviving (tree : FileTree) (settings : Settings) (entries : List (String × Place)) : ℕ :=
  ∑ name ∈ included settings entries, (survivors tree settings (archiveAt settings name)).length

/-- The archives that are known: those of the settings, or else those in the directory. -/
def knownNames (settings : Settings) (entries : List (String × Place)) : List String :=
  settings.known.getD (Archive.namesIn entries)

/-- What the result of a census must be. -/
structure IsCensus (tree : FileTree) (settings : Settings) (operators : Operators)
    (entries : List (String × Place)) (result : Result) : Prop where
  rows : ∀ a, a ∈ result.table.archives ↔
    a ∈ knownNames settings entries ∧ settings.excluded.contains a = false
  columns : ∀ a row, result.table.row? a = some row → ∀ o, o ∈ row.keys ↔ o ∈ operators.names
  cells : ∀ a ∈ result.table.archives, ∀ o ∈ operators.names,
    result.table.get? a o = some (.ofNat (total tree settings entries a o))
  messages : result.messages = surviving tree settings entries * operators.names.length
  filesProcessed : result.filesProcessed operators = surviving tree settings entries

/-! ### The stages of a census -/

variable {tree : FileTree} {settings : Settings} {archives : List Archive.Reference}

/-- The functions that the stages of a census stand for. -/
def meaning (tree : FileTree) (settings : Settings) (operators : List String) : Meaning where
  extract := Archive.sources tree settings.allowed
  comments := fun file =>
    [{ file with content := Comment.strip settings.backtrackLimit file.content }]
  imports := fun file =>
    if Evidence.mentions settings.distribution file.content then [file] else []
  literals := fun file =>
    [{ file with content := Literal.strip settings.backtrackLimit file.content }]
  counters := operators.map fun operator file =>
    [file.counted operator (.ofNat (callSites settings operator file))]

/-- The stages of a census are functions, if its archives read without error. -/
lemma plan_means (operators : List String)
    (hread : ∀ r ∈ archives, Archive.ReadsWell tree settings.allowed r) :
    (plan tree settings operators).Means (meaning tree settings operators) archives where
  extract := by
    refine ⟨fun _ r hr => ?_, fun _ r hr => ⟨(), ?_⟩⟩ <;>
      simp [plan, extractStage, Archive.extractFrom_eq (hread r hr), meaning]
  comments := ⟨fun _ _ _ => rfl, fun _ _ _ => ⟨_, rfl⟩⟩
  imports := by
    refine ⟨fun tallies file _ => ?_, fun tallies file _ => ?_⟩
    · simp only [plan, importStage, meaning]
      split_ifs <;> rfl
    · simp only [plan, importStage]
      split_ifs <;> exact ⟨_, rfl⟩
  literals := ⟨fun _ _ _ => rfl, fun _ _ _ => ⟨_, rfl⟩⟩
  counters := by
    simp only [plan, meaning, List.forall₂_map_left_iff, List.forall₂_map_right_iff]
    exact List.forall₂_same.2 fun _ _ => ⟨fun _ _ _ => rfl, fun _ _ _ => ⟨_, rfl⟩⟩

/-! ### The counts of a census -/

/-- The counts that a file gives, one for each operator. -/
def countsOf (settings : Settings) (operators : List String) (file : SourceFile) :
    List CallCount :=
  operators.map fun operator => file.counted operator (.ofNat (callSites settings operator file))

/-- The counts that come of a file from an archive are those of what is left of it, if it
survives. -/
lemma ofRaw_eq (operators : List String) (file : SourceFile) :
    (meaning tree settings operators).ofRaw file =
      (cleaned? settings file).toList.flatMap (countsOf settings operators) := by
  have hcleaned : (meaning tree settings operators).ofCleaned = countsOf settings operators := by
    funext file
    rw [Meaning.ofCleaned, meaning, List.flatMap_map, countsOf, ← List.map_eq_flatMap]
  simp only [Meaning.ofRaw, Meaning.ofUncommented, meaning, cleaned?, List.flatMap_singleton]
  split_ifs
  · rw [List.flatMap_singleton, Option.toList_some, List.flatMap_singleton, ← hcleaned]
    simp only [Meaning.ofImported, meaning, List.flatMap_singleton]
  · rfl

lemma ofArchive_eq (operators : List String) (r : Archive.Reference) :
    (meaning tree settings operators).ofArchive r =
      (survivors tree settings r).flatMap (countsOf settings operators) := by
  rw [Meaning.ofArchive, survivors, List.filterMap_eq_flatMap_toList, List.flatMap_assoc]
  exact List.flatMap_congr fun file _ => ofRaw_eq operators file

lemma archive_of_cleaned? {file cleaned : SourceFile} (h : cleaned? settings file = some cleaned) :
    cleaned.archive = file.archive := by
  simp only [cleaned?] at h
  split_ifs at h
  cases h
  rfl

/-- The files of an archive bear its name. -/
lemma archive_of_mem_survivors {r : Archive.Reference} {file : SourceFile}
    (h : file ∈ survivors tree settings r) : file.archive = r.name := by
  obtain ⟨raw, hraw, hfile⟩ := List.mem_filterMap.1 h
  have harchive : raw.archive = r.name := by
    rw [Archive.sources] at hraw
    split at hraw
    · cases hraw
    · obtain ⟨e, -, he⟩ := List.mem_filterMap.1 hraw
      rw [Archive.sourceOf?] at he
      split at he
      · split_ifs at he
        cases he
        rfl
      · cases he
  exact (archive_of_cleaned? hfile).trans harchive

/-- Every count of a census is that of an archive with a surviving file, and of an operator. -/
lemma exists_of_mem_outputs {operators : List String} {c : CallCount}
    (hc : c ∈ (meaning tree settings operators).outputs archives) :
    ∃ r ∈ archives, survivors tree settings r ≠ [] ∧ c.archive = r.name ∧
      c.operator ∈ operators := by
  obtain ⟨r, hr, hcr⟩ := List.mem_flatMap.1 hc
  rw [ofArchive_eq] at hcr
  obtain ⟨file, hfile, hcount⟩ := List.mem_flatMap.1 hcr
  obtain ⟨operator, hoperator, rfl⟩ := List.mem_map.1 hcount
  exact ⟨r, hr, List.ne_nil_of_mem hfile, archive_of_mem_survivors hfile, hoperator⟩

/-- Every archive with a surviving file gives a count for each operator. -/
lemma exists_mem_outputs {operators : List String} {r : Archive.Reference} {o : String}
    (hr : r ∈ archives) (hsurvivors : survivors tree settings r ≠ []) (ho : o ∈ operators) :
    ∃ c ∈ (meaning tree settings operators).outputs archives,
      c.archive = r.name ∧ c.operator = o := by
  obtain ⟨file, hfile⟩ := List.exists_mem_of_ne_nil _ hsurvivors
  refine ⟨file.counted o (.ofNat (callSites settings o file)), ?_,
    archive_of_mem_survivors hfile, rfl⟩
  refine List.mem_flatMap.2 ⟨r, hr, ?_⟩
  rw [ofArchive_eq]
  exact List.mem_flatMap.2 ⟨file, hfile, List.mem_map.2 ⟨o, ho, rfl⟩⟩

lemma cells_of_mem_outputs {operators : List String} {known : List String}
    (hknown : ∀ r ∈ archives, survivors tree settings r ≠ [] → r.name ∈ known) {c : CallCount}
    (hc : c ∈ (meaning tree settings operators).outputs archives) :
    c.archive ∈ known ∧ c.operator ∈ operators := by
  obtain ⟨r, hr, hsurvivors, hname, hoperator⟩ := exists_of_mem_outputs hc
  exact ⟨hname ▸ hknown r hr hsurvivors, hoperator⟩

/-- Every surviving file gives one count for each operator. -/
lemma length_outputs (operators : List String) :
    ((meaning tree settings operators).outputs archives).length =
      (archives.map fun r => (survivors tree settings r).length).sum * operators.length := by
  have harchive : ∀ r, ((meaning tree settings operators).ofArchive r).length =
      (survivors tree settings r).length * operators.length := by
    intro r
    rw [ofArchive_eq, List.length_flatMap]
    simp [countsOf]
  calc ((meaning tree settings operators).outputs archives).length
      = (archives.map fun r => ((meaning tree settings operators).ofArchive r).length).sum :=
        List.length_flatMap
    _ = (archives.map fun r => (survivors tree settings r).length * operators.length).sum :=
        congrArg List.sum (List.map_congr_left fun r _ => harchive r)
    _ = (archives.map fun r => (survivors tree settings r).length).sum * operators.length :=
        List.sum_map_mul_right _ _ _

/-- What the counts of an archive sum up to. -/
lemma sumFor_ofArchive {operators : List String} (hnodup : operators.Nodup) {o : String}
    (ho : o ∈ operators) (a : String) (r : Archive.Reference) :
    CallCount.sumFor a o ((meaning tree settings operators).ofArchive r) =
      if r.name = a then
        ((survivors tree settings r).map fun file =>
          (UInt64.ofNat (callSites settings o file)).toNat).sum
      else 0 := by
  have hfile : ∀ file ∈ survivors tree settings r,
      CallCount.sumFor a o (countsOf settings operators file) =
        if r.name = a then (UInt64.ofNat (callSites settings o file)).toNat else 0 := by
    intro file hfile
    rw [← archive_of_mem_survivors hfile]
    exact CallCount.sumFor_map_counted file _ hnodup ho
  rw [ofArchive_eq, CallCount.sumFor_flatMap, List.map_congr_left hfile]
  split_ifs <;> simp

/-- What the counts of all archives sum up to. -/
lemma sumFor_outputs {operators names : List String} (hoperators : operators.Nodup)
    (hnames : names.Nodup) {o : String} (ho : o ∈ operators) (a : String) :
    UInt64.ofNat (CallCount.sumFor a o
        ((meaning tree settings operators).outputs (names.map (archiveAt settings)))) =
      .ofNat (if a ∈ names then
        ((survivors tree settings (archiveAt settings a)).map (callSites settings o)).sum
        else 0) := by
  have hsum : CallCount.sumFor a o
      ((meaning tree settings operators).outputs (names.map (archiveAt settings))) =
        (names.map fun name => if name = a then
          ((survivors tree settings (archiveAt settings name)).map fun file =>
            (UInt64.ofNat (callSites settings o file)).toNat).sum
          else 0).sum := by
    rw [Meaning.outputs, List.flatMap_map, CallCount.sumFor_flatMap]
    exact congrArg List.sum (List.map_congr_left fun name _ =>
      sumFor_ofArchive hoperators ho a (archiveAt settings name))
  rw [hsum, ← List.sum_toFinset _ hnames, Finset.sum_ite_eq']
  simp only [List.mem_toFinset]
  split_ifs
  · exact ofNat_sum_toNat _ _
  · rfl

end Census

end CallCensus
