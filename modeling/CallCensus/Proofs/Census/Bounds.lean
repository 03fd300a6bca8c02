import CallCensus.Proofs.Census.Account
import CallCensus.Proofs.Cleaning.Lengths
import CallCensus.Proofs.Pipeline.Loss
import Mathlib.Algebra.Order.BigOperators.Group.List
import Mathlib.Algebra.Order.Ring.Nat

/-!
The totals of a census are bounded by its texts.

What the main thread has added up, and what may still reach it, is part of what the archives give,
also when stages fail. In one cell these counts are of different files, and none is greater than the
length of the file's text, since cleaning makes no text longer and call sites do not overlap. So as
long as the texts of an archive have fewer bytes than 64-bit words have values, no cell of its row
ever wraps around.

* `State.Within`, `State.within_of_reachable`: what is added up is part of what the archives give;
* `Census.textBytes`: the length of the texts that are taken out of an archive;
* `Census.sumFor_outputs_le`: the counts of a cell, by the texts;
* `Census.RowFits`, `Census.counts_bounded`: no cell wraps around.
-/

namespace CallCensus

/-! ### What may be added up -/

namespace Pipeline.State

variable {plan : Plan} {m : Meaning} {archives : List Archive.Reference} {total : Aggregate}
  {s t : State} {thread : Thread}

/-- What the main thread has added up to `total`, and what may still reach it, is part of what the
archives give. -/
structure Within (plan : Plan) (m : Meaning) (archives : List Archive.Reference)
    (total : Aggregate) (s : State) : Prop where
  width : s.counters.length = m.counters.length
  adds : ∀ now ∈ s.main.total?, ∃ added : List CallCount, added.foldlM plan.add total = .ok now ∧
    (added : Multiset CallCount) + s.due m ≤ ↑(m.outputs archives)

lemma Within.start {workers counterWorkers operators : ℕ} {tallies : List ℕ}
    (hoperators : operators = m.counters.length) :
    Within plan m archives total
      (.start workers counterWorkers operators tallies archives total) where
  width := by rw [State.start, List.length_replicate, hoperators]
  adds := by
    rintro now ⟨⟩
    exact ⟨[], rfl, by rw [due_start, Multiset.coe_nil, zero_add]⟩

/-- Every turn keeps to what the archives give. -/
lemma Within.move (h : Within plan m archives total s) (hsends : plan.Sends m)
    (hmove : Move plan s thread t) : Within plan m archives total t := by
  refine ⟨(length_counters_of_move hmove).trans h.width, fun now hnow => ?_⟩
  by_cases hthread : thread = .main
  · subst hthread
    cases hmove with
    | @add now' now'' c rest hmain hcounts hadd =>
        cases hnow
        obtain ⟨added, hadded, hle⟩ := h.adds now' (by rw [hmain]; rfl)
        refine ⟨added ++ [c], ?_, ?_⟩
        · rw [List.foldlM_append, hadded]
          simp [bind, Except.bind, hadd, pure, Except.pure]
        · rw [Flow.due_of_counts (.aggregating now) hcounts, ← Multiset.coe_singleton] at hle
          rwa [← Multiset.coe_add, add_assoc]
    | refuse hmain hcounts hadd => cases hnow
    | @drain now' hmain hcounts hended =>
        cases hnow
        exact h.adds now (by rw [hmain]; rfl)
    | @finish result hmain hended =>
        cases hresult : s.result result with
        | error f =>
            rw [hresult] at hnow
            cases hnow
        | ok outcome =>
            rw [hresult] at hnow
            cases hnow
            exact h.adds _ (by rw [hmain, total_of_result_eq_ok hresult]; rfl)
  · rw [hmove.main_eq hthread] at hnow
    obtain ⟨added, hadded, hle⟩ := h.adds now hnow
    have hdue := due_move_le hsends h.width hmove hthread
    exact ⟨added, hadded, (add_le_add_right hdue _).trans hle⟩

/-- **Nothing is added up that the archives do not give**, whatever fails on the way. -/
lemma within_of_reachable {workers counterWorkers operators : ℕ} {tallies : List ℕ}
    (hsends : plan.Sends m) (hoperators : operators = m.counters.length)
    (hreach : Relation.ReflTransGen (Step plan)
      (.start workers counterWorkers operators tallies archives total) s) :
    Within plan m archives total s := by
  induction hreach with
  | refl => exact .start hoperators
  | tail _ hstep ih =>
      obtain ⟨thread, hturn⟩ := hstep
      exact ih.move hsends (move_of_turn hturn)

end Pipeline.State

/-! ### Sums of counts -/

lemma CallCount.sumFor_le_of_le {a o : String} {l l' : List CallCount}
    (h : (l : Multiset CallCount) ≤ ↑l') : sumFor a o l ≤ sumFor a o l' := by
  obtain ⟨⟨more⟩, hmore⟩ := Multiset.le_iff_exists_add.1 h
  have hperm : l'.Perm (l ++ more) := Multiset.coe_eq_coe.1 hmore
  rw [sumFor_perm hperm, sumFor_append]
  exact Nat.le_add_right _ _

lemma toNat_ofNat_le (n : ℕ) : (UInt64.ofNat n).toNat ≤ n := by
  rw [UInt64.toNat_ofNat']
  exact Nat.mod_le _ _

/-- Counts that are all added are added to their cells. -/
lemma Aggregate.adds_of_consume? {now next : Aggregate} {counts : List CallCount}
    (h : now.consume? counts = .ok next) :
    now.table.Adds (fun a o => .ofNat (CallCount.sumFor a o counts)) next.table := by
  by_cases hcells : ∀ c ∈ counts, (now.table.get? c.archive c.operator).isSome
  · obtain ⟨table, hconsume, hadds⟩ := exists_consume? hcells
    cases h.symm.trans hconsume
    exact hadds
  · push Not at hcells
    obtain ⟨c, hc, hmissing⟩ := hcells
    obtain ⟨c', -, -, herror⟩ := exists_consume?_eq_error
      ⟨c, hc, Option.not_isSome_iff_eq_none.1 hmissing⟩
    cases h.symm.trans herror

/-! ### Files -/

/-- The files that are taken out of an archive bear its name. -/
lemma Archive.archive_of_mem_extractFrom {tree : FileTree} {allowed : NameSet} {r : Reference}
    {file : SourceFile} (h : file ∈ (extractFrom tree allowed r).1) : file.archive = r.name := by
  have honto : ∀ fault done entries, (∀ file ∈ done, SourceFile.archive file = r.name) →
      ∀ file ∈ (extractOnto allowed r.name fault done entries).1, file.archive = r.name := by
    intro fault done entries hdone
    induction entries generalizing done with
    | nil => simpa [extractOnto] using hdone
    | cons e entries ih =>
        rw [extractOnto]
        by_cases hregular : e.regular = true
        · rw [if_pos hregular]
          cases hpath : e.path with
          | error why => simpa using hdone
          | ok path =>
              by_cases hallowed : isAllowed allowed path = true
              · simp only [if_pos hallowed]
                cases hdata : e.data with
                | error why => simpa using hdone
                | ok bytes => exact ih _ (List.forall_mem_cons.2 ⟨rfl, hdone⟩)
              · simp only [if_neg hallowed]
                exact ih done hdone
        · rw [if_neg hregular]
          exact ih done hdone
  rw [extractFrom] at h
  cases hopen : Contents.open? tree r.path with
  | error why =>
      rw [hopen] at h
      cases h
  | ok contents =>
      rw [hopen] at h
      exact honto _ [] _ (List.forall_mem_nil _) file h

namespace Census

open Pipeline Text Text.Utf8

variable {tree : FileTree} {settings : Settings} {operators : List String} {a o : String}

/-- The number of bytes of the texts that are taken out of an archive. -/
def textBytes (tree : FileTree) (settings : Settings) (archive : String) : ℕ :=
  ((Archive.extractFrom tree settings.allowed (archiveAt settings archive)).1.map fun file =>
    utf8Length file.content).sum

/-- The functions that the stages of a census stand for, where an archive need not read without
error. -/
def sending (tree : FileTree) (settings : Settings) (operators : List String) : Meaning :=
  { meaning tree settings operators with
    extract := fun r => (Archive.extractFrom tree settings.allowed r).1 }

lemma plan_sends (tree : FileTree) (settings : Settings) (operators : List String) :
    (plan tree settings operators).Sends (sending tree settings operators) where
  extract := fun _ r => by
    simp only [plan, extractStage, sending]
    split <;> rename_i hextract <;> rw [hextract]
  comments := fun _ _ => rfl
  imports := fun _ file => by
    simp only [plan, importStage, sending, meaning]
    split_ifs <;> rfl
  literals := fun _ _ => rfl
  counters := by
    simp only [plan, sending, meaning, List.forall₂_map_left_iff, List.forall₂_map_right_iff]
    exact List.forall₂_same.2 fun _ _ _ _ => rfl

/-- A file that survives has no more call sites than its text has bytes. -/
lemma callSites_le {file cleaned : SourceFile} (h : cleaned? settings file = some cleaned) :
    callSites settings o cleaned ≤ utf8Length file.content := by
  simp only [cleaned?] at h
  split_ifs at h
  cases h
  have hcount := CallSite.count_mul_le settings.backtrackLimit o.toList
    (Literal.strip settings.backtrackLimit (Comment.strip settings.backtrackLimit file.content))
  have hcleaned := Cleaning.utf8Length_le_of_cleaned (Cleaning.cleaned_strip
    settings.backtrackLimit settings.backtrackLimit file.content)
  rw [Nat.mul_succ] at hcount
  exact (Nat.le_add_left _ _).trans (hcount.trans hcleaned)

/-- The counts of a cell that come of a file. -/
lemma sumFor_ofRaw_le (hoperators : operators.Nodup) (ho : o ∈ operators) (file : SourceFile) :
    CallCount.sumFor a o ((sending tree settings operators).ofRaw file) ≤
      if file.archive = a then utf8Length file.content else 0 := by
  have hraw : (sending tree settings operators).ofRaw file =
      (cleaned? settings file).toList.flatMap (countsOf settings operators) :=
    @ofRaw_eq tree settings operators file
  rw [hraw]
  cases hcleaned : cleaned? settings file with
  | none => exact Nat.zero_le _
  | some cleaned =>
      rw [Option.toList_some, List.flatMap_singleton, countsOf,
        CallCount.sumFor_map_counted cleaned _ hoperators ho, archive_of_cleaned? hcleaned]
      split_ifs
      · exact (toNat_ofNat_le _).trans (callSites_le hcleaned)
      · exact le_rfl

/-- The counts of a cell that come of an archive. -/
lemma sumFor_ofArchive_le (hoperators : operators.Nodup) (ho : o ∈ operators) (name : String) :
    CallCount.sumFor a o ((sending tree settings operators).ofArchive (archiveAt settings name)) ≤
      if name = a then textBytes tree settings a else 0 := by
  rw [Meaning.ofArchive, CallCount.sumFor_flatMap]
  refine (List.sum_le_sum fun file hfile => sumFor_ofRaw_le hoperators ho file).trans ?_
  have harchive : ∀ file ∈ (sending tree settings operators).extract (archiveAt settings name),
      (if file.archive = a then utf8Length file.content else 0) =
        if name = a then utf8Length file.content else 0 := fun file hfile => by
    rw [Archive.archive_of_mem_extractFrom hfile]
    rfl
  rw [List.map_congr_left harchive]
  split_ifs with hname
  · subst hname
    exact le_rfl
  · simp

/-- **The counts of a cell are no more than the bytes of the texts of its archive.** -/
lemma sumFor_outputs_le {names : List String} (hoperators : operators.Nodup)
    (hnames : names.Nodup) (ho : o ∈ operators) (a : String) :
    CallCount.sumFor a o
        ((sending tree settings operators).outputs (names.map (archiveAt settings))) ≤
      textBytes tree settings a := by
  rw [Meaning.outputs, List.flatMap_map, CallCount.sumFor_flatMap]
  refine (List.sum_le_sum fun name _ => sumFor_ofArchive_le hoperators ho name).trans ?_
  rw [← List.sum_toFinset _ hnames, Finset.sum_ite_eq']
  split_ifs
  · exact le_rfl
  · exact Nat.zero_le _

/-- In no state does the row of an archive hold more than the bytes of its texts, and the next count
that belongs to it does not make a cell wrap around. -/
structure RowFits (tree : FileTree) (settings : Settings) (a : String) (s : State) : Prop where
  cells : ∀ now ∈ s.main.total?, ∀ o n, now.table.get? a o = some n →
    n.toNat ≤ textBytes tree settings a
  next : ∀ now c rest, s.main = .aggregating now → s.counts = c :: rest → c.archive = a →
    ∀ n, now.table.get? a c.operator = some n →
      (n + c.total).toNat = n.toNat + c.total.toNat ∧
        n.toNat + c.total.toNat ≤ textBytes tree settings a

section Reachable

variable {operators : Operators} {names : List String} {s : State} {now : Aggregate} {n : UInt64}

/-- What is in a cell is the sum of counts that the archives give, and leaves room for those that
may still come. -/
lemma exists_added_of_reachable (hnames : names.Nodup)
    (hreach : Relation.ReflTransGen (State.Step (plan tree settings operators.names))
      (start settings operators (names.map (archiveAt settings))) s)
    (hnow : s.main.total? = some now) (hcell : now.table.get? a o = some n) :
    ∃ added, n = .ofNat (CallCount.sumFor a o added) ∧
      ∀ later : List CallCount, (later : Multiset CallCount) ≤
          s.due (sending tree settings operators.names) →
        CallCount.sumFor a o added + CallCount.sumFor a o later ≤ textBytes tree settings a := by
  have hwithin := State.within_of_reachable (plan_sends tree settings operators.names)
    (by simp [sending, meaning]) hreach
  obtain ⟨added, hadded, hle⟩ := hwithin.adds now hnow
  have hadds := Aggregate.adds_of_consume? hadded
  have hdense := Table.holds_dense
    (rowNames settings (names.map (archiveAt settings))) operators.names
  have hsome := hadds.isSome_get? a o
  rw [hcell] at hsome
  obtain ⟨ha, ho⟩ := hdense.isSome_get?_iff.1 hsome.symm
  refine ⟨added, ?_, fun later hlater => ?_⟩
  · have hsum := hadds.cells a o
    rw [hcell, Aggregate.start, hdense.get?_eq ha ho, Option.map_some, Option.some_inj] at hsum
    rw [hsum]
    exact UInt64.zero_add _
  · have hall : ((added ++ later : List CallCount) : Multiset CallCount) ≤
        ↑((sending tree settings operators.names).outputs (names.map (archiveAt settings))) := by
      rw [← Multiset.coe_add]
      exact (add_le_add_right hlater _).trans hle
    rw [← CallCount.sumFor_append]
    exact (CallCount.sumFor_le_of_le hall).trans
      (sumFor_outputs_le operators.distinct hnames ho a)

/-- No cell holds more than the bytes of the texts of its archive. -/
lemma toNat_le_of_reachable (hnames : names.Nodup)
    (hreach : Relation.ReflTransGen (State.Step (plan tree settings operators.names))
      (start settings operators (names.map (archiveAt settings))) s)
    (hnow : s.main.total? = some now) (hcell : now.table.get? a o = some n) :
    n.toNat ≤ textBytes tree settings a := by
  obtain ⟨added, rfl, hroom⟩ := exists_added_of_reachable hnames hreach hnow hcell
  have hadded := hroom [] (Multiset.zero_le _)
  exact (toNat_ofNat_le _).trans ((Nat.le_add_right _ _).trans hadded)

/-- Nothing wraps around in a row whose texts have few bytes enough. -/
lemma rowFits_of_reachable (hnames : names.Nodup)
    (hreach : Relation.ReflTransGen (State.Step (plan tree settings operators.names))
      (start settings operators (names.map (archiveAt settings))) s)
    (hbytes : textBytes tree settings a < 2 ^ 64) : RowFits tree settings a s where
  cells := fun now hnow o n hcell => toNat_le_of_reachable hnames hreach hnow hcell
  next := by
    rintro now c rest hmain hcounts rfl n hcell
    obtain ⟨added, rfl, hroom⟩ := exists_added_of_reachable hnames hreach
      (by rw [hmain]; rfl) hcell
    have hnext : ([c] : Multiset CallCount) ≤ s.due (sending tree settings operators.names) := by
      rw [State.Flow.due_of_counts s.main hcounts]
      exact Multiset.le_add_right _ _
    have hsum := hroom [c] hnext
    have hone : CallCount.sumFor c.archive c.operator [c] = c.total.toNat := by
      simp [CallCount.sumFor]
    have hcellNat := toNat_ofNat_le (CallCount.sumFor c.archive c.operator added)
    rw [hone] at hsum
    refine ⟨?_, by omega⟩
    rw [UInt64.toNat_add]
    exact Nat.mod_eq_of_lt (by omega)

end Reachable

/-- The archives that are listed are named once each. -/
lemma exists_names_of_list {archives : List Archive.Reference} {notices : List Notice}
    (hlist : Archive.list tree settings.archives settings.excluded = .ok (archives, notices)) :
    ∃ names : List String, names.Nodup ∧ archives = names.map (archiveAt settings) := by
  cases hdir : tree.readDirectory settings.archives with
  | error why =>
      rw [Archive.list, hdir] at hlist
      cases hlist
  | ok entries =>
      obtain ⟨names, notices', hnames, hnodup, -⟩ := list_eq_ok hdir
      cases hlist.symm.trans hnames
      exact ⟨names, hnodup, rfl⟩

/-- What a run gives is what the main thread returns on its schedule. -/
lemma exists_outcome_of_run {operators : Operators} {archives : List Archive.Reference}
    {notices : List Notice} {result : Result}
    (hlist : Archive.list tree settings.archives settings.excluded = .ok (archives, notices))
    (h : (run tree settings operators).1 = .ok result) :
    ∃ outcome, ((start settings operators archives).run
      (plan tree settings operators.names)).main = .returned (.ok outcome) ∧
        result = .ofOutcome outcome := by
  obtain ⟨returned, hmain⟩ := exists_run_returned tree settings operators archives
  cases hvalid : settings.validate with
  | error problem => simp [run, hvalid] at h
  | ok =>
      rw [run_eq_of_returned hvalid hlist hmain] at h
      cases returned with
      | error f => cases h
      | ok outcome =>
          cases h
          exact ⟨outcome, hmain, rfl⟩

/-- **Counts are bounded by the text, so adding them up does not overflow.** Each way to count call
sites finds no more of them than fit into the bytes of the text, one after the other, each with the
bytes of the name and one more. No way to remove comments or literals makes a text longer. So in
every state of a census, on every schedule and whatever fails, each cell of an archive whose texts
have fewer than `2 ^ 64` bytes holds at most that number, and adding the next count does not wrap
around; and so it is in the result of a run. -/
theorem counts_bounded (tree : FileTree) (settings : Settings) (operators : Operators)
    (archives : List Archive.Reference) (notices : List Notice)
    (hlist : Archive.list tree settings.archives settings.excluded = .ok (archives, notices)) :
    (∀ limit operator s,
      CallSite.count limit operator s * (utf8Length operator + 1) ≤ utf8Length s ∧
      CallSite.countByScan operator s * (utf8Length operator + 1) ≤ utf8Length s ∧
      ∀ n, CallSite.countByPattern? limit operator s = some n →
        n * (utf8Length operator + 1) ≤ utf8Length s) ∧
    (∀ limit s,
      utf8Length (Comment.strip limit s) ≤ utf8Length s ∧
      utf8Length (Literal.strip limit s) ≤ utf8Length s ∧
      (∀ out, Cleaning.CommentsRemoved s out → utf8Length out ≤ utf8Length s) ∧
      ∀ out, Cleaning.LiteralsRemoved s out → utf8Length out ≤ utf8Length s) ∧
    ∀ a, textBytes tree settings a < 2 ^ 64 →
      (∀ s, Relation.ReflTransGen (State.Step (plan tree settings operators.names))
          (start settings operators archives) s → RowFits tree settings a s) ∧
      ∀ result, (run tree settings operators).1 = .ok result →
        ∀ o n, result.table.get? a o = some n → n.toNat ≤ textBytes tree settings a := by
  refine ⟨fun limit operator s => ⟨CallSite.count_mul_le limit operator s,
    CallSite.countByScan_mul_le operator s, fun n => CallSite.countByPattern?_mul_le⟩,
    fun limit s => ⟨?_, ?_, fun out => Cleaning.utf8Length_le_of_commentsRemoved,
      fun out => Cleaning.utf8Length_le_of_literalsRemoved⟩, fun a hbytes => ?_⟩
  · exact Cleaning.utf8Length_le_of_commentsRemoved (Cleaning.commentsRemoved_strip limit s)
  · exact Cleaning.utf8Length_le_of_literalsRemoved (.inl (Literal.strip_eq_stripByScan limit s))
  · obtain ⟨names, hnames, rfl⟩ := exists_names_of_list hlist
    refine ⟨fun s hreach => rowFits_of_reachable hnames hreach hbytes,
      fun result hresult o n hcell => ?_⟩
    obtain ⟨outcome, hmain, rfl⟩ := exists_outcome_of_run hlist hresult
    exact toNat_le_of_reachable hnames (reachable_run _ _) (by rw [hmain]; rfl) hcell

/-- A census of the directory with one archive counts the calls in its texts. -/
lemma exists_result_oneArchive : ∃ archives notices result,
    Archive.list oneArchive oneArchiveSettings.archives oneArchiveSettings.excluded =
        .ok (archives, notices) ∧
      (run oneArchive oneArchiveSettings twoOperators).1 = .ok result ∧
      result.table.get? "a.tgz" "map" = some 3 := by
  obtain ⟨entries, hdir, hentries⟩ := exists_entries_oneArchive
  obtain ⟨names, notices, hlist, hnodup, hnames⟩ := @list_eq_ok _ oneArchiveSettings _ hdir
  have hread : ∀ a ∈ names, Archive.ReadsWell oneArchive oneArchiveSettings.allowed
      (archiveAt oneArchiveSettings a) := by
    intro a ha
    have hlisted := ((hnames a).1 ha).1
    rw [hentries, List.mem_singleton] at hlisted
    exact hlisted ▸ readsWell_of_open? open?_oneArchive
  obtain ⟨returned, hmain⟩ := exists_run_returned oneArchive oneArchiveSettings twoOperators
    (names.map (archiveAt oneArchiveSettings))
  obtain ⟨outcome, rfl, hcensus⟩ := isCensus_of_returned (by decide) hnodup hnames hread
    (fun a ha _ => ((hnames a).1 ha).1) (reachable_run _ _) hmain
  exact ⟨_, notices, _, hlist, run_eq_of_returned (by decide +kernel) hlist hmain,
    (hcensus.of_oneArchive hentries).1⟩

/-- The texts of that archive have 64 bytes, so no cell of its row comes near to wrapping around,
and the one that counts 3 calls is within the bound. -/
theorem counts_bounded_oneArchive : ∃ archives notices result,
    Archive.list oneArchive oneArchiveSettings.archives oneArchiveSettings.excluded =
        .ok (archives, notices) ∧
      textBytes oneArchive oneArchiveSettings "a.tgz" = 64 ∧
      (∀ s, Relation.ReflTransGen (State.Step (plan oneArchive oneArchiveSettings
          twoOperators.names)) (start oneArchiveSettings twoOperators archives) s →
        RowFits oneArchive oneArchiveSettings "a.tgz" s) ∧
      (run oneArchive oneArchiveSettings twoOperators).1 = .ok result ∧
      result.table.get? "a.tgz" "map" = some 3 ∧
      (3 : UInt64).toNat ≤ textBytes oneArchive oneArchiveSettings "a.tgz" := by
  obtain ⟨archives, notices, result, hlist, hrun, hcell⟩ := exists_result_oneArchive
  have hbytes : textBytes oneArchive oneArchiveSettings "a.tgz" = 64 := by
    rw [textBytes, Archive.extractFrom_eq (readsWell_of_open? open?_oneArchive),
      Archive.sources, open?_oneArchive]
    decide +kernel
  obtain ⟨-, -, hrows⟩ := counts_bounded oneArchive oneArchiveSettings twoOperators _ _ hlist
  obtain ⟨hfits, hresult⟩ := hrows "a.tgz" (by rw [hbytes]; decide)
  exact ⟨archives, notices, result, hlist, hbytes, hfits, hrun, hcell,
    hresult result hrun "map" 3 hcell⟩

end Census

end CallCensus
