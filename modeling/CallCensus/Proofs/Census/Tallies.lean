import CallCensus.Proofs.Aggregate.Audit
import CallCensus.Proofs.Census.Meaning
import CallCensus.Proofs.Pool.Forgetting

/-!
What an audit adds to the search for evidence.

Every worker that looks for evidence has tallies of its own, one for each library, of the files
that it lets pass. What it lets pass does not depend on them, so with and without an audit the
workers do the same. In the end the tallies of all workers are added up, and the sums are those of
all files, whoever has taken which file, and whose tallies are added first.

* `AuditReport.Adds`: so much was added for each library, and `AuditReport.adds_foldl`: tallies of
  several workers;
* `Evidence.usage`, `AuditReport.CountsUses`: how many files use a library;
* `calls_importStage_fst`, `result_importStage`: the calls of a worker;
* `MergesTo`: tallies that give these numbers in every order;
* `audit_transparent`: all shares and all executions.
-/

namespace CallCensus

/-! ### Adding tallies -/

namespace AuditReport

/-- One report has the files of another, and so much more for each of some libraries. -/
structure Adds (r : AuditReport) (libraries : List Evidence.Library) (more : Evidence.Library → ℕ)
    (r' : AuditReport) : Prop where
  files : r'.files = r.files
  names : ∀ name, name ∈ r'.imports.keys ↔
    name ∈ r.imports.keys ∨ ∃ l ∈ libraries, l.name = name
  counts : ∀ l ∈ libraries, r'.imports.get? l.name = some ((r.imports.get? l.name).getD 0 + more l)

variable {r r' r'' : AuditReport} {libraries : List Evidence.Library}
  {more more' : Evidence.Library → ℕ}

lemma Adds.trans (h : r.Adds libraries more r') (h' : r'.Adds libraries more' r'') :
    r.Adds libraries (fun l => more l + more' l) r'' where
  files := h'.files.trans h.files
  names := fun name => by rw [h'.names, h.names, or_assoc, or_self]
  counts := fun l hl => by
    rw [h'.counts l hl, h.counts l hl, Option.getD_some, Nat.add_assoc]

/-- What is read for a name after tallies were added. -/
lemma get?_addTallies (h : (libraries.map Evidence.Library.name).Nodup) (n : Evidence.Library → ℕ)
    (name : String) : (r.addTallies libraries (libraries.map n)).imports.get? name =
      match libraries.find? fun l => l.name = name with
      | some l => some ((r.imports.get? name).getD 0 + n l)
      | none => r.imports.get? name := by
  induction libraries generalizing r with
  | nil => rfl
  | cons l libraries ih =>
      obtain ⟨hl, hlibraries⟩ := List.nodup_cons.1 h
      have hcons : r.addTallies (l :: libraries) ((l :: libraries).map n) =
          (r.addTallies [l] [n l]).addTallies libraries (libraries.map n) := rfl
      have hfirst : (r.addTallies [l] [n l]).imports.get? name =
          if name = l.name then some ((r.imports.get? l.name).getD 0 + n l)
          else r.imports.get? name :=
        Dict.get?_insert _ _ _ _
      rw [hcons, ih hlibraries, hfirst]
      by_cases hname : l.name = name
      · have hnone : libraries.find? (fun l => l.name = name) = none := by
          refine List.find?_eq_none.2 fun l' hl' heq => hl (List.mem_map.2 ⟨l', hl', ?_⟩)
          rw [of_decide_eq_true heq, hname]
        rw [hnone, List.find?_cons_of_pos (by simpa using hname), if_pos hname.symm, hname]
      · rw [List.find?_cons_of_neg (by simpa using hname), if_neg (Ne.symm hname)]

/-- Tallies are added to the numbers of their libraries. -/
lemma adds_addTallies (h : (libraries.map Evidence.Library.name).Nodup) (r : AuditReport)
    (n : Evidence.Library → ℕ) : r.Adds libraries n (r.addTallies libraries (libraries.map n)) where
  files := rfl
  names := fun name => by
    rw [Dict.mem_keys_iff, Dict.mem_keys_iff, get?_addTallies h]
    cases hfind : libraries.find? fun l => l.name = name with
    | none =>
        have hnone : ∀ l ∈ libraries, l.name ≠ name := by simpa using hfind
        exact ⟨.inl, fun h => h.resolve_right fun ⟨l, hl, hname⟩ => hnone l hl hname⟩
    | some l =>
        have hname : l.name = name := by simpa using List.find?_some hfind
        exact ⟨fun _ => .inr ⟨l, List.mem_of_find?_eq_some hfind, hname⟩, fun _ => rfl⟩
  counts := fun l hl => by
    rw [get?_addTallies h]
    cases hfind : libraries.find? fun l' => l'.name = l.name with
    | none =>
        have hnone : ∀ l' ∈ libraries, l'.name ≠ l.name := by simpa using hfind
        exact absurd rfl (hnone l hl)
    | some l' =>
        have hname : l'.name = l.name := by simpa using List.find?_some hfind
        rw [List.inj_on_of_nodup_map h (List.mem_of_find?_eq_some hfind) hl hname]

/-- The tallies of several workers sum up. -/
lemma adds_foldl (h : (libraries.map Evidence.Library.name).Nodup) (r : AuditReport)
    {all : List (Evidence.Library → ℕ)} (hall : all ≠ []) :
    r.Adds libraries (fun l => (all.map fun n => n l).sum)
      ((all.map fun n => libraries.map n).foldl (fun r t => r.addTallies libraries t) r) := by
  induction all generalizing r with
  | nil => exact absurd rfl hall
  | cons n all ih =>
      have hfirst := adds_addTallies h r n
      cases all with
      | nil => exact hfirst
      | cons m all =>
          have hrest := ih (r.addTallies libraries (libraries.map n)) (List.cons_ne_nil m all)
          simpa using hfirst.trans hrest

end AuditReport

/-- How many of some files name a distribution and use a library. -/
def Evidence.usage (distribution : String) (files : List SourceFile) (l : Library) : ℕ :=
  files.countP fun file => mentions distribution file.content && l.usedIn file.content

/-- A report that has a number for every inspected library and for nothing else: how many of some
files name the distribution and use the library. -/
structure AuditReport.CountsUses (r : AuditReport) (distribution : String)
    (files : List SourceFile) : Prop where
  names : ∀ name, name ∈ r.imports.keys ↔ ∃ l ∈ Evidence.inspected, l.name = name
  counts : ∀ l ∈ Evidence.inspected,
    r.imports.get? l.name = some (Evidence.usage distribution files l)

namespace Census

open Pipeline Evidence

variable {distribution : String} {files : List SourceFile} {shares : List (List SourceFile)}

/-! ### The calls of a worker -/

lemma process_of_mentions {file : SourceFile} (h : mentions distribution file.content = true)
    (tallies : List ℕ) : (importStage distribution).process tallies file =
      ([file], .done (tally tallies file.content)) :=
  if_pos h

lemma process_of_not_mentions {file : SourceFile} (h : mentions distribution file.content = false)
    (tallies : List ℕ) : (importStage distribution).process tallies file = ([], .done tallies) :=
  if_neg (Bool.eq_false_iff.1 h)

/-- What is emitted does not depend on the tallies. -/
lemma calls_importStage_fst (tallies : List ℕ) (files : List SourceFile) :
    ((importStage distribution).calls tallies files).1 =
      files.map fun file => if mentions distribution file.content then [file] else [] := by
  induction files generalizing tallies with
  | nil => rfl
  | cons file files ih =>
      cases hfile : mentions distribution file.content with
      | false => simp [Stage.calls, process_of_not_mentions hfile, hfile, ih]
      | true => simp [Stage.calls, process_of_mentions hfile, hfile, ih]

lemma emitted_importStage (tallies : List ℕ) (files : List SourceFile) :
    (importStage distribution).emitted tallies files =
      files.filter fun file => mentions distribution file.content := by
  rw [Stage.emitted, calls_importStage_fst]
  induction files with
  | nil => rfl
  | cons file files ih =>
      rw [List.map_cons, List.flatten_cons, ih]
      cases hfile : mentions distribution file.content <;> simp [hfile]

lemma tally_map (n : Library → ℕ) (s : Text) : tally (inspected.map n) s =
    inspected.map fun l => if l.usedIn s then n l + 1 else n l := by
  rw [tally, List.zipWith_map_right, List.zipWith_self]

/-- The calls of a worker end well, and leave tallies of the files that were emitted. -/
lemma calls_importStage_snd (n : Library → ℕ) (files : List SourceFile) :
    ((importStage distribution).calls (inspected.map n) files).2 =
      .done (inspected.map fun l => n l + usage distribution files l) := by
  induction files generalizing n with
  | nil => rfl
  | cons file files ih =>
      cases hfile : mentions distribution file.content with
      | false =>
          simp only [Stage.calls, process_of_not_mentions hfile, ih, usage, hfile, Bool.false_and,
            List.countP_cons, Bool.false_eq_true, if_false, Nat.add_zero]
      | true =>
          simp only [Stage.calls, process_of_mentions hfile, tally_map, ih, usage, hfile,
            Bool.true_and, List.countP_cons]
          refine congrArg Verdict.done (List.map_congr_left fun l _ => ?_)
          split_ifs
          · rw [Nat.add_right_comm, Nat.add_assoc]
          · rfl

lemma result_importStage (files : List SourceFile) :
    (importStage distribution).result (startTallies true) files =
      .ok (inspected.map (usage distribution files)) := by
  have hstart : startTallies true = inspected.map fun _ => 0 := rfl
  rw [Stage.result, hstart, calls_importStage_snd]
  simp only [Nat.zero_add]
  rfl

/-- A search for evidence does the same without tallies. -/
lemma importStage_forgets : (importStage distribution).Forgets (importStage distribution)
    fun _ => startTallies false where
  name := rfl
  process := fun tallies file => by
    cases hfile : mentions distribution file.content with
    | false => rw [process_of_not_mentions hfile, process_of_not_mentions hfile]; rfl
    | true => rw [process_of_mentions hfile, process_of_mentions hfile]; rfl

/-! ### The tallies of all workers -/

/-- Tallies of workers that, added in any order to the report of any audit, give it the numbers of
given files, and change nothing else in it. -/
def MergesTo (distribution : String) (files : List SourceFile) (states : List (List ℕ)) : Prop :=
  ∀ order, order.Perm states → ∀ table sample counts total,
    (Aggregate.start table (some (.start sample))).consume? counts = .ok total →
    ∃ report report', total.audit = some report ∧
      (Result.ofOutcome (total, order)).audit = some report' ∧
      report'.files = report.files ∧ report'.CountsUses distribution files

/-- Counts do not bring libraries into a report. -/
lemma exists_report {table : Table} {sample : NameSet} {counts : List CallCount}
    {total : Aggregate}
    (h : (Aggregate.start table (some (.start sample))).consume? counts = .ok total) :
    ∃ report, total.audit = some report ∧ report.imports = .empty := by
  have hcells : ∀ c ∈ counts, ((Aggregate.start table
      (some (.start sample))).table.get? c.archive c.operator).isSome := by
    by_contra hnot
    obtain ⟨c, hc, hnone⟩ : ∃ c ∈ counts, (Aggregate.start table
        (some (.start sample))).table.get? c.archive c.operator = none := by
      simpa only [not_forall, Bool.not_eq_true, Option.isSome_eq_false_iff,
        Option.isNone_iff_eq_none, exists_prop] using hnot
    obtain ⟨_, -, -, herror⟩ := Aggregate.exists_consume?_eq_error ⟨c, hc, hnone⟩
    cases h.symm.trans herror
  obtain ⟨table', hconsume, -⟩ := Aggregate.exists_consume? hcells
  cases h.symm.trans hconsume
  exact ⟨_, rfl, AuditReport.imports_foldl⟩

/-- How many files use a library is a matter of how many of each share do. -/
lemma usage_flatten (shares : List (List SourceFile)) (l : Library) :
    usage distribution shares.flatten l =
      (shares.map fun share => usage distribution share l).sum :=
  List.countP_flatten

/-- The tallies of workers that share some files merge to the numbers of these files. -/
lemma mergesTo (hshares : shares ≠ []) (hperm : shares.flatten.Perm files) :
    MergesTo distribution files
      (shares.map fun share => inspected.map (usage distribution share)) := by
  intro order horder table sample counts total htotal
  obtain ⟨report, haudit, hnone⟩ := exists_report htotal
  -- the order of the tallies is an order of the shares
  obtain ⟨shares', heq, hshares'⟩ : ∃ shares' : List (List SourceFile),
      order = shares'.map (fun share => inspected.map (usage distribution share)) ∧
        shares'.Perm shares :=
    (congrFun₂ (List.eq_map_comp_perm _) order shares).mpr horder
  have hall : shares'.map (usage distribution) ≠ [] := by
    rw [ne_eq, List.map_eq_nil_iff]
    exact fun hnil => hshares (List.nil_perm.1 (hnil ▸ hshares'))
  have hnames : (inspected.map Library.name).Nodup := by decide
  have hadds := AuditReport.adds_foldl hnames report hall
  rw [List.map_map, Function.comp_def, ← heq] at hadds
  refine ⟨report, _, haudit, by rw [Result.ofOutcome, haudit, Option.map_some], hadds.files,
    fun name => ?_, fun l hl => ?_⟩
  · rw [hadds.names, hnone]
    exact or_iff_right List.not_mem_nil
  · have hsum : usage distribution files l =
        ((shares'.map (usage distribution)).map fun n => n l).sum := by
      rw [List.map_map, usage, ← (hshares'.flatten.trans hperm).countP_eq, ← usage, usage_flatten]
      rfl
    rw [hadds.counts l hl, hnone, hsum, Dict.get?_empty, Option.getD_none, Nat.zero_add]

/-! ### A pool that looks for evidence -/

/-- The workers of a pool that looks for evidence share all its files, emit those that name the
distribution, and come to tallies, each of its own share. -/
lemma exists_shares {n capacity : ℕ} (hn : 0 < n) {s : Shift (List ℕ) SourceFile SourceFile Cause}
    (hreach : Relation.ReflTransGen (Shift.Step (importStage distribution) capacity false)
      (Shift.start (List.replicate n (startTallies true)) files) s)
    (hend : s.pool.hasEnded = true) :
    ∃ shares : List (List SourceFile), shares.length = n ∧ shares.flatten.Perm files ∧
      (s.sent.map Prod.snd).Perm (files.filter fun file => mentions distribution file.content) ∧
      s.pool.join = .ok (shares.map fun share => inspected.map (usage distribution share)) := by
  have hsound := Shift.Sound.of_reachable hreach
  have hdone := hsound.completed hend
  have huntaken : s.untaken = [] := by
    by_contra hleft
    have hworker : 0 < s.pool.workers.length := by rwa [hsound.workers, List.length_replicate]
    obtain ⟨failure, hfailed⟩ := hdone.left hleft _ (List.getElem_mem hworker)
    -- the first worker would have failed, but no call of it does
    obtain ⟨-, hresult⟩ := (hsound.cameTo (List.getElem?_replicate_of_lt hn)
      ((List.getElem?_eq_getElem hworker).trans (congrArg some hfailed))).of_stays rfl
    rw [result_importStage] at hresult
    cases hresult
  let shares := List.ofFn fun i : Fin (List.replicate n (startTallies true)).length =>
    ofWorker i s.taken
  have hperm : shares.flatten.Perm files := by
    have honce := hsound.once
    rw [huntaken, List.append_nil] at honce
    rw [← Multiset.coe_eq_coe, coe_flatten_ofFn, ← coe_map_snd_eq_sum hsound.takers, honce]
  refine ⟨shares, by simp [shares], hperm, ?_, ?_⟩
  · refine List.Perm.trans ?_ (hperm.filter _)
    rw [← Multiset.coe_eq_coe, hdone.outputs rfl, List.filter_flatten, List.map_ofFn,
      coe_flatten_ofFn]
    exact Finset.sum_congr rfl fun i _ => by rw [emitted_importStage]; rfl
  · have hresults : ((List.replicate n (startTallies true)).mapIdx fun i state =>
        (importStage distribution).result state (ofWorker i s.taken)) =
        shares.map fun share => .ok (inspected.map (usage distribution share)) := by
      refine List.ext_getElem (by simp [shares]) fun i hi hi' => ?_
      simp [shares, result_importStage]
    rw [hdone.join rfl, hresults, List.mapM_map]
    exact List.mapM_pure

/-- **An audit is transparent, and its tallies are exact.** Given any files and any number of
workers, and whatever share of the files each of them takes, every call emits the same with and
without an audit, and altogether the files that name the distribution are emitted. The tallies
that the workers leave, added in any order, one worker after the other, give the report a number
for each inspected library and for nothing else: how many files that name the distribution use it.

The same holds of a pool at work: its executions without an audit are those with one, but for the
tallies, and in the end it has emitted these files, and left such tallies. -/
theorem audit_transparent (distribution : String) (files : List SourceFile) (n : ℕ) (hn : 0 < n) :
    (∀ shares : List (List SourceFile), shares.length = n → shares.flatten.Perm files →
      (∀ share ∈ shares, ((importStage distribution).calls (startTallies true) share).1 =
        ((importStage distribution).calls (startTallies false) share).1) ∧
      (∀ audited,
        (shares.flatMap ((importStage distribution).emitted (startTallies audited))).Perm
          (files.filter fun file => mentions distribution file.content)) ∧
      ∃ states, shares.mapM ((importStage distribution).result (startTallies true)) = .ok states ∧
        MergesTo distribution files states) ∧
    ∀ capacity,
      (∀ deserted s, Relation.ReflTransGen (Shift.Step (importStage distribution) capacity deserted)
          (Shift.start (List.replicate n (startTallies false)) files) s ↔
        ∃ t, Relation.ReflTransGen (Shift.Step (importStage distribution) capacity deserted)
            (Shift.start (List.replicate n (startTallies true)) files) t ∧
          t.mapState (fun _ => startTallies false) = s) ∧
      ∀ s, Relation.ReflTransGen (Shift.Step (importStage distribution) capacity false)
          (Shift.start (List.replicate n (startTallies true)) files) s → s.pool.hasEnded = true →
        (s.sent.map Prod.snd).Perm (files.filter fun file => mentions distribution file.content) ∧
          ∃ states, s.pool.join = .ok states ∧ MergesTo distribution files states := by
  have hne : ∀ {shares : List (List SourceFile)}, shares.length = n → shares ≠ [] :=
    fun hlength => List.ne_nil_of_length_pos (hlength ▸ hn)
  refine ⟨fun shares hlength hperm => ⟨fun share _ => ?calls, fun audited => ?emitted, ?tallies⟩,
    fun capacity => ⟨fun deserted s => ?executions, fun s hreach hend => ?ended⟩⟩
  case calls => rw [calls_importStage_fst, calls_importStage_fst]
  case emitted =>
    rw [funext (emitted_importStage (startTallies audited)), List.flatMap_def,
      ← List.filter_flatten]
    exact hperm.filter _
  case tallies =>
    refine ⟨_, ?_, mergesTo (hne hlength) hperm⟩
    rw [funext result_importStage]
    exact List.mapM_pure
  case executions =>
    rw [← Shift.reachable_mapState importStage_forgets, Shift.mapState_start, List.map_replicate]
  case ended =>
    obtain ⟨shares, hlength, hperm, hsent, hjoin⟩ := exists_shares hn hreach hend
    exact ⟨hsent, _, hjoin, mergesTo (hne hlength) hperm⟩

/-- Two files that name the distribution, one of which uses a library that is inspected, and one
that only uses the library. -/
def audited : List SourceFile :=
  [⟨"a", "A.java", "import io.reactivex; import java.util.stream".toList⟩,
    ⟨"a", "B.java", "import io.reactivex".toList⟩,
    ⟨"b", "C.java", "import java.util.stream".toList⟩]

/-- Two workers share the files, and the tallies of the second are added first. -/
theorem audit_transparent_twoWorkers :
    0 < 2 ∧ [audited.drop 1, audited.take 1].length = 2 ∧
      [audited.drop 1, audited.take 1].flatten.Perm audited ∧
      ∃ states, [audited.drop 1, audited.take 1].mapM
          ((importStage "RxJava").result (startTallies true)) = .ok states ∧
        ∃ report,
          (Result.ofOutcome (.start ⟨.empty⟩ (some (.start .empty)), states.reverse)).audit =
            some report ∧
          report.imports.get? "Stream" = some 1 ∧ report.imports.get? "Guava" = some 0 := by
  have hperm : [audited.drop 1, audited.take 1].flatten.Perm audited := by
    decide +kernel
  obtain ⟨-, -, states, hstates, hmerges⟩ :=
    (audit_transparent "RxJava" audited 2 (by decide)).1 _ rfl hperm
  obtain ⟨-, report, -, hreport, -, huses⟩ :=
    hmerges _ states.reverse_perm ⟨.empty⟩ .empty [] _ rfl
  have hstream := huses.counts inspected[0] (List.getElem_mem (by decide))
  have hguava := huses.counts inspected[3] (List.getElem_mem (by decide))
  refine ⟨by decide, rfl, hperm, states, hstates, report, hreport, hstream.trans ?_,
    hguava.trans ?_⟩ <;> decide +kernel

end Census

end CallCensus
