import CallCensus.App.Run
import CallCensus.Proofs.App.Saving
import CallCensus.Proofs.Census.Coverage
import CallCensus.Proofs.Census.Exclusion

/-!
What a run of the program changes.

All inputs are read and the census is made before the first file is written. So a run that fails
before that changes nothing, and a run that succeeds has saved two texts at most: the table, and
the report of the audit if there was one.

* `MayEnd`: how a run may end, over all orders of turns in its census;
* `outputs`, `InPlace`: the texts that a run saves with their paths, and when they are in place;
* `Succeeded`: what a run has done that succeeds;
* `mayEnd_effects`: every run that fails before writing, and every run that succeeds;
* `run_escapes`: a run whose result is not in the directory of the results.
-/

namespace CallCensus.App

open Census (ComesTo)

variable {α β : Type} {cores : ℕ} {tree t t₁ t' : FileTree} {arguments : Arguments}
  {inputs : Inputs} {told told' : List Notice} {path : String} {text : Text}
  {saved : List (String × Text)}

/-! ### Reading the inputs -/

lemma run_bind (x : Telling α) (f : α → Telling β) (told : List Notice) :
    (x >>= f).run told =
      match x.run told with
      | (.ok a, between) => (f a).run between
      | (.error problem, between) => (.error problem, between) := by
  have hcont : (x >>= f).run told = ExceptT.bindCont f (x.run told).1 (x.run told).2 := rfl
  rw [hcont]
  rcases x.run told with ⟨_ | a, between⟩ <;> rfl

lemma run_bind_eq_ok {x : Telling α} {f : α → Telling β} {b : β}
    (h : (x >>= f).run told = (.ok b, told')) :
    ∃ a between, x.run told = (.ok a, between) ∧ (f a).run between = (.ok b, told') := by
  rw [run_bind] at h
  split at h
  · exact ⟨_, _, ‹_›, h⟩
  · cases h

/-- A sample is read if and only if an audit is asked for. -/
lemma isSome_sample (h : (prepare cores tree arguments).run told = (.ok inputs, told')) :
    inputs.settings.sample.isSome = arguments.checkFalsePositives := by
  rw [prepare] at h
  obtain ⟨config, _, -, h⟩ := run_bind_eq_ok h
  obtain ⟨_, _, -, h⟩ := run_bind_eq_ok h
  obtain ⟨table, _, -, h⟩ := run_bind_eq_ok h
  obtain ⟨_, _, -, h⟩ := run_bind_eq_ok h
  dsimp only at h
  split at h
  · obtain ⟨_, _, hthrow, -⟩ := run_bind_eq_ok h
    cases hthrow
  · obtain ⟨operators, _, -, h⟩ := run_bind_eq_ok h
    obtain ⟨_, _, -, h⟩ := run_bind_eq_ok h
    obtain ⟨known, _, -, h⟩ := run_bind_eq_ok h
    cases hflag : arguments.checkFalsePositives with
    | false =>
        rw [hflag] at h
        obtain ⟨sample, _, hsample, h⟩ := run_bind_eq_ok h
        cases hsample
        cases h
        rfl
    | true =>
        rw [hflag] at h
        obtain ⟨sample, _, hsample, h⟩ := run_bind_eq_ok h
        obtain ⟨s, _, -, hsome⟩ := run_bind_eq_ok hsample
        cases hsome
        cases h
        rfl

/-! ### How a run may end -/

/-- How a run may end on a machine with a number of `cores`, in whatever order the threads of its
census take their turns. -/
inductive MayEnd (cores : ℕ) (tree : FileTree) (arguments : Arguments) : Report → Prop
  /-- The inputs are not as they should be. -/
  | unprepared {problem : Problem} {notices : List Notice}
      (h : (prepare cores tree arguments).run [] = (.error problem, notices)) :
      MayEnd cores tree arguments (finish tree (.error problem, notices))
  /-- The census has come to something. -/
  | concluded {inputs : Inputs} {notices told : List Notice}
      {result : Except (Failure Cause) Census.Result}
      (h : (prepare cores tree arguments).run [] = (.ok inputs, notices))
      (hcensus : ComesTo tree inputs.settings inputs.operators result) :
      MayEnd cores tree arguments (finish tree ((conclude inputs (result, told)).run notices))

/-- The run is one of the ways that a run may end. -/
lemma mayEnd_run (cores : ℕ) (tree : FileTree) (arguments : Arguments) :
    MayEnd cores tree arguments (run cores tree arguments) := by
  rw [run, inspect, run_bind]
  cases hprepare : (prepare cores tree arguments).run [] with
  | mk prepared notices =>
      cases prepared with
      | error problem => exact .unprepared hprepare
      | ok inputs => exact .concluded hprepare (Census.comesTo_run tree _ _)

lemma finish_conclude_ok (tree : FileTree) (inputs : Inputs) (result : Census.Result)
    (told notices : List Notice) : ∃ notices',
      finish tree ((conclude inputs (.ok result, told)).run notices) =
        saveFindings tree notices' ⟨inputs.config, result⟩ := by
  have hconclude : ∃ notices', (conclude inputs (.ok result, told)).run notices =
      (.ok ⟨inputs.config, result⟩, notices') := ⟨_, rfl⟩
  obtain ⟨notices', hnotices⟩ := hconclude
  exact ⟨notices', by rw [hnotices, finish]⟩

lemma finish_conclude_error (tree : FileTree) (inputs : Inputs) (failure : Failure Cause)
    (told notices : List Notice) :
    finish tree ((conclude inputs (.error failure, told)).run notices) =
      ⟨.error (.census failure), tree, notices ++ told⟩ :=
  rfl

/-! ### What is saved -/

/-- The texts that a run saves, with their paths. -/
def outputs (config : Config) (result : Census.Result) : List (String × Text) :=
  (resultPath config, result.table.toJson) ::
    (result.audit.map fun report => (config.layout.auditOutput, report.toJson)).toList

/-- The name of the file for the table. -/
def fileName (config : Config) : String :=
  Output.resultFileName config.distribution config.languages

lemma resultPath_eq (config : Config) :
    resultPath config = Path.join config.layout.results (fileName config) :=
  rfl

/-- All texts of a run are in their places, and the table is in the directory of the results. -/
structure InPlace (t : FileTree) (config : Config) (result : Census.Result) : Prop where
  contents : ∀ o ∈ outputs config result, t.readFile o.1 = .ok (String.ofList o.2).toUTF8
  within : ∃ r, t.walk config.layout.results = .ok r ∧ t.walk (resultPath config) =
    .ok (r ++ (Path.segments (fileName config)).filter fun s => !Path.isIdle s)

/-- A problem after the census is a problem with writing. -/
lemma eq_write_of_saveFindings {findings : Findings} {problem : Problem}
    (h : (saveFindings tree told findings).result = .error problem) :
    ∃ path why, problem = .write path why := by
  unfold saveFindings at h
  dsimp only at h
  split at h
  · rename_i hsave
    cases h
    exact eq_write_of_save hsave
  · rw [saveAudit] at h
    split at h
    · cases h
    · dsimp only at h
      split at h
      · rename_i hsave
        cases h
        exact eq_write_of_save hsave
      · cases h

/-- Findings are written by saving the table, and the report if there is one. -/
lemma wrote_saveFindings {findings : Findings}
    (h : (saveFindings tree told findings).result = .ok ()) :
    Wrote tree (saveFindings tree told findings).tree
      (outputs findings.config findings.result) := by
  rw [outputs]
  unfold saveFindings at h ⊢
  dsimp only at h ⊢
  split at h
  · cases h
  · rename_i t₁ hsave
    have htable := (wrote_nil tree).save hsave
    rw [saveAudit] at h ⊢
    cases haudit : findings.result.audit with
    | none => exact htable
    | some report =>
        rw [haudit] at h
        dsimp only at h ⊢
        split at h
        · cases h
        · rename_i t₂ hsave₂
          exact htable.save hsave₂

/-! ### Where it is saved -/

lemma isName_results : Path.IsEntryName "operators-search" := by
  decide

lemma isName_falsePositives : Path.IsEntryName "false-positives" := by
  decide

lemma isName_auditOutput : Path.IsEntryName "collection-like_count.json" := by
  decide

lemma layout_eq (config : Config) :
    config.layout.results = Path.join config.assets "operators-search" ∧
    config.layout.falsePositives = Path.join config.assets "false-positives" :=
  ⟨rfl, rfl⟩

/-- The path of the result leads into the directory of the results when the name of the file leads
nowhere but down. -/
lemma exists_walk_results (config : Config) {l : Location}
    (hname : Path.Descends (fileName config)) (h : t.walk (resultPath config) = .ok l) :
    ∃ r, t.walk config.layout.results = .ok r ∧
      l = r ++ (Path.segments (fileName config)).filter fun s => !Path.isIdle s := by
  have hbase : config.layout.results ≠ "" := by
    rw [(layout_eq config).1]
    exact isName_results.join_ne_empty config.assets
  rw [resultPath_eq] at h
  obtain ⟨r, hr, hl⟩ := FileTree.exists_walk_of_walk_join hbase hname.relative h
  exact ⟨r, hr, FileTree.eq_of_foldlM_follow hname.never_up hl⟩

/-- The report of an audit is saved in the directory of the audits. -/
lemma exists_walk_falsePositives {config : Config} {l : Location}
    (h : t.walk config.layout.auditOutput = .ok l) :
    ∃ d, t.walk config.layout.falsePositives = .ok d ∧
      l = d ++ ["collection-like_count.json"] := by
  have hbase : config.layout.falsePositives ≠ "" := by
    rw [(layout_eq config).2]
    exact isName_falsePositives.join_ne_empty config.assets
  rw [Layout.auditOutput] at h
  obtain ⟨d, hd, hl⟩ :=
    FileTree.exists_walk_of_walk_join hbase isName_auditOutput.startsWith_slash h
  exact ⟨d, hd, FileTree.eq_of_foldlM_follow_name isName_auditOutput hl⟩

/-- The path of the result does not lead where the report of the audit is saved then. -/
lemma walk_resultPath_ne (config : Config) {l : Location}
    (hname : Path.Descends (fileName config)) (h : t.walk (resultPath config) = .ok l) :
    t.walk (resultPath config) ≠ t.walk config.layout.auditOutput := by
  intro hsame
  obtain ⟨r, hr, hl⟩ := exists_walk_results config hname h
  obtain ⟨d, hd, hl'⟩ := exists_walk_falsePositives (hsame.symm.trans h)
  -- the two directories lie side by side
  rw [(layout_eq config).1] at hr
  rw [(layout_eq config).2] at hd
  obtain ⟨k, rfl, rfl⟩ := FileTree.exists_siblings isName_results isName_falsePositives hr hd
  rw [hl, List.append_assoc, List.append_assoc, List.append_cancel_left_eq] at hl'
  exact absurd (List.cons.inj hl').1 (by decide)

/-! ### Runs without archives -/

/-- A census of a directory without archives gives an empty table. -/
lemma exists_run_of_namesIn_eq_nil {settings : Settings} {operators : Operators}
    {entries : List (String × Place)} (hvalid : settings.validate = .ok ())
    (hdir : tree.readDirectory settings.archives = .ok entries)
    (hnone : Archive.namesIn entries = []) (hknown : settings.known = none) :
    ∃ result, (Census.run tree settings operators).1 = .ok result ∧
      result.table.toJson = ['\x7b', '\x7d'] := by
  obtain ⟨names, notices, hlist, -, hnames⟩ := Census.list_eq_ok hdir
  have hempty : names = [] :=
    List.eq_nil_iff_forall_not_mem.2 fun a ha => by simpa [hnone] using ((hnames a).1 ha).1
  subst hempty
  obtain ⟨given, hmain⟩ := Census.exists_run_returned tree settings operators []
  have hreach := Pipeline.reachable_run (Census.plan tree settings operators.names)
    (Census.start settings operators [])
  have hcovers := Census.covers_of_returned (Census.one_le_workers_of_validate hvalid) hnames
    (fun a ha => absurd ha List.not_mem_nil) hreach hmain
  obtain ⟨outcome, rfl⟩ :=
    hcovers.exists_ok (Census.not_uncovered_of_known_eq_none hknown)
  refine ⟨_, Census.run_eq_of_returned hvalid hlist hmain, ?_⟩
  have hrows : (Census.Result.ofOutcome outcome).table.archives = [] := by
    refine List.eq_nil_iff_forall_not_mem.2 fun a ha => ?_
    have hrow := (Census.mem_archives_of_returned hreach hmain).1 ha
    simp [Census.rowNames, hknown] at hrow
  have hentries : (Census.Result.ofOutcome outcome).table.rows.entries = [] :=
    List.map_eq_nil_iff.1 hrows
  rw [Table.toJson, Json.compact, hentries]
  rfl

section NoArchives

variable {config : Config} {directory : String} {entries : List (String × Place)}
  (hprepare : ((prepare cores tree arguments).run []).1.map (fun inputs =>
    (inputs.config, inputs.settings.archives, inputs.settings.known,
      inputs.settings.validate)) = .ok (config, directory, none, .ok ()))
  (hdir : tree.readDirectory directory = .ok entries) (hnone : Archive.namesIn entries = [])

include hprepare hdir hnone

/-- A run whose directory of archives has none comes to its findings, with an empty table. -/
lemma exists_run_eq_saveFindings :
    ∃ notices result, run cores tree arguments = saveFindings tree notices ⟨config, result⟩ ∧
      result.table.toJson = ['\x7b', '\x7d'] ∧
      result.audit.isSome = arguments.checkFalsePositives := by
  cases hinputs : (prepare cores tree arguments).run [] with
  | mk prepared notices =>
      rw [hinputs] at hprepare
      cases prepared with
      | error problem => cases hprepare
      | ok inputs =>
          obtain ⟨hconfig, harchives, hknown, hvalid⟩ : inputs.config = config ∧
              inputs.settings.archives = directory ∧ inputs.settings.known = none ∧
              inputs.settings.validate = .ok () := by
            simpa [Except.map] using hprepare
          subst hconfig harchives
          obtain ⟨result, hcensus, htable⟩ := @exists_run_of_namesIn_eq_nil tree inputs.settings
            inputs.operators entries hvalid hdir hnone hknown
          have hcomes := Census.comesTo_run tree inputs.settings inputs.operators
          rw [hcensus] at hcomes
          obtain ⟨notices', hfinish⟩ := finish_conclude_ok tree inputs result
            (Census.run tree inputs.settings inputs.operators).2 notices
          refine ⟨notices', result, ?_, htable,
            hcomes.isSome_audit.trans (isSome_sample hinputs)⟩
          rw [run, inspect, run_bind, hinputs, ← hfinish, ← hcensus]

/-- When its table can be saved the audit is next. -/
lemma exists_run_eq_saveAudit
    (hsave : (Output.save tree (resultPath config) ['\x7b', '\x7d']).2 = .ok ()) :
    ∃ notices result, run cores tree arguments =
        saveAudit (Output.save tree (resultPath config) ['\x7b', '\x7d']).1 notices
          ⟨config, result⟩ ∧
      result.audit.isSome = arguments.checkFalsePositives := by
  obtain ⟨notices, result, hrun, htable, haudit⟩ := exists_run_eq_saveFindings hprepare hdir hnone
  refine ⟨notices ++ [.info ("Results written to " ++ resultPath config)], result, ?_, haudit⟩
  have hboth : Output.save tree (resultPath config) ['\x7b', '\x7d'] =
      ((Output.save tree (resultPath config) ['\x7b', '\x7d']).1, .ok ()) := by rw [← hsave]
  rw [hrun]
  unfold saveFindings
  dsimp only
  rw [htable, hboth]

end NoArchives

/-- A text is saved at a path where there was nothing. -/
lemma save_eq_ok {parent : String} {l : Location} (text : Text)
    (hparent : Path.parent? path = some parent)
    (hmake : (t.makeDirectories parent).2 = .ok ())
    (hwalk : (t.makeDirectories parent).1.walk path = .ok l)
    (hfind : ((t.makeDirectories parent).1.find? l).isNone = true) :
    (Output.save t path text).2 = .ok () := by
  cases hmade : t.makeDirectories parent with
  | mk t₁ made =>
      rw [hmade] at hmake hwalk hfind
      dsimp only at hmake hwalk hfind
      subst hmake
      have hnothing := Option.isNone_iff_eq_none.1 hfind
      simp only [Output.save, Output.save.write, hparent, hmade, FileTree.writeFile, hwalk,
        hnothing]

/-- When the report can be saved the run has succeeded. -/
lemma result_saveAudit {findings : Findings} {report : AuditReport}
    (hreport : findings.result.audit = some report)
    (hsave : (Output.save t findings.config.layout.auditOutput report.toJson).2 = .ok ()) :
    (saveAudit t told findings).result = .ok () := by
  cases hboth : Output.save t findings.config.layout.auditOutput report.toJson with
  | mk t' saved =>
      rw [hboth] at hsave
      dsimp only at hsave
      rw [saveAudit, hreport]
      dsimp only
      rw [hboth, hsave]

/-! ### All runs -/

/-- What a run has done that ended with a tree and succeeded. -/
structure Succeeded (cores : ℕ) (tree : FileTree) (arguments : Arguments) (tree' : FileTree)
    (inputs : Inputs) (result : Census.Result) : Prop where
  /-- Its inputs were read. -/
  prepared : ∃ notices, (prepare cores tree arguments).run [] = (.ok inputs, notices)
  /-- The census that they ask for came to a result. -/
  census : ComesTo tree inputs.settings inputs.operators (.ok result)
  /-- There was an audit if it was asked for. -/
  audited : result.audit.isSome = arguments.checkFalsePositives
  /-- What was to be saved was saved, and nothing else. -/
  wrote : Wrote tree tree' (outputs inputs.config result)
  /-- All of it is in its place, provided that the name of the file for the table leads nowhere but
  down. -/
  inPlace : Path.Descends (fileName inputs.config) → InPlace tree' inputs.config result

/-- What was saved is in its place when the name of the file for the table leads nowhere but
down. -/
lemma Wrote.inPlace {config : Config} {result : Census.Result}
    (h : Wrote tree t' (outputs config result)) (hname : Path.Descends (fileName config)) :
    InPlace t' config result := by
  have hmem : (resultPath config, result.table.toJson) ∈ outputs config result :=
    List.mem_cons_self
  obtain ⟨l, hl⟩ := h.leads _ hmem
  dsimp only at hl
  refine ⟨h.contents ?_, ?_⟩
  · have hapart := walk_resultPath_ne config hname hl
    rw [outputs]
    cases result.audit with
    | none => exact List.pairwise_singleton _ _
    | some report =>
        rw [Option.map_some, Option.toList_some, List.pairwise_pair]
        dsimp only
        exact hapart
  · obtain ⟨r, hr, rfl⟩ := exists_walk_results config hname hl
    exact ⟨r, hr, hl⟩

/-- **What a run changes.** A run may end with a report, in whatever order the threads of its
census take their turns, as the run itself does. If it fails for another reason than that something
cannot be written, the tree is as it was. If it succeeds it has saved the table of its census and,
if and only if an audit was asked for, the report; the tree has changed at their places only, and
by directories on the way to them. -/
theorem mayEnd_effects (cores : ℕ) (tree : FileTree) (arguments : Arguments) :
    MayEnd cores tree arguments (run cores tree arguments) ∧
    ∀ report, MayEnd cores tree arguments report →
      (∀ problem, report.result = .error problem → (∀ path why, problem ≠ .write path why) →
        report.tree = tree) ∧
      (report.result = .ok () → ∃ inputs result,
        Succeeded cores tree arguments report.tree inputs result) := by
  refine ⟨mayEnd_run cores tree arguments, fun report hreport => ?_⟩
  cases hreport with
  | unprepared hprepare => exact ⟨fun _ _ _ => rfl, nofun⟩
  | @concluded inputs notices told result hprepare hcensus =>
      cases result with
      | error failure =>
          rw [finish_conclude_error]
          exact ⟨fun _ _ _ => rfl, nofun⟩
      | ok result =>
          obtain ⟨notices', hfinish⟩ := finish_conclude_ok tree inputs result told notices
          rw [hfinish]
          refine ⟨fun problem hproblem hother => ?_, fun hok => ⟨inputs, result, ?_⟩⟩
          · obtain ⟨path, why, rfl⟩ := eq_write_of_saveFindings hproblem
            exact absurd rfl (hother path why)
          · have hwrote := wrote_saveFindings hok
            have haudit := hcensus.isSome_audit.trans (isSome_sample hprepare)
            exact ⟨⟨notices, hprepare⟩, hcensus, haudit, hwrote, hwrote.inPlace⟩

/-- Assets with one operator and no archives, beside a configuration. -/
def assetsBeside (config : String) : FileTree where
  places := [(["config.json"], .file config.toUTF8), (["assets"], .directory),
    (["assets", "operators"], .directory),
    (["assets", "operators", "RxJava.json"], .file "[\"map\"]".toUTF8),
    (["assets", "repo-retrieval"], .directory),
    (["assets", "repo-retrieval", "RxJava"], .directory),
    (["assets", "repo-retrieval", "RxJava", "archives"], .directory),
    (["assets", "false-positives"], .directory),
    (["assets", "false-positives", "collection-like_sample.txt"], .file "A.java".toUTF8)]
  current := []

/-- The location of the directory of the archives. -/
def archivesBeside : Location := ["assets", "repo-retrieval", "RxJava", "archives"]

/-- A configuration in which nothing is set but what must be. -/
def bareConfig (languages : List String) : Config :=
  ⟨"RxJava", languages, "assets", none, none, none, none, []⟩

/-- A configuration with one language. -/
def oneLanguage : FileTree :=
  assetsBeside "\x7b\"distribution\":\"RxJava\",\"fileExtensions\":[\"Java\"]\x7d"

/-- A configuration with a second language, whose name leads up. -/
def languageAbove : FileTree :=
  assetsBeside ("\x7b\"distribution\":\"RxJava\"," ++
    "\"fileExtensions\":[\"Java\",\"/../../note\"]\x7d")

/-- The tree with the empty table of a run, before its audit is saved. -/
def withTable (t : FileTree) (languages : List String) : FileTree :=
  (Output.save t (resultPath (bareConfig languages)) ['\x7b', '\x7d']).1

/-- A run that audits a sample saves the table and the report in their places, and one that finds
no configuration changes nothing. -/
theorem mayEnd_effects_oneLanguage : ∃ inputs result,
    Succeeded 1 oneLanguage ⟨"config.json", true⟩ (run 1 oneLanguage ⟨"config.json", true⟩).tree
      inputs result ∧
    result.audit.isSome = true ∧
    InPlace (run 1 oneLanguage ⟨"config.json", true⟩).tree inputs.config result ∧
    (run 1 oneLanguage ⟨"elsewhere.json", true⟩).tree = oneLanguage := by
  have hprepare : ((prepare 1 oneLanguage ⟨"config.json", true⟩).run []).1.map (fun inputs =>
      (inputs.config, inputs.settings.archives, inputs.settings.known,
        inputs.settings.validate)) = .ok (bareConfig ["Java"],
          "assets/repo-retrieval/RxJava/archives", none, .ok ()) := by decide +kernel
  have hdir : oneLanguage.readDirectory "assets/repo-retrieval/RxJava/archives" =
      .ok (oneLanguage.children archivesBeside) :=
    FileTree.readDirectory_eq (by decide +kernel) rfl
  obtain ⟨told, result, hrun, haudit⟩ :=
    exists_run_eq_saveAudit hprepare hdir (by decide +kernel) (by decide +kernel)
  obtain ⟨report, hreport⟩ := Option.isSome_iff_exists.1 haudit
  have hsave : (Output.save (withTable oneLanguage ["Java"])
      (bareConfig ["Java"]).layout.auditOutput report.toJson).2 = .ok () :=
    @save_eq_ok _ _ "assets/false-positives"
      ["assets", "false-positives", "collection-like_count.json"] report.toJson
      (by decide +kernel) (by decide +kernel) (by decide +kernel) (by decide +kernel)
  have hok : (run 1 oneLanguage ⟨"config.json", true⟩).result = .ok () := by
    rw [hrun]
    exact result_saveAudit hreport hsave
  obtain ⟨hmay, heffects⟩ := mayEnd_effects 1 oneLanguage ⟨"config.json", true⟩
  obtain ⟨inputs, result, hsucceeded⟩ := (heffects _ hmay).2 hok
  have hconfig : inputs.config = bareConfig ["Java"] := by
    obtain ⟨notices, hinputs⟩ := hsucceeded.prepared
    rw [hinputs] at hprepare
    exact congrArg Prod.fst (Except.ok.inj hprepare)
  have hname : Path.Descends (fileName inputs.config) := by
    rw [hconfig]
    decide +kernel
  refine ⟨inputs, result, hsucceeded, hsucceeded.audited, hsucceeded.inPlace hname, ?_⟩
  obtain ⟨hmay, heffects⟩ := mayEnd_effects 1 oneLanguage ⟨"elsewhere.json", true⟩
  exact (heffects _ hmay).1 (.read "elsewhere.json" .notFound) (by decide +kernel) nofun

/-- The result of a run is not in the directory of the results when the name of a language leads
up. The only file that the run changes is beside the directories of the assets. -/
theorem run_escapes :
    (run 1 languageAbove ⟨"config.json", false⟩).result = .ok () ∧
    languageAbove.changes (run 1 languageAbove ⟨"config.json", false⟩).tree =
      [(["assets", "note.json"], "\x7b\x7d".toUTF8)] ∧
    (run 1 languageAbove ⟨"config.json", false⟩).tree.walk
      (bareConfig ["Java", "/../../note"]).layout.results = .ok ["assets", "operators-search"] := by
  have hdir : languageAbove.readDirectory "assets/repo-retrieval/RxJava/archives" =
      .ok (languageAbove.children archivesBeside) :=
    FileTree.readDirectory_eq (by decide +kernel) rfl
  obtain ⟨told, result, hrun, haudit⟩ := @exists_run_eq_saveAudit 1 languageAbove
    ⟨"config.json", false⟩ (bareConfig ["Java", "/../../note"]) _ _ (by decide +kernel) hdir
    (by decide +kernel) (by decide +kernel)
  have hnone : result.audit = none := by simpa using haudit
  rw [hrun, saveAudit, hnone]
  dsimp only
  exact ⟨rfl, by decide +kernel, by decide +kernel⟩

end CallCensus.App
