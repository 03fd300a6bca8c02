import CallCensus.Proofs.Census.Meaning
import CallCensus.Proofs.Pool.Sharing

/-!
What an extraction sends, and how it ends.

An archive is looked at from its front. Of a member that is no regular file only the kind is seen,
and of a regular file only the path, unless its extension is allowed; then its data is read, and the
file is sent. The first member of which something cannot be read that is looked at ends the
extraction, and so does what ends the members early.

* `Entry.IsWanted`: the members whose data is read;
* `Entry.FailsWith`: the members that end an extraction, and the cause that they give;
* `Gives`: the file that is sent for a member;
* `Entry.SeenAlike`, `extractOnto_congr`: members of which the same is seen;
* `extract_wanted`: the extraction of any archive.
-/

namespace CallCensus.Archive

open Pipeline

variable {allowed : NameSet} {archive : String} {fault : Option Fault} {done : List SourceFile}
  {e : Entry} {entries entries' before rest : List Entry} {cause : Cause}

/-! ### Members -/

/-- A regular file whose extension, with its dot, is allowed. -/
def Entry.IsWanted (allowed : NameSet) (e : Entry) : Prop :=
  e.regular = true ∧ ∃ path extension, e.path = .ok path ∧
    Path.dottedExtension? path = some extension ∧ extension ∈ allowed.toList

/-- The end of an extraction at a member, with its cause: the path of a regular file cannot be
read, or the data of one that is wanted. -/
inductive Entry.FailsWith (allowed : NameSet) (archive : String) (e : Entry) : Cause → Prop
  | path (why : Fault) (hregular : e.regular = true) (hpath : e.path = .error why) :
      e.FailsWith allowed archive (.archiveRead archive why)
  | data (path : String) (why : Fault) (hwanted : e.IsWanted allowed) (hpath : e.path = .ok path)
      (hdata : e.data = .error why) : e.FailsWith allowed archive (.entryRead archive path why)

/-- The file that is sent for a member: it bears the name of the archive and the path and the text
of the member. -/
def Gives (archive : String) (e : Entry) (file : SourceFile) : Prop :=
  ∃ path bytes, e.path = .ok path ∧ e.data = .ok bytes ∧
    file = ⟨archive, path, Text.Utf8.decodeLossy bytes⟩

lemma isAllowed_iff {path : String} : isAllowed allowed path = true ↔
    ∃ extension, Path.dottedExtension? path = some extension ∧ extension ∈ allowed.toList := by
  rw [isAllowed]
  cases Path.dottedExtension? path with
  | none => simp
  | some extension =>
      simp only [Option.some_inj, exists_eq_left']
      exact Dict.mem_keys_iff.symm

lemma Entry.isWanted_iff {path : String} (hpath : e.path = .ok path) :
    e.IsWanted allowed ↔ e.regular = true ∧ isAllowed allowed path = true := by
  rw [IsWanted, isAllowed_iff, hpath]
  simp only [Except.ok.injEq, exists_and_left, exists_eq_left']

instance (allowed : NameSet) : DecidablePred (Entry.IsWanted allowed) := fun e =>
  match hpath : e.path with
  | .ok _ => decidable_of_iff _ (Entry.isWanted_iff hpath).symm
  | .error _ => isFalse fun ⟨_, _, _, hok, _⟩ => nomatch hpath.symm.trans hok

/-- A member does not end an extraction when it reads without error. -/
lemma Entry.readsWell_iff : e.ReadsWell allowed ↔ ∀ cause, ¬e.FailsWith allowed archive cause := by
  constructor
  · rintro h cause hfails
    cases hfails with
    | path why hregular hpath =>
        obtain ⟨path, hok, -⟩ := h hregular
        cases hpath.symm.trans hok
    | data path why hwanted hpath hdata =>
        obtain ⟨hregular, hallowed⟩ := (isWanted_iff hpath).1 hwanted
        obtain ⟨path', hpath', hbytes⟩ := h hregular
        obtain rfl : path = path' := Except.ok.inj (hpath.symm.trans hpath')
        obtain ⟨bytes, hok⟩ := hbytes hallowed
        cases hdata.symm.trans hok
  · intro h hregular
    cases hpath : e.path with
    | error why => exact absurd (.path why hregular hpath) (h (.archiveRead archive why))
    | ok path =>
        refine ⟨path, rfl, fun hallowed => ?_⟩
        cases hdata : e.data with
        | ok bytes => exact ⟨bytes, rfl⟩
        | error why =>
            exact absurd (.data path why ((isWanted_iff hpath).2 ⟨hregular, hallowed⟩) hpath hdata)
              (h (.entryRead archive path why))

/-! ### The files and the end of an extraction -/

/-- Among members that read without error, those that are wanted give one file each. -/
lemma forall₂_gives (h : ∀ e ∈ before, e.ReadsWell allowed) :
    List.Forall₂ (Gives archive) (before.filter (·.IsWanted allowed))
      (before.filterMap (sourceOf? allowed archive)) := by
  induction before with
  | nil => exact .nil
  | cons e before ih =>
      obtain ⟨he, hbefore⟩ := List.forall_mem_cons.1 h
      by_cases hwanted : e.IsWanted allowed
      · obtain ⟨path, hpath, hdata⟩ := he hwanted.1
        obtain ⟨hregular, hallowed⟩ := (Entry.isWanted_iff hpath).1 hwanted
        obtain ⟨bytes, hbytes⟩ := hdata hallowed
        have hsource : sourceOf? allowed archive e =
            some ⟨archive, path, Text.Utf8.decodeLossy bytes⟩ := by
          simp [sourceOf?, hregular, hpath, hbytes, hallowed]
        rw [List.filter_cons_of_pos (by simpa using hwanted), List.filterMap_cons_some hsource]
        exact .cons ⟨path, bytes, hpath, hbytes, rfl⟩ (ih hbefore)
      · have hsource : sourceOf? allowed archive e = none := by
          rw [sourceOf?]
          split
          · rename_i hregular hpath hbytes
            rw [if_neg fun hallowed => hwanted ((Entry.isWanted_iff hpath).2 ⟨hregular, hallowed⟩)]
          · rfl
        rw [List.filter_cons_of_neg (by simpa using hwanted), List.filterMap_cons_none hsource]
        exact ih hbefore

/-- A member that fails ends the extraction. -/
lemma extractOnto_of_failsWith (h : e.FailsWith allowed archive cause) :
    extractOnto allowed archive fault done (e :: rest) = (done.reverse, some cause) := by
  cases h with
  | path why hregular hpath => simp [extractOnto, hregular, hpath]
  | data path why hwanted hpath hdata =>
      obtain ⟨hregular, hallowed⟩ := (Entry.isWanted_iff hpath).1 hwanted
      simp [extractOnto, hregular, hpath, hallowed, hdata]

/-- Either all members read without error, or there is a first one that does not. -/
lemma forall_readsWell_or_exists (allowed : NameSet) (archive : String) (entries : List Entry) :
    (∀ e ∈ entries, e.ReadsWell allowed) ∨
      ∃ before e after cause, entries = before ++ e :: after ∧
        (∀ e ∈ before, e.ReadsWell allowed) ∧ e.FailsWith allowed archive cause := by
  induction entries with
  | nil => exact .inl (List.forall_mem_nil _)
  | cons e entries ih =>
      by_cases he : e.ReadsWell allowed
      · rcases ih with hall | ⟨before, e', after, cause, rfl, hbefore, hfails⟩
        · exact .inl (List.forall_mem_cons.2 ⟨he, hall⟩)
        · exact .inr ⟨e :: before, e', after, cause, rfl, List.forall_mem_cons.2 ⟨he, hbefore⟩,
            hfails⟩
      · have hfails : ¬∀ cause, ¬e.FailsWith allowed archive cause :=
          fun h => he (Entry.readsWell_iff.2 h)
        obtain ⟨cause, hfails⟩ := not_forall_not.1 hfails
        exact .inr ⟨[], e, entries, cause, rfl, List.forall_mem_nil _, hfails⟩

/-! ### What is seen of a member -/

/-- Members of which the same is seen: whether they are regular files, then their path, and their
data when they are wanted. -/
def Entry.SeenAlike (allowed : NameSet) (e e' : Entry) : Prop :=
  e.regular = e'.regular ∧ (e.regular = true → e.path = e'.path) ∧
    (e.IsWanted allowed → e.data = e'.data)

/-- What is not seen of the members has no influence on an extraction. -/
lemma extractOnto_congr (h : List.Forall₂ (Entry.SeenAlike allowed) entries entries') :
    extractOnto allowed archive fault done entries =
      extractOnto allowed archive fault done entries' := by
  induction h generalizing done with
  | nil => rfl
  | @cons e e' entries entries' hseen _ ih =>
      obtain ⟨hregular, hpath, hdata⟩ := hseen
      rw [extractOnto, extractOnto, ← hregular]
      cases he : e.regular with
      | false => exact ih
      | true =>
          rw [← hpath he]
          cases hname : e.path with
          | error why => rfl
          | ok path =>
              cases hallowed : isAllowed allowed path with
              | false => simp [hallowed, ih]
              | true =>
                  rw [← hdata ((Entry.isWanted_iff hname).2 ⟨he, hallowed⟩)]
                  cases e.data with
                  | error why => simp [hallowed]
                  | ok bytes => simp [hallowed, ih]

/-! ### Extraction by a worker -/

/-- What a worker sends for an archive that can be opened, and how it ends. -/
lemma process_extractStage {tree : FileTree} {r : Reference} {contents : Contents}
    (h : Contents.open? tree r.path = .ok contents) :
    (Census.extractStage tree allowed).process () r =
      ((extract allowed r.name contents).1,
        (extract allowed r.name contents).2.elim (.done ()) .failed) := by
  have hextract : extractFrom tree allowed r = extract allowed r.name contents := by
    rw [extractFrom, h]
  rw [Census.extractStage]
  simp only [hextract]
  rcases extract allowed r.name contents with ⟨files, failure⟩
  cases failure <;> rfl

/-- **An extraction sends exactly the wanted files before the first error.** The archive is any
list of members with what ends it early, if anything. Up to its end, or to the first member that
fails, every member that is wanted gives one file, in their order, and no other gives any. The
extraction succeeds if and only if there is no error. It is the same whatever the data of members
that are not wanted, and whatever the path of those that are no regular files. A worker that opens
such an archive, and whose consumer stays, sends these files and ends so. -/
theorem extract_wanted (allowed : NameSet) (archive : String) (contents : Contents) :
    (∃ before rest, contents.entries = before ++ rest ∧
      (∀ e ∈ before, ∀ cause, ¬e.FailsWith allowed archive cause) ∧
      List.Forall₂ (Gives archive) (before.filter (·.IsWanted allowed))
        (extract allowed archive contents).1 ∧
      (rest = [] ∧
          (extract allowed archive contents).2 = contents.fault.map (.archiveRead archive) ∨
        ∃ e after cause, rest = e :: after ∧ e.FailsWith allowed archive cause ∧
          (extract allowed archive contents).2 = some cause)) ∧
    ((extract allowed archive contents).2 = none ↔
      contents.fault = none ∧ ∀ e ∈ contents.entries, ∀ cause, ¬e.FailsWith allowed archive cause) ∧
    (∀ entries, List.Forall₂ (Entry.SeenAlike allowed) contents.entries entries →
      extract allowed archive ⟨entries, contents.fault⟩ = extract allowed archive contents) ∧
    ∀ tree path, Contents.open? tree path = .ok contents → ∀ capacity s,
      Relation.ReflTransGen (Shift.Step (Census.extractStage tree allowed) capacity false)
        (Shift.start [()] [⟨archive, path⟩]) s → s.pool.hasEnded = true →
      s.sent.map Prod.snd = (extract allowed archive contents).1 ∧
        s.pool.join =
          (extract allowed archive contents).2.elim (.ok [()]) (.error <| .cause ·) := by
  have hwell : ∀ {l : List Entry}, (∀ e ∈ l, e.ReadsWell allowed) ↔
      ∀ e ∈ l, ∀ cause, ¬e.FailsWith allowed archive cause := fun {l} =>
    forall₂_congr fun _ _ => Entry.readsWell_iff
  refine ⟨?files, ?success, fun entries h => (extractOnto_congr h).symm, ?worker⟩
  case files =>
    rcases forall_readsWell_or_exists allowed archive contents.entries with
      hall | ⟨before, e, after, cause, hentries, hbefore, hfails⟩
    · refine ⟨contents.entries, [], (List.append_nil _).symm, hwell.1 hall, ?_, .inl ⟨rfl, ?_⟩⟩
      · rw [extract, extractOnto_eq hall]
        exact forall₂_gives hall
      · rw [extract, extractOnto_eq hall]
    · have hextract : extract allowed archive contents =
          (before.filterMap (sourceOf? allowed archive), some cause) := by
        rw [extract, hentries, extractOnto_append hbefore, extractOnto_of_failsWith hfails,
          List.append_nil, List.reverse_reverse]
      refine ⟨before, e :: after, hentries, hwell.1 hbefore, ?_,
        .inr ⟨e, after, cause, rfl, hfails, ?_⟩⟩
      · rw [hextract]
        exact forall₂_gives hbefore
      · rw [hextract]
  case success =>
    rw [← hwell]
    refine ⟨readsWell_of_extractOnto, ?_⟩
    rintro ⟨hfault, hall⟩
    rw [extract, extractOnto_eq hall, hfault]
    rfl
  case worker =>
    intro tree path hopen capacity s hreach hend
    obtain ⟨hsent, hjoin⟩ := Shift.sent_and_join_of_single hreach hend
    rw [process_extractStage hopen] at hsent hjoin
    refine ⟨hsent, hjoin.trans ?_⟩
    cases (extract allowed archive contents).2 <;> rfl

/-- Contents with two members that are not wanted, whose data is given, and two that are, of which
the second cannot be read. -/
def spoilt (data : Except Fault ByteArray) : Contents where
  entries := [
    ⟨false, .error .header, data⟩,
    ⟨true, .ok "README.md", data⟩,
    ⟨true, .ok "A.java", .ok (ByteArray.mk #[65, 255])⟩,
    ⟨true, .ok "B.java", .error .compression⟩]
  fault := none

/-- The first file is sent and the second ends the extraction, whether or not the data of the other
members can be read. -/
theorem extract_wanted_spoilt :
    extract (NameSet.ofList [".java"]) "a.tgz" (spoilt (.error .compression)) =
        ([⟨"a.tgz", "A.java", ['A', '\uFFFD']⟩], some (.entryRead "a.tgz" "B.java" .compression)) ∧
      extract (NameSet.ofList [".java"]) "a.tgz" (spoilt (.ok ByteArray.empty)) =
        extract (NameSet.ofList [".java"]) "a.tgz" (spoilt (.error .compression)) := by
  obtain ⟨-, -, hunseen, -⟩ :=
    extract_wanted (NameSet.ofList [".java"]) "a.tgz" (spoilt (.error .compression))
  have hreadme : ¬Entry.IsWanted (NameSet.ofList [".java"])
      ⟨true, .ok "README.md", .error .compression⟩ := by
    rw [Entry.isWanted_iff rfl]
    decide +kernel
  refine ⟨by decide +kernel, hunseen _ (.cons ⟨rfl, nofun, fun h => nomatch h.1⟩ ?_)⟩
  exact .cons ⟨rfl, fun _ => rfl, fun h => absurd h hreadme⟩
    (.cons ⟨rfl, fun _ => rfl, fun _ => rfl⟩ (.cons ⟨rfl, fun _ => rfl, fun _ => rfl⟩ .nil))

end CallCensus.Archive
