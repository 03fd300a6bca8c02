import CallCensus.Operators
import CallCensus.Proofs.Evidence
import CallCensus.Proofs.FileTree.Entries
import CallCensus.Proofs.Text.Utf8
import Mathlib.Data.String.Basic

/-!
The file that the operators of a distribution are read from.

A directory may hold several files whose names hold the name of a distribution. The one with the
least name is taken, byte by byte, and no other entry has a say in what is read: neither one that
comes before it when the directory is enumerated, nor one that could be read where the chosen file
cannot.

* `Operators.IsCandidate`, `Operators.IsChoice`: the files that may be taken, and the one that is;
* `Operators.ofFile`: the operators that one file gives;
* `Operators.load?_eq_ofFile`: loading is reading the chosen file;
* `Operators.load?_choice`: the choice does not depend on anything else.
-/

namespace CallCensus

namespace Operators

variable {t t' : FileTree} {directory distribution name : String} {names : List String}
  {entries entries' : List (String × Place)} {bytes : ByteArray}

/-! ### The least name -/

/-- The least of some names is one of them, and none of them is less. -/
lemma foldl_least (first : String) (names : List String) :
    names.foldl (fun a b => if b < a then b else a) first ∈ first :: names ∧
      ∀ name ∈ first :: names, names.foldl (fun a b => if b < a then b else a) first ≤ name := by
  induction names generalizing first with
  | nil => exact ⟨List.mem_cons_self, fun name hname => (List.mem_singleton.1 hname).ge⟩
  | cons second names ih =>
      obtain ⟨hmem, hleast⟩ := ih (if second < first then second else first)
      rw [List.foldl_cons]
      refine ⟨?_, fun name hname => ?_⟩
      · rcases List.mem_cons.1 hmem with heq | hmem
        · rw [heq]
          split_ifs
          · exact List.mem_cons_of_mem _ List.mem_cons_self
          · exact List.mem_cons_self
        · exact List.mem_cons_of_mem _ (List.mem_cons_of_mem _ hmem)
      · have hhead := hleast _ List.mem_cons_self
        rcases List.mem_cons.1 hname with rfl | hname
        · refine hhead.trans ?_
          split_ifs with hlt
          · exact hlt.le
          · exact le_rfl
        rcases List.mem_cons.1 hname with rfl | hname
        · refine hhead.trans ?_
          split_ifs with hlt
          · exact le_rfl
          · exact not_lt.1 hlt
        · exact hleast name (List.mem_cons_of_mem _ hname)

lemma least?_eq_none_iff : least? names = none ↔ names = [] := by
  cases names with
  | nil => exact iff_of_true rfl rfl
  | cons first names => exact iff_of_false (Option.some_ne_none _) (List.cons_ne_nil _ _)

/-- The least name is one that no name is less than. -/
lemma least?_eq_some_iff : least? names = some name ↔ name ∈ names ∧ ∀ n ∈ names, name ≤ n := by
  cases names with
  | nil => simp [least?]
  | cons first names =>
      obtain ⟨hmem, hleast⟩ := foldl_least first names
      rw [least?, Option.some_inj]
      constructor
      · rintro rfl
        exact ⟨hmem, hleast⟩
      · rintro ⟨hname, hle⟩
        exact le_antisymm (hleast name hname) (hle _ hmem)

/-! ### The chosen file -/

/-- A file of a directory whose name holds that of a distribution, letter case aside. -/
structure IsCandidate (distribution : String) (entries : List (String × Place)) (name : String)
    (bytes : ByteArray) : Prop where
  listed : (name, .file bytes) ∈ entries
  named : Evidence.OccursFolded distribution.toList name.toList

/-- The candidate with the least name, in the order of the bytes. -/
structure IsChoice (distribution : String) (entries : List (String × Place)) (name : String)
    (bytes : ByteArray) : Prop extends IsCandidate distribution entries name bytes where
  least : ∀ name' bytes', IsCandidate distribution entries name' bytes' →
    name' = name ∨ name.toUTF8.toList < name'.toUTF8.toList

/-- The operators that a file of a directory gives: those of its text, or a refusal that names the
file when it holds no text. -/
def ofFile (directory distribution name : String) (bytes : ByteArray) :
    Except Cause (Operators × List Notice) :=
  match Text.Utf8.decode? bytes with
  | none => .error (.operatorsRead (Path.join directory name) .invalidData)
  | some json => ofJson? distribution json

/-- The names that may be taken are those of the candidates. -/
lemma mem_candidates :
    name ∈ candidates distribution entries ↔
      ∃ bytes, IsCandidate distribution entries name bytes := by
  rw [candidates, List.mem_filterMap]
  constructor
  · rintro ⟨⟨name', place⟩, hmem, hname⟩
    cases place with
    | directory => cases hname
    | file bytes =>
        dsimp only at hname
        split_ifs at hname with hholds
        cases hname
        exact ⟨bytes, hmem, Evidence.holdsName_iff.1 hholds⟩
  · rintro ⟨bytes, hmem, hnamed⟩
    exact ⟨_, hmem, if_pos (Evidence.holdsName_iff.2 hnamed)⟩

lemma candidates_eq_nil_iff :
    candidates distribution entries = [] ↔
      ∀ name bytes, ¬ IsCandidate distribution entries name bytes := by
  simp only [List.eq_nil_iff_forall_not_mem, mem_candidates, not_exists]

/-- The chosen file is the one whose name is taken. -/
lemma isChoice_iff : IsChoice distribution entries name bytes ↔
    IsCandidate distribution entries name bytes ∧
      least? (candidates distribution entries) = some name := by
  rw [least?_eq_some_iff]
  constructor
  · intro h
    refine ⟨h.toIsCandidate, mem_candidates.2 ⟨bytes, h.toIsCandidate⟩, fun name' hname' => ?_⟩
    obtain ⟨bytes', hcandidate⟩ := mem_candidates.1 hname'
    rcases h.least name' bytes' hcandidate with rfl | hlt
    · exact le_rfl
    · exact not_lt.1 fun hgt => List.lt_asymm hlt (Text.Utf8.toUTF8_lt hgt)
  · rintro ⟨hcandidate, -, hleast⟩
    refine ⟨hcandidate, fun name' bytes' hcandidate' => ?_⟩
    rcases (hleast name' (mem_candidates.2 ⟨bytes', hcandidate'⟩)).eq_or_lt with heq | hlt
    · exact .inl heq.symm
    · exact .inr (Text.Utf8.toUTF8_lt hlt)

/-- One of several candidates is chosen. -/
lemma exists_isChoice (h : IsCandidate distribution entries name bytes) :
    ∃ name bytes, IsChoice distribution entries name bytes := by
  cases hleast : least? (candidates distribution entries) with
  | none =>
      exact absurd h (candidates_eq_nil_iff.1 (least?_eq_none_iff.1 hleast) name bytes)
  | some name =>
      obtain ⟨bytes, hcandidate⟩ := mem_candidates.1 (least?_eq_some_iff.1 hleast).1
      exact ⟨name, bytes, isChoice_iff.2 ⟨hcandidate, hleast⟩⟩

lemma IsChoice.of_perm (h : IsChoice distribution entries name bytes)
    (hperm : entries'.Perm entries) : IsChoice distribution entries' name bytes :=
  ⟨⟨hperm.mem_iff.2 h.listed, h.named⟩, fun name' bytes' h' =>
    h.least name' bytes' ⟨hperm.mem_iff.1 h'.listed, h'.named⟩⟩

/-! ### Loading -/

/-- A JSON list that is refused is not a missing one. -/
lemma ofJson?_ne_operatorsNotFound (distribution : String) (json : Text) :
    ofJson? distribution json ≠ .error (.operatorsNotFound distribution) := by
  rw [ofJson?]
  split
  · exact fun h => nomatch h
  · rw [ofNames?]
    split_ifs
    · exact fun h => nomatch h
    · exact fun h => nomatch h

lemma ofFile_ne_operatorsNotFound (directory distribution name : String) (bytes : ByteArray) :
    ofFile directory distribution name bytes ≠ .error (.operatorsNotFound distribution) := by
  rw [ofFile]
  split
  · exact fun h => nomatch h
  · exact ofJson?_ne_operatorsNotFound distribution _

lemma load?_eq_operatorsNotFound (hdir : t.readDirectory directory = .ok entries)
    (hnone : ∀ name bytes, ¬ IsCandidate distribution entries name bytes) :
    load? t directory distribution = .error (.operatorsNotFound distribution) := by
  simp only [load?, hdir, least?_eq_none_iff.2 (candidates_eq_nil_iff.2 hnone)]

lemma load?_eq_ofFile (hwell : t.WellFormed) (hdir : t.readDirectory directory = .ok entries)
    (h : IsChoice distribution entries name bytes) :
    load? t directory distribution = ofFile directory distribution name bytes := by
  have hleast := (isChoice_iff.1 h).2
  have hlook := hwell.look_join_of_mem hdir h.listed
  simp only [load?, hdir, hleast, FileTree.readText, FileTree.readFile, hlook, ofFile]
  cases Text.Utf8.decode? bytes <;> rfl

/-- **The choice of the operator file is stable.** In a directory that can be listed there are no
operators for a distribution if and only if no file has a name that holds the name of the
distribution, letter case aside. Otherwise the operators are those of the one among these files
whose name is least in the order of the bytes, or what is wrong with that file. So they are the same
in every order of enumeration, and whatever the other entries are. -/
theorem load?_choice (t : FileTree) (directory distribution : String)
    (entries : List (String × Place)) (hwell : t.WellFormed)
    (hdir : t.readDirectory directory = .ok entries) :
    (load? t directory distribution = .error (.operatorsNotFound distribution) ↔
      ∀ name bytes, ¬ IsCandidate distribution entries name bytes) ∧
    (∀ name bytes, IsCandidate distribution entries name bytes →
      ∃ name bytes, IsChoice distribution entries name bytes) ∧
    (∀ name bytes, IsChoice distribution entries name bytes →
      load? t directory distribution = ofFile directory distribution name bytes) ∧
    ∀ t' entries', t'.WellFormed → t'.readDirectory directory = .ok entries' →
      (entries'.Perm entries ∨ ∃ name bytes, IsChoice distribution entries name bytes ∧
        IsChoice distribution entries' name bytes) →
      load? t' directory distribution = load? t directory distribution := by
  refine ⟨⟨fun hmissing name bytes hcandidate => ?_, load?_eq_operatorsNotFound hdir⟩,
    fun name bytes => exists_isChoice, fun name bytes => load?_eq_ofFile hwell hdir,
    fun t' entries' hwell' hdir' hsame => ?_⟩
  · obtain ⟨name, bytes, hchoice⟩ := exists_isChoice hcandidate
    rw [load?_eq_ofFile hwell hdir hchoice] at hmissing
    exact ofFile_ne_operatorsNotFound directory distribution name bytes hmissing
  · by_cases hnone : ∀ name bytes, ¬ IsCandidate distribution entries name bytes
    · rcases hsame with hperm | ⟨name, bytes, hchoice, -⟩
      · have hnone' : ∀ name bytes, ¬ IsCandidate distribution entries' name bytes :=
          fun name bytes h => hnone name bytes ⟨hperm.mem_iff.1 h.listed, h.named⟩
        rw [load?_eq_operatorsNotFound hdir hnone, load?_eq_operatorsNotFound hdir' hnone']
      · exact absurd hchoice.toIsCandidate (hnone name bytes)
    · obtain ⟨name, bytes, hchoice, hchoice'⟩ : ∃ name bytes,
          IsChoice distribution entries name bytes ∧ IsChoice distribution entries' name bytes := by
        rcases hsame with hperm | hboth
        · push Not at hnone
          obtain ⟨name, bytes, hcandidate⟩ := hnone
          obtain ⟨name, bytes, hchoice⟩ := exists_isChoice hcandidate
          exact ⟨name, bytes, hchoice, hchoice.of_perm hperm⟩
        · exact hboth
      rw [load?_eq_ofFile hwell hdir hchoice, load?_eq_ofFile hwell' hdir' hchoice']

/-- The places of a directory with two operator lists for one distribution, the first of which holds
no JSON, and with a directory that is named after it as well. -/
def shelfPlaces : List (Location × Place) :=
  [(["ops", "rxjava.json"], .file "[\"map\"]".toUTF8),
    (["ops"], .directory),
    (["ops", "RxJava"], .directory),
    (["ops", "RxJava.json"], .file "[".toUTF8)]

/-- A tree of these places has distinct locations and proper names, in any order. -/
lemma wellFormed_of_perm_shelfPlaces (h : t.places.Perm shelfPlaces) : t.WellFormed := by
  refine ⟨(h.map Prod.fst).nodup_iff.2 (by decide), fun l name bytes hmem => ?_⟩
  have hname : name = "rxjava.json" ∨ name = "RxJava.json" := by
    have hmem' := h.mem_iff.1 hmem
    simp only [shelfPlaces, List.mem_cons, Prod.mk.injEq, reduceCtorEq, and_false,
      List.not_mem_nil, false_or, or_false] at hmem'
    rcases hmem' with ⟨hl, -⟩ | ⟨hl, -⟩
    · exact .inl (by simpa using congrArg List.getLast? hl)
    · exact .inr (by simpa using congrArg List.getLast? hl)
  rcases hname with rfl | rfl
  · decide
  · decide

/-- The list that can be read does not stand in for the one that cannot, in one order of enumeration
and in the other. -/
theorem load?_choice_shelf : ∃ entries entries',
    FileTree.WellFormed ⟨shelfPlaces, []⟩ ∧ FileTree.WellFormed ⟨shelfPlaces.reverse, []⟩ ∧
      FileTree.readDirectory ⟨shelfPlaces, []⟩ "ops" = .ok entries ∧
      FileTree.readDirectory ⟨shelfPlaces.reverse, []⟩ "ops" = .ok entries' ∧
      entries'.Perm entries ∧
      load? ⟨shelfPlaces, []⟩ "ops" "rxjava" = .error (.json .truncated) ∧
      load? ⟨shelfPlaces.reverse, []⟩ "ops" "rxjava" = .error (.json .truncated) := by
  have hwell : FileTree.WellFormed ⟨shelfPlaces, []⟩ := wellFormed_of_perm_shelfPlaces .rfl
  have hwell' : FileTree.WellFormed ⟨shelfPlaces.reverse, []⟩ :=
    wellFormed_of_perm_shelfPlaces (List.reverse_perm _)
  have hdir : FileTree.readDirectory ⟨shelfPlaces, []⟩ "ops" =
      .ok (FileTree.children ⟨shelfPlaces, []⟩ ["ops"]) :=
    FileTree.readDirectory_eq (by decide +kernel) rfl
  have hdir' : FileTree.readDirectory ⟨shelfPlaces.reverse, []⟩ "ops" =
      .ok (FileTree.children ⟨shelfPlaces.reverse, []⟩ ["ops"]) :=
    FileTree.readDirectory_eq (by decide +kernel) rfl
  have hperm : (FileTree.children ⟨shelfPlaces.reverse, []⟩ ["ops"]).Perm
      (FileTree.children ⟨shelfPlaces, []⟩ ["ops"]) :=
    (List.reverse_perm shelfPlaces).filterMap _
  have hchoice : IsChoice "rxjava" (FileTree.children ⟨shelfPlaces, []⟩ ["ops"]) "RxJava.json"
      "[".toUTF8 := by
    refine isChoice_iff.2 ⟨⟨FileTree.mem_children_iff.2 ?_, ?_⟩, by decide +kernel⟩
    · simp [shelfPlaces]
    · exact Evidence.holdsName_iff.1 (by decide +kernel)
  have hfile : ofFile "ops" "rxjava" "RxJava.json" "[".toUTF8 = .error (.json .truncated) := by
    have htext : Text.Utf8.decode? "[".toUTF8 = some ['['] := Text.Utf8.decode?_toUTF8 ['[']
    rw [ofFile, htext]
    rfl
  obtain ⟨-, -, hload, hstable⟩ := load?_choice _ "ops" "rxjava" _ hwell hdir
  have hfirst := (hload _ _ hchoice).trans hfile
  exact ⟨_, _, hwell, hwell', hdir, hdir', hperm, hfirst,
    (hstable _ _ hwell' hdir' (.inl hperm)).trans hfirst⟩

end Operators

end CallCensus
