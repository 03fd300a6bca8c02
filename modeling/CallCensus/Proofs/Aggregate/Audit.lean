import CallCensus.Audit
import CallCensus.Proofs.Dict
import Mathlib.Data.List.Induction

/-!
What an audit keeps.

A report has one place for every sampled file and every operator. Recording a count writes
it into its place, over what was there, unless the count is zero or its file is not sampled;
nothing else changes. So a place that several counts are recorded in keeps the last of them.

* `AuditReport.kept?`, `AuditReport.Keeps`: what is read in a place, and which counts are written;
* `AuditReport.kept?_record`, `AuditReport.record_of_not_keeps`: one count;
* `AuditReport.Undisputed`: no two counts that differ are written into one place;
* `AuditReport.kept?_foldl_of_mem`, `AuditReport.kept?_foldl_of_forall`: many counts.
-/

namespace CallCensus

namespace AuditReport

/-- The count that a report keeps for a file and an operator. -/
def kept? (r : AuditReport) (file operator : String) : Option UInt64 :=
  (r.files.get? file).bind fun counts => counts.get? operator

/-- The counts that are kept when they are recorded: those of sampled files that are not zero. -/
def Keeps (r : AuditReport) (c : CallCount) : Prop :=
  c.total ≠ 0 ∧ (r.files.get? c.file).isSome

instance (r : AuditReport) (c : CallCount) : Decidable (r.Keeps c) :=
  inferInstanceAs (Decidable (_ ∧ _))

/-- Reports with the same libraries, the same sample and the same kept counts are equal. -/
lemma eq_of_kept?_eq {r r' : AuditReport} (himports : r.imports = r'.imports)
    (hsample : ∀ file, (r.files.get? file).isSome = (r'.files.get? file).isSome)
    (hkept : ∀ file o, r.kept? file o = r'.kept? file o) : r = r' := by
  have hfiles : r.files = r'.files := by
    refine Dict.eq_of_get?_eq fun file => ?_
    have hsome := hsample file
    have hcounts := hkept file
    simp only [kept?] at hcounts
    cases h : r.files.get? file with
    | none =>
        rw [h] at hsome
        exact (Option.isNone_iff_eq_none.1 (by simpa using hsome)).symm
    | some counts =>
        obtain ⟨counts', h'⟩ := Option.isSome_iff_exists.1 (hsome.symm.trans (by rw [h]; rfl))
        simp only [h, h', Option.bind_some] at hcounts
        rw [h', Dict.eq_of_get?_eq hcounts]
  cases r
  cases r'
  simp_all

/-! ### The start -/

lemma get?_start {sample : NameSet} (file : String) :
    (start sample).files.get? file = if file ∈ sample.toList then some .empty else none :=
  Dict.get?_ofList_map (fun _ => Dict.empty) sample.toList file

lemma keys_start (sample : NameSet) : (start sample).files.keys = sample.toList :=
  Dict.keys_eq_of_isSome_eq fun file => by
    rw [get?_start, Bool.eq_iff_iff, ← Dict.mem_keys_iff (d := sample), NameSet.toList]
    split_ifs with hfile <;> simp [hfile]

lemma kept?_start (sample : NameSet) (file o : String) : (start sample).kept? file o = none := by
  rw [kept?, get?_start]
  split_ifs <;> rfl

/-! ### One count -/

variable {r : AuditReport} {c : CallCount}

lemma record_of_not_keeps (h : ¬ r.Keeps c) : r.record c = r := by
  rw [record]
  split_ifs with hzero
  · rfl
  · have hfile : r.files.get? c.file = none := by
      simpa [Keeps, hzero] using h
    rw [Dict.modify?, hfile, Option.map_none]

lemma exists_record (h : r.Keeps c) : ∃ counts, r.files.get? c.file = some counts ∧
    r.record c = { r with files := r.files.insert c.file (counts.insert c.operator c.total) } := by
  obtain ⟨counts, hcounts⟩ := Option.isSome_iff_exists.1 h.2
  refine ⟨counts, hcounts, ?_⟩
  rw [record, if_neg h.1, Dict.modify?, hcounts, Option.map_some]

lemma imports_record : (r.record c).imports = r.imports := by
  by_cases h : r.Keeps c
  · obtain ⟨counts, -, heq⟩ := exists_record h
    rw [heq]
  · rw [record_of_not_keeps h]

/-- Recording does not touch the sample. -/
lemma isSome_record (file : String) :
    ((r.record c).files.get? file).isSome = (r.files.get? file).isSome := by
  by_cases h : r.Keeps c
  · obtain ⟨counts, hcounts, heq⟩ := exists_record h
    rw [heq, Dict.get?_insert]
    split_ifs with hfile
    · rw [hfile, hcounts]
      rfl
    · rfl
  · rw [record_of_not_keeps h]

lemma keys_record : (r.record c).files.keys = r.files.keys :=
  Dict.keys_eq_of_isSome_eq isSome_record

/-- A count that is kept is read in its place afterwards, and nothing new elsewhere. -/
lemma kept?_record (h : r.Keeps c) (file o : String) : (r.record c).kept? file o =
    if c.file = file ∧ c.operator = o then some c.total else r.kept? file o := by
  obtain ⟨counts, hcounts, heq⟩ := exists_record h
  rw [heq, kept?, kept?, Dict.get?_insert]
  by_cases hfile : c.file = file
  · subst hfile
    rw [if_pos rfl, hcounts, Option.bind_some, Option.bind_some, Dict.get?_insert]
    simp [eq_comm]
  · simp [hfile, Ne.symm hfile]

/-! ### Many counts -/

/-- No two counts that differ are written into one place. -/
def Undisputed (r : AuditReport) (counts : List CallCount) : Prop :=
  ∀ c ∈ counts, ∀ c' ∈ counts, r.Keeps c → r.Keeps c' →
    c.file = c'.file → c.operator = c'.operator → c.total = c'.total

instance (r : AuditReport) (counts : List CallCount) : Decidable (r.Undisputed counts) :=
  inferInstanceAs (Decidable (∀ c ∈ counts, ∀ c' ∈ counts, _))

variable {counts : List CallCount}

lemma imports_foldl : (counts.foldl record r).imports = r.imports := by
  induction counts generalizing r with
  | nil => rfl
  | cons c counts ih => rw [List.foldl_cons, ih, imports_record]

lemma isSome_foldl (file : String) :
    ((counts.foldl record r).files.get? file).isSome = (r.files.get? file).isSome := by
  induction counts generalizing r with
  | nil => rfl
  | cons c counts ih => rw [List.foldl_cons, ih, isSome_record]

lemma keeps_foldl_iff : (counts.foldl record r).Keeps c ↔ r.Keeps c := by
  rw [Keeps, Keeps, isSome_foldl]

/-- The last count that is recorded is read in its place. -/
lemma kept?_foldl_concat (counts : List CallCount) (h : r.Keeps c) :
    ((counts ++ [c]).foldl record r).kept? c.file c.operator = some c.total := by
  rw [List.foldl_append, List.foldl_cons, List.foldl_nil, kept?_record (keeps_foldl_iff.2 h),
    if_pos ⟨rfl, rfl⟩]

/-- A place that no count is written into keeps what it has. -/
lemma kept?_foldl_of_forall {file o : String}
    (h : ∀ c ∈ counts, r.Keeps c → ¬ (c.file = file ∧ c.operator = o)) :
    (counts.foldl record r).kept? file o = r.kept? file o := by
  induction counts using List.reverseRecOn with
  | nil => rfl
  | append_singleton counts c ih =>
      rw [List.foldl_append, List.foldl_cons, List.foldl_nil]
      have hcounts := ih fun c' hc' => h c' (List.mem_append_left _ hc')
      by_cases hkeeps : r.Keeps c
      · rw [kept?_record (keeps_foldl_iff.2 hkeeps), hcounts,
          if_neg (h c (List.mem_append_right _ List.mem_cons_self) hkeeps)]
      · rw [record_of_not_keeps (mt keeps_foldl_iff.1 hkeeps), hcounts]

/-- If the counts agree on every place, each that is kept is read in its place at the end. -/
lemma kept?_foldl_of_mem (hagree : r.Undisputed counts) (hc : c ∈ counts) (h : r.Keeps c) :
    (counts.foldl record r).kept? c.file c.operator = some c.total := by
  induction counts using List.reverseRecOn with
  | nil => exact absurd hc List.not_mem_nil
  | append_singleton counts last ih =>
      have hlast : last ∈ counts ++ [last] := List.mem_append_right _ List.mem_cons_self
      have hcounts : c ≠ last → (counts.foldl record r).kept? c.file c.operator = some c.total := by
        intro hne
        refine ih (fun c₁ h₁ c₂ h₂ => hagree c₁ (List.mem_append_left _ h₁) c₂
          (List.mem_append_left _ h₂)) ?_
        simpa [hne] using hc
      rw [List.foldl_append, List.foldl_cons, List.foldl_nil]
      by_cases hkeeps : r.Keeps last
      · rw [kept?_record (keeps_foldl_iff.2 hkeeps)]
        split_ifs with hplace
        · rw [hagree last hlast c hc hkeeps h hplace.1 hplace.2]
        · exact hcounts fun heq => hplace (heq ▸ ⟨rfl, rfl⟩)
      · rw [record_of_not_keeps (mt keeps_foldl_iff.1 hkeeps)]
        exact hcounts fun heq => hkeeps (heq ▸ h)

end AuditReport

end CallCensus
