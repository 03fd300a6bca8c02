import CallCensus.Proofs.Census.Totals
import CallCensus.Proofs.Json.RoundTrip
import CallCensus.Proofs.Text.Utf8

/-!
Tables as files.

A table is written as an object of objects, in the order of the bytes of its keys, and is read back
as it was. So the file determines the table, and as the order leaves no choice, the table determines
the file, whatever was added to it in which order.

* `Table.bytes`: the file of a table;
* `Table.parse_toJson`, `Table.parse_pairs_toJson`: the table that is read, and the entries in the
  order of the text;
* `Table.bytes_faithful`: both together, and that files are equal if and only if tables are.
-/

namespace CallCensus.Table

open Json

/-- The bytes of the file that a table is written to. -/
def bytes (t : Table) : ByteArray :=
  (String.ofList t.toJson).toUTF8

/-- A key that comes before another in the order of bytes. -/
def KeyLt {α : Type} (e e' : String × α) : Prop :=
  e.1.toUTF8.toList < e'.1.toUTF8.toList

lemma pairwise_keyLt {α : Type} (d : Dict α) : d.entries.Pairwise KeyLt :=
  d.sorted.imp Text.Utf8.toUTF8_lt

lemma readsBack_readTotal : ReadsBack readTotal writeCount id := by
  intro n rest hrest
  rw [readTotal, readsBack_count n rest hrest]
  simp [Except.map]

/-- **The table is read back.** -/
lemma parse_toJson (t : Table) : parse read t.toJson = .ok t := by
  have hreads : ReadsBack read Table.toJson id := by
    intro t rest hrest
    have hrows := readsBack_dict (readsBack_dict readsBack_readTotal) t.rows rest hrest
    rw [read, Table.toJson, hrows]
    rfl
  exact parse_of_readsBack hreads t

/-- The entries of a table as a list of lists. -/
def pairs (t : Table) : List (String × List (String × UInt64)) :=
  t.rows.entries.map fun row => (row.1, row.2.entries)

lemma parse_pairs_toJson (t : Table) :
    parse (Json.pairs (Json.pairs readTotal)) t.toJson = .ok t.pairs := by
  have hrows := parse_of_readsBack (readsBack_pairs (readsBack_pairs readsBack_readTotal)) t.rows
  simp only [id, List.map_id'] at hrows
  exact hrows

/-- Files are equal if and only if tables are. -/
lemma bytes_inj {t t' : Table} : t.bytes = t'.bytes ↔ t = t' := by
  refine ⟨fun h => ?_, fun h => h ▸ rfl⟩
  have hjson : t.toJson = t'.toJson := Option.some.inj <| by
    rw [← Text.Utf8.decode?_toUTF8, ← Text.Utf8.decode?_toUTF8]
    exact congrArg Text.Utf8.decode? h
  have htable := parse_toJson t
  rw [hjson, parse_toJson t'] at htable
  exact (Except.ok.inj htable).symm

/-- **The file of a table.** It is well-formed UTF-8, whose text is read as the table. The text is
an object of objects, whose keys come in strictly increasing order of their bytes, in the outer
object and in every inner one. Two tables have the same file if and only if they are equal, that is
if they have the same rows and the same totals in their cells. -/
theorem bytes_faithful (t : Table) :
    Text.Utf8.decode? t.bytes = some t.toJson ∧
    parse read t.toJson = .ok t ∧
    (parse (Json.pairs (Json.pairs readTotal)) t.toJson = .ok t.pairs ∧
      t.pairs.Pairwise KeyLt ∧ ∀ row ∈ t.pairs, row.2.Pairwise KeyLt) ∧
    ∀ t', (t.bytes = t'.bytes ↔ t = t') ∧
      (t = t' ↔ (∀ a, (t.row? a).isSome = (t'.row? a).isSome) ∧ ∀ a o, t.get? a o = t'.get? a o) := by
  refine ⟨Text.Utf8.decode?_toUTF8 t.toJson, parse_toJson t, ⟨parse_pairs_toJson t,
    List.pairwise_map.2 (pairwise_keyLt t.rows), fun row hrow => ?_⟩,
    fun t' => ⟨bytes_inj, ?_, ?_⟩⟩
  · obtain ⟨e, -, rfl⟩ := List.mem_map.1 hrow
    exact pairwise_keyLt e.2
  · rintro rfl
    exact ⟨fun _ => rfl, fun _ _ => rfl⟩
  · rintro ⟨hrows, hcells⟩
    exact eq_of_get?_eq hrows hcells

end CallCensus.Table
