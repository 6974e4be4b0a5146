import TabularView.Proofs.Column.Verdict
import TabularView.Proofs.Join.Accounting
import TabularView.Proofs.Table.Soundness
import TabularView.Storage.Statement

set_option autoImplicit false

/-! # Widths of stored columns

The engine stores texts in a column of fixed width, which comes from the widest text that was read.
Blank texts are passed over before they are measured, although they are stored as they are. So every
text fits that is not blank, and a blank one fits exactly if a text that is not blank is as wide
(`TableReader.stores_widest`). -/

namespace TabularView

/-! ## Empty cells -/

theorem Encoding.decode?_nil (e : Encoding) : e.decode? [] = some "" := by
  show (e.decoder.chars? []).map String.ofList = some ""
  rw [e.decoder.chars?_nil]
  rfl

namespace TableReader

variable (r : TableReader)

/-- The cells of a file in a column as they are stored: all that can be decoded, empty ones too. -/
def storedTexts (stream : ByteStream) (k : Nat) : List String :=
  (r.dataRows stream).filterMap fun cells => cells[k]?.bind r.encoding.decode?

/-- What is stored and not blank has been told to the column. -/
theorem nonBlank_storedTexts (stream : ByteStream) (k : Nat) :
    nonBlank (r.storedTexts stream k) = nonBlank (r.cellTexts stream k) := by
  rw [storedTexts, cellTexts, texts, nonBlank, nonBlank, List.filter_filterMap,
    List.filter_filterMap]
  refine List.filterMap_congr fun cells _ => ?_
  cases hcell : cells[k]? with
  | none => simp [textAt?, hcell]
  | some cell =>
      by_cases hempty : cell = []
      · -- the column is told nothing, and what is stored is blank
        subst hempty
        have hblank : Text.trim "" = "" := by decide
        simp [textAt?, text?, hcell, Encoding.decode?_nil, hblank]
      · simp [textAt?, text?, hcell, hempty]

end TableReader

/-! ## Widths -/

/-- The widest text that is not blank is as wide as all texts if it is as wide as the blank ones. -/
theorem IsWidest.forall_le_iff {raws : List String} {width : Nat} (h : IsWidest raws width) :
    (∀ raw ∈ raws, Text.units16 raw ≤ width) ↔
      ∀ raw ∈ raws, Text.trim raw = "" →
        ∃ other ∈ raws, Text.trim other ≠ "" ∧ Text.units16 raw ≤ Text.units16 other := by
  obtain ⟨⟨widest, hwidest, rfl⟩, hle⟩ := h
  obtain ⟨hwidest, hnonBlank⟩ := mem_nonBlank.1 hwidest
  constructor
  · exact fun hfits raw hraw _ => ⟨widest, hwidest, hnonBlank, hfits raw hraw⟩
  · intro hblank raw hraw
    by_cases htrim : Text.trim raw = ""
    · obtain ⟨other, hother, hotherNonBlank, hwidth⟩ := hblank raw hraw htrim
      exact Nat.le_trans hwidth (hle other (mem_nonBlank.2 ⟨hother, hotherNonBlank⟩))
    · exact hle raw (mem_nonBlank.2 ⟨hraw, htrim⟩)

/-- A column is stored with a width: every plan over the table has it at its place, under its name,
with texts of this width. -/
def TableStats.StoresTexts (t : TableStats) (k : Nat) (name : String) (width : Nat) : Prop :=
  ∀ (model : Model) (select : Bool) (tables : List TableStats) (plan : JoinPlan) (i : Nat),
    planJoin model select tables = .ok plan → tables[i]? = some t →
    ∃ u c, plan.tables[i]? = some u ∧ u.columns[k]? = some c ∧ c.columnName = name ∧
      c.storageType = .varchar width

theorem TableStats.storesTexts {t : TableStats} {k : Nat} {column : Column} {width : Nat}
    (hcolumn : t.columns[k]? = some column) (hstring : column.fieldType = .string)
    (hwidth : column.longestString = some width) (hone : 1 ≤ width) :
    t.StoresTexts k column.name width := by
  intro model select tables plan i hplan ht
  obtain ⟨u, hu, hstands⟩ := exists_standsFor_of_planJoin hplan ht
  obtain ⟨c, hc, hcolumnOf⟩ := hstands.columns k column hcolumn
  refine ⟨u, c, hu, hc, hcolumnOf.columnName, ?_⟩
  rw [JoinColumn.storageType, hcolumnOf.columnType, hcolumnOf.columnLength, hstring, hwidth]
  simp [hone]

namespace TableReader

variable (r : TableReader)

/-- A column of texts is stored with the width of the widest of its texts that is not blank. All its
texts fit exactly if each blank one is no wider than one that is not blank. -/
theorem stores_widest {stream : ByteStream} {report : TableReport}
    (h : r.read stream = .ok report) {k : Nat} {column : Column}
    (hcolumn : report.stats.columns[k]? = some column) (hstring : column.fieldType = .string) :
    ∃ width, report.stats.StoresTexts k column.name width ∧
      IsWidest (r.storedTexts stream k) width ∧
      ((∀ raw ∈ r.storedTexts stream k, Text.units16 raw ≤ width) ↔
        ∀ raw ∈ r.storedTexts stream k, Text.trim raw = "" →
          ∃ other ∈ r.storedTexts stream k, Text.trim other ≠ "" ∧
            Text.units16 raw ≤ Text.units16 other) := by
  have hmeasured := (r.sound_of_read_eq_ok h).measured column (List.mem_of_getElem? hcolumn)
  obtain ⟨width, hwidth, hone⟩ := hmeasured.exists_width hstring
  have hwidest : IsWidest (r.storedTexts stream k) width := by
    obtain ⟨headers, hcolumns⟩ := r.exists_columns_eq_of_read_eq_ok h
    rw [hcolumns, columnsOf, List.getElem?_mapIdx] at hcolumn
    obtain ⟨header, -, rfl⟩ := Option.map_eq_some_iff.1 hcolumn
    rw [IsWidest, nonBlank_storedTexts]
    exact ((ColumnInference.longestString_iff _ _ _ _ _).1 hwidth).2
  exact ⟨width, TableStats.storesTexts hcolumn hstring hwidth hone, hwidest,
    hwidest.forall_le_iff⟩

/-- A padded text is the widest, and the blank and the empty ones fit. -/
theorem stores_widest_padded :
    let r : TableReader := .ofFile "t.csv"
    let stream : ByteStream := .ofAscii "k,n\nab,1\n   ,2\n c  ,3\n,4\n"
    ∃ report column, r.read stream = .ok report ∧ report.stats.columns[0]? = some column ∧
      column.name = "k" ∧ column.fieldType = .string ∧ report.stats.StoresTexts 0 "k" 4 ∧
      r.storedTexts stream 0 = ["ab", "   ", " c  ", ""] ∧
      ∀ raw ∈ r.storedTexts stream 0, Text.units16 raw ≤ 4 := by
  intro r stream
  let column : Column :=
    { name := "k", originalName := "k", fieldType := .string, longestString := some 4 }
  have hread : (r.read stream).toOption.any (fun report =>
      decide (report.stats.columns[0]? = some column)) = true := by
    decide +kernel
  obtain ⟨report, hreport, hcolumn⟩ := exists_ok_of_any hread
  have hcolumn := of_decide_eq_true hcolumn
  have htexts : r.storedTexts stream 0 = ["ab", "   ", " c  ", ""] := by decide +kernel
  obtain ⟨width, hstores, hwidest, hfits⟩ := r.stores_widest hreport hcolumn rfl
  obtain rfl : 4 = width := by
    rw [htexts, isWidest_iff (by decide)] at hwidest
    exact hwidest
  refine ⟨report, column, hreport, hcolumn, rfl, rfl, hstores, htexts, hfits.2 ?_⟩
  rw [htexts]
  decide

/-- A blank text that is wider than the others does not fit. -/
theorem not_fits_blank :
    let r : TableReader := .ofFile "t.csv"
    let stream : ByteStream := .ofAscii "k\nab\n     \n"
    let model : Model := { workspace := "w", model := "m" }
    ∃ report plan, r.read stream = .ok report ∧
      report.stats.columns.map (·.fieldType) = [.string] ∧
      planJoin model false [report.stats] = .ok plan ∧
      plan.tables.map (·.columns.map (·.storageType)) = [[.varchar 2]] ∧
      "     " ∈ r.storedTexts stream 0 ∧ ¬ Text.units16 "     " ≤ 2 := by
  intro r stream model
  let report := r.report ["k"] [[[97, 98]], [[32, 32, 32, 32, 32]]] 11
  have hread : r.read stream = .ok report := by decide +kernel
  have hplanned : (planJoin model false [report.stats]).toOption.any (fun plan =>
      decide (plan.tables.map (·.columns.map (·.storageType)) = [[.varchar 2]])) = true := by
    decide +kernel
  obtain ⟨plan, hplan, htypes⟩ := exists_ok_of_any hplanned
  exact ⟨report, plan, hread, by decide +kernel, hplan, of_decide_eq_true htypes,
    by decide +kernel, by decide⟩

end TableReader

end TabularView
