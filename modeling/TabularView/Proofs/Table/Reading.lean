import TabularView.Proofs.Column.Inference
import TabularView.Proofs.Fallible
import TabularView.Table.Stats

set_option autoImplicit false

/-! # What is read from a file

A file that can be read has a header row, and its report is that of its data rows
(`TableReader.exists_of_read_eq_ok`). Rows are read from left to right and one after the other, but
a column sees only its own cells: it is what inference makes of the texts in them
(`columns_report`). -/

namespace TabularView

/-! ## Records -/

/-- A stream of ASCII text. -/
def ByteStream.ofAscii (text : String) : ByteStream where
  bytes := text.toList.map fun c => UInt8.ofNat c.toNat

namespace Csv

theorem ne_nil_of_last_scanFrom (delimiter : UInt8) (bytes : Bytes) (position : Position)
    (fields : List Bytes) (field : Bytes) {last : Record}
    (h : (scanFrom delimiter position fields field bytes).2 = some last) : last ≠ [] := by
  induction bytes generalizing position fields field with
  | nil =>
      rw [scanFrom] at h
      split at h
      · cases h
      · obtain rfl := Option.some.inj h
        simp
  | cons b rest ih =>
      rw [scanFrom] at h
      split at h
      · exact ih _ _ _ h
      · exact ih _ _ _ h
      · exact ih _ _ _ h
      · exact ih _ _ _ h

theorem ne_nil_of_mem_read {delimiter : UInt8} {stream : ByteStream} {record : Record}
    (h : record ∈ (read delimiter stream).records) : record ≠ [] := by
  have hscan : ∀ bytes, record ∈ (scan delimiter bytes).1 ++ (scan delimiter bytes).2.toList →
      record ≠ [] := by
    intro bytes hmem
    rcases List.mem_append.1 hmem with hmem | hmem
    · exact ne_nil_of_mem_scanFrom _ _ _ _ _ _ hmem
    · exact ne_nil_of_last_scanFrom _ _ _ _ _ (Option.mem_toList.1 hmem)
  rw [read] at h
  split at h
  dsimp only at h
  split at h
  · exact hscan _ h
  · exact hscan _ (List.mem_append_left _ h)

end Csv

namespace TableReader

variable (r : TableReader)

/-! ## Cells and columns -/

/-- What a cell tells its column: nothing if it is empty or no text. -/
def text? (cell : Bytes) : Option String :=
  if cell = [] then none else r.encoding.decode? cell

/-- The text of a row in a column. -/
def textAt? (k : Nat) (cells : Csv.Record) : Option String :=
  cells[k]?.bind r.text?

/-- The texts of rows in a column. -/
def texts (k : Nat) (rows : List Csv.Record) : List String :=
  rows.filterMap (r.textAt? k)

/-- The column after texts. -/
def ColumnState.observeList (c : ColumnState) (texts : List String) : ColumnState :=
  { c with inference := c.inference.observeList texts }

theorem ColumnState.observeList_nil (c : ColumnState) : c.observeList [] = c := rfl

theorem ColumnState.observeList_append (c : ColumnState) (texts texts' : List String) :
    c.observeList (texts ++ texts') = (c.observeList texts).observeList texts' := by
  simp [ColumnState.observeList, ColumnInference.observeList_append]

/-! ## Rows -/

theorem texts_append (k : Nat) (rows rows' : List Csv.Record) :
    r.texts k (rows ++ rows') = r.texts k rows ++ r.texts k rows' :=
  List.filterMap_append ..

theorem texts_singleton (k : Nat) (cells : Csv.Record) :
    r.texts k [cells] = (r.textAt? k cells).toList := by
  rw [texts, List.filterMap_cons]
  cases r.textAt? k cells <;> rfl

/-- The columns after rows: each has been told its own texts and no others. -/
def after (columns : List ColumnState) (rows : List Csv.Record) : List ColumnState :=
  columns.mapIdx fun k c => c.observeList (r.texts k rows)

theorem getElem?_after (columns : List ColumnState) (rows : List Csv.Record) (k : Nat) :
    (r.after columns rows)[k]? = columns[k]?.map fun c => c.observeList (r.texts k rows) :=
  List.getElem?_mapIdx ..

theorem length_after (columns : List ColumnState) (rows : List Csv.Record) :
    (r.after columns rows).length = columns.length :=
  List.length_mapIdx ..

theorem after_nil (columns : List ColumnState) : r.after columns [] = columns := by
  refine List.ext_getElem? fun k => ?_
  simp [getElem?_after, texts, ColumnState.observeList_nil]

theorem after_append (columns : List ColumnState) (rows rows' : List Csv.Record) :
    r.after (r.after columns rows) rows' = r.after columns (rows ++ rows') := by
  refine List.ext_getElem? fun k => ?_
  simp [getElem?_after, texts_append, ColumnState.observeList_append, Function.comp_def]

theorem readCell_eq (row index : Nat) (c : ColumnState) (cell : Bytes) :
    (r.readCell row index c cell).1 = c.observeList (r.text? cell).toList := by
  rw [readCell, text?]
  split
  · rfl
  · cases hd : r.encoding.decode? cell with
    | none => rfl
    | some value => rfl

theorem getElem?_readCells (row : Nat) (columns : List ColumnState) (cells : Csv.Record)
    (index k : Nat) :
    (r.readCells row index columns cells).1[k]? =
      columns[k]?.map fun c => c.observeList (r.textAt? k cells).toList := by
  induction columns generalizing cells index k with
  | nil => simp [readCells]
  | cons c columns ih =>
      cases cells with
      | nil =>
          -- the row ends before this column, which stays as it is
          simp [readCells, textAt?, ColumnState.observeList_nil]
      | cons cell cells =>
          cases k with
          | zero => simp [readCells, readCell_eq, textAt?]
          | succ k => simpa [readCells, textAt?] using ih cells (index + 1) k

theorem readRow_eq (row : Nat) (columns : List ColumnState) (cells : Csv.Record) :
    (r.readRow row columns cells).1 = r.after columns [cells] := by
  have hcells : (r.readRow row columns cells).1 = (r.readCells row 0 columns cells).1 := by
    rw [readRow]
    dsimp only
    split <;> rfl
  refine List.ext_getElem? fun k => ?_
  rw [hcells, getElem?_readCells, getElem?_after, texts_singleton]

theorem readRows_eq (row : Nat) (columns : List ColumnState) (rows : List Csv.Record) :
    (r.readRows row columns rows).1 = r.after columns rows := by
  induction rows generalizing columns row with
  | nil => exact (r.after_nil columns).symm
  | cons cells rest ih =>
      have hrest : (r.readRows row columns (cells :: rest)).1 =
          (r.readRows (row + 1) (r.readRow row columns cells).1 rest).1 := rfl
      rw [hrest, ih, readRow_eq, after_append, List.singleton_append]

/-! ## Files -/

/-- The column that a header and texts lead to. -/
def columnOf (name originalName : String) (texts : List String) : Column :=
  ((ColumnInference.start Checker.chain).observeList texts).finish name originalName

/-- The columns with these headers and names over texts by position. -/
def columnsOf (headers : List (String × String)) (texts : Nat → List String) : List Column :=
  headers.mapIdx fun k header => columnOf header.2 header.1 (texts k)

theorem columnsOf_cons (header : String × String) (headers : List (String × String))
    (texts : Nat → List String) :
    columnsOf (header :: headers) texts =
      columnOf header.2 header.1 (texts 0) :: columnsOf headers fun k => texts (k + 1) :=
  List.mapIdx_cons ..

theorem length_columnsOf (headers : List (String × String)) (texts : Nat → List String) :
    (columnsOf headers texts).length = headers.length :=
  List.length_mapIdx ..

/-- The columns of a report are what their own texts make of them. -/
theorem columns_report (headers : List String) (rows : List Csv.Record) (fileSize : Nat) :
    (r.report headers rows fileSize).stats.columns =
      columnsOf (headers.zip (ColumnName.normalizeHeaders headers)) fun k => r.texts k rows := by
  simp only [report, readRows_eq, startColumns, columnsOf]
  refine List.ext_getElem? fun k => ?_
  simp only [List.getElem?_map, getElem?_after, List.getElem?_mapIdx, Option.map_map]
  rfl

theorem length_columns_report (headers : List String) (rows : List Csv.Record) (fileSize : Nat) :
    (r.report headers rows fileSize).stats.columns.length = headers.length := by
  simp [columns_report, length_columnsOf, ColumnName.length_normalizeHeaders]

theorem length_of_readHeaders_eq_ok {header : Csv.Record} {headers : List String} {position : Nat}
    (h : r.readHeaders position header = .ok headers) : headers.length = header.length := by
  induction header generalizing headers position with
  | nil =>
      cases h
      rfl
  | cons field rest ih =>
      rw [readHeaders] at h
      split at h
      · cases h
      · split at h
        · next later hlater =>
            cases h
            rw [List.length_cons, List.length_cons, ih hlater]
        · cases h

/-- The rows of a stream after its header. -/
def dataRows (stream : ByteStream) : List Csv.Record :=
  (Csv.read (PathName.delimiter r.fileName r.delimiter) stream).records.tail

/-- A file that can be read has a header of texts, and nothing is known of it but the report on its
rows. -/
theorem exists_of_read_eq_ok {stream : ByteStream} {report : TableReport}
    (h : r.read stream = .ok report) :
    ∃ header headers,
      Csv.read (PathName.delimiter r.fileName r.delimiter) stream =
        { records := header :: r.dataRows stream, failure := none } ∧
      r.readHeaders 1 header = .ok headers ∧
      report = r.report headers (r.dataRows stream) stream.bytes.length := by
  rw [read] at h
  cases hread : Csv.read (PathName.delimiter r.fileName r.delimiter) stream with
  | mk records failure =>
      rw [hread] at h
      cases records with
      | nil => cases failure <;> cases h
      | cons header rows =>
          obtain ⟨headers, hheaders, h⟩ := bind_eq_ok_iff.1 h
          cases failure with
          | some text => cases h
          | none =>
              refine ⟨header, headers, ?_, hheaders, ?_⟩
              · rw [dataRows, hread, List.tail_cons]
              · rw [dataRows, hread, List.tail_cons]
                exact (Except.ok.inj h).symm

theorem exists_of_readHeaders_eq_error {position : Nat} {header : Csv.Record} {f : Failure}
    (h : r.readHeaders position header = .error f) :
    ∃ position, f = .unexpected (.undecodableHeader position r.encoding.name) := by
  induction header generalizing position with
  | nil => cases h
  | cons field rest ih =>
      rw [readHeaders] at h
      split at h
      · exact ⟨position, (Except.error.inj h).symm⟩
      · split at h
        · cases h
        · next later hlater =>
            obtain rfl := Except.error.inj h
            exact ih hlater

/-- A file cannot be read if its stream breaks off, if it is empty, or if a header is no text. -/
theorem cases_of_read_eq_error {stream : ByteStream} {f : Failure} (h : r.read stream = .error f) :
    (∃ text, f = .stream text) ∨ f = .unexpected (.noHeader r.fileName) ∨
      ∃ position, f = .unexpected (.undecodableHeader position r.encoding.name) := by
  unfold read at h
  dsimp only at h
  split at h
  · split at h
    · exact Or.inl ⟨_, (Except.error.inj h).symm⟩
    · exact Or.inr (Or.inl (Except.error.inj h).symm)
  · rcases bind_eq_error_iff.1 h with hheaders | ⟨headers, -, h⟩
    · exact Or.inr (Or.inr (r.exists_of_readHeaders_eq_error hheaders))
    · split at h
      · exact Or.inl ⟨_, (Except.error.inj h).symm⟩
      · cases h

/-- The texts of a file in a column. -/
def cellTexts (stream : ByteStream) (k : Nat) : List String :=
  r.texts k (r.dataRows stream)

theorem exists_columns_eq_of_read_eq_ok {stream : ByteStream} {report : TableReport}
    (h : r.read stream = .ok report) :
    ∃ headers, report.stats.columns = columnsOf headers (r.cellTexts stream) := by
  obtain ⟨_, headers, _, _, rfl⟩ := r.exists_of_read_eq_ok h
  exact ⟨_, r.columns_report headers _ _⟩

/-- A file that can be read has at least one column. -/
theorem columns_ne_nil_of_read_eq_ok {stream : ByteStream} {report : TableReport}
    (h : r.read stream = .ok report) : report.stats.columns ≠ [] := by
  obtain ⟨header, headers, hread, hheaders, rfl⟩ := r.exists_of_read_eq_ok h
  have hheader : header ≠ [] :=
    Csv.ne_nil_of_mem_read (by rw [hread]; exact List.mem_cons_self ..)
  rw [← List.length_pos_iff, length_columns_report, r.length_of_readHeaders_eq_ok hheaders]
  exact List.length_pos_iff.2 hheader

end TableReader

end TabularView
