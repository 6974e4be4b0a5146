import Mathlib.Data.List.Perm.Basic
import TabularView.Proofs.Column.Verdict
import TabularView.Proofs.Table.Soundness

set_option autoImplicit false

/-! # What is found in a file

Reading a file goes through all its columns at once, row by row. What comes out is nevertheless
what each column finds in its own cells: its type and its width do not depend on the order of the
rows nor on fields beyond the header, and a problem is found exactly where a row is too long, a cell
is no text, or a text is rejected by what its column has seen in the rows before
(`TableReader.reports_findings`).

Problems are in the order of places, where a row comes before its cells. As no two problems have one
place, this says which list they are. -/

namespace TabularView

/-- Problems come by rows. In a row the problem with the row itself comes first, and then those with
its cells from left to right. -/
def Problem.Precedes (p q : Problem) : Prop :=
  ∃ i j, p.rowIndex = some i ∧ q.rowIndex = some j ∧
    (i < j ∨ i = j ∧ ∃ k, q.columnIndex = some k ∧ ∀ k', p.columnIndex = some k' → k' < k)

namespace TableReader

variable (r : TableReader)

/-! ## Findings -/

/-- The problem with a cell: it is no text, or a text that its column rejects. -/
inductive FindsAt (row index : Nat) (name : String) (inference : ColumnInference) (cell : Bytes) :
    Problem → Prop
  | undecodable (hcell : cell ≠ []) (hdecode : r.encoding.decode? cell = none) :
      FindsAt row index name inference cell
        (((r.problem ("Value is not valid " ++ r.encoding.name ++ " text")).atRow row).atColumn
          index name)
  | rejected {value : String} {rejection : Rejection} (htext : r.text? cell = some value)
      (hrejected : (inference.observe value).2 = some rejection) :
      FindsAt row index name inference cell
        ((((r.problem rejection.message).atRow row).atColumn index name).withValue value)

/-- The problems with rows under columns of these names: rows with more fields than there are
columns, and problems with cells, given what their columns have seen in the rows before. -/
inductive Finds (names : List String) (rows : List Csv.Record) : Problem → Prop
  | overlong {i : Nat} {cells : Csv.Record} (hrow : rows[i]? = some cells)
      (hlong : names.length < cells.length) :
      Finds names rows (r.overlong i cells.length names.length)
  | cell {i k : Nat} {cells : Csv.Record} {cell : Bytes} {name : String} {p : Problem}
      (hrow : rows[i]? = some cells) (hcell : cells[k]? = some cell) (hname : names[k]? = some name)
      (hfinds : r.FindsAt i k name
        ((ColumnInference.start Checker.chain).observeList (r.texts k (rows.take i))) cell p) :
      Finds names rows p

variable {r}

theorem FindsAt.rowIndex {row index : Nat} {name : String} {inference : ColumnInference}
    {cell : Bytes} {p : Problem} (h : r.FindsAt row index name inference cell p) :
    p.rowIndex = some row := by
  cases h <;> rfl

theorem FindsAt.columnIndex {row index : Nat} {name : String} {inference : ColumnInference}
    {cell : Bytes} {p : Problem} (h : r.FindsAt row index name inference cell p) :
    p.columnIndex = some index := by
  cases h <;> rfl

theorem Finds.errorType {names : List String} {rows : List Csv.Record} {p : Problem}
    (h : r.Finds names rows p) : p.errorType = .invalidFieldValue := by
  cases h with
  | overlong => rfl
  | cell _ _ _ hfinds => cases hfinds <;> rfl

variable (r)

/-! ## Problems with a cell -/

theorem mem_readCell {row index : Nat} {c : ColumnState} {cell : Bytes} {p : Problem} :
    p ∈ (r.readCell row index c cell).2 ↔ r.FindsAt row index c.name c.inference cell p := by
  rw [readCell]
  split
  · next hcell =>
      refine ⟨fun h => (List.not_mem_nil h).elim, fun h => ?_⟩
      cases h with
      | undecodable hne => exact absurd hcell hne
      | rejected htext => simp [text?, hcell] at htext
  · next hcell =>
      cases hdecode : r.encoding.decode? cell with
      | none =>
          constructor
          · intro h
            rw [List.mem_singleton.1 h]
            exact .undecodable hcell hdecode
          · intro h
            cases h with
            | undecodable => exact List.mem_singleton.2 rfl
            | rejected htext => simp [text?, hcell, hdecode] at htext
      | some value =>
          have htext : r.text? cell = some value := by simp [text?, hcell, hdecode]
          constructor
          · intro h
            cases hobserve : (c.inference.observe value).2 with
            | none => simp [hobserve] at h
            | some rejection =>
                simp only [hobserve, List.mem_singleton] at h
                rw [h]
                exact .rejected htext hobserve
          · intro h
            cases h with
            | undecodable _ hnone => simp [hdecode] at hnone
            | rejected htext' hrejected =>
                obtain rfl := Option.some.inj (htext.symm.trans htext')
                simp [hrejected]

/-- A cell has one problem at most. -/
theorem pairwise_readCell (row index : Nat) (c : ColumnState) (cell : Bytes) :
    (r.readCell row index c cell).2.Pairwise Problem.Precedes := by
  rw [readCell]
  split
  · exact .nil
  · cases r.encoding.decode? cell with
    | none => exact List.pairwise_singleton ..
    | some value =>
        dsimp only
        cases (c.inference.observe value).2 with
        | none => exact .nil
        | some rejection => exact List.pairwise_singleton ..

/-! ## Problems with a row -/

theorem mem_readCells {row index : Nat} {columns : List ColumnState} {cells : Csv.Record}
    {p : Problem} :
    p ∈ (r.readCells row index columns cells).2 ↔ ∃ k c cell, columns[k]? = some c ∧
      cells[k]? = some cell ∧ r.FindsAt row (index + k) c.name c.inference cell p := by
  induction columns generalizing cells index with
  | nil => simp [readCells]
  | cons c columns ih =>
      cases cells with
      | nil => simp [readCells]
      | cons cell cells =>
          have hstep : (r.readCells row index (c :: columns) (cell :: cells)).2 =
              (r.readCell row index c cell).2 ++
                (r.readCells row (index + 1) columns cells).2 := rfl
          rw [hstep, List.mem_append, mem_readCell, ih]
          -- a column is the first one or one of those behind it
          refine Iff.trans ?_ Nat.or_exists_add_one
          refine or_congr ?_ (exists_congr fun k => ?_)
          · simp
          · simp [Nat.add_assoc, Nat.add_comm 1]

theorem pairwise_readCells (row index : Nat) (columns : List ColumnState) (cells : Csv.Record) :
    (r.readCells row index columns cells).2.Pairwise Problem.Precedes := by
  induction columns generalizing cells index with
  | nil => exact .nil
  | cons c columns ih =>
      cases cells with
      | nil => exact .nil
      | cons cell cells =>
          refine List.pairwise_append.2
            ⟨r.pairwise_readCell row index c cell, ih (index + 1) cells, fun p hp q hq => ?_⟩
          have hp := r.mem_readCell.1 hp
          obtain ⟨k, _, _, -, -, hq⟩ := r.mem_readCells.1 hq
          refine ⟨row, row, hp.rowIndex, hq.rowIndex, .inr ⟨rfl, _, hq.columnIndex, ?_⟩⟩
          intro k' hk'
          obtain rfl := Option.some.inj (hp.columnIndex.symm.trans hk')
          omega

theorem mem_readRow {row : Nat} {columns : List ColumnState} {cells : Csv.Record} {p : Problem} :
    p ∈ (r.readRow row columns cells).2 ↔
      (columns.length < cells.length ∧ p = r.overlong row cells.length columns.length) ∨
        p ∈ (r.readCells row 0 columns cells).2 := by
  rw [readRow]
  dsimp only
  split
  · next hlong => simp [hlong]
  · next hlong => simp [hlong]

theorem rowIndex_of_mem_readRow {row : Nat} {columns : List ColumnState} {cells : Csv.Record}
    {p : Problem} (h : p ∈ (r.readRow row columns cells).2) : p.rowIndex = some row := by
  rcases r.mem_readRow.1 h with ⟨-, rfl⟩ | h
  · rfl
  · obtain ⟨_, _, _, -, -, h⟩ := r.mem_readCells.1 h
    exact h.rowIndex

theorem pairwise_readRow (row : Nat) (columns : List ColumnState) (cells : Csv.Record) :
    (r.readRow row columns cells).2.Pairwise Problem.Precedes := by
  have hcells := r.pairwise_readCells row 0 columns cells
  rw [readRow]
  dsimp only
  split
  · refine List.pairwise_cons.2 ⟨fun q hq => ?_, hcells⟩
    obtain ⟨_, _, _, -, -, hq⟩ := r.mem_readCells.1 hq
    refine ⟨row, row, rfl, hq.rowIndex, .inr ⟨rfl, _, hq.columnIndex, ?_⟩⟩
    rintro _ ⟨⟩
  · exact hcells

/-! ## Problems with rows -/

/-- The problems with a row are those that it has for the columns after all rows before it. -/
theorem mem_readRows {row : Nat} {columns : List ColumnState} {rows : List Csv.Record}
    {p : Problem} :
    p ∈ (r.readRows row columns rows).2 ↔ ∃ i cells, rows[i]? = some cells ∧
      p ∈ (r.readRow (row + i) (r.after columns (rows.take i)) cells).2 := by
  induction rows generalizing row columns with
  | nil => simp [readRows]
  | cons cells rest ih =>
      have hstep : (r.readRows row columns (cells :: rest)).2 =
          (r.readRow row columns cells).2 ++
            (r.readRows (row + 1) (r.readRow row columns cells).1 rest).2 := rfl
      have hsucc : ∀ i, r.after (r.after columns [cells]) (rest.take i) =
          r.after columns ((cells :: rest).take (i + 1)) := fun i => r.after_append ..
      rw [hstep, List.mem_append, ih, readRow_eq]
      -- a row is the first one, or it comes behind it and the columns have seen that one, too
      refine Iff.trans ?_ Nat.or_exists_add_one
      refine or_congr ?_ (exists_congr fun i => ?_)
      · simp [after_nil]
      · simp [hsucc, Nat.add_assoc, Nat.add_comm 1]

theorem pairwise_readRows (row : Nat) (columns : List ColumnState) (rows : List Csv.Record) :
    (r.readRows row columns rows).2.Pairwise Problem.Precedes := by
  induction rows generalizing row columns with
  | nil => exact .nil
  | cons cells rest ih =>
      refine List.pairwise_append.2
        ⟨r.pairwise_readRow row columns cells, ih (row + 1) _, fun p hp q hq => ?_⟩
      obtain ⟨i, _, -, hq⟩ := r.mem_readRows.1 hq
      exact ⟨row, _, r.rowIndex_of_mem_readRow hp, r.rowIndex_of_mem_readRow hq, .inl (by omega)⟩

/-! ## Problems with a file -/

theorem length_startColumns (headers : List String) :
    (startColumns headers).length = (ColumnName.normalizeHeaders headers).length := by
  simp [startColumns, ColumnName.length_normalizeHeaders]

/-- Columns start under the names made from their headers, with nothing seen. -/
theorem getElem?_startColumns {headers : List String} {k : Nat} {c : ColumnState}
    (h : (startColumns headers)[k]? = some c) :
    (ColumnName.normalizeHeaders headers)[k]? = some c.name ∧
      c.inference = .start Checker.chain := by
  rw [startColumns, List.getElem?_map] at h
  obtain ⟨⟨originalName, name⟩, hzip, rfl⟩ := Option.map_eq_some_iff.1 h
  exact ⟨(List.getElem?_zip_eq_some.1 hzip).2, rfl⟩

theorem mem_readRows_startColumns {headers : List String} {rows : List Csv.Record} {p : Problem} :
    p ∈ (r.readRows 0 (startColumns headers) rows).2 ↔
      r.Finds (ColumnName.normalizeHeaders headers) rows p := by
  simp only [mem_readRows, mem_readRow, mem_readCells, length_after, length_startColumns,
    getElem?_after, Nat.zero_add]
  constructor
  · rintro ⟨i, cells, hrow, ⟨hlong, rfl⟩ | ⟨k, c, cell, hc, hcell, hfinds⟩⟩
    · exact .overlong hrow hlong
    · obtain ⟨c, hstart, rfl⟩ := Option.map_eq_some_iff.1 hc
      obtain ⟨hname, hinference⟩ := getElem?_startColumns hstart
      rw [ColumnState.observeList, hinference] at hfinds
      exact .cell hrow hcell hname hfinds
  · intro h
    cases h with
    | overlong hrow hlong => exact ⟨_, _, hrow, .inl ⟨hlong, rfl⟩⟩
    | @cell i k cells cell name _ hrow hcell hname hfinds =>
        have hk : k < (startColumns headers).length := by
          rw [length_startColumns]
          exact (List.getElem?_eq_some_iff.1 hname).1
        have hstart := List.getElem?_eq_getElem hk
        obtain ⟨hname', hinference⟩ := getElem?_startColumns hstart
        obtain rfl := Option.some.inj (hname'.symm.trans hname)
        rw [← hinference] at hfinds
        exact ⟨i, cells, hrow, .inr ⟨k, _, cell, by rw [hstart]; rfl, hcell, hfinds⟩⟩

theorem exists_finds_of_mem_problems {stream : ByteStream} {report : TableReport}
    (h : r.read stream = .ok report) {p : Problem} (hp : p ∈ report.problems) :
    ∃ names, r.Finds names (r.dataRows stream) p := by
  obtain ⟨_, headers, -, -, rfl⟩ := r.exists_of_read_eq_ok h
  exact ⟨_, r.mem_readRows_startColumns.1 (List.mem_of_mem_take hp)⟩

/-! ## Columns -/

/-- Fields behind a column do not matter to it. -/
theorem texts_map_take {n k : Nat} (hk : k < n) (rows : List Csv.Record) :
    r.texts k (rows.map (·.take n)) = r.texts k rows := by
  rw [texts, List.filterMap_map]
  refine List.filterMap_congr fun cells _ => ?_
  simp [textAt?, hk]

/-- Neither the order of the rows nor fields behind the last column matter. -/
theorem columnsOf_texts_of_perm {headers : List (String × String)} {rows rows' : List Csv.Record}
    (h : (rows'.map (·.take headers.length)).Perm (rows.map (·.take headers.length))) :
    columnsOf headers (fun k => r.texts k rows') = columnsOf headers fun k => r.texts k rows := by
  refine List.ext_getElem? fun k => ?_
  rw [columnsOf, columnsOf, List.getElem?_mapIdx, List.getElem?_mapIdx]
  refine Option.map_congr fun header hheader => ?_
  have hk : k < headers.length := (List.getElem?_eq_some_iff.1 hheader).1
  -- what the column is told is in its own fields, and these are permuted
  have htexts : (r.texts k rows').Perm (r.texts k rows) := by
    rw [← r.texts_map_take hk rows, ← r.texts_map_take hk rows']
    exact h.filterMap _
  exact ColumnInference.finish_perm _ htexts _ _

/-! ## The report -/

/-- A problem points into the rows of a table. It names a row and either no column or one of the
table's, by its position and its name; a value is the text that the row has in this column. -/
def PointsInto (t : TableStats) (rows : List Csv.Record) (p : Problem) : Prop :=
  ∃ i cells, p.rowIndex = some i ∧ i < t.numberOfRows ∧ rows[i]? = some cells ∧
    (p.columnIndex = none ∧ p.columnName = none ∧ p.columnValue = none ∨
      ∃ k column, p.columnIndex = some k ∧ k < t.numberOfColumns ∧ t.columns[k]? = some column ∧
        p.columnName = some column.name ∧
        ∀ value, p.columnValue = some value → r.textAt? k cells = some value)

theorem Finds.pointsInto {t : TableStats} {names : List String} {rows : List Csv.Record}
    {p : Problem} (hrows : t.numberOfRows = rows.length)
    (hcolumns : t.numberOfColumns = t.columns.length) (hnames : t.columns.map (·.name) = names)
    (h : r.Finds names rows p) : r.PointsInto t rows p := by
  cases h with
  | @overlong i cells hrow hlong =>
      have hi : i < t.numberOfRows := hrows ▸ (List.getElem?_eq_some_iff.1 hrow).1
      exact ⟨i, cells, rfl, hi, hrow, .inl ⟨rfl, rfl, rfl⟩⟩
  | @cell i k cells cell name _ hrow hcell hname hfinds =>
      have hi : i < t.numberOfRows := hrows ▸ (List.getElem?_eq_some_iff.1 hrow).1
      rw [← hnames, List.getElem?_map] at hname
      obtain ⟨column, hcolumn, rfl⟩ := Option.map_eq_some_iff.1 hname
      have hk : k < t.numberOfColumns := hcolumns ▸ (List.getElem?_eq_some_iff.1 hcolumn).1
      refine ⟨i, cells, hfinds.rowIndex, hi, hrow, .inr ⟨k, column, hfinds.columnIndex, hk, hcolumn,
        ?_, fun value hvalue => ?_⟩⟩
      · cases hfinds <;> rfl
      · cases hfinds with
        | undecodable => cases hvalue
        | rejected htext =>
            obtain rfl := Option.some.inj hvalue
            rw [textAt?, hcell]
            exact htext

theorem read_eq_ok {stream : ByteStream} {header : Csv.Record} {rows : List Csv.Record}
    {headers : List String}
    (hread : Csv.read (PathName.delimiter r.fileName r.delimiter) stream =
      { records := header :: rows, failure := none })
    (hheaders : r.readHeaders 1 header = .ok headers) :
    r.read stream = .ok (r.report headers rows stream.bytes.length) := by
  simp only [read, hread, hheaders]
  rfl

/-- A file whose rows can be split and whose headers can be decoded is read, whatever its cells. The
report counts its rows, and each column is what inference makes of the texts in it, so that the
order of the rows and fields behind the last column do not matter. The problems are the findings in
the order of their places, of which the first thousand are recorded and the others counted. All of
them point into the table. -/
theorem reports_findings {stream : ByteStream} {header : Csv.Record} {rows : List Csv.Record}
    {headers : List String}
    (hread : Csv.read (PathName.delimiter r.fileName r.delimiter) stream =
      { records := header :: rows, failure := none })
    (hheaders : r.readHeaders 1 header = .ok headers) :
    ∃ (report : TableReport) (problems : List Problem), r.read stream = .ok report ∧
      report.stats.numberOfRows = rows.length ∧
      report.stats.numberOfColumns = headers.length ∧
      report.stats.columns =
        columnsOf (headers.zip (ColumnName.normalizeHeaders headers)) (fun k => r.texts k rows) ∧
      (∀ stream' rows', Csv.read (PathName.delimiter r.fileName r.delimiter) stream' =
          { records := header :: rows', failure := none } →
        (rows'.map (·.take headers.length)).Perm (rows.map (·.take headers.length)) →
        ∃ report', r.read stream' = .ok report' ∧
          report'.stats.columns = report.stats.columns) ∧
      (∀ p, p ∈ problems ↔ r.Finds (ColumnName.normalizeHeaders headers) rows p) ∧
      problems.Pairwise Problem.Precedes ∧
      report.problems = problems.take 1000 ∧
      report.suppressed = problems.length - 1000 ∧
      ∀ p ∈ report.problems, r.PointsInto report.stats rows p := by
  have hcolumns := r.columns_report headers rows stream.bytes.length
  have hcount := r.numberOfColumns_report headers rows stream.bytes.length
  have hnames := r.map_name_columns_report headers rows stream.bytes.length
  refine ⟨r.report headers rows stream.bytes.length, (r.readRows 0 (startColumns headers) rows).2,
    r.read_eq_ok hread hheaders, rfl, ?_, hcolumns, ?_, fun p => r.mem_readRows_startColumns,
    r.pairwise_readRows 0 _ rows, rfl, rfl, fun p hp => ?_⟩
  · rw [hcount, length_columns_report]
  · intro stream' rows' hread' hperm
    refine ⟨_, r.read_eq_ok hread' hheaders, ?_⟩
    rw [hcolumns, columns_report]
    refine r.columnsOf_texts_of_perm ?_
    rwa [List.length_zip, ColumnName.length_normalizeHeaders, Nat.min_self]
  · have hfinds := r.mem_readRows_startColumns.1 (List.mem_of_mem_take hp)
    exact hfinds.pointsInto r rfl hcount hnames

/-- A row that is too long, with a value that is no text and a day that does not exist, and a row
that is too short, in both orders. -/
theorem reports_findings_ragged :
    let r : TableReader := .ofFile "t.csv"
    let bytes := (ByteStream.ofAscii "k,day\n").bytes
    let long := (255 : UInt8) :: (ByteStream.ofAscii ",2024-13-01,x\n").bytes
    let short := (ByteStream.ofAscii "7\n").bytes
    let day := (ByteStream.ofAscii "2024-13-01").bytes
    ∃ report report', r.read { bytes := bytes ++ long ++ short } = .ok report ∧
      r.read { bytes := bytes ++ short ++ long } = .ok report' ∧
      report'.stats.columns = report.stats.columns ∧
      (∀ p ∈ report.problems, r.PointsInto report.stats [[[255], day, [120]], [[55]]] p) ∧
      report.stats.columns = [
        { name := "k", originalName := "k", fieldType := .number },
        { name := "day", originalName := "day", fieldType := .string, longestString := some 10 }] ∧
      report.problems.map (fun p => (p.rowIndex, p.columnIndex, p.columnValue)) =
        [(some 0, none, none), (some 0, some 0, none), (some 0, some 1, some "2024-13-01")] ∧
      report.suppressed = 0 := by
  intro r bytes long short day
  have hread : Csv.read (PathName.delimiter r.fileName r.delimiter)
      { bytes := bytes ++ long ++ short } = {
        records := [[107], [100, 97, 121]] :: [[[255], day, [120]], [[55]]]
        failure := none } := by
    decide +kernel
  have hread' : Csv.read (PathName.delimiter r.fileName r.delimiter)
      { bytes := bytes ++ short ++ long } = {
        records := [[107], [100, 97, 121]] :: [[[55]], [[255], day, [120]]]
        failure := none } := by
    decide +kernel
  have hheaders : r.readHeaders 1 [[107], [100, 97, 121]] = .ok ["k", "day"] := by decide +kernel
  obtain ⟨report, problems, hreport, -, -, -, hperm, -, -, -, -, hpoints⟩ :=
    r.reports_findings hread hheaders
  obtain ⟨report', hreport', hcolumns⟩ := hperm _ _ hread' (by decide)
  refine ⟨report, report', hreport, hreport', hcolumns, hpoints, ?_⟩
  rw [r.read_eq_ok hread hheaders] at hreport
  obtain rfl := Except.ok.inj hreport
  decide +kernel

end TableReader

end TabularView
