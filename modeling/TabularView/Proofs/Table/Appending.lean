import Mathlib.Algebra.Ring.Nat
import TabularView.Proofs.Fallible
import TabularView.Proofs.Table.Reading
import TabularView.Table.Append

set_option autoImplicit false

/-! # Appending and reading at once

The columns of a table carry a type and a width, and that is enough to append to it: the columns
that come out are those of all files read as one (`TableReader.append_eq_columnOf`). It rests on
what the types of two lists of texts say about the type of both (`fieldType_columnOf_append`). -/

namespace TabularView

theorem FieldType.unknown_merge? (t : FieldType) : unknown.merge? t = some t := by
  cases t <;> rfl

theorem FieldType.merge?_unknown (t : FieldType) : t.merge? unknown = some t := by
  cases t <;> rfl

/-! ## What fits -/

/-- Columns of one name and of types that can be merged make a column. -/
theorem Column.merge_eq_ok_iff {current added column : Column} :
    current.merge added = .ok column ↔
      current.name = added.name ∧
        ∃ type, current.fieldType.merge? added.fieldType = some type ∧
          column = {
            name := current.name
            originalName := current.originalName
            fieldType := type
            longestString :=
              if type = .string then
                some ((mergeWidths current.longestString added.longestString).getD 0)
              else none } := by
  rw [merge]
  by_cases hname : current.name = added.name
  · rw [if_neg (not_not_intro hname)]
    cases hmerge : current.fieldType.merge? added.fieldType with
    | none => simp
    | some type => simp [hname, eq_comm]
  · simp [hname]

/-- Columns are merged pair by pair. -/
theorem mergeColumns_eq_mapM (currents addeds : List Column) :
    mergeColumns currents addeds =
      (currents.zip addeds).mapM fun (current, added) => current.merge added := by
  induction currents generalizing addeds with
  | nil => rfl
  | cons current currents ih =>
      cases addeds with
      | nil => rfl
      | cons added addeds =>
          rw [mergeColumns, List.zip_cons_cons, List.mapM_cons, ih]
          rfl

/-- A file extends a table if it is not the table's own and its columns can be merged with those of
the table one by one. -/
theorem TableStats.append_eq_ok_iff {existing incoming merged : TableStats} :
    existing.append incoming = .ok merged ↔
      existing.fileName ≠ incoming.fileName ∧
        existing.columns.length = incoming.columns.length ∧
        ∃ columns, mergeColumns existing.columns incoming.columns = .ok columns ∧
          merged = { existing with
            numberOfRows := existing.numberOfRows + incoming.numberOfRows
            columns := columns
            fileSize := existing.fileSize + incoming.fileSize } := by
  rw [append]
  by_cases hfile : existing.fileName = incoming.fileName
  · simp [hfile]
  · by_cases hlength : existing.columns.length = incoming.columns.length
    · rw [if_neg hfile, if_neg (not_not_intro hlength), bind_eq_ok_iff]
      simp [hfile, hlength, eq_comm]
    · simp [hfile, hlength]

/-- A table keeps the names of its columns when a file is appended. -/
theorem TableStats.map_name_columns_of_append {existing incoming merged : TableStats}
    (h : existing.append incoming = .ok merged) :
    merged.columns.map (·.name) = existing.columns.map (·.name) := by
  obtain ⟨-, hlength, columns, hcolumns, rfl⟩ := append_eq_ok_iff.1 h
  rw [mergeColumns_eq_mapM] at hcolumns
  have hkept : columns.map (·.name) =
      ((existing.columns.zip incoming.columns).map Prod.fst).map (·.name) := by
    rw [List.map_map]
    refine map_eq_of_mapM_eq_ok hcolumns fun pair column hcolumn => ?_
    obtain ⟨-, _, -, rfl⟩ := Column.merge_eq_ok_iff.1 hcolumn
    rfl
  rwa [List.map_fst_zip (Nat.le_of_eq hlength)] at hkept

theorem TableStats.length_columns_of_append {existing incoming merged : TableStats}
    (h : existing.append incoming = .ok merged) :
    merged.columns.length = existing.columns.length := by
  simpa using congrArg List.length (map_name_columns_of_append h)

namespace TableReader

/-! ## One column -/

/-- The type of texts: dates before numbers, and anything else is text. -/
theorem fieldType_columnOf (name originalName : String) (texts : List String) :
    (columnOf name originalName texts).fieldType =
      if nonBlank texts = [] then .unknown
      else if Checker.date.acceptsAll texts then .date
      else if Checker.number.acceptsAll texts then .number
      else .string := by
  rw [columnOf, ColumnInference.finish_start, ColumnInference.fieldType_start]
  split
  · rfl
  · cases hd : Checker.date.acceptsAll texts <;> cases hn : Checker.number.acceptsAll texts <;>
      simp only [Checker.chain, List.find?_cons, List.find?_nil, hd, hn] <;> rfl

theorem longestString_columnOf (name originalName : String) (texts : List String) :
    (columnOf name originalName texts).longestString =
      if (columnOf name originalName texts).fieldType = .string then some (widest texts)
      else none := by
  rw [columnOf, ColumnInference.finish_start]

theorem nonBlank_eq_nil_of_unknown {name originalName : String} {texts : List String}
    (h : (columnOf name originalName texts).fieldType = .unknown) : nonBlank texts = [] := by
  rw [fieldType_columnOf] at h
  split at h
  · assumption
  · split at h
    · cases h
    · split at h <;> cases h

/-- The type of all texts is known from the types of two parts, if these can be merged. -/
theorem fieldType_columnOf_append {name originalName name' originalName' : String}
    {texts texts' : List String} {t : FieldType}
    (h : (columnOf name originalName texts).fieldType.merge?
      (columnOf name' originalName' texts').fieldType = some t) :
    (columnOf name originalName (texts ++ texts')).fieldType = t := by
  have hblank : ∀ {l : List String}, nonBlank l = [] → ∀ c : Checker, c.acceptsAll l = true := by
    intro l hl c
    rw [Checker.acceptsAll, hl, List.all_nil]
  simp only [fieldType_columnOf, nonBlank_append, Checker.acceptsAll_append,
    List.append_eq_nil_iff] at h ⊢
  by_cases hb : nonBlank texts = []
  · rw [if_pos hb, FieldType.unknown_merge?] at h
    simpa [hb, hblank hb] using h
  · by_cases hb' : nonBlank texts' = []
    · rw [if_pos hb', FieldType.merge?_unknown] at h
      simpa [hb, hb', hblank hb'] using h
    · -- two known types are equal, and a checker accepts all texts if it accepts both parts
      simp only [hb, hb', if_false, false_and] at h ⊢
      revert h
      cases Checker.date.acceptsAll texts <;> cases Checker.number.acceptsAll texts <;>
        cases Checker.date.acceptsAll texts' <;> cases Checker.number.acceptsAll texts' <;>
        simp [FieldType.merge?]

/-- The width of all texts is known from the widths of two parts, if the parts make a text
column. -/
theorem mergeWidths_columnOf {name originalName name' originalName' : String}
    {texts texts' : List String}
    (h : (columnOf name originalName texts).fieldType.merge?
      (columnOf name' originalName' texts').fieldType = some .string) :
    (mergeWidths (columnOf name originalName texts).longestString
      (columnOf name' originalName' texts').longestString).getD 0 = widest (texts ++ texts') := by
  have hblank : ∀ {l : List String}, nonBlank l = [] → widest l = 0 := by
    intro l hl
    rw [widest, hl, List.foldl_nil]
  rw [longestString_columnOf, longestString_columnOf, widest_append]
  cases ht : (columnOf name originalName texts).fieldType with
  | string =>
      cases ht' : (columnOf name' originalName' texts').fieldType with
      | string => rfl
      | number => simp [ht, ht', FieldType.merge?] at h
      | date => simp [ht, ht', FieldType.merge?] at h
      | unknown =>
          -- nothing but blanks was added, so the width stays
          simp [mergeWidths, hblank (nonBlank_eq_nil_of_unknown ht')]
  | number => cases ht' : (columnOf name' originalName' texts').fieldType <;>
      simp [ht, ht', FieldType.merge?] at h
  | date => cases ht' : (columnOf name' originalName' texts').fieldType <;>
      simp [ht, ht', FieldType.merge?] at h
  | unknown =>
      -- nothing but blanks was there, so type and width are those added
      rw [ht, FieldType.unknown_merge?] at h
      simp [mergeWidths, Option.some.inj h, hblank (nonBlank_eq_nil_of_unknown ht)]

/-- Columns that can be merged make the column of both their texts. -/
theorem merge_columnOf {name originalName name' originalName' : String}
    {texts texts' : List String} {column : Column}
    (h : (columnOf name originalName texts).merge (columnOf name' originalName' texts') =
      .ok column) :
    column = columnOf name originalName (texts ++ texts') := by
  obtain ⟨-, t, ht, rfl⟩ := Column.merge_eq_ok_iff.1 h
  have htype : t = (columnOf name originalName (texts ++ texts')).fieldType :=
    (fieldType_columnOf_append ht).symm
  have hwidth : (if t = .string then
      some ((mergeWidths (columnOf name originalName texts).longestString
        (columnOf name' originalName' texts').longestString).getD 0) else none) =
      (columnOf name originalName (texts ++ texts')).longestString := by
    rw [longestString_columnOf name originalName (texts ++ texts'), ← htype]
    split
    · next hstring =>
        subst hstring
        rw [mergeWidths_columnOf ht]
    · rfl
  rw [hwidth, htype]
  rfl

/-! ## Tables -/

theorem mergeColumns_columnsOf {headers headers' : List (String × String)}
    {texts texts' : Nat → List String} {columns : List Column}
    (hlength : headers.length = headers'.length)
    (h : mergeColumns (columnsOf headers texts) (columnsOf headers' texts') = .ok columns) :
    columns = columnsOf headers fun k => texts k ++ texts' k := by
  induction headers generalizing headers' texts texts' columns with
  | nil =>
      cases h
      rfl
  | cons header headers ih =>
      cases headers' with
      | nil => exact absurd hlength (by simp)
      | cons header' headers' =>
          rw [columnsOf_cons, columnsOf_cons, mergeColumns] at h
          obtain ⟨column, hcolumn, h⟩ := bind_eq_ok_iff.1 h
          obtain ⟨rest, hrest, h⟩ := bind_eq_ok_iff.1 h
          cases h
          rw [columnsOf_cons, merge_columnOf hcolumn, ih (by simpa using hlength) hrest]

/-- A table that a file has been appended to. -/
theorem append_columnsOf {existing incoming merged : TableStats}
    {headers headers' : List (String × String)} {texts texts' : Nat → List String}
    (he : existing.columns = columnsOf headers texts)
    (hi : incoming.columns = columnsOf headers' texts')
    (h : existing.append incoming = .ok merged) :
    merged.columns = columnsOf headers (fun k => texts k ++ texts' k) ∧
      merged.numberOfRows = existing.numberOfRows + incoming.numberOfRows := by
  obtain ⟨-, hlength, columns, hcolumns, rfl⟩ := TableStats.append_eq_ok_iff.1 h
  rw [he, hi] at hcolumns hlength
  refine ⟨mergeColumns_columnsOf ?_ hcolumns, rfl⟩
  simpa [columnsOf] using hlength

/-- Tables read from files and appended one after the other. -/
theorem foldlM_append_columnsOf {files : List (TableReader × ByteStream)}
    {reports : List TableReport} {existing merged : TableStats} {headers : List (String × String)}
    {texts : Nat → List String}
    (hfiles : List.Forall₂ (fun file report => file.1.read file.2 = .ok report) files reports)
    (hexisting : existing.columns = columnsOf headers texts)
    (h : reports.foldlM (fun t report => t.append report.stats) existing = .ok merged) :
    merged.columns = columnsOf headers (fun k =>
        texts k ++ files.flatMap fun file => file.1.cellTexts file.2 k) ∧
      merged.numberOfRows =
        existing.numberOfRows + (reports.map fun report => report.stats.numberOfRows).sum := by
  induction hfiles generalizing existing texts with
  | nil =>
      cases h
      simpa using hexisting
  | cons hfile hrest ih =>
      next file report files reports =>
      obtain ⟨extended, hextended, h⟩ := bind_eq_ok_iff.1 h
      obtain ⟨headers', hreport⟩ := file.1.exists_columns_eq_of_read_eq_ok hfile
      obtain ⟨hcolumns, hrows⟩ := append_columnsOf hexisting hreport hextended
      obtain ⟨hmerged, hsum⟩ := ih hcolumns h
      refine ⟨?_, ?_⟩
      · rw [hmerged]
        simp only [List.flatMap_cons, List.append_assoc]
      · rw [hsum, hrows, List.map_cons, List.sum_cons, Nat.add_assoc]

/-- Appending files to the table of a first one gives the columns of all files read as one, under
the names and headers of the first, and as many rows as all have together. -/
theorem append_eq_columnOf {first : TableReader} {stream : ByteStream} {report : TableReport}
    {files : List (TableReader × ByteStream)} {reports : List TableReport} {merged : TableStats}
    (hfirst : first.read stream = .ok report)
    (hfiles : files.mapM (fun file => file.1.read file.2) = .ok reports)
    (h : reports.foldlM (fun t report => t.append report.stats) report.stats = .ok merged) :
    merged.columns = report.stats.columns.mapIdx (fun k column =>
        columnOf column.name column.originalName
          (first.cellTexts stream k ++ files.flatMap fun file => file.1.cellTexts file.2 k)) ∧
      merged.numberOfRows =
        report.stats.numberOfRows + (reports.map fun report => report.stats.numberOfRows).sum := by
  obtain ⟨headers, hcolumns⟩ := first.exists_columns_eq_of_read_eq_ok hfirst
  obtain ⟨hmerged, hrows⟩ := foldlM_append_columnsOf (mapM_eq_ok_iff.1 hfiles) hcolumns h
  refine ⟨?_, hrows⟩
  rw [hmerged, hcolumns, columnsOf, columnsOf, List.mapIdx_mapIdx]
  rfl

/-- A column of which the first file knows nothing takes type and width from the second. -/
theorem append_to_unknown_column :
    let a : TableReader := .ofFile "a.csv"
    let b : TableReader := .ofFile "b.csv"
    let stream : ByteStream := .ofAscii "k,v\n1,\n"
    let files : List (TableReader × ByteStream) := [(b, .ofAscii "k,v\n2, x\n3,y\n")]
    let report := a.report ["k", "v"] [[[49], []]] 7
    let more := b.report ["k", "v"] [[[50], [32, 120]], [[51], [121]]] 13
    let merged : TableStats := { report.stats with
      numberOfRows := 3
      fileSize := 20
      columns := [
        { name := "k", originalName := "k", fieldType := .number },
        { name := "v", originalName := "v", fieldType := .string, longestString := some 2 }] }
    a.read stream = .ok report ∧
      files.mapM (fun file => file.1.read file.2) = .ok [more] ∧
      [more].foldlM (fun t report => t.append report.stats) report.stats = .ok merged ∧
      merged.columns = report.stats.columns.mapIdx (fun k column =>
        columnOf column.name column.originalName
          (a.cellTexts stream k ++ files.flatMap fun file => file.1.cellTexts file.2 k)) ∧
      merged.numberOfRows = 3 := by
  intro a b stream files report more merged
  have hread : a.read stream = .ok report := by decide +kernel
  have hmore : files.mapM (fun file => file.1.read file.2) = .ok [more] := by decide +kernel
  have hmerged : [more].foldlM (fun t report => t.append report.stats) report.stats =
      .ok merged := by decide +kernel
  obtain ⟨hcolumns, hrows⟩ := append_eq_columnOf hread hmore hmerged
  exact ⟨hread, hmore, hmerged, hcolumns, hrows⟩

end TableReader

end TabularView
