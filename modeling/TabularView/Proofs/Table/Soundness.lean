import TabularView.Proofs.Column.Names
import TabularView.Proofs.Table.Appending

set_option autoImplicit false

/-! # Sound tables

Later stages take for granted that a table has columns, that their names are valid and different,
and that text columns, and no others, have a width. All of it holds of a table read from a file
(`TableReader.sound_of_read_eq_ok`), and of a sound table to which sound ones are appended
(`Sound.append`): names are those of the table, and a width can only grow. -/

namespace TabularView

/-! ## Widths of texts -/

theorem Text.one_le_units16 {raw : String} (h : trim raw ≠ "") : 1 ≤ units16 raw := by
  cases hchars : raw.toList with
  | nil =>
      have hempty : trim raw = "" := by
        rw [trim, hchars]
        rfl
      exact absurd hempty h
  | cons c rest =>
      rw [units16, hchars, charsUnits16]
      exact Nat.le_add_right_of_le (one_le_charUnits16 c)

/-- The widest of some texts is not empty unless all of them are blank. -/
theorem one_le_widest {raws : List String} (h : nonBlank raws ≠ []) : 1 ≤ widest raws := by
  obtain ⟨raw, rest, hraws⟩ := List.exists_cons_of_ne_nil h
  have hmem : raw ∈ nonBlank raws := by
    rw [hraws]
    exact List.mem_cons_self ..
  have hnonBlank : Text.trim raw ≠ "" := (mem_nonBlank.1 hmem).2
  rw [widest, hraws, List.foldl_cons, Nat.max_comm, foldl_max_units16]
  exact Nat.le_trans (Text.one_le_units16 hnonBlank) (Nat.le_max_left ..)

/-! ## Columns -/

/-- Text columns have a width of at least one, other columns have none. -/
structure Column.IsMeasured (column : Column) : Prop where
  isSome_iff : column.longestString.isSome = true ↔ column.fieldType = .string
  one_le : ∀ width, column.longestString = some width → 1 ≤ width

theorem isMeasured_columnOf (name originalName : String) (texts : List String) :
    (TableReader.columnOf name originalName texts).IsMeasured := by
  have hwidth := TableReader.longestString_columnOf name originalName texts
  by_cases hstring : (TableReader.columnOf name originalName texts).fieldType = .string
  · rw [if_pos hstring] at hwidth
    refine ⟨by simp [hwidth, hstring], fun width h => ?_⟩
    obtain rfl := Option.some.inj (hwidth.symm.trans h)
    -- a column of blanks would be of unknown type
    refine one_le_widest fun hblank => ?_
    rw [TableReader.fieldType_columnOf, if_pos hblank] at hstring
    cases hstring
  · rw [if_neg hstring] at hwidth
    exact ⟨by simp [hwidth, hstring], by simp [hwidth]⟩

theorem FieldType.eq_string_of_merge? {s t : FieldType} (h : s.merge? t = some .string) :
    s = .string ∨ t = .string := by
  revert h
  cases s <;> cases t <;> decide

theorem one_le_mergeWidths {current added : Option Nat} {width : Nat}
    (h : current = some width ∨ added = some width) (hwidth : 1 ≤ width) :
    1 ≤ (mergeWidths current added).getD 0 := by
  rcases h with rfl | rfl
  · cases added with
    | none => exact hwidth
    | some other => exact Nat.le_trans hwidth (Nat.le_max_left ..)
  · cases current with
    | none => exact hwidth
    | some other => exact Nat.le_trans hwidth (Nat.le_max_right ..)

theorem Column.IsMeasured.exists_width {column : Column} (h : column.IsMeasured)
    (hstring : column.fieldType = .string) :
    ∃ width, column.longestString = some width ∧ 1 ≤ width := by
  obtain ⟨width, hwidth⟩ := Option.isSome_iff_exists.1 (h.isSome_iff.2 hstring)
  exact ⟨width, hwidth, h.one_le width hwidth⟩

theorem Column.IsMeasured.merge {current added column : Column} (h : current.IsMeasured)
    (h' : added.IsMeasured) (hmerge : current.merge added = .ok column) : column.IsMeasured := by
  obtain ⟨-, type, htype, rfl⟩ := Column.merge_eq_ok_iff.1 hmerge
  by_cases hstring : type = .string
  · subst hstring
    refine ⟨by simp, fun width hwidth => ?_⟩
    obtain rfl := Option.some.inj hwidth
    -- one of the two is a text column and has a width already
    rcases FieldType.eq_string_of_merge? htype with hcurrent | hadded
    · obtain ⟨width, hwidth, hone⟩ := h.exists_width hcurrent
      exact one_le_mergeWidths (Or.inl hwidth) hone
    · obtain ⟨width, hwidth, hone⟩ := h'.exists_width hadded
      exact one_le_mergeWidths (Or.inr hwidth) hone
  · exact ⟨by simp [hstring], by simp [hstring]⟩

/-! ## Tables -/

namespace TableStats

/-- What can be relied on in a table. -/
structure Sound (t : TableStats) : Prop where
  counted : t.numberOfColumns = t.columns.length
  nonempty : 1 ≤ t.numberOfColumns
  named : ∀ name ∈ t.columns.map (·.name), ColumnName.IsValid name
  distinct : (t.columns.map (·.name)).Nodup
  measured : ∀ column ∈ t.columns, column.IsMeasured

/-- A sound table to which another one has been appended is sound. -/
theorem Sound.append {existing incoming merged : TableStats} (h : existing.Sound)
    (h' : incoming.Sound) (happend : existing.append incoming = .ok merged) : merged.Sound := by
  have hlength := length_columns_of_append happend
  have hnames := map_name_columns_of_append happend
  obtain ⟨-, -, columns, hmerge, rfl⟩ := append_eq_ok_iff.1 happend
  refine ⟨h.counted.trans hlength.symm, h.nonempty, ?_, ?_, ?_⟩
  · rw [hnames]
    exact h.named
  · rw [hnames]
    exact h.distinct
  · rw [mergeColumns_eq_mapM] at hmerge
    refine forall_mem_of_mapM_eq_ok hmerge fun pair hpair column hcolumn => ?_
    obtain ⟨hcurrent, hadded⟩ := List.of_mem_zip hpair
    exact (h.measured _ hcurrent).merge (h'.measured _ hadded) hcolumn

end TableStats

namespace TableReader

variable (r : TableReader)

theorem map_name_columnsOf (headers : List (String × String)) (texts : Nat → List String) :
    (columnsOf headers texts).map (·.name) = headers.map (·.2) := by
  induction headers generalizing texts with
  | nil => rfl
  | cons header headers ih =>
      rw [columnsOf_cons, List.map_cons, List.map_cons, ih]
      rfl

/-- The names of a report's columns are made from its headers. -/
theorem map_name_columns_report (headers : List String) (rows : List Csv.Record)
    (fileSize : Nat) :
    (r.report headers rows fileSize).stats.columns.map (·.name) =
      ColumnName.normalizeHeaders headers := by
  have hlength := ColumnName.length_normalizeHeaders headers
  rw [columns_report, map_name_columnsOf, List.map_snd_zip (Nat.le_of_eq hlength)]

theorem numberOfColumns_report (headers : List String) (rows : List Csv.Record)
    (fileSize : Nat) :
    (r.report headers rows fileSize).stats.numberOfColumns =
      (r.report headers rows fileSize).stats.columns.length :=
  (List.length_map _).symm

/-- A table that is read from a file is sound. -/
theorem sound_of_read_eq_ok {stream : ByteStream} {report : TableReport}
    (h : r.read stream = .ok report) : report.stats.Sound := by
  have hne := r.columns_ne_nil_of_read_eq_ok h
  obtain ⟨header, headers, -, -, rfl⟩ := r.exists_of_read_eq_ok h
  have hcounted := r.numberOfColumns_report headers (r.dataRows stream) stream.bytes.length
  have hnames := r.map_name_columns_report headers (r.dataRows stream) stream.bytes.length
  refine ⟨hcounted, ?_, ?_, ?_, fun column hcolumn => ?_⟩
  · rw [hcounted]
    exact List.length_pos_iff.2 hne
  · rw [hnames]
    exact fun name hname => ColumnName.isValid_of_mem_normalizeHeaders hname
  · rw [hnames]
    exact ColumnName.nodup_normalizeHeaders headers
  · rw [columns_report, columnsOf, List.mem_mapIdx] at hcolumn
    obtain ⟨k, hk, rfl⟩ := hcolumn
    exact isMeasured_columnOf _ _ _

end TableReader

end TabularView
