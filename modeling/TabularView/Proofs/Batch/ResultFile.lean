import TabularView.Batch.Json
import TabularView.CommandLine.Run
import TabularView.Proofs.Batch.History
import TabularView.Proofs.CommandLine.Directory
import TabularView.Proofs.Encoding.Utf8
import TabularView.Proofs.Json.Fields

set_option autoImplicit false

/-! # The result file

The result of a batch is written to a file, from which its view is planned again and the next batch
starts. Six records go into it, each with a writer and a reader that have to agree on which fields
are left out, which are null and how choices are called. They do for all results whose counts fit in
64 bits (`BatchResult.Fits`), so a file loses nothing (`BatchResult.keeps_pretty`). -/

namespace TabularView

open Json (ReadsBack exact_of_mem_optionalField field?_eq option?_eq option?_eq_of_toList
  readsBack_array readsBack_bool readsBack_choice readsBack_ofNat readsBack_ofNat_of_mem
  readsBack_ofOption readsBack_string readsBack_string_of_mem)

/-! ## Choices -/

theorem FieldType.readsBack (t : FieldType) : ReadsBack toJson ofJson? t :=
  readsBack_choice t.ofName?_name

theorem ErrorKind.readsBack (kind : ErrorKind) :
    ReadsBack (fun kind => .string (name kind)) (Json.choice? ofName?) kind :=
  readsBack_choice kind.ofName?_name

theorem BatchStatus.readsBack (status : BatchStatus) :
    ReadsBack (fun status => .string (name status)) (Json.choice? ofName?) status :=
  readsBack_choice (by cases status <;> rfl)

theorem JoinKind.readsBack (kind : JoinKind) :
    ReadsBack (fun kind => .string (name kind)) (Json.choice? ofName?) kind :=
  readsBack_choice kind.ofName?_name

/-! ## Columns and tables -/

/-- The width fits in 64 bits. -/
def Column.Fits (c : Column) : Prop :=
  ∀ n ∈ c.longestString, n < 2 ^ 64

instance (c : Column) : Decidable c.Fits :=
  inferInstanceAs (Decidable (∀ n ∈ c.longestString, n < 2 ^ 64))

theorem Column.readsBack {c : Column} (h : c.Fits) : ReadsBack toJson ofJson? c := by
  have hname := readsBack_string c.name
  have horiginal := readsBack_string c.originalName
  have htype := c.fieldType.readsBack
  have hlongest := readsBack_ofNat_of_mem h
  constructor
  · refine .object ?_
    simp only [List.forall_mem_append, List.forall_mem_cons]
    exact ⟨⟨hname.exact, horiginal.exact, htype.exact, List.forall_mem_nil _⟩,
      fun _ => exact_of_mem_optionalField hlongest⟩
  · simp only [toJson, ofJson?, Json.record?, Option.bind_eq_bind, Option.bind_some]
    rw [field?_eq hname (by simp), field?_eq horiginal (by simp), field?_eq htype (by simp),
      option?_eq_of_toList hlongest rfl (by simp)]
    rfl

/-- The counts fit in 64 bits. -/
structure TableStats.Fits (t : TableStats) : Prop where
  rows : t.numberOfRows < 2 ^ 64
  width : t.numberOfColumns < 2 ^ 64
  size : t.fileSize < 2 ^ 64
  columns : ∀ c ∈ t.columns, c.Fits

instance (t : TableStats) : Decidable t.Fits :=
  decidable_of_iff (t.numberOfRows < 2 ^ 64 ∧ t.numberOfColumns < 2 ^ 64 ∧ t.fileSize < 2 ^ 64 ∧
    ∀ c ∈ t.columns, c.Fits)
    ⟨fun ⟨hrows, hwidth, hsize, hcolumns⟩ => ⟨hrows, hwidth, hsize, hcolumns⟩,
      fun h => ⟨h.rows, h.width, h.size, h.columns⟩⟩

theorem TableStats.readsBack {t : TableStats} (h : t.Fits) : ReadsBack toJson ofJson? t := by
  have hfile := readsBack_string t.fileName
  have hname := readsBack_string t.tableName
  have hrows := readsBack_ofNat h.rows
  have hwidth := readsBack_ofNat h.width
  have hcolumns := readsBack_array fun c hc => Column.readsBack (h.columns c hc)
  have hsize := readsBack_ofNat h.size
  constructor
  · refine .object ?_
    simp only [List.forall_mem_cons]
    exact ⟨hfile.exact, hname.exact, hrows.exact, hwidth.exact, hcolumns.exact, hsize.exact,
      List.forall_mem_nil _⟩
  · simp only [toJson, ofJson?, Json.record?, Option.bind_eq_bind, Option.bind_some]
    rw [field?_eq hfile (by simp), field?_eq hname (by simp), field?_eq hrows (by simp),
      field?_eq hwidth (by simp), field?_eq hcolumns (by simp), field?_eq hsize (by simp)]
    rfl

/-! ## Problems -/

/-- The places fit in 64 bits. -/
structure Problem.Fits (p : Problem) : Prop where
  row : ∀ n ∈ p.rowIndex, n < 2 ^ 64
  column : ∀ n ∈ p.columnIndex, n < 2 ^ 64

instance (p : Problem) : Decidable p.Fits :=
  decidable_of_iff ((∀ n ∈ p.rowIndex, n < 2 ^ 64) ∧ ∀ n ∈ p.columnIndex, n < 2 ^ 64)
    ⟨fun ⟨hrow, hcolumn⟩ => ⟨hrow, hcolumn⟩, fun h => ⟨h.row, h.column⟩⟩

theorem Problem.readsBack {p : Problem} (h : p.Fits) : ReadsBack toJson ofJson? p := by
  have hfile := readsBack_string p.fileName
  have htable := readsBack_string_of_mem p.tableName
  have hrow := readsBack_ofNat_of_mem h.row
  have hcolumn := readsBack_ofNat_of_mem h.column
  have hname := readsBack_string_of_mem p.columnName
  have hvalue := readsBack_string_of_mem p.columnValue
  have htype := p.errorType.readsBack
  have hmessage := readsBack_string p.message
  constructor
  · refine .object ?_
    simp only [List.forall_mem_append, List.forall_mem_cons]
    exact ⟨⟨hfile.exact, fun _ => exact_of_mem_optionalField htable⟩,
      (readsBack_ofOption hrow rfl).exact, (readsBack_ofOption hcolumn rfl).exact,
      (readsBack_ofOption hname rfl).exact, (readsBack_ofOption hvalue rfl).exact, htype.exact,
      hmessage.exact, List.forall_mem_nil _⟩
  · simp only [toJson, ofJson?, Json.record?, Option.bind_eq_bind, Option.bind_some]
    rw [field?_eq hfile (by simp), option?_eq_of_toList htable rfl (by simp),
      option?_eq hrow rfl (by simp), option?_eq hcolumn rfl (by simp),
      option?_eq hname rfl (by simp), option?_eq hvalue rfl (by simp),
      field?_eq htype (by simp), field?_eq hmessage (by simp)]
    rfl

/-! ## Joins -/

/-- The position and the width fit in 64 bits. -/
structure JoinColumn.Fits (c : JoinColumn) : Prop where
  index : c.columnIndex < 2 ^ 64
  length : ∀ n ∈ c.columnLength, n < 2 ^ 64

instance (c : JoinColumn) : Decidable c.Fits :=
  decidable_of_iff (c.columnIndex < 2 ^ 64 ∧ ∀ n ∈ c.columnLength, n < 2 ^ 64)
    ⟨fun ⟨hindex, hlength⟩ => ⟨hindex, hlength⟩, fun h => ⟨h.index, h.length⟩⟩

theorem JoinColumn.readsBack {c : JoinColumn} (h : c.Fits) : ReadsBack toJson ofJson? c := by
  have hindex := readsBack_ofNat h.index
  have hname := readsBack_string c.columnName
  have htype := c.columnType.readsBack
  have hlength := readsBack_ofNat_of_mem h.length
  have hjoin := readsBack_bool c.isJoinColumn
  have hselected := readsBack_bool c.isSelectedColumn
  constructor
  · refine .object ?_
    simp only [List.forall_mem_append, List.forall_mem_cons]
    exact ⟨⟨⟨hindex.exact, hname.exact, htype.exact, List.forall_mem_nil _⟩,
      fun _ => exact_of_mem_optionalField hlength⟩, hjoin.exact, hselected.exact,
      List.forall_mem_nil _⟩
  · simp only [toJson, ofJson?, Json.record?, Option.bind_eq_bind, Option.bind_some]
    rw [field?_eq hindex (by simp), field?_eq hname (by simp), field?_eq htype (by simp),
      option?_eq_of_toList hlength rfl (by simp), field?_eq hjoin (by simp),
      field?_eq hselected (by simp)]
    rfl

theorem JoinTable.readsBack {t : JoinTable} (h : ∀ c ∈ t.columns, c.Fits) :
    ReadsBack toJson ofJson? t := by
  have hname := readsBack_string t.tableName
  have hbacking := readsBack_string t.backingTableName
  have hfile := readsBack_string t.fileName
  have hcolumns := readsBack_array fun c hc => JoinColumn.readsBack (h c hc)
  constructor
  · refine .object ?_
    simp only [List.forall_mem_cons]
    exact ⟨hname.exact, hbacking.exact, hfile.exact, hcolumns.exact, List.forall_mem_nil _⟩
  · simp only [toJson, ofJson?, Json.record?, Option.bind_eq_bind, Option.bind_some]
    rw [field?_eq hname (by simp), field?_eq hbacking (by simp), field?_eq hfile (by simp),
      field?_eq hcolumns (by simp)]
    rfl

/-! ## Results -/

namespace BatchResult

/-- All counts in the result fit in 64 bits. -/
structure Fits (r : BatchResult) : Prop where
  tables : ∀ t ∈ r.fileInformation, t.Fits
  problems : ∀ p ∈ r.problems, p.Fits
  joined : ∀ t ∈ r.joinInformation, ∀ c ∈ t.columns, c.Fits

instance (r : BatchResult) : Decidable r.Fits :=
  decidable_of_iff ((∀ t ∈ r.fileInformation, t.Fits) ∧ (∀ p ∈ r.problems, p.Fits) ∧
    ∀ t ∈ r.joinInformation, ∀ c ∈ t.columns, c.Fits)
    ⟨fun ⟨htables, hproblems, hjoined⟩ => ⟨htables, hproblems, hjoined⟩,
      fun h => ⟨h.tables, h.problems, h.joined⟩⟩

theorem readsBack {r : BatchResult} (h : r.Fits) : ReadsBack toJson ofJson? r := by
  have hstatus := r.status.readsBack
  have htables := readsBack_array fun t ht => TableStats.readsBack (h.tables t ht)
  have hproblems := readsBack_array fun p hp => Problem.readsBack (h.problems p hp)
  have hjoined := readsBack_array fun t ht => JoinTable.readsBack (h.joined t ht)
  have hkind := r.joinKind.readsBack
  have hview := readsBack_string_of_mem r.viewName
  have hstatement := readsBack_string_of_mem r.viewStatement
  have hstatements := readsBack_array fun s (_ : s ∈ r.tableStatements) => readsBack_string s
  constructor
  · refine .object ?_
    simp only [List.forall_mem_cons]
    exact ⟨hstatus.exact, htables.exact, hproblems.exact, hjoined.exact, hkind.exact,
      (readsBack_ofOption hview rfl).exact, (readsBack_ofOption hstatement rfl).exact,
      hstatements.exact, List.forall_mem_nil _⟩
  · simp only [toJson, ofJson?, Json.record?, Option.bind_eq_bind, Option.bind_some]
    rw [field?_eq hstatus (by simp), field?_eq htables (by simp), field?_eq hproblems (by simp),
      field?_eq hjoined (by simp), field?_eq hkind (by simp), option?_eq hview rfl (by simp),
      option?_eq hstatement rfl (by simp), field?_eq hstatements (by simp)]
    rfl

/-- The text of a result is read as the result. -/
theorem bind_parse?_pretty {r : BatchResult} (h : r.Fits) (level : Nat) :
    (Json.parse? (r.toJson.pretty level)).bind ofJson? = some r := by
  rw [Json.parse?_pretty (readsBack h).exact]
  exact (readsBack h).read

end BatchResult

/-! ## Files -/

/-- A document that is in a file is handed out, and nothing else happens. -/
theorem CommandLine.Step.run_document {α : Type} {openTask parseTask : Task} {path : String}
    {parse? : Bytes → Option α} {d : Directory} {bytes : Bytes} {a : α}
    (h : d.read path = .ok bytes) (ha : parse? bytes = some a) :
    (document openTask parseTask path parse?).run.run d =
      { value := .ok a, directory := d, printed := "" } := by
  have hread : ∃ next, (document openTask parseTask path parse?).run = .read path next ∧
      next (.ok bytes) = .done (.ok a) := by
    refine ⟨_, rfl, ?_⟩
    change Session.bind (.done (.ok (Except.ok (some bytes)))) (ExceptT.bindCont _) = _
    simp only [Session.bind, ExceptT.bindCont, Option.bind_some, ha]
    rfl
  obtain ⟨next, hdocument, hnext⟩ := hread
  rw [hdocument, Session.run, Session.runFrom, h, hnext]
  rfl

theorem CommandLine.run_loadResult {d : Directory} {path text : String} {r : BatchResult}
    (h : d.read path = .ok text.toUTF8.toList)
    (hr : (Json.parse? text).bind BatchResult.ofJson? = some r) :
    (loadResult path).run.run d = { value := .ok r, directory := d, printed := "" } := by
  refine Step.run_document h ?_
  simp only [Encoding.decodeUtf8?_toUTF8, Option.bind_eq_bind, Option.bind_some,
    String.ofList_toList, hr]

/-- The text keeps all of the result. It is read as the result, also from a file to which it has
been written. The view of a successful batch is planned again under the same name and with the same
statement, and every further batch has the same result over the tables that were read. -/
structure BatchResult.Keeps (r : BatchResult) (text : String) : Prop where
  read : (Json.parse? text).bind ofJson? = some r
  load : ∀ (d after : Directory) (path : String), d.write path text = .ok after →
    (CommandLine.loadResult path).run.run after =
      { value := .ok r, directory := after, printed := "" }
  view : ∀ again, (Json.parse? text).bind ofJson? = some again →
    ∀ (i : Ingestor) (cancelled : Bool) (uploads : List Upload) (prior : List TableStats),
      r = i.ingest cancelled uploads prior → r.status = .ok → ∃ view, again.view = .ok view ∧
        r.viewName = some view.name ∧ r.viewStatement = some view.statement
  next : ∀ again, (Json.parse? text).bind ofJson? = some again →
    ∀ (i : Ingestor) (cancelled : Bool) (uploads : List Upload),
      i.ingest cancelled uploads again.fileInformation =
        i.ingest cancelled uploads r.fileInformation

/-- A written result loses nothing. -/
theorem BatchResult.keeps_pretty {r : BatchResult} (h : r.Fits) :
    r.Keeps (r.toJson.pretty 0) where
  read := bind_parse?_pretty h 0
  load d after path hwrite :=
    CommandLine.run_loadResult (Directory.read_of_write hwrite) (bind_parse?_pretty h 0)
  view again hagain i cancelled uploads prior hr hok := by
    rw [bind_parse?_pretty h 0] at hagain
    cases hagain
    subst hr
    obtain ⟨s, hs, hresult⟩ := Ingestor.exists_succeeds_of_status_eq_ok hok
    rw [hresult]
    exact ⟨s.view.definition, Ingestor.view_resultOf hs, rfl, rfl⟩
  next again hagain i cancelled uploads := by
    rw [bind_parse?_pretty h 0] at hagain
    cases hagain
    rfl

/-- A successful batch, one row of which is too long for the header. -/
theorem BatchResult.keeps_pretty_long_row :
    let r := Ingestor.plain.ingest false [Upload.ofText "a.csv" "k\nx\ny,z\n"] []
    r.status = .ok ∧ r.Fits ∧ r.Keeps (r.toJson.pretty 0) := by
  intro r
  have hfits : r.Fits := by decide +kernel
  exact ⟨by decide +kernel, hfits, keeps_pretty hfits⟩

end TabularView
