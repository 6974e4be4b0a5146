import TabularView.Proofs.Batch.Arrival
import TabularView.Proofs.Batch.NameClashes

set_option autoImplicit false

/-! # One table of a batch

The files of a batch are applied to all tables in one go, but a table sees its own files only. What
becomes of it, and whether the engine has to drop it, are as if these files had been applied to it
alone (`Ingestor.ingest_separates`).

The argument is that of two states that agree on a table (`BatchState.AgreesOn`): a file for this
table keeps them so, and a file for another one may be applied to either of them alone. -/

namespace TabularView

/-! ## The files of a table -/

namespace Upload

/-- The order in which the files of one table are applied: by file name and operation. -/
def compareInTable (a b : Upload) : Ordering :=
  (Ord.compare a.fileName b.fileName).then (Ord.compare a.operation.rank b.operation.rank)

/-- The files of a batch for a table, in order; equal ones keep their places. -/
def ofTable (table : String) (uploads : List Upload) : List Upload :=
  Sorting.sortBy compareInTable (uploads.filter (·.targetTable == table))

/-- The files of a table come in this order among all files of the batch. -/
theorem filter_sort (table : String) (uploads : List Upload) :
    (sort uploads).filter (·.targetTable == table) = ofTable table uploads := by
  have hsort : sort uploads = Sorting.sortBy compare uploads := rfl
  rw [hsort, Sorting.filter_sortBy, ofTable]
  have hsame := List.map_mergeSort (f := id) (l := uploads.filter (·.targetTable == table))
    (r := fun a b => (a.compare b).isLE) (s := fun a b => (compareInTable a b).isLE) ?_
  · simpa using hsame
  · intro a ha b hb
    have htables : a.targetTable = b.targetTable := by
      rw [beq_iff_eq.1 (List.mem_filter.1 ha).2, beq_iff_eq.1 (List.mem_filter.1 hb).2]
    simp [compare, compareInTable, htables]

end Upload

/-! ## States that agree on a table -/

namespace BatchState

/-- The table is the same in both states, and so are the marks on it. -/
structure AgreesOn (table : String) (s s' : BatchState) : Prop where
  found : s.tables.find? table = s'.tables.find? table
  rebuilt : table ∈ s.rebuilt ↔ table ∈ s'.rebuilt
  deleted : table ∈ s.deleted ↔ table ∈ s'.deleted

variable {s s' : BatchState} {table other : String} {u : Upload} {loaded : Loaded}

theorem AgreesOn.change (h : AgreesOn table s s') (c : Change) :
    AgreesOn table (s.change table c) (s'.change table c) := by
  cases c with
  | add t =>
      refine ⟨?_, h.rebuilt, h.deleted⟩
      simp [BatchState.change, TableMap.find?_insert]
  | rebuild t =>
      refine ⟨?_, ?_, h.deleted⟩
      · simp [BatchState.change, TableMap.find?_insert]
      · simp [BatchState.change]
  | delete =>
      refine ⟨?_, h.rebuilt, ?_⟩
      · simp [BatchState.change, TableMap.find?_erase]
      · simp [BatchState.change]

theorem AgreesOn.change_other (h : AgreesOn table s s') (hne : table ≠ other) (c : Change) :
    AgreesOn table (s.change other c) s' := by
  cases c with
  | add t =>
      refine ⟨?_, h.rebuilt, h.deleted⟩
      simp [BatchState.change, TableMap.find?_insert, hne, h.found]
  | rebuild t =>
      refine ⟨?_, ?_, h.deleted⟩
      · simp [BatchState.change, TableMap.find?_insert, hne, h.found]
      · simp [BatchState.change, hne, h.rebuilt]
  | delete =>
      refine ⟨?_, h.rebuilt, ?_⟩
      · simp [BatchState.change, TableMap.find?_erase, hne, h.found]
      · simp [BatchState.change, hne, h.deleted]

/-- A file of the table does the same in both states. -/
theorem AgreesOn.apply (h : AgreesOn u.targetTable s s') :
    AgreesOn u.targetTable (s.apply u loaded) (s'.apply u loaded) := by
  have hs := s.operate_eq_change u.targetTable u.operation (loaded.stats u)
  have hs' := s'.operate_eq_change u.targetTable u.operation (loaded.stats u)
  rw [← h.found] at hs'
  cases hc : u.operation.change u.targetTable (s.tables.find? u.targetTable) (loaded.stats u) with
  | error f =>
      rw [hc] at hs hs'
      rw [apply_of_operate_eq_error hs, apply_of_operate_eq_error hs']
      exact ⟨h.found, h.rebuilt, h.deleted⟩
  | ok c =>
      rw [hc] at hs hs'
      rw [apply_of_operate_eq_ok hs, apply_of_operate_eq_ok hs']
      have hchange := h.change c
      exact ⟨hchange.found, hchange.rebuilt, hchange.deleted⟩

/-- A file of another table does nothing to this one. -/
theorem AgreesOn.apply_other (h : AgreesOn table s s') (hne : table ≠ u.targetTable) :
    AgreesOn table (s.apply u loaded) s' := by
  have hs := s.operate_eq_change u.targetTable u.operation (loaded.stats u)
  cases hc : u.operation.change u.targetTable (s.tables.find? u.targetTable) (loaded.stats u) with
  | error f =>
      rw [hc] at hs
      rw [apply_of_operate_eq_error hs]
      exact ⟨h.found, h.rebuilt, h.deleted⟩
  | ok c =>
      rw [hc] at hs
      rw [apply_of_operate_eq_ok hs]
      have hchange := h.change_other hne c
      exact ⟨hchange.found, hchange.rebuilt, hchange.deleted⟩

/-! ## Tables to drop -/

/-- The names of the tables there are. -/
def names (s : BatchState) : List String :=
  s.tables.tables.map (·.tableName)

/-- The tables that a batch drops: those that are gone, and those that are there with a mark. -/
def dropped (s : BatchState) : List String :=
  (s.deleted.foldl (fun names name => insertName name names) []).filter
    (fun name => !s.names.contains name) ++ s.names.filter s.marks

theorem mem_names_iff (h : s.tables.WellFormed) :
    table ∈ s.names ↔ ∃ t, s.tables.find? table = some t := by
  simp only [names, List.mem_map, h.find?_eq_some_iff]

/-- A table is dropped if it was deleted, even if it has been added again, or if it was rebuilt and
is still there. -/
theorem mem_dropped_iff (h : s.tables.WellFormed) :
    table ∈ s.dropped ↔
      table ∈ s.deleted ∨ table ∈ s.rebuilt ∧ ∃ t, s.tables.find? table = some t := by
  have hmem : table ∈ s.names ↔ ∃ t, s.tables.find? table = some t := mem_names_iff h
  rw [dropped, List.mem_append, List.mem_filter, List.mem_filter, mem_foldl_insertName, ← hmem]
  simp only [marks]
  by_cases hthere : table ∈ s.names
  · simp [hthere, or_comm]
  · simp [hthere]

theorem nodup_dropped (h : s.tables.WellFormed) : s.dropped.Nodup := by
  refine List.Nodup.append ((nodup_foldl_insertName id _).filter _)
    (h.nodup_names.filter _) fun name hgone hthere => ?_
  have hnot := (List.mem_filter.1 hgone).2
  have hmem : name ∈ s.names := (List.mem_filter.1 hthere).1
  simp [hmem] at hnot

theorem AgreesOn.mem_dropped_iff (h : AgreesOn table s s') (hs : s.tables.WellFormed)
    (hs' : s'.tables.WellFormed) : table ∈ s.dropped ↔ table ∈ s'.dropped := by
  rw [BatchState.mem_dropped_iff hs, BatchState.mem_dropped_iff hs', h.found, h.rebuilt, h.deleted]

end BatchState

/-! ## Statements that drop tables -/

/-- The table that a statement drops. -/
def droppedTable? (text : String) : Option String :=
  match Command.ofText? text with
  | some (.dropTable name) => some name
  | _ => none

theorem droppedTable?_drop (table : String) :
    droppedTable? (TableStatement.drop table).text = some table := by
  rw [droppedTable?, Command.ofText?_drop]

namespace Ingestor

variable {i : Ingestor}

theorem droppedTable?_createFor {t : JoinTable} {create : TableStatement}
    (h : TableStatement.createFor i.bucket i.model t = .ok create) :
    droppedTable? create.text = none := by
  rw [TableStatement.createFor] at h
  obtain ⟨directory, _, h⟩ := bind_eq_ok_iff.1 h
  obtain rfl := Except.ok.inj h
  rw [droppedTable?, Command.ofText?_create]

/-- Of the planned tables those with a mark are dropped. -/
theorem filterMap_droppedTable?_blocks {s : BatchState} {tables : List JoinTable}
    {blocks : List (List TableStatement)} (h : List.Forall₂ (i.IsBlock s) tables blocks) :
    (blocks.flatten.map (·.text)).filterMap droppedTable? =
      (tables.filter fun t => s.marks t.tableName).map (·.backingTableName) := by
  induction h with
  | nil => rfl
  | cons hblock hrest ih =>
      next t block tables blocks =>
      obtain ⟨create, hcreate, rfl⟩ := hblock
      rw [List.flatten_cons, List.map_append, List.filterMap_append, ih, List.filter_cons]
      cases hm : s.marks t.tableName <;>
        simp [droppedTable?_drop, droppedTable?_createFor hcreate]

/-- The statements of a batch drop the tables that it drops, each once and in this order. -/
theorem Succeeds.filterMap_droppedTable? {uploads : List Upload} {prior : List TableStats}
    {r : Success} (h : i.Succeeds uploads prior r) :
    (i.resultOf r).tableStatements.filterMap droppedTable? =
      r.state.dropped.map i.model.tableName := by
  obtain ⟨blocks, hblocks, hstatements⟩ := tableStatements_eq_ok h.stated
  have hnames : r.join.tables.map (·.tableName) = r.state.names := by
    rw [h.map_tableName]
    rfl
  have hgone : r.state.gone r.join.tables =
      (r.state.deleted.foldl (fun names name => insertName name names) []).filter
        fun name => !r.state.names.contains name := by
    rw [BatchState.gone, hnames]
  have hmarked : (r.join.tables.filter fun t => r.state.marks t.tableName).map
      (·.backingTableName) = (r.state.names.filter r.state.marks).map i.model.tableName := by
    obtain ⟨all, htables⟩ := h.exists_tables_eq
    rw [htables, BatchState.names, List.filter_map, List.filter_map, List.map_map, List.map_map]
    rfl
  show (r.statements.map (·.text)).filterMap droppedTable? = _
  rw [hstatements, List.map_append, List.filterMap_append, filterMap_droppedTable?_blocks hblocks,
    hmarked, BatchState.dropped, List.map_append, ← hgone, List.map_map, List.filterMap_map]
  congr 1
  rw [← List.filterMap_eq_map]
  refine List.filterMap_congr fun name _ => ?_
  rw [Function.comp_apply, Function.comp_apply, droppedTable?_drop, Function.comp_apply]

/-! ## A table by itself -/

/-- Where a batch has led to after all files. -/
def final (i : Ingestor) (uploads : List Upload) (prior : List TableStats) : BatchState :=
  (i.applyAll (.start prior) (Upload.sort uploads)).1

/-- Where the files of a table lead to if there are no other tables and files. -/
def alone (i : Ingestor) (table : String) (uploads : List Upload) (prior : List TableStats) :
    BatchState :=
  (i.applyAll (.start (prior.filter (·.tableName == table))) (Upload.ofTable table uploads)).1

theorem agreesOn_start (table : String) (prior : List TableStats) :
    BatchState.AgreesOn table (.start prior) (.start (prior.filter (·.tableName == table))) where
  found := by
    show (TableMap.ofTables prior).find? table = (TableMap.ofTables _).find? table
    rw [TableMap.find?_ofTables, TableMap.find?_ofTables, ← List.filter_reverse, List.find?_filter]
    simp only [and_self, Bool.decide_eq_true]
  rebuilt := Iff.rfl
  deleted := Iff.rfl

/-- Files that can all be loaded lead to the same for a table as its own files do. -/
theorem agreesOn_applyAll {table : String} {us : List Upload}
    (hload : ∀ u ∈ us, ∃ loaded, i.load u = .ok loaded) {s s' : BatchState}
    (h : BatchState.AgreesOn table s s') :
    BatchState.AgreesOn table (i.applyAll s us).1
      (i.applyAll s' (us.filter (·.targetTable == table))).1 := by
  induction us generalizing s s' with
  | nil => exact h
  | cons u rest ih =>
      obtain ⟨⟨loaded, hloaded⟩, hrest⟩ := List.forall_mem_cons.1 hload
      by_cases hu : u.targetTable = table
      · subst hu
        rw [List.filter_cons_of_pos (by simp), applyAll, applyAll, hloaded]
        exact ih hrest h.apply
      · rw [List.filter_cons_of_neg (by simpa using hu), applyAll, hloaded]
        exact ih hrest (h.apply_other (Ne.symm hu))

theorem Succeeds.agreesOn_alone {uploads : List Upload} {prior : List TableStats} {r : Success}
    (h : i.Succeeds uploads prior r) (table : String) :
    BatchState.AgreesOn table r.state (i.alone table uploads prior) := by
  have hload : ∀ u ∈ Upload.sort uploads, ∃ loaded, i.load u = .ok loaded :=
    applyAll_snd_eq_none_iff.1 (by rw [h.applied])
  have hagrees := agreesOn_applyAll hload (agreesOn_start table prior)
  rw [h.applied, Upload.filter_sort] at hagrees
  exact hagrees

/-- In a batch that succeeds a table becomes what its own files make of it alone, and it is dropped
exactly if they have it dropped. A table without files stays as it was and is not dropped. -/
theorem ingest_separates (i : Ingestor) (cancelled : Bool) (uploads : List Upload)
    {prior : List TableStats} (hnames : (prior.map (·.tableName)).Nodup)
    (h : (i.ingest cancelled uploads prior).status = .ok) :
    let result := i.ingest cancelled uploads prior
    let dropped := (i.final uploads prior).dropped
    (result.tableStatements.filterMap droppedTable? = dropped.map i.model.tableName ∧
      dropped.Nodup) ∧
    ∀ table,
      (∀ t, t ∈ result.fileInformation ∧ t.tableName = table ↔
        (i.alone table uploads prior).tables.find? table = some t) ∧
      (table ∈ dropped ↔ table ∈ (i.alone table uploads prior).dropped) ∧
      ((∀ u ∈ uploads, u.targetTable ≠ table) →
        (∀ t, t ∈ result.fileInformation ∧ t.tableName = table ↔
          t ∈ prior ∧ t.tableName = table) ∧
        table ∉ dropped) := by
  obtain ⟨r, hr, heq⟩ := exists_succeeds_of_status_eq_ok h
  have hfinal : i.final uploads prior = r.state := by rw [final, hr.applied]
  have hwell := hr.tracks.wellFormed
  rw [heq, hfinal]
  intro result dropped
  refine ⟨⟨hr.filterMap_droppedTable?, BatchState.nodup_dropped hwell⟩, fun table => ?_⟩
  have hagrees := hr.agreesOn_alone table
  have hfound : ∀ t, t ∈ result.fileInformation ∧ t.tableName = table ↔
      (i.alone table uploads prior).tables.find? table = some t := by
    intro t
    show t ∈ (i.resultOf r).fileInformation ∧ _ ↔ _
    rw [hr.fileInformation_eq, ← hagrees.found, hwell.find?_eq_some_iff]
  have hdropped : table ∈ dropped ↔ table ∈ (i.alone table uploads prior).dropped :=
    hagrees.mem_dropped_iff hwell (i.tracks_applyAll _ _).wellFormed
  refine ⟨hfound, hdropped, fun huntouched => ?_⟩
  -- without files the table is as at the start, and nothing has been marked
  have halone : i.alone table uploads prior = .start (prior.filter (·.tableName == table)) := by
    have hnone : uploads.filter (·.targetTable == table) = [] :=
      List.filter_eq_nil_iff.2 fun u hu => by simpa using huntouched u hu
    rw [alone, Upload.ofTable, hnone, Sorting.sortBy, List.mergeSort_nil]
    rfl
  constructor
  · intro t
    rw [hfound, halone, ← (agreesOn_start table prior).found]
    exact TableMap.find?_ofTables_eq_some_iff hnames
  · rw [hdropped, halone, BatchState.mem_dropped_iff (TableMap.wellFormed_ofTables _)]
    simp [BatchState.start]

/-- While `p` is deleted, `q` stays as it is. Only `p` is dropped. -/
theorem ingest_separates_deletion :
    let p : TableStats := .ofNumbers "p" "k"
    let q : TableStats := .ofNumbers "q" "k"
    let result := plain.ingest false [.deletion "p.csv"] [p, q]
    (([p, q].map (·.tableName)).Nodup ∧ result.status = .ok) ∧
      q ∈ result.fileInformation ∧
      result.tableStatements.filterMap droppedTable? = [plain.model.tableName "p"] := by
  intro p q result
  have hnames : ([p, q].map (·.tableName)).Nodup := by decide
  have hsort : Upload.sort [.deletion "p.csv"] = [.deletion "p.csv"] := List.mergeSort_singleton _
  have hok : result.status = .ok := by
    show (plain.ingest false [.deletion "p.csv"] [p, q]).status = .ok
    rw [ingest, hsort]
    decide +kernel
  have hdropped : (plain.final [.deletion "p.csv"] [p, q]).dropped = ["p"] := by
    rw [final, hsort]
    decide +kernel
  obtain ⟨⟨hdrops, -⟩, htables⟩ := ingest_separates plain false [.deletion "p.csv"] hnames hok
  obtain ⟨-, -, huntouched⟩ := htables "q"
  have hq := (huntouched (by decide +kernel)).1 q
  rw [hdropped] at hdrops
  exact ⟨⟨hnames, hok⟩, (hq.2 (by decide)).1, hdrops⟩

end Ingestor

end TabularView
