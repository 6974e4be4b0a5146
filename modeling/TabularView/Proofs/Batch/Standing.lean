import TabularView.Proofs.Batch.Publication
import TabularView.Proofs.Table.Soundness

set_option autoImplicit false

/-! # What every batch can rely on

However often a model has been worked on, with whatever files and settings, its tables are in order
of names and sound (`standing_of_mem_results`), and what has been planned for the view has the
columns of the tables. Batches that fail hand on the tables that they found. -/

namespace TabularView

/-! ## Batches in turn -/

/-- A batch with the settings that it runs under. -/
structure Call where
  ingestor : Ingestor
  uploads : List Upload
  cancelled : Bool := false

/-- What a batch makes of the tables before it. -/
def Call.result (c : Call) (prior : List TableStats) : BatchResult :=
  c.ingestor.ingest c.cancelled c.uploads prior

/-- The results of batches, each over the tables of the one before. -/
def Call.results (prior : List TableStats) : List Call → List BatchResult
  | [] => []
  | c :: rest => c.result prior :: results (c.result prior).fileInformation rest

/-- What each batch keeps up holds before every batch. -/
theorem Call.exists_of_mem_results {P : List TableStats → Prop} {calls : List Call}
    (hstep : ∀ c ∈ calls, ∀ prior, P prior → P (c.result prior).fileInformation)
    {prior : List TableStats} (hprior : P prior) {result : BatchResult}
    (h : result ∈ Call.results prior calls) :
    ∃ c ∈ calls, ∃ before, P before ∧ result = c.result before := by
  induction calls generalizing prior with
  | nil => cases h
  | cons c rest ih =>
      obtain ⟨hfirst, hrest⟩ := List.forall_mem_cons.1 hstep
      rcases List.mem_cons.1 h with rfl | h
      · exact ⟨c, List.mem_cons_self .., prior, hprior, rfl⟩
      · obtain ⟨later, hlater, before, hbefore, heq⟩ := ih hrest (hfirst prior hprior) h
        exact ⟨later, List.mem_cons_of_mem _ hlater, before, hbefore, heq⟩

/-! ## Outlines -/

/-- What identifies a column: its position, name, type and width. -/
structure ColumnOutline where
  index : Nat
  name : String
  fieldType : FieldType
  width : Option Nat := none
deriving DecidableEq, Repr

/-- A table by its name and its columns from left to right. -/
structure TableOutline where
  name : String
  columns : List ColumnOutline
deriving DecidableEq, Repr

/-- The outline of a table. -/
def TableStats.outline (t : TableStats) : TableOutline where
  name := t.tableName
  columns := t.columns.zipIdx.map fun (column, index) =>
    { index, name := column.name, fieldType := column.fieldType, width := column.longestString }

/-- The outline of a planned table. -/
def JoinTable.outline (t : JoinTable) : TableOutline where
  name := t.tableName
  columns := t.columns.map fun column =>
    { index := column.columnIndex, name := column.columnName, fieldType := column.columnType,
      width := column.columnLength }

theorem outline_planTable (model : Model) (all : List Place) (select : Bool) (t : TableStats) :
    (planTable model all select t).outline = t.outline := by
  simp only [JoinTable.outline, planTable, List.map_map]
  rfl

/-! ## Standing -/

/-- The tables of a model between two batches: in strictly ascending order of names, and sound. -/
structure Standing (tables : List TableStats) : Prop where
  ascending : tables.Pairwise (·.tableName < ·.tableName)
  sound : ∀ t ∈ tables, t.Sound

theorem standing_nil : Standing [] :=
  ⟨List.Pairwise.nil, List.forall_mem_nil _⟩

theorem TableMap.WellFormed.ascending_tables {m : TableMap} (h : m.WellFormed) :
    m.tables.Pairwise (·.tableName < ·.tableName) := by
  rw [tables, List.pairwise_map]
  refine List.Pairwise.imp_of_mem ?_ h.ascending
  intro a b ha hb hab
  rw [h.named a ha, h.named b hb]
  exact compareOfLessAndEq_eq_lt.1 hab

namespace Ingestor

variable {i : Ingestor}

/-- A file that is no deletion is loaded as a sound table. -/
theorem sound_stats_of_load {u : Upload} {loaded : Loaded} (h : i.load u = .ok loaded)
    (hne : u.operation ≠ .delete) : (loaded.stats u).Sound := by
  rcases load_eq_ok_iff.1 h with ⟨hdelete, _⟩ | ⟨_, report, hread, rfl⟩
  · exact absurd hdelete hne
  · exact (i.reader u).sound_of_read_eq_ok hread

theorem Succeeds.standing {uploads : List Upload} {prior : List TableStats} {r : Success}
    (hr : i.Succeeds uploads prior r) (h : Standing prior) :
    Standing (i.resultOf r).fileInformation := by
  have hwell := hr.tracks.wellFormed
  have hall : (i.applyAll (.start prior) (Upload.sort uploads)).1.All fun _ t => t.Sound :=
    i.all_applyAll (fun _ _ _ _ hexisting hincoming happend => hexisting.append hincoming happend)
      h.sound fun _ _ _ hload hne => sound_stats_of_load hload hne
  rw [hr.applied] at hall
  rw [hr.fileInformation_eq]
  exact ⟨hwell.ascending_tables, fun t ht => hall.of_mem hwell ht⟩

/-- The plan of a successful batch has its tables and their columns. -/
theorem Succeeds.map_outline {uploads : List Upload} {prior : List TableStats} {r : Success}
    (hr : i.Succeeds uploads prior r) :
    (i.resultOf r).joinInformation.map (·.outline) =
      (i.resultOf r).fileInformation.map (·.outline) := by
  obtain ⟨all, htables⟩ := hr.exists_tables_eq
  have hplanned : (i.resultOf r).joinInformation = r.join.tables := rfl
  rw [hplanned, htables, hr.fileInformation_eq, List.map_map]
  exact List.map_congr_left fun t _ => outline_planTable _ _ _ t

/-- A batch over tables that stand leaves tables that stand. -/
theorem standing_ingest (i : Ingestor) (cancelled : Bool) (uploads : List Upload)
    {prior : List TableStats} (h : Standing prior) :
    Standing (i.ingest cancelled uploads prior).fileInformation := by
  rcases i.ingest_cases cancelled uploads prior with ⟨_, r, hr, heq⟩ | ⟨_, _, _, heq⟩
  · rw [heq]
    exact hr.standing h
  · rw [heq]
    exact h

end Ingestor

/-- Starting without tables, the tables of every result are in strictly ascending order of names and
sound, and those of a successful one have been planned with the same columns. -/
theorem standing_of_mem_results (calls : List Call) {result : BatchResult}
    (h : result ∈ Call.results [] calls) :
    Standing result.fileInformation ∧
      (result.status = .ok →
        result.joinInformation.map (·.outline) = result.fileInformation.map (·.outline)) := by
  have hstep : ∀ c ∈ calls, ∀ prior, Standing prior → Standing (c.result prior).fileInformation :=
    fun c _ prior hprior => c.ingestor.standing_ingest c.cancelled c.uploads hprior
  obtain ⟨c, hc, before, hbefore, rfl⟩ := Call.exists_of_mem_results hstep standing_nil h
  refine ⟨hstep c hc before hbefore, fun hok => ?_⟩
  obtain ⟨r, hr, heq⟩ := Ingestor.exists_succeeds_of_status_eq_ok hok
  rw [Call.result, heq]
  exact hr.map_outline

/-- A file is appended under the name that has been made of the header of another one. -/
theorem standing_of_mem_results_appended :
    let added : Call := {
      ingestor := .plain
      uploads := [.ofText "p.csv" "(1) id\nx\n"] }
    let appended : Call := {
      ingestor := .plain
      uploads := [.ofText "q.csv" "_1__id\nyy\n" .append (some "p")] }
    let result := appended.result (added.result []).fileInformation
    (result ∈ Call.results [] [added, appended] ∧ result.status = .ok) ∧
      Standing result.fileInformation ∧
      result.joinInformation.map (·.outline) =
        [{ name := "p", columns := [⟨0, "_1__id", .string, some 2⟩] }] := by
  intro added appended result
  have hmem : result ∈ Call.results [] [added, appended] :=
    List.mem_cons_of_mem _ (List.mem_cons_self ..)
  have hok : result.status = .ok := by decide +kernel
  have houtline : result.fileInformation.map (·.outline) =
      [{ name := "p", columns := [⟨0, "_1__id", .string, some 2⟩] }] := by
    decide +kernel
  obtain ⟨hstanding, hplanned⟩ := standing_of_mem_results [added, appended] hmem
  exact ⟨⟨hmem, hok⟩, hstanding, (hplanned hok).trans houtline⟩

end TabularView
