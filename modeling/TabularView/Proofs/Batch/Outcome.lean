import TabularView.Proofs.Batch.Applying
import TabularView.Proofs.Fallible
import TabularView.Proofs.Storage.EngineNames
import TabularView.Proofs.Table.Appending
import TabularView.Proofs.View.Planning

set_option autoImplicit false

/-! # When a batch succeeds

A batch succeeds exactly if it is not cancelled and is feasible
(`Ingestor.status_ingest_eq_ok_iff`): its files can be read, tables remain and are connected, and
all names can be part of a key. -/

namespace TabularView

/-! ## Statements -/

/-- A table can be created if the names in its directory are proper segments. -/
theorem exists_createFor_eq_ok_iff {bucket : String} {model : Model} {t : JoinTable} :
    (∃ create, TableStatement.createFor bucket model t = .ok create) ↔
      isSegment model.workspace = true ∧ isSegment model.model = true ∧
        isSegment t.tableName = true := by
  simp only [TableStatement.createFor, Model.dataDirectory, bind_eq_ok_iff, segment_eq_ok_iff]
  constructor
  · rintro ⟨_, _, ⟨_, ⟨hworkspace, _⟩, _, ⟨hmodel, _⟩, _, ⟨htable, _⟩, _⟩, _⟩
    exact ⟨hworkspace, hmodel, htable⟩
  · rintro ⟨hworkspace, hmodel, htable⟩
    exact ⟨_, _, ⟨_, ⟨hworkspace, rfl⟩, _, ⟨hmodel, rfl⟩, _, ⟨htable, rfl⟩, rfl⟩, rfl⟩

/-- The tables of a batch have statements if each of them can be created. -/
theorem Ingestor.exists_tableStatements_eq_ok_iff {i : Ingestor} {s : BatchState}
    {tables : List JoinTable} :
    (∃ statements, i.tableStatements s tables = .ok statements) ↔
      ∀ t ∈ tables, ∃ create, TableStatement.createFor i.bucket i.model t = .ok create := by
  rw [tableStatements, exists_bind_ok_iff, exists_mapM_eq_ok_iff]
  simp only [exists_bind_ok_iff]

/-! ## Columns -/

theorem columns_ne_nil_of_append {existing incoming merged : TableStats}
    (h : existing.append incoming = .ok merged) (hne : existing.columns ≠ []) :
    merged.columns ≠ [] := by
  rw [← List.length_pos_iff, TableStats.length_columns_of_append h]
  exact List.length_pos_iff.2 hne

namespace BatchState

/-- Every table has at least one column. -/
def HasColumns (s : BatchState) : Prop :=
  ∀ name t, s.tables.find? name = some t → t.columns ≠ []

end BatchState

namespace Ingestor

variable {i : Ingestor}

theorem hasColumns_applyAll (i : Ingestor) {prior : List TableStats}
    (hprior : ∀ t ∈ prior, t.columns ≠ []) (us : List Upload) :
    (i.applyAll (.start prior) us).1.HasColumns :=
  i.all_applyAll (fun _ _ _ _ hexisting _ h => columns_ne_nil_of_append h hexisting) hprior
    fun _ _ _ hload hne => columns_stats_ne_nil_of_load hload hne

/-! ## Feasible batches -/

/-- The tables that are left after all files have been applied. -/
def survivors (i : Ingestor) (uploads : List Upload) (prior : List TableStats) : List TableStats :=
  (i.applyAll (.start prior) (Upload.sort uploads)).1.tables.tables

/-- What a batch needs to succeed. -/
structure Feasible (i : Ingestor) (uploads : List Upload) (prior : List TableStats) : Prop where
  readable : ∀ u ∈ uploads, u.operation ≠ .delete →
    ∃ report, (i.reader u).read u.stream = .ok report
  remains : i.survivors uploads prior ≠ []
  connected : Connected (i.survivors uploads prior)
  workspace : isSegment i.model.workspace = true
  model : isSegment i.model.model = true
  tables : ∀ t ∈ i.survivors uploads prior, isSegment t.tableName = true

/-- All files are applied if those that have to be read can be read. -/
theorem applyAll_sort_snd_eq_none_iff (s : BatchState) {uploads : List Upload} :
    (i.applyAll s (Upload.sort uploads)).2 = none ↔
      ∀ u ∈ uploads, u.operation ≠ .delete →
        ∃ report, (i.reader u).read u.stream = .ok report := by
  rw [applyAll_snd_eq_none_iff]
  simp only [(Upload.perm_sort uploads).mem_iff, load_eq_ok_iff]
  refine forall₂_congr fun u _ => ?_
  by_cases hdelete : u.operation = .delete
  · simp [hdelete]
  · simp [hdelete]

theorem sortTables_survivors (i : Ingestor) (uploads : List Upload) (prior : List TableStats) :
    sortTables (i.survivors uploads prior) = i.survivors uploads prior :=
  (i.tracks_applyAll prior (Upload.sort uploads)).wellFormed.sortTables_tables

/-- Once the join of a batch is planned, so is its view. -/
theorem exists_planView_survivors (i : Ingestor) (uploads : List Upload) {prior : List TableStats}
    (hprior : ∀ t ∈ prior, t.columns ≠ []) {plan : JoinPlan}
    (h : planJoin i.model i.selectJoinColumns (sortTables (i.survivors uploads prior)) =
      .ok plan) : ∃ view, planView i.joinKind i.model.viewName plan.tables = .ok view := by
  have hwell := (i.tracks_applyAll prior (Upload.sort uploads)).wellFormed
  rw [i.sortTables_survivors] at h
  refine exists_planView_of_planJoin _ _ hwell.nodup_names ?_ h
  exact fun t ht => BatchState.All.of_mem (i.hasColumns_applyAll hprior _) hwell ht

/-- Planned tables have statements if the names in their directories are proper segments. -/
theorem exists_tableStatements_planTable_iff (i : Ingestor) (s : BatchState) (all : List Place)
    (select : Bool) {tables : List TableStats} (hne : tables ≠ []) :
    (∃ statements, i.tableStatements s (tables.map (planTable i.model all select)) =
        .ok statements) ↔
      isSegment i.model.workspace = true ∧ isSegment i.model.model = true ∧
        ∀ t ∈ tables, isSegment t.tableName = true := by
  simp only [exists_tableStatements_eq_ok_iff, exists_createFor_eq_ok_iff, List.forall_mem_map]
  constructor
  · intro h
    obtain ⟨t, ht⟩ := List.exists_mem_of_ne_nil _ hne
    exact ⟨(h t ht).1, (h t ht).2.1, fun u hu => (h u hu).2.2⟩
  · rintro ⟨hworkspace, hmodel, htables⟩ t ht
    exact ⟨hworkspace, hmodel, htables t ht⟩

theorem Succeeds.feasible {uploads : List Upload} {prior : List TableStats} {r : Success}
    (h : i.Succeeds uploads prior r) : i.Feasible uploads prior := by
  have hsurvivors : i.survivors uploads prior = r.state.tables.tables := by
    rw [survivors, h.applied]
  have hjoined := h.joined
  rw [← hsurvivors, i.sortTables_survivors] at hjoined
  obtain ⟨hne, hdetached, hplan⟩ := planJoin_eq_ok_iff.1 hjoined
  have hstated : ∃ statements, i.tableStatements r.state r.join.tables = .ok statements :=
    ⟨_, h.stated⟩
  rw [hplan] at hstated
  obtain ⟨hworkspace, hmodel, htables⟩ :=
    (i.exists_tableStatements_planTable_iff _ _ _ hne).1 hstated
  have hread : (i.applyAll (.start prior) (Upload.sort uploads)).2 = none := by rw [h.applied]
  exact ⟨(applyAll_sort_snd_eq_none_iff _).1 hread, hne,
    (detachedTables_eq_nil_iff hne).1 hdetached, hworkspace, hmodel, htables⟩

/-- A feasible batch goes through all its stages. -/
theorem Feasible.exists_succeeds {uploads : List Upload} {prior : List TableStats}
    (hprior : ∀ t ∈ prior, t.columns ≠ []) (h : i.Feasible uploads prior) :
    ∃ r, i.Succeeds uploads prior r := by
  have happlied := (applyAll_sort_snd_eq_none_iff (.start prior)).2 h.readable
  obtain ⟨plan, hplan⟩ : ∃ plan, planJoin i.model i.selectJoinColumns
      (i.survivors uploads prior) = .ok plan :=
    ⟨_, planJoin_eq_ok_iff.2
      ⟨h.remains, (detachedTables_eq_nil_iff h.remains).2 h.connected, rfl⟩⟩
  have hjoined := hplan
  rw [← i.sortTables_survivors] at hjoined
  obtain ⟨view, hviewed⟩ := i.exists_planView_survivors uploads hprior hjoined
  obtain ⟨-, -, htables⟩ := planJoin_eq_ok_iff.1 hplan
  obtain ⟨statements, hstated⟩ : ∃ statements, i.tableStatements
      (i.applyAll (.start prior) (Upload.sort uploads)).1 plan.tables = .ok statements := by
    rw [htables]
    exact (i.exists_tableStatements_planTable_iff _ _ _ h.remains).2
      ⟨h.workspace, h.model, h.tables⟩
  exact ⟨⟨_, plan, view, statements⟩, Prod.ext rfl happlied, h.remains, hjoined, hviewed, hstated⟩

/-- A batch whose files can be read leads to the tables that survive it, if these are connected and
all names can be part of a key. -/
theorem exists_succeeds_of_survivors {uploads : List Upload} {prior tables : List TableStats}
    (hread : (i.applyAll (.start prior) (Upload.sort uploads)).2 = none)
    (hsurvivors : i.survivors uploads prior = tables) (hne : tables ≠ [])
    (hcolumns : ∀ t ∈ prior, t.columns ≠ []) (hconnected : Connected tables)
    (hmodel : i.model.Proper) (htables : ∀ t ∈ tables, isSegment t.tableName = true) :
    ∃ r, i.Succeeds uploads prior r ∧ r.state.tables.tables = tables := by
  subst hsurvivors
  have hfeasible : i.Feasible uploads prior := {
    readable := (applyAll_sort_snd_eq_none_iff _).1 hread
    remains := hne
    connected := hconnected
    workspace := hmodel.workspace
    model := hmodel.model
    tables := htables }
  obtain ⟨r, hr⟩ := hfeasible.exists_succeeds hcolumns
  refine ⟨r, hr, ?_⟩
  rw [survivors, hr.applied]

/-- Tables that can be published once can be published again, without any files. -/
theorem exists_succeeds_of_tables (i : Ingestor) (tables : List TableStats)
    (hsorted : (TableMap.ofTables tables).tables = tables) (hne : tables ≠ [])
    (hcolumns : ∀ t ∈ tables, t.columns ≠ []) (hconnected : Connected tables)
    (hmodel : i.model.Proper) (htables : ∀ t ∈ tables, isSegment t.tableName = true) :
    ∃ r, i.Succeeds [] tables r ∧ r.state.tables.tables = tables := by
  have hnone : Upload.sort [] = [] := List.mergeSort_nil
  refine exists_succeeds_of_survivors ?_ ?_ hne hcolumns hconnected hmodel htables
  · rw [hnone]
    rfl
  · rw [survivors, hnone]
    exact hsorted

/-- A batch over tables with columns succeeds exactly if it has not been cancelled and is feasible;
it fails otherwise, but never for want of a view once its join is planned. -/
theorem status_ingest_eq_ok_iff (i : Ingestor) (cancelled : Bool) (uploads : List Upload)
    {prior : List TableStats} (hprior : ∀ t ∈ prior, t.columns ≠ []) :
    ((i.ingest cancelled uploads prior).status = .ok ↔
      cancelled = false ∧ i.Feasible uploads prior) ∧
    ((i.ingest cancelled uploads prior).status = .failed ↔
      ¬ (cancelled = false ∧ i.Feasible uploads prior)) ∧
    ∀ plan, planJoin i.model i.selectJoinColumns (sortTables (i.survivors uploads prior)) =
        .ok plan →
      ∃ view, planView i.joinKind i.model.viewName plan.tables = .ok view := by
  have hok : (i.ingest cancelled uploads prior).status = .ok ↔
      cancelled = false ∧ i.Feasible uploads prior := by
    have hstatus : (i.ingest cancelled uploads prior).status = .ok ↔
        (i.ingest cancelled uploads prior).isOk = true := beq_iff_eq.symm
    rw [hstatus, isOk_ingest_iff]
    refine and_congr_right fun _ => ⟨?_, Feasible.exists_succeeds hprior⟩
    rintro ⟨r, hr⟩
    exact hr.feasible
  refine ⟨hok, ?_, fun plan h => i.exists_planView_survivors uploads hprior h⟩
  rw [← hok]
  cases (i.ingest cancelled uploads prior).status <;> decide

/-- Replacing the only table succeeds: it is read, it remains, and it is connected to itself. -/
theorem status_ingest_replacement :
    let uploads : List Upload := [.ofText "p.csv" "k\nx\n" .replace]
    let prior : List TableStats := [.ofNumbers "p" "k"]
    (∀ t ∈ prior, t.columns ≠ []) ∧ (plain.ingest false uploads prior).status = .ok ∧
      plain.Feasible uploads prior := by
  intro uploads prior
  have hprior : ∀ t ∈ prior, t.columns ≠ [] := by decide
  have hok : (plain.ingest false uploads prior).status = .ok := by decide +kernel
  exact ⟨hprior, hok, ((plain.status_ingest_eq_ok_iff false uploads hprior).1.1 hok).2⟩

end Ingestor

end TabularView
