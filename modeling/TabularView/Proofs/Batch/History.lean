import Mathlib.Data.List.Induction
import Mathlib.Data.List.Infix
import TabularView.Proofs.Batch.Publication
import TabularView.Proofs.Storage.EngineNames
import TabularView.Proofs.View.JoinOrder

set_option autoImplicit false

/-! # Batch after batch

A model starts without tables. Every batch starts from the tables that the last one left, and a
successful one is published before the next. `Ingestor.mirrors_submitAll` says that after any number
of batches the engine has exactly the tables of the last successful one, each with its present
columns, as long as the names of the tables stay different in small letters. -/

namespace TabularView

/-! ## Publishing one result -/

/-- The catalogue as an engine that refuses nothing. -/
def Catalogue.engine (c : Catalogue) (text : String) : Except Failure Catalogue :=
  .ok (c.execute text)

/-- An engine that refuses nothing is given all statements. -/
theorem executeAll_accepting {σ : Type} (execute : σ → String → σ) (state : σ)
    (texts : List String) :
    executeAll (fun state text => .ok (execute state text)) state texts =
      (texts.foldl execute state, none) := by
  induction texts generalizing state with
  | nil => rfl
  | cons text rest ih => exact ih (execute state text)

theorem name_of_planView {kind : JoinKind} {name : String} {tables : List JoinTable}
    {view : ViewPlan} (h : planView kind name tables = .ok view) : view.name = name := by
  obtain ⟨_, _, _, -, -, -, rfl⟩ := planView_eq_ok h
  rfl

namespace Ingestor

variable {i : Ingestor}

/-- The view of a successful result is planned again as it was. -/
theorem view_resultOf {uploads : List Upload} {prior : List TableStats} {r : Success}
    (h : i.Succeeds uploads prior r) : (i.resultOf r).view = .ok r.view.definition := by
  have hname : r.view.name = i.model.viewName := name_of_planView h.viewed
  have hplan : planView i.joinKind r.view.name r.join.tables = .ok r.view := by
    rw [hname, h.viewed]
  simp only [BatchResult.view, resultOf]
  rw [hplan]
  rfl

/-- Publishing a successful result gives its table statements and then its view to the engine. -/
theorem publish_eq {σ : Type} {uploads : List Upload} {prior : List TableStats} {r : Success}
    (h : i.Succeeds uploads prior r) (engine : σ → String → Except Failure σ) (state : σ) :
    (i.resultOf r).publish engine state =
      match executeAll engine state (r.statements.map (·.text) ++ [r.view.statement]) with
      | (after, none) => (after, .ok r.view.name)
      | (after, some f) => (after, .error f) := by
  rw [BatchResult.publish, view_resultOf h]
  rfl

/-- An engine that takes all statements of a successful result is given them. -/
theorem publish_accepting {σ : Type} {uploads : List Upload} {prior : List TableStats} {r : Success}
    (h : i.Succeeds uploads prior r) (execute : σ → String → σ) (state : σ) :
    (i.resultOf r).publish (fun state text => .ok (execute state text)) state =
      ((r.statements.map (·.text) ++ [r.view.statement]).foldl execute state, .ok r.view.name) := by
  rw [publish_eq h, executeAll_accepting]

theorem publish_resultOf {uploads : List Upload} {prior : List TableStats} {r : Success}
    (h : i.Succeeds uploads prior r) (c : Catalogue) :
    (i.resultOf r).publish Catalogue.engine c =
      (c.executeAll (r.statements.map (·.text) ++ [r.view.statement]), .ok r.view.name) :=
  publish_accepting h Catalogue.execute c

end Ingestor

/-! ## Histories -/

/-- The files of a batch, and whether it has been cancelled. -/
structure Submission where
  uploads : List Upload
  cancelled : Bool := false

/-- Where a model stands after some batches: its tables, the engine, and the result published
last. -/
structure History where
  tables : List TableStats := []
  catalogue : Catalogue := {}
  published : Option BatchResult := none

namespace Ingestor

variable {i : Ingestor}

/-- The next batch, published if it succeeds. -/
def submit (i : Ingestor) (h : History) (b : Submission) : History :=
  let result := i.ingest b.cancelled b.uploads h.tables
  if result.isOk then
    { tables := result.fileInformation
      catalogue := (result.publish Catalogue.engine h.catalogue).1
      published := some result }
  else { h with tables := result.fileInformation }

/-- All batches in order. -/
def submitAll (i : Ingestor) (batches : List Submission) : History :=
  batches.foldl i.submit {}

theorem submitAll_concat (i : Ingestor) (batches : List Submission) (b : Submission) :
    i.submitAll (batches ++ [b]) = i.submit (i.submitAll batches) b :=
  List.foldl_concat ..

/-- A batch that fails changes nothing; one that succeeds is published. -/
theorem submit_cases (i : Ingestor) (h : History) (b : Submission) :
    (∃ r, i.Succeeds b.uploads h.tables r ∧
      i.submit h b = {
        tables := sortTables r.state.tables.tables
        catalogue := h.catalogue.executeAll (r.statements.map (·.text) ++ [r.view.statement])
        published := some (i.resultOf r) }) ∨
      i.submit h b = h := by
  rcases i.ingest_cases b.cancelled b.uploads h.tables with ⟨_, r, hr, heq⟩ | ⟨_, _, _, heq⟩
  · refine Or.inl ⟨r, hr, ?_⟩
    simp only [submit, heq, isOk_resultOf, if_true, publish_resultOf hr]
    rfl
  · refine Or.inr ?_
    simp only [submit, heq, isOk_failWith, Bool.false_eq_true, if_false]
    rfl

/-- The engine mirrors the tables there are, and these are the ones of the result published
last. -/
structure InStep (i : Ingestor) (h : History) : Prop where
  names : (h.tables.map (·.tableName)).Nodup
  mirrors : i.Mirrors h.catalogue (h.tables.map (planTable i.model [] false))
  published : ∀ result, h.published = some result → ∃ all select,
    result.joinInformation = h.tables.map (planTable i.model all select)
  unpublished : h.published = none → h.tables = []

theorem inStep_start (i : Ingestor) : i.InStep {} where
  names := List.nodup_nil
  mirrors := ⟨List.nodup_nil, by simp, fun _ h => absurd rfl h⟩
  published := by simp
  unpublished := fun _ => rfl

/-- Tables whose names differ in small letters have different names in the engine. -/
theorem nodup_backingTableName {tables : List TableStats}
    (h : (tables.map fun t => Text.lowerAscii t.tableName).Nodup) (model : Model)
    (all : List Place) (select : Bool) :
    ((tables.map (planTable model all select)).map (·.backingTableName)).Nodup := by
  have hnames : (tables.map (planTable model all select)).map (·.backingTableName) =
      (tables.map (·.tableName)).map model.tableName := by
    rw [List.map_map, List.map_map]
    rfl
  rw [hnames, Model.nodup_map_tableName_iff, List.map_map]
  exact h

theorem InStep.submit {h : History} (hs : i.InStep h) {b : Submission}
    (hnames : ((i.submit h b).tables.map fun t => Text.lowerAscii t.tableName).Nodup) :
    i.InStep (i.submit h b) := by
  rcases i.submit_cases h b with ⟨r, hr, heq⟩ | heq
  · -- the marks on columns differ from batch to batch, what is created does not
    rw [heq] at hnames ⊢
    dsimp only at hnames
    have htracks := hr.tracks
    obtain ⟨-, -, hjoin⟩ := planJoin_eq_ok_iff.1 hr.joined
    have htables := congrArg JoinPlan.tables hjoin
    dsimp only at htables
    have hdistinct : (r.join.tables.map (·.backingTableName)).Nodup := by
      rw [htables]
      exact nodup_backingTableName hnames _ _ _
    have hmirrors := mirrors_of_succeeds hs.mirrors hs.names hr hdistinct
    rw [htables] at hmirrors
    refine ⟨?_, hmirrors.replan _ _, ?_, by simp⟩
    · dsimp only
      rw [htracks.wellFormed.sortTables_tables]
      exact htracks.wellFormed.nodup_names
    · rintro result hresult
      obtain rfl := Option.some.inj hresult
      exact ⟨_, _, htables⟩
  · rwa [heq]

/-- After any batches the engine has exactly the tables of the result published last, each as its
columns are now, if the names of the tables there are differ in small letters all along. -/
theorem mirrors_submitAll (i : Ingestor) (batches : List Submission)
    (hnames : ∀ before, before <+: batches →
      ((i.submitAll before).tables.map fun t => Text.lowerAscii t.tableName).Nodup) :
    match (i.submitAll batches).published with
    | some result => i.Mirrors (i.submitAll batches).catalogue result.joinInformation
    | none => i.Mirrors (i.submitAll batches).catalogue [] := by
  have hs : i.InStep (i.submitAll batches) := by
    induction batches using List.reverseRecOn with
    | nil => exact i.inStep_start
    | append_singleton batches b ih =>
        have hlast := hnames _ (List.prefix_refl _)
        rw [submitAll_concat] at hlast ⊢
        refine (ih fun before hbefore => ?_).submit hlast
        exact hnames before (hbefore.trans (List.prefix_append ..))
  split
  · next result hresult =>
      obtain ⟨all, select, htables⟩ := hs.published result hresult
      rw [htables]
      exact hs.mirrors.replan all select
  · next hnone =>
      have hmirrors := hs.mirrors
      rw [hs.unpublished hnone] at hmirrors
      exact hmirrors

/-- A table is replaced, and the attempt to delete it fails as no table would remain: the engine has
the table as it was replaced. -/
theorem mirrors_replaced_table :
    let batches : List Submission := [
      { uploads := [.ofText "a.csv" "k\n1\n"] },
      { uploads := [.ofText "a.csv" "k\nx\n" .replace] },
      { uploads := [.deletion "a.csv"] }]
    (∀ before, before <+: batches →
      ((plain.submitAll before).tables.map fun t => Text.lowerAscii t.tableName).Nodup) ∧
    ∃ result, (plain.submitAll batches).published = some result ∧
      plain.Mirrors (plain.submitAll batches).catalogue result.joinInformation := by
  intro batches
  have hall : ∀ before ∈ batches.inits,
      ((plain.submitAll before).tables.map fun t => Text.lowerAscii t.tableName).Nodup := by
    decide +kernel
  have hnames : ∀ before, before <+: batches →
      ((plain.submitAll before).tables.map fun t => Text.lowerAscii t.tableName).Nodup :=
    fun before h => hall before ((List.mem_inits _ _).2 h)
  have hsome : (plain.submitAll batches).published.isSome = true := by decide +kernel
  obtain ⟨result, hresult⟩ := Option.isSome_iff_exists.1 hsome
  have hmirrors := mirrors_submitAll plain batches hnames
  rw [hresult] at hmirrors
  exact ⟨hnames, result, hresult, hmirrors⟩

end Ingestor

end TabularView
