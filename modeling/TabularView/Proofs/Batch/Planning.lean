import TabularView.Batch.Result
import TabularView.Proofs.Table.Reading

set_option autoImplicit false

/-! # How a batch succeeds

A batch has one way to succeed and several to fail. `Ingestor.Succeeds` lists what each stage of a
successful batch has come to; `ingest_eq_of_succeeds` says what its result is. `Ingestor.Ends` lists
the failures that end all others (`succeeds_or_ends`), and `ingest_cases` says that these leave the
tables as they were. -/

namespace TabularView

/-- A file of ASCII text. -/
def Upload.ofText (fileName text : String) (operation : FileOperation := .add)
    (tableName : Option String := none) : Upload where
  fileName := fileName
  operation := operation
  tableName := tableName
  stream := .ofAscii text

/-- A table of one row with one column of numbers. -/
def TableStats.ofNumbers (name column : String) : TableStats where
  fileName := name ++ ".csv"
  tableName := name
  numberOfRows := 1
  numberOfColumns := 1
  columns := [{ name := column, originalName := column, fieldType := .number }]
  fileSize := 0

/-- What the stages of a successful batch have come to: the state after all files, the tables in
order, their join, the view over it and the statements for the engine. -/
structure Success where
  state : BatchState
  join : JoinPlan
  view : ViewPlan
  statements : List TableStatement

namespace Ingestor

/-- An ingestor of a model `w/m` with default settings. -/
def plain : Ingestor where
  model := { workspace := "w", model := "m" }

/-- A batch over the tables there are goes through all its stages. -/
structure Succeeds (i : Ingestor) (uploads : List Upload) (prior : List TableStats)
    (r : Success) : Prop where
  applied : i.applyAll (.start prior) (Upload.sort uploads) = (r.state, none)
  remains : r.state.tables.tables ≠ []
  joined : planJoin i.model i.selectJoinColumns (sortTables r.state.tables.tables) = .ok r.join
  viewed : planView i.joinKind i.model.viewName r.join.tables = .ok r.view
  stated : i.tableStatements r.state r.join.tables = .ok r.statements

/-- The result of a batch that goes through all its stages. -/
def resultOf (i : Ingestor) (r : Success) : BatchResult where
  status := .ok
  fileInformation := sortTables r.state.tables.tables
  problems := r.state.problems ++ r.join.problems
  joinInformation := r.join.tables
  joinKind := i.joinKind
  viewName := some r.view.name
  viewStatement := some r.view.statement
  tableStatements := r.statements.map (·.text)

theorem isOk_failWith (i : Ingestor) (prior : List TableStats) (problems : List Problem)
    (name : String) (f : Failure) : (i.failWith prior problems name f).isOk = false := rfl

theorem isOk_resultOf (i : Ingestor) (r : Success) : (i.resultOf r).isOk = true := rfl

/-- Planning is done exactly when each of its stages succeeds. -/
theorem plan_eq_done {i : Ingestor} {s : BatchState} {tables : List TableStats}
    {join : List JoinTable} {view : ViewPlan} {statements : List TableStatement}
    {problems : List Problem} (h : i.plan s = .done tables join view statements problems) :
    s.tables.tables ≠ [] ∧ tables = sortTables s.tables.tables ∧
      ∃ j : JoinPlan, planJoin i.model i.selectJoinColumns (sortTables s.tables.tables) = .ok j ∧
        join = j.tables ∧ problems = s.problems ++ j.problems ∧
        planView i.joinKind i.model.viewName j.tables = .ok view ∧
        i.tableStatements s j.tables = .ok statements := by
  rw [plan] at h
  split at h
  · cases h
  · next hne =>
      refine ⟨hne, ?_⟩
      dsimp only at h
      split at h
      · cases h
      · next j hj =>
          split at h
          · cases h
          · next view' hview =>
              split at h
              · cases h
              · next statements' hstatements =>
                  cases h
                  exact ⟨rfl, j, hj, rfl, rfl, hview, hstatements⟩

theorem ingest_eq_of_succeeds {i : Ingestor} {uploads : List Upload} {prior : List TableStats}
    {r : Success} (h : i.Succeeds uploads prior r) :
    i.ingest false uploads prior = i.resultOf r := by
  have hplan : i.plan r.state = .done (sortTables r.state.tables.tables) r.join.tables r.view
      r.statements (r.state.problems ++ r.join.problems) := by
    rw [plan]
    split
    · next hnil => exact absurd hnil h.remains
    · simp only [h.joined, h.viewed, h.stated]
  simp only [ingest, Bool.false_eq_true, if_false, h.applied, hplan]
  rfl

/-! ## Failures that end a batch -/

variable {i : Ingestor}

/-- What can end a batch whose files lead to a state: a file that cannot be read, the last table
gone, or a failure of one of the stages that plan. -/
inductive Ends (i : Ingestor) (uploads : List Upload) (s : BatchState) : Failure → Prop
  | unread {u : Upload} {f : Failure} (hu : u ∈ uploads) (h : i.load u = .error f) :
      Ends i uploads s f
  | emptied (h : s.tables.tables = []) : Ends i uploads s (.tableSet .noTableRemains)
  | unjoined {f : Failure}
      (h : planJoin i.model i.selectJoinColumns (sortTables s.tables.tables) = .error f) :
      Ends i uploads s f
  | unviewed {plan : JoinPlan} {f : Failure}
      (hplan : planJoin i.model i.selectJoinColumns (sortTables s.tables.tables) = .ok plan)
      (h : planView i.joinKind i.model.viewName plan.tables = .error f) : Ends i uploads s f
  | unstated {plan : JoinPlan} {f : Failure}
      (hplan : planJoin i.model i.selectJoinColumns (sortTables s.tables.tables) = .ok plan)
      (h : i.tableStatements s plan.tables = .error f) : Ends i uploads s f

/-- Files are applied up to one that cannot be loaded. -/
theorem exists_load_of_applyAll {s : BatchState} {us : List Upload} {name : String} {f : Failure}
    (h : (i.applyAll s us).2 = some (name, f)) : ∃ u ∈ us, i.load u = .error f := by
  induction us generalizing s with
  | nil => cases h
  | cons u rest ih =>
      rw [applyAll] at h
      cases hload : i.load u with
      | ok loaded =>
          rw [hload] at h
          obtain ⟨v, hv, hf⟩ := ih h
          exact ⟨v, List.mem_cons_of_mem _ hv, hf⟩
      | error f' =>
          rw [hload] at h
          obtain ⟨-, rfl⟩ := Prod.mk.inj (Option.some.inj h)
          exact ⟨u, List.mem_cons_self .., hload⟩

/-- Planning fails with what the first stage to fail fails with. -/
theorem ends_of_plan {s : BatchState} {f : Failure} {problems : List Problem}
    (h : i.plan s = .failed f problems) (uploads : List Upload) : i.Ends uploads s f := by
  rw [plan] at h
  split at h
  · next hnil =>
      cases h
      exact .emptied hnil
  · dsimp only at h
    split at h
    · next hjoin =>
        cases h
        exact .unjoined hjoin
    · next join hjoin =>
        split at h
        · next hview =>
            cases h
            exact .unviewed hjoin hview
        · split at h
          · next hstatements =>
              cases h
              exact .unstated hjoin hstatements
          · cases h

/-- A batch that is not cancelled goes through all its stages, or one of them ends it. -/
theorem succeeds_or_ends (i : Ingestor) (uploads : List Upload) (prior : List TableStats) :
    (∃ r, i.Succeeds uploads prior r ∧ i.ingest false uploads prior = i.resultOf r) ∨
      ∃ problems name f, i.Ends uploads (i.applyAll (.start prior) (Upload.sort uploads)).1 f ∧
        i.ingest false uploads prior = i.failWith prior problems name f := by
  cases happlied : i.applyAll (.start prior) (Upload.sort uploads) with
  | mk s failure =>
      cases failure with
      | some failure =>
          have hsnd : (i.applyAll (.start prior) (Upload.sort uploads)).2 =
              some (failure.1, failure.2) := by
            rw [happlied]
          obtain ⟨u, hu, hload⟩ := exists_load_of_applyAll hsnd
          refine Or.inr ⟨s.problems, failure.1, failure.2, ?_, ?_⟩
          · exact .unread ((Upload.perm_sort uploads).mem_iff.1 hu) hload
          · simp only [ingest, Bool.false_eq_true, if_false, happlied]
      | none =>
          cases hplan : i.plan s with
          | failed f problems =>
              refine Or.inr ⟨problems, label uploads, f, ends_of_plan hplan uploads, ?_⟩
              simp only [ingest, Bool.false_eq_true, if_false, happlied, hplan, finish]
          | done tables join view statements problems =>
              obtain ⟨hne, -, j, hj, -, -, hview, hstatements⟩ := plan_eq_done hplan
              have hr : i.Succeeds uploads prior ⟨s, j, view, statements⟩ :=
                ⟨happlied, hne, hj, hview, hstatements⟩
              exact Or.inl ⟨_, hr, ingest_eq_of_succeeds hr⟩

/-! ## Results -/

/-- A batch goes through all its stages, or a failure ends it and the tables are those before. -/
theorem ingest_cases (i : Ingestor) (cancelled : Bool) (uploads : List Upload)
    (prior : List TableStats) :
    (cancelled = false ∧ ∃ r, i.Succeeds uploads prior r ∧
      i.ingest cancelled uploads prior = i.resultOf r) ∨
      ∃ problems name f, i.ingest cancelled uploads prior = i.failWith prior problems name f := by
  cases cancelled with
  | true => exact Or.inr ⟨_, _, _, rfl⟩
  | false =>
      rcases i.succeeds_or_ends uploads prior with h | ⟨problems, name, f, -, heq⟩
      · exact Or.inl ⟨rfl, h⟩
      · exact Or.inr ⟨problems, name, f, heq⟩

/-- A batch succeeds exactly when it has not been cancelled and goes through all its stages. -/
theorem isOk_ingest_iff (i : Ingestor) (cancelled : Bool) (uploads : List Upload)
    (prior : List TableStats) :
    (i.ingest cancelled uploads prior).isOk = true ↔
      cancelled = false ∧ ∃ r, i.Succeeds uploads prior r := by
  constructor
  · intro h
    rcases i.ingest_cases cancelled uploads prior with ⟨hc, r, hr, _⟩ | ⟨_, _, _, hf⟩
    · exact ⟨hc, r, hr⟩
    · exact absurd h (by simp [hf, isOk_failWith])
  · rintro ⟨rfl, r, h⟩
    rw [ingest_eq_of_succeeds h, isOk_resultOf]

/-- A batch that ends well has gone through all its stages. -/
theorem exists_succeeds_of_status_eq_ok {i : Ingestor} {cancelled : Bool} {uploads : List Upload}
    {prior : List TableStats} (h : (i.ingest cancelled uploads prior).status = .ok) :
    ∃ r, i.Succeeds uploads prior r ∧ i.ingest cancelled uploads prior = i.resultOf r := by
  rcases i.ingest_cases cancelled uploads prior with ⟨_, r, hr, heq⟩ | ⟨_, _, _, heq⟩
  · exact ⟨r, hr, heq⟩
  · rw [heq] at h
    cases h

end Ingestor

end TabularView
