import Mathlib.Data.List.Basic
import TabularView.Join.Plan
import TabularView.Storage.Statement

set_option autoImplicit false

/-! # Planned tables

A plan has one table for each table it was made of, with the same columns in the same places
(`planJoin_eq_ok_iff`, `sortByIndex_planTable`). Only the marks on its columns depend on the other
tables, so the statement that creates it does not (`createFor_planTable`). -/

namespace TabularView

/-- A table of one row with columns of these names and types. -/
def TableStats.ofColumns (name : String) (columns : List (String × FieldType)) : TableStats where
  fileName := name ++ ".csv"
  tableName := name
  numberOfRows := 1
  numberOfColumns := columns.length
  columns := columns.map fun (column, fieldType) =>
    { name := column, originalName := column, fieldType := fieldType }
  fileSize := 0

theorem mem_insertName {name other : String} {names : List String} :
    other ∈ insertName name names ↔ other = name ∨ other ∈ names := by
  induction names with
  | nil => simp [insertName]
  | cons first rest ih =>
      rw [insertName]
      split
      · exact List.mem_cons
      · next heq =>
          obtain rfl : name = first := Std.LawfulEqOrd.eq_of_compare heq
          simp
      · rw [List.mem_cons, ih, List.mem_cons]
        exact or_left_comm

/-- Names put in one after the other. -/
theorem mem_foldl_insertName {α : Type} {f : α → String} {l : List α} {name : String}
    {names : List String} :
    name ∈ l.foldl (fun names a => insertName (f a) names) names ↔
      (∃ a ∈ l, f a = name) ∨ name ∈ names := by
  induction l generalizing names with
  | nil => simp
  | cons a rest ih =>
      rw [List.foldl_cons, ih, mem_insertName, List.exists_mem_cons_iff, or_assoc, eq_comm]
      exact or_left_comm

theorem pairwise_insertName (name : String) {names : List String}
    (h : names.Pairwise fun a b => compare a b = .lt) :
    (insertName name names).Pairwise fun a b => compare a b = .lt := by
  induction names with
  | nil => simp [insertName]
  | cons first rest ih =>
      obtain ⟨hfirst, hrest⟩ := List.pairwise_cons.1 h
      rw [insertName]
      split
      · next hlt =>
          refine List.pairwise_cons.2 ⟨fun other hother => ?_, h⟩
          rcases List.mem_cons.1 hother with rfl | hother
          · exact hlt
          · exact Std.TransCmp.lt_trans hlt (hfirst other hother)
      · exact h
      · next hgt =>
          refine List.pairwise_cons.2 ⟨fun other hother => ?_, ih hrest⟩
          rcases mem_insertName.1 hother with rfl | hother
          · exact Std.OrientedCmp.lt_of_gt hgt
          · exact hfirst other hother

/-- Names put in one after the other are all different. -/
theorem nodup_foldl_insertName {α : Type} (f : α → String) (l : List α) :
    (l.foldl (fun names a => insertName (f a) names) []).Nodup := by
  have hpairwise : ∀ names : List String, (names.Pairwise fun a b => compare a b = .lt) →
      (l.foldl (fun names a => insertName (f a) names) names).Pairwise
        fun a b => compare a b = .lt := by
    induction l with
    | nil => exact fun names h => h
    | cons a rest ih => exact fun names h => ih _ (pairwise_insertName (f a) h)
  refine (hpairwise [] List.Pairwise.nil).imp ?_
  rintro a b hab rfl
  simp at hab

theorem planJoin_eq_ok_iff {model : Model} {selectJoinColumns : Bool} {tables : List TableStats}
    {plan : JoinPlan} :
    planJoin model selectJoinColumns tables = .ok plan ↔
      tables ≠ [] ∧ detachedTables tables = [] ∧
        plan = {
          tables := tables.map (planTable model (places tables) selectJoinColumns)
          problems := (namesOf (places tables)).flatMap fun name =>
            (conflictsOf (places tables) name).map (conflictProblem tables (places tables)) } := by
  cases tables with
  | nil => simp [planJoin]
  | cons first rest =>
      cases hdetached : detachedTables (first :: rest) with
      | nil => simp [planJoin, hdetached, eq_comm]
      | cons name names => simp [planJoin, hdetached]

/-- Only the set of its tables can keep a join from being planned. -/
theorem exists_of_planJoin_eq_error {model : Model} {selectJoinColumns : Bool}
    {tables : List TableStats} {f : Failure}
    (h : planJoin model selectJoinColumns tables = .error f) : ∃ fault, f = .tableSet fault := by
  unfold planJoin at h
  split at h
  · exact ⟨_, (Except.error.inj h).symm⟩
  · dsimp only at h
    split at h
    · cases h
    · exact ⟨_, (Except.error.inj h).symm⟩

/-- A column of a planned table is planned from a column of the table. -/
theorem exists_of_mem_planTable {model : Model} {all : List Place} {selectJoinColumns : Bool}
    {t : TableStats} {c : JoinColumn}
    (h : c ∈ (planTable model all selectJoinColumns t).columns) :
    ∃ column ∈ t.columns, ∃ index, c = planColumn all selectJoinColumns column index := by
  obtain ⟨⟨column, index⟩, hmem, rfl⟩ := List.mem_map.1 h
  exact ⟨column, List.fst_mem_of_mem_zipIdx hmem, index, rfl⟩

theorem pairwise_snd_le_zipIdx {α : Type} (l : List α) (k : Nat) :
    (l.zipIdx k).Pairwise fun a b => a.2 ≤ b.2 := by
  induction l generalizing k with
  | nil => exact List.Pairwise.nil
  | cons a rest ih =>
      rw [List.zipIdx_cons, List.pairwise_cons]
      exact ⟨fun b hb => Nat.le_of_succ_le (List.le_snd_of_mem_zipIdx hb), ih (k + 1)⟩

/-- The columns of a planned table stand in the order of their indices. -/
theorem sortByIndex_planTable (model : Model) (all : List Place) (selectJoinColumns : Bool)
    (t : TableStats) :
    sortByIndex (planTable model all selectJoinColumns t).columns =
      (planTable model all selectJoinColumns t).columns := by
  refine List.mergeSort_of_pairwise ?_
  rw [planTable, List.pairwise_map]
  exact (pairwise_snd_le_zipIdx t.columns 0).imp fun h => decide_eq_true h

/-- The statement that creates a planned table depends on the table alone. -/
theorem createFor_planTable (bucket : String) (model : Model) (all all' : List Place)
    (selectJoinColumns selectJoinColumns' : Bool) (t : TableStats) :
    TableStatement.createFor bucket model (planTable model all selectJoinColumns t) =
      TableStatement.createFor bucket model (planTable model all' selectJoinColumns' t) := by
  rw [TableStatement.createFor, TableStatement.createFor, sortByIndex_planTable,
    sortByIndex_planTable]
  simp only [planTable, List.map_map]
  rfl

end TabularView
