import TabularView.Proofs.Join.Planned
import TabularView.Proofs.Sorting
import TabularView.Table.Order

set_option autoImplicit false

/-! # The order of tables as a linear order

Tables are compared by a chain of keys, the last of which are their columns. Each key is compared in
a linear order, and together they are all there is to a table, so that the chain is a linear order
itself (`isLinear_compare`): two tables that compare equal are equal, and no order of uploads can
show. Hence sorting gives one list for all orders of the same tables, and so does the plan that is
made of it (`sortTables_canonical`). -/

namespace TabularView

/-! ## Columns -/

theorem compareOptions_eq (a b : Option Nat) : compareOptions a b = Ord.compare a b := by
  cases a <;> cases b <;> rfl

/-- Columns are compared by their fields, one after the other. -/
theorem Column.compare_eq : Column.compare =
    compareLex (compareOn name) (compareLex (compareOn (·.fieldType.rank))
      (compareLex (compareOn longestString) (compareOn originalName))) := by
  funext a b
  simp only [Column.compare, compareOptions_eq]
  rfl

instance : Std.TransCmp Column.compare := by
  rw [Column.compare_eq]
  infer_instance

instance : Std.LawfulEqCmp Column.compare where
  eq_of_compare := by
    intro a b h
    simp only [Column.compare, Ordering.then_eq_eq, compareOptions_eq,
      Std.LawfulEqOrd.compare_eq_iff_eq] at h
    obtain ⟨hname, htype, hlongest, horiginal⟩ := h
    have htype := FieldType.rank_injective htype
    cases a
    cases b
    simp_all

/-- Lists of columns are compared by their first difference. -/
theorem compareColumns_eq : compareColumns = List.compareLex Column.compare := by
  funext as bs
  induction as generalizing bs with
  | nil => cases bs <;> rfl
  | cons a as ih =>
      cases bs with
      | nil => rfl
      | cons b bs => rw [compareColumns, List.compareLex_cons_cons, ih]

instance : Std.TransCmp compareColumns := by
  rw [compareColumns_eq]
  infer_instance

instance : Std.LawfulEqCmp compareColumns := by
  rw [compareColumns_eq]
  infer_instance

/-! ## Tables -/

/-- Tables are compared by their fields, one after the other, the columns last. -/
theorem TableStats.compare_eq : TableStats.compare =
    compareLex (compareOn tableName) (compareLex (compareOn fileName)
      (compareLex (compareOn numberOfColumns) (compareLex (compareOn numberOfRows)
        (compareLex (compareOn fileSize) fun a b => compareColumns a.columns b.columns)))) := rfl

instance : Std.TransCmp TableStats.compare := by
  have hcolumns : Std.TransCmp fun a b : TableStats => compareColumns a.columns b.columns :=
    Sorting.transCmp_on compareColumns TableStats.columns
  rw [TableStats.compare_eq]
  infer_instance

/-- Nothing of a table is left out of the comparison. -/
instance : Std.LawfulEqCmp TableStats.compare where
  eq_of_compare := by
    intro a b h
    simp only [TableStats.compare, Ordering.then_eq_eq, Std.LawfulEqCmp.compare_eq_iff_eq] at h
    obtain ⟨htable, hfile, hcolumns, hrows, hsize, hall⟩ := h
    cases a
    cases b
    simp_all

theorem pairwise_sortTables (tables : List TableStats) :
    (sortTables tables).Pairwise fun a b => (a.compare b).isLE = true :=
  Sorting.pairwise_sortBy tables

theorem sortTables_eq_of_perm {tables tables' : List TableStats} (h : tables.Perm tables') :
    sortTables tables = sortTables tables' :=
  Sorting.sortBy_eq_of_perm h

theorem sortTables_sortTables (tables : List TableStats) :
    sortTables (sortTables tables) = sortTables tables :=
  sortTables_eq_of_perm (perm_sortTables tables)

/-- The comparison of tables is a linear order, and tables in any order of uploads are sorted into
the same ascending list and planned alike, the failure of the plan included. -/
theorem sortTables_canonical {tables tables' : List TableStats} (h : tables.Perm tables')
    (model : Model) (selectJoinColumns : Bool) :
    Sorting.IsLinear TableStats.compare ∧
      (sortTables tables).Pairwise (fun a b => (a.compare b).isLE = true) ∧
      (sortTables tables).Perm tables ∧
      sortTables (sortTables tables) = sortTables tables ∧
      sortTables tables' = sortTables tables ∧
      planJoin model selectJoinColumns (sortTables tables') =
        planJoin model selectJoinColumns (sortTables tables) := by
  have hsorted : sortTables tables' = sortTables tables := sortTables_eq_of_perm h.symm
  refine ⟨Sorting.isLinear_of_lawful, pairwise_sortTables tables, perm_sortTables tables,
    sortTables_sortTables tables, hsorted, ?_⟩
  rw [hsorted]

/-- Tables that differ in one header or one width alone have their places, too. -/
theorem sortTables_canonical_header :
    let customers (header : String) (width : Nat) : TableStats := {
      fileName := "customers.csv", tableName := "customers", numberOfRows := 2, numberOfColumns := 1
      columns := [{ name := "name", originalName := header, fieldType := .string
                    longestString := some width }]
      fileSize := 20 }
    let tables := [customers "name" 9, customers "name" 3, customers "Name" 3]
    let sorted := [customers "Name" 3, customers "name" 3, customers "name" 9]
    let model : Model := { workspace := "w", model := "m" }
    tables.Perm sorted ∧ sortTables tables = sorted ∧
      planJoin model false (sortTables tables) = planJoin model false (sortTables sorted) ∧
      ∃ plan, planJoin model false (sortTables sorted) = .ok plan := by
  intro customers tables sorted model
  have hperm : tables.Perm sorted := by decide
  obtain ⟨-, -, -, -, hsorted, hplan⟩ := sortTables_canonical hperm model false
  have hascending : sortTables sorted = sorted := List.mergeSort_of_pairwise (by decide +kernel)
  have hok : ∃ plan, planJoin model false sorted = .ok plan :=
    ⟨_, planJoin_eq_ok_iff.2 ⟨List.cons_ne_nil _ _, by decide +kernel, rfl⟩⟩
  exact ⟨hperm, hsorted.symm.trans hascending, hplan.symm, hascending.symm ▸ hok⟩

end TabularView
