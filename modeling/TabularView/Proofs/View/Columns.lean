import TabularView.Proofs.Join.Roles
import TabularView.Proofs.View.Planning
import TabularView.Proofs.View.Projections

set_option autoImplicit false

/-! # The names of a view's columns

The names that a view over planned tables asks for are those of its keys and, unless join columns
are selected, those of the plain columns (`map_name_selected_perm`). These are all different, so
every projection gets the name it asks for, which is that of the column it reads: each name of the
tables is shown exactly once (`columns_of_planJoin`). -/

namespace TabularView

/-! ## What is asked for -/

/-- The columns that an expression reads. -/
def Expression.refs : Expression → List ColumnRef
  | .column ref => [ref]
  | .coalesce refs => refs

theorem mem_keyNames_iff {t : JoinTable} {name : String} :
    name ∈ t.keyNames ↔ ∃ h ∈ t.holdings, h.column.columnName = name := by
  simp [JoinTable.keyNames, JoinTable.holdings]

/-- A key is held by a table that has a join column of its name. -/
theorem Keeps.mem_names_iff {tables : List JoinTable} {keys : List ViewKey}
    (h : Keeps (tables.flatMap (·.holdings)) keys) {name : String} :
    name ∈ keys.map (·.name) ↔ ∃ t ∈ tables, name ∈ t.keyNames := by
  have hfind : name ∈ keys.map (·.name) ↔ (keys.find? (·.name == name)).isSome = true := by
    simp [List.find?_isSome]
  have hheld : (keyOf? (tables.flatMap (·.holdings)) name).isSome = true ↔
      heldAs name (tables.flatMap (·.holdings)) ≠ [] := by
    rw [keyOf?]
    cases heldAs name (tables.flatMap (·.holdings)) <;> simp
  rw [hfind, h.find?, hheld, heldAs, Ne, List.filter_eq_nil_iff]
  simp only [mem_keyNames_iff, List.mem_flatMap]
  push Not
  constructor
  · rintro ⟨held, ⟨t, ht, hmem⟩, hname⟩
    exact ⟨t, ht, held, hmem, by simpa using hname⟩
  · rintro ⟨t, ht, held, hmem, hname⟩
    exact ⟨held, ⟨t, ht, hmem⟩, by simpa using hname⟩

/-- The keys are found under their own names. -/
theorem Keeps.keyOf?_eq_some_of_mem {held : List Holding} {keys : List ViewKey}
    (h : Keeps held keys) {k : ViewKey} (hk : k ∈ keys) : keyOf? held k.name = some k := by
  rw [← h.find?]
  exact find?_of_nodup_map h.nodup hk

/-- A key reads the columns of its name in the tables that hold it. -/
theorem Keeps.exists_of_mem_refs {tables : List JoinTable} {keys : List ViewKey}
    (h : Keeps (tables.flatMap (·.holdings)) keys) {k : ViewKey} (hk : k ∈ keys) {kind : JoinKind}
    {ref : ColumnRef} (href : ref ∈ (k.expression kind).refs) :
    ref.column = k.name ∧ ∃ t ∈ tables, t.tableName = ref.table ∧ k.name ∈ t.keyNames := by
  have hholder : ref.column = k.name ∧ ref.table ∈ k.holders := by
    rw [ViewKey.expression] at href
    split at href
    · obtain ⟨table, htable, rfl⟩ := List.mem_map.1 href
      exact ⟨rfl, htable⟩
    · obtain rfl := List.mem_singleton.1 href
      exact ⟨rfl, List.mem_cons_self ..⟩
  obtain ⟨hcolumn, htable⟩ := hholder
  rw [(keyOf?_eq_some (h.keyOf?_eq_some_of_mem hk)).2] at htable
  obtain ⟨held, hheld, hname⟩ := List.mem_map.1 htable
  obtain ⟨hmem, hcolumnName⟩ := List.mem_filter.1 hheld
  obtain ⟨t, ht, hholds⟩ := List.mem_flatMap.1 hmem
  have htableName : held.table = t.tableName := by
    obtain ⟨_, _, rfl⟩ := List.mem_map.1 hholds
    rfl
  exact ⟨hcolumn, t, ht, htableName.symm.trans hname,
    mem_keyNames_iff.2 ⟨held, hholds, by simpa using hcolumnName⟩⟩

/-! ## Selected columns of planned tables -/

variable {model : Model} {tables : List TableStats}

/-- Unless join columns are selected, a planned table shows its plain columns. -/
theorem selectedColumns_planTable (model : Model) (all : List Place) (t : TableStats) :
    ((planTable model all false t).selectedColumns).map (·.columnName) =
      (t.columns.filter fun c => roleOf all c.name c.fieldType = .plain).map (·.name) := by
  have hplain : ∀ entry : Column × Nat,
      (planColumn all false entry.1 entry.2).isSelectedColumn =
        decide (roleOf all entry.1.name entry.1.fieldType = .plain) := by
    intro entry
    simp [planColumn]
  have hsplit : (t.columns.filter fun c => roleOf all c.name c.fieldType = .plain) =
      (t.columns.zipIdx.filter fun entry =>
        roleOf all entry.1.name entry.1.fieldType = .plain).map Prod.fst := by
    conv_lhs => rw [← List.zipIdx_map_fst 0 t.columns, List.filter_map]
    rfl
  rw [hsplit, JoinTable.selectedColumns, planTable, List.filter_map, List.map_map, List.map_map]
  simp only [Function.comp_def, hplain]
  rfl

/-- No selected column of a planned table is a join column. -/
theorem isJoinColumn_of_mem_selectedColumns {all : List Place} {t : TableStats} {c : JoinColumn}
    (h : c ∈ (planTable model all false t).selectedColumns) : c.isJoinColumn = false := by
  obtain ⟨hmem, hselected⟩ := List.mem_filter.1 h
  obtain ⟨column, _, index, rfl⟩ := exists_of_mem_planTable hmem
  have hplain : roleOf all column.name column.fieldType = .plain := by
    simpa [planColumn] using hselected
  simp [planColumn, hplain]

theorem map_name_tableProjections_perm (model : Model) (all : List Place) (t : TableStats) :
    ((tableProjections (planTable model all false t)).map (·.name)).Perm
      ((t.columns.filter fun c => roleOf all c.name c.fieldType = .plain).map (·.name)) := by
  have hsorted : (sortByIndex (planTable model all false t).selectedColumns).Perm
      (planTable model all false t).selectedColumns := List.mergeSort_perm _ _
  have hnames : (tableProjections (planTable model all false t)).map (·.name) =
      (sortByIndex (planTable model all false t).selectedColumns).map (·.columnName) := by
    rw [tableProjections, List.map_map]
    refine List.map_congr_left fun c hc => ?_
    simp [columnProjection, isJoinColumn_of_mem_selectedColumns (hsorted.mem_iff.1 hc)]
  rw [hnames, ← selectedColumns_planTable model]
  exact hsorted.map _

/-! ## The view over planned tables -/

section Planned

variable {first : JoinTable} {order : List JoinTable}

/-- The tables of a view in the order of joining, planned without selecting join columns. -/
theorem map_name_selected_perm
    (h : (tables.map (planTable model (places tables) false)).Perm (first :: order)) :
    (((first :: order).flatMap tableProjections).map (·.name)).Perm
      ((plainColumns tables).map (·.name)) := by
  have hplain : (plainColumns tables).map (·.name) = tables.flatMap fun t =>
      (t.columns.filter fun c => roleOf (places tables) c.name c.fieldType = .plain).map
        (·.name) := by
    rw [plainColumns, List.filter_flatMap, List.map_flatMap]
  rw [hplain, List.map_flatMap]
  refine (h.symm.flatMap_right _).trans ?_
  rw [List.flatMap_map]
  exact List.Perm.flatMap_left _ fun t _ => map_name_tableProjections_perm model _ t

theorem mem_names_keysOver_iff
    (h : (tables.map (planTable model (places tables) false)).Perm (first :: order))
    {name : String} :
    name ∈ (keysOver first order).map (·.name) ↔ ∃ t ∈ tables, t.Joins (places tables) name := by
  rw [(keeps_keysOver first order).mem_names_iff]
  constructor
  · rintro ⟨t, ht, hname⟩
    obtain ⟨u, hu, rfl⟩ := List.mem_map.1 (h.mem_iff.2 ht)
    exact ⟨u, hu, mem_keyNames_planTable.1 hname⟩
  · rintro ⟨u, hu, hjoins⟩
    exact ⟨_, h.mem_iff.1 (List.mem_map_of_mem hu), mem_keyNames_planTable.2 hjoins⟩

/-- No two projections ask for the same name. -/
theorem nodup_names_asked
    (h : (tables.map (planTable model (places tables) false)).Perm (first :: order))
    (kind : JoinKind) :
    (((keysOver first order).map (keyProjection kind) ++
      (first :: order).flatMap tableProjections).map (·.name)).Nodup := by
  have hselected := map_name_selected_perm h
  rw [List.map_append, map_name_keyProjection, List.nodup_append]
  refine ⟨(keeps_keysOver first order).nodup,
    (nodup_names_plainColumns tables).perm hselected.symm, ?_⟩
  rintro name hkey other hplain rfl
  obtain ⟨t, _, hjoins⟩ := (mem_names_keysOver_iff h).1 hkey
  obtain ⟨c, hc, rfl⟩ := List.mem_map.1 (hselected.mem_iff.1 hplain)
  exact not_joins_of_mem_plainColumns hc hjoins

/-- Every projection of the view gets the name it asks for. -/
theorem projections_planned
    (h : (tables.map (planTable model (places tables) false)).Perm (first :: order))
    (kind : JoinKind) (name : String) :
    (viewOver kind name first order).projections =
      (keysOver first order).map (keyProjection kind) ++
        (first :: order).flatMap tableProjections := by
  rw [projections_viewOver]
  exact nameProjections_of_nodup (nodup_names_asked h kind)

/-- The names that are shown are those of the tables' columns. -/
theorem mem_names_planned_iff
    (h : (tables.map (planTable model (places tables) false)).Perm (first :: order))
    (kind : JoinKind) (name column : String) :
    column ∈ (viewOver kind name first order).projections.map (·.name) ↔
      ∃ t ∈ tables, ∃ c ∈ t.columns, c.name = column := by
  rw [projections_planned h, List.map_append, map_name_keyProjection, List.mem_append,
    mem_names_keysOver_iff h, (map_name_selected_perm h).mem_iff]
  constructor
  · rintro (⟨t, ht, c, hc, hname, _⟩ | hplain)
    · exact ⟨t, ht, c, hc, hname⟩
    · obtain ⟨c, hc, hname⟩ := List.mem_map.1 hplain
      obtain ⟨⟨t, ht, hmem⟩, _⟩ := mem_plainColumns.1 hc
      exact ⟨t, ht, c, hmem, hname⟩
  · rintro ⟨t, ht, c, hc, rfl⟩
    rcases joins_or_plain ht hc with hjoins | ⟨d, hd, hname⟩
    · exact Or.inl hjoins
    · exact Or.inr (List.mem_map.2 ⟨d, hd, hname⟩)

/-- A projection reads columns of its own name. -/
theorem exists_of_mem_refs_planned
    (h : (tables.map (planTable model (places tables) false)).Perm (first :: order))
    {kind : JoinKind} {name : String} {projection : Projection}
    (hprojection : projection ∈ (viewOver kind name first order).projections) {ref : ColumnRef}
    (href : ref ∈ projection.expression.refs) :
    ref.column = projection.name ∧ ∃ t ∈ tables, t.tableName = ref.table ∧
      ∃ c ∈ t.columns, c.name = projection.name := by
  rw [projections_planned h, List.mem_append] at hprojection
  rcases hprojection with hkey | hselected
  · obtain ⟨k, hk, rfl⟩ := List.mem_map.1 hkey
    obtain ⟨hcolumn, t, ht, htable, hname⟩ :=
      (keeps_keysOver first order).exists_of_mem_refs hk href
    obtain ⟨u, hu, rfl⟩ := List.mem_map.1 (h.mem_iff.2 ht)
    obtain ⟨c, hc, hcname, _⟩ := mem_keyNames_planTable.1 hname
    exact ⟨hcolumn, u, hu, htable, c, hc, hcname⟩
  · obtain ⟨t, ht, hmem⟩ := List.mem_flatMap.1 hselected
    obtain ⟨u, hu, rfl⟩ := List.mem_map.1 (h.mem_iff.2 ht)
    obtain ⟨c, hc, rfl⟩ := List.mem_map.1 hmem
    have hshown : c ∈ (planTable model (places tables) false u).selectedColumns :=
      (List.mergeSort_perm _ _).mem_iff.1 hc
    have hname : (columnProjection (planTable model (places tables) false u) c).name =
        c.columnName := by
      simp [columnProjection, isJoinColumn_of_mem_selectedColumns hshown]
    obtain ⟨column, hcolumn, index, rfl⟩ := exists_of_mem_planTable (List.mem_filter.1 hshown).1
    obtain rfl := List.mem_singleton.1 href
    rw [hname]
    exact ⟨rfl, u, hu, rfl, column, hcolumn, rfl⟩

end Planned

/-- Planned without selecting join columns, a view has each column name of its tables exactly once,
and the column of that name reads columns of no other name. -/
theorem columns_of_planJoin {plan : JoinPlan} {p : ViewPlanner} {name : String}
    {definition : ViewDefinition} (hplan : planJoin model false tables = .ok plan)
    (hdefine : (p.define name plan.tables).1 = .ok definition) :
    (definition.columns.map (·.name)).Nodup ∧
    (∀ column, column ∈ definition.columns.map (·.name) ↔
      ∃ t ∈ tables, ∃ c ∈ t.columns, c.name = column) ∧
    ∃ view, planView p.kind name plan.tables = .ok view ∧ definition = view.definition ∧
      ∀ projection ∈ view.projections, ∀ ref ∈ projection.expression.refs,
        ref.column = projection.name ∧ ∃ t ∈ tables, t.tableName = ref.table ∧
          ∃ c ∈ t.columns, c.name = projection.name := by
  obtain ⟨view, hview, rfl⟩ := define_eq_ok hdefine
  obtain ⟨first, rest, order, -, -, hperm, rfl⟩ := viewOver_of_planJoin hplan hview
  have hnames : (viewOver p.kind name first order).definition.columns.map (·.name) =
      (viewOver p.kind name first order).projections.map (·.name) := by
    rw [ViewPlan.definition, List.map_map]
    rfl
  refine ⟨?_, fun column => ?_, _, hview, rfl, fun projection hprojection ref href => ?_⟩
  · rw [hnames, projections_planned hperm]
    exact nodup_names_asked hperm p.kind
  · rw [hnames]
    exact mem_names_planned_iff hperm p.kind name column
  · exact exists_of_mem_refs_planned hperm hprojection href

/-- A key that is unknown in one table and left out of another, which has it as a number, is shown
once, and so is everything else. -/
theorem columns_of_planJoin_mixed :
    let tables : List TableStats := [
      .ofColumns "a" [("k", .number), ("n", .string), ("x", .date)],
      .ofColumns "b" [("k", .number), ("n", .number), ("y", .unknown)],
      .ofColumns "c" [("k", .unknown), ("n", .string)]]
    let p : ViewPlanner := { kind := .full }
    ∃ plan definition, planJoin { workspace := "w", model := "m" } false tables = .ok plan ∧
      (p.define "v" plan.tables).1 = .ok definition ∧
      definition.columns.map (·.name) = ["k", "n", "x", "y"] ∧
      ∀ column, column ∈ definition.columns.map (·.name) ↔
        ∃ t ∈ tables, ∃ c ∈ t.columns, c.name = column := by
  intro tables p
  have hcolumns : ((planJoin { workspace := "w", model := "m" } false tables).toOption.bind
      fun plan => (p.define "v" plan.tables).1.toOption.map fun definition =>
        definition.columns.map (·.name)) = some ["k", "n", "x", "y"] := by decide +kernel
  obtain ⟨plan, hplan, hdefined⟩ := Option.bind_eq_some_iff.1 hcolumns
  obtain ⟨definition, hdefine, hshown⟩ := Option.map_eq_some_iff.1 hdefined
  rw [toOption_eq_some_iff] at hplan hdefine
  exact ⟨plan, definition, hplan, hdefine, hshown, (columns_of_planJoin hplan hdefine).2.1⟩

end TabularView
