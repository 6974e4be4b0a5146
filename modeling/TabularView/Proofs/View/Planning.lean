import TabularView.Proofs.Join.Connection
import TabularView.Proofs.View.JoinOrder

set_option autoImplicit false

/-! # From a join to a view

Connected tables cannot be cut in two parts that share no key (`linked_of_connected`), and the very
first column is never left out. So once the join of tables is planned, the view over them is too
(`exists_planView_of_planJoin`), if the tables have different names and at least one column each. -/

namespace TabularView

variable {model : Model} {select : Bool} {tables : List TableStats}

theorem mem_keyNames_planTable {all : List Place} {t : TableStats} {name : String} :
    name ∈ (planTable model all select t).keyNames ↔ t.Joins all name := by
  simp only [JoinTable.keyNames, JoinTable.joinColumns, planTable, List.mem_map, List.mem_filter]
  constructor
  · rintro ⟨c, ⟨⟨⟨column, index⟩, hmem, rfl⟩, hjoin⟩, rfl⟩
    exact ⟨column, List.fst_mem_of_mem_zipIdx hmem, rfl, by simpa [planColumn] using hjoin⟩
  · rintro ⟨column, hcolumn, rfl, hrole⟩
    obtain ⟨k, hk⟩ := List.mem_iff_getElem?.1 hcolumn
    exact ⟨_, ⟨⟨(column, k), List.mk_mem_zipIdx_iff_getElem?.2 hk, rfl⟩,
      by simp [planColumn, hrole]⟩, rfl⟩

/-- The view over planned tables joins all of them, from the first one on. -/
theorem viewOver_of_planJoin {plan : JoinPlan} {kind : JoinKind} {name : String} {view : ViewPlan}
    (hplan : planJoin model select tables = .ok plan)
    (hview : planView kind name plan.tables = .ok view) :
    ∃ first rest order, plan.tables = first :: rest ∧ rest.Perm order ∧
      (tables.map (planTable model (places tables) select)).Perm (first :: order) ∧
      view = viewOver kind name first order := by
  obtain ⟨first, rest, order, htables, -, horder, rfl⟩ := planView_eq_ok hview
  obtain ⟨-, -, rfl⟩ := planJoin_eq_ok_iff.1 hplan
  have hrest := (joinOrder_eq_ok horder).1
  refine ⟨first, rest, order, htables, hrest, ?_, rfl⟩
  rw [show tables.map (planTable model (places tables) select) = first :: rest from htables]
  exact hrest.cons first

/-- Connected tables of different names cannot be cut in two parts without a key in common. -/
theorem linked_of_connected (hnames : (tables.map (·.tableName)).Nodup) (h : Connected tables) :
    Linked (tables.map (planTable model (places tables) select)) := by
  intro inside outside hperm hinside houtside
  by_contra hapart
  have hplanned : (tables.map (planTable model (places tables) select)).Nodup := by
    refine List.Nodup.of_map (·.tableName) ?_
    rw [List.map_map]
    exact hnames
  have hdisjoint := List.disjoint_of_nodup_append (hperm.nodup_iff.1 hplanned)
  obtain ⟨a, ha⟩ := List.exists_mem_of_ne_nil _ hinside
  obtain ⟨b, hb⟩ := List.exists_mem_of_ne_nil _ houtside
  obtain ⟨t, ht, rfl⟩ := List.mem_map.1 (hperm.mem_iff.2 (List.mem_append_left _ ha))
  obtain ⟨u, hu, rfl⟩ := List.mem_map.1 (hperm.mem_iff.2 (List.mem_append_right _ hb))
  obtain ⟨i, hi, rfl⟩ := List.mem_iff_getElem.1 ht
  obtain ⟨j, hj, rfl⟩ := List.mem_iff_getElem.1 hu
  -- what the inside leads to stays inside, as no key is common to both parts
  have hstays : planTable model (places tables) select tables[j] ∈ inside := by
    refine (h i hi j hj).induction (P := fun t => planTable model (places tables) select t ∈ inside)
      ?_ (List.getElem?_eq_getElem hi) (List.getElem?_eq_getElem hj) ha
    intro v _ w hw name hjv hjw hv
    rcases List.mem_append.1 (hperm.mem_iff.1 (List.mem_map_of_mem hw)) with hin | hout
    · exact hin
    · exact absurd ⟨_, hv, _, hout, name, mem_keyNames_planTable.2 hjv,
        mem_keyNames_planTable.2 hjw⟩ hapart
  exact hdisjoint hstays hb

/-- The first column of all is the first of its name, so it is never excluded. -/
theorem joinColumns_or_selectedColumns_ne_nil {first : TableStats} {rest : List TableStats}
    (h : first.columns ≠ []) :
    (planTable model (places (first :: rest)) select first).joinColumns ≠ [] ∨
      (planTable model (places (first :: rest)) select first).selectedColumns ≠ [] := by
  cases hcolumns : first.columns with
  | nil => exact absurd hcolumns h
  | cons column columns =>
      -- the first place of all is the first place of its name
      have hhead : (placesNamed (places (first :: rest)) column.name).head? =
          some { table := 0, index := 0, column := column } := by
        simp [placesNamed, places, placesFrom, placesOfColumns, hcolumns]
      obtain ⟨-, -, hfits⟩ := mem_membersOf.1 (head_mem_membersOf hhead)
      have hmem : planColumn (places (first :: rest)) select column 0 ∈
          (planTable model (places (first :: rest)) select first).columns := by
        simp [planTable, hcolumns, List.zipIdx_cons]
      cases hkey : isKey (places (first :: rest)) column.name with
      | true =>
          refine Or.inl (List.ne_nil_of_mem (List.mem_filter.2 ⟨hmem, ?_⟩))
          simpa [planColumn, role_eq_join_iff] using ⟨hfits, hkey⟩
      | false =>
          refine Or.inr (List.ne_nil_of_mem (List.mem_filter.2 ⟨hmem, ?_⟩))
          simp [planColumn, roleOf, hfits, hkey]

/-- Once the join of tables is planned, so is the view over them. -/
theorem exists_planView_of_planJoin {plan : JoinPlan} (kind : JoinKind) (name : String)
    (hnames : (tables.map (·.tableName)).Nodup) (hcolumns : ∀ t ∈ tables, t.columns ≠ [])
    (h : planJoin model select tables = .ok plan) :
    ∃ view, planView kind name plan.tables = .ok view := by
  obtain ⟨hne, hdetached, rfl⟩ := planJoin_eq_ok_iff.1 h
  have hlinked : Linked (tables.map (planTable model (places tables) select)) :=
    linked_of_connected hnames ((detachedTables_eq_nil_iff hne).1 hdetached)
  cases tables with
  | nil => exact absurd rfl hne
  | cons first rest =>
      refine exists_planView_eq_ok kind name ?_ hlinked
        (joinColumns_or_selectedColumns_ne_nil (hcolumns first (List.mem_cons_self ..)))
      rw [← List.map_cons, List.map_map]
      exact hnames

end TabularView
