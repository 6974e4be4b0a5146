import TabularView.Proofs.Join.Roles
import TabularView.Proofs.View.Planning
import TabularView.Proofs.View.Projections
import TabularView.Query.Compile

set_option autoImplicit false

/-! # The types of keys in a view

A join gives every key the first known type among its columns. A view takes the type of a key from
the first table that holds it in the order of joining, and leaves it at that when the table knows
none. So the two types are the same exactly if that table knows the type or no table does
(`columnType?_eq_keyType_iff`); otherwise the view has the key as unknown, and no filter and no sum
over it compiles, although a table that is joined knows its type. -/

namespace TabularView

/-! ## The first table that holds a key -/

/-- The tables of a view in the order in which they are joined. -/
def FromClause.sources (f : FromClause) : List Source :=
  f.first :: f.joined.map (·.source)

/-- The type of a name in the first table that holds it as a join column. -/
def firstHeldType? (tables : List JoinTable) (name : String) : Option FieldType :=
  ((tables.flatMap (·.joinColumns)).find? (·.columnName == name)).map (·.columnType)

theorem map_source_joinSources (order : List JoinTable) (keys : List ViewKey) :
    (joinSources order keys).2.map (·.source) = order.map (·.source) := by
  induction order generalizing keys with
  | nil => rfl
  | cons t rest ih =>
      rw [joinSources]
      dsimp only
      rw [List.map_cons, List.map_cons, ih]

theorem sources_viewOver (kind : JoinKind) (name : String) (first : JoinTable)
    (order : List JoinTable) :
    (viewOver kind name first order).tables.sources = (first :: order).map (·.source) := by
  simp only [viewOver, FromClause.sources, map_source_joinSources, List.map_cons]

theorem map_column_holdings (tables : List JoinTable) :
    (tables.flatMap (·.holdings)).map (·.column) = tables.flatMap (·.joinColumns) := by
  rw [List.map_flatMap]
  refine List.flatMap_congr fun t _ => ?_
  rw [JoinTable.holdings, List.map_map]
  exact List.map_id _

theorem map_fieldType_keyOf? (tables : List JoinTable) (name : String) :
    (keyOf? (tables.flatMap (·.holdings)) name).map (·.fieldType) = firstHeldType? tables name := by
  have hhead : (keyOf? (tables.flatMap (·.holdings)) name).map (·.fieldType) =
      (heldAs name (tables.flatMap (·.holdings))).head?.map (·.column.columnType) := by
    rw [keyOf?]
    cases heldAs name (tables.flatMap (·.holdings)) <;> rfl
  rw [hhead, heldAs, List.head?_filter, firstHeldType?, ← map_column_holdings, List.find?_map,
    Option.map_map]
  rfl

/-- A key has the type of its first holder. -/
theorem columnType?_viewOver (kind : JoinKind) (name : String) {first : JoinTable}
    {order : List JoinTable} {key : String} {type : FieldType}
    (h : firstHeldType? (first :: order) key = some type) :
    (viewOver kind name first order).definition.columnType? key = some type := by
  rw [← map_fieldType_keyOf?] at h
  obtain ⟨k, hk, rfl⟩ := Option.map_eq_some_iff.1 h
  have hfind := find?_projections_viewOver kind name hk
  rw [ViewDefinition.columnType?, ViewPlan.definition, List.find?_map, Option.map_map]
  -- a column of the definition has the name of its projection
  show ((viewOver kind name first order).projections.find? (·.name == key)).map (·.fieldType) = _
  rw [hfind]
  rfl

/-! ## Types of planned tables -/

variable {model : Model} {select : Bool} {tables : List TableStats} {key : String}

theorem mem_joinColumns_planTable {all : List Place} {t : TableStats} {c : JoinColumn} :
    c ∈ (planTable model all select t).joinColumns ↔
      c ∈ (planTable model all select t).columns ∧
        roleOf all c.columnName c.columnType = .join := by
  rw [JoinTable.joinColumns, List.mem_filter]
  refine and_congr_right fun hc => ?_
  obtain ⟨column, _, index, rfl⟩ := exists_of_mem_planTable hc
  simp [planColumn]

theorem exists_joinColumn_of_mem_places (model : Model) (select : Bool) {p : Place}
    (hp : p ∈ places tables)
    (hrole : roleOf (places tables) p.column.name p.column.fieldType = .join) :
    ∃ t ∈ tables, ∃ c ∈ (planTable model (places tables) select t).joinColumns,
      c.columnName = p.column.name ∧ c.columnType = p.column.fieldType := by
  obtain ⟨t, ht, hcolumn⟩ := mem_places.1 hp
  refine ⟨t, List.mem_of_getElem? ht, planColumn (places tables) select p.column p.index,
    mem_joinColumns_planTable.2 ⟨?_, hrole⟩, rfl, rfl⟩
  exact List.mem_map.2 ⟨(p.column, p.index), List.mk_mem_zipIdx_iff_getElem?.2 hcolumn, rfl⟩

/-- The type of a key is unknown if none of its join columns knows it. -/
theorem keyType_eq_unknown_of_joinColumns
    (h : ∀ t ∈ tables, ∀ c ∈ (planTable model (places tables) select t).joinColumns,
      c.columnName = key → c.columnType = .unknown)
    (hkey : isKey (places tables) key = true) : keyType (places tables) key = .unknown := by
  by_contra hknown
  obtain ⟨p, hp⟩ : ∃ p, keyPlace? (places tables) key = some p := by
    cases hplace : keyPlace? (places tables) key with
    | none => exact absurd (by simp [keyType, hplace]) hknown
    | some p => exact ⟨p, rfl⟩
  have htype : keyType (places tables) key = p.column.fieldType := by simp [keyType, hp]
  obtain ⟨hmem, hname⟩ := List.mem_filter.1 (List.mem_of_find?_eq_some hp)
  obtain rfl : p.column.name = key := by simpa using hname
  -- the place that gives the type is itself joined
  have hrole : roleOf (places tables) p.column.name p.column.fieldType = .join :=
    (role_eq_join_iff _ _ _).2 ⟨by simp [fitsKey, htype], hkey⟩
  obtain ⟨t, ht, c, hc, hcname, hctype⟩ :=
    exists_joinColumn_of_mem_places model select hmem hrole
  exact hknown ((htype.trans hctype.symm).trans (h t ht c hc hcname))

/-- A join column has the type of its name exactly if it knows a type or no join column of the name
does. -/
theorem eq_keyType_iff {type : FieldType} (model : Model) (select : Bool)
    (hrole : roleOf (places tables) key type = .join) :
    type = keyType (places tables) key ↔ type ≠ .unknown ∨
      ∀ t ∈ tables, ∀ c ∈ (planTable model (places tables) select t).joinColumns,
        c.columnName = key → c.columnType = .unknown := by
  have htype := fieldType_of_role_eq_join hrole
  constructor
  · intro heq
    by_cases hunknown : type = .unknown
    · refine Or.inr fun t _ c hc hname => ?_
      have hcrole := (mem_joinColumns_planTable.1 hc).2
      rw [hname] at hcrole
      rcases fieldType_of_role_eq_join hcrole with hctype | hctype
      · exact hctype.trans (heq.symm.trans hunknown)
      · exact hctype
    · exact Or.inl hunknown
  · rintro (hknown | hall)
    · exact htype.resolve_right hknown
    · have hkey := keyType_eq_unknown_of_joinColumns hall ((role_eq_join_iff _ _ _).1 hrole).2
      rcases htype with htype | hunknown
      · exact htype
      · exact hunknown.trans hkey.symm

/-- The first holder of a key has it as a join column. -/
theorem exists_firstHeldType? {first : JoinTable} {order : List JoinTable}
    (hperm : (tables.map (planTable model (places tables) select)).Perm (first :: order))
    (hkey : ∃ t ∈ first :: order, key ∈ t.keyNames) :
    ∃ type, firstHeldType? (first :: order) key = some type ∧
      roleOf (places tables) key type = .join := by
  obtain ⟨c, hc⟩ : ∃ c, ((first :: order).flatMap (·.joinColumns)).find? (·.columnName == key) =
      some c := by
    obtain ⟨t, ht, hholds⟩ := hkey
    obtain ⟨c, hc, hname⟩ := List.mem_map.1 hholds
    rw [← Option.isSome_iff_exists, List.find?_isSome]
    exact ⟨c, List.mem_flatMap.2 ⟨t, ht, hc⟩, by simpa using hname⟩
  refine ⟨c.columnType, by rw [firstHeldType?, hc, Option.map_some], ?_⟩
  obtain ⟨t, ht, hmem⟩ := List.mem_flatMap.1 (List.mem_of_find?_eq_some hc)
  obtain ⟨u, _, rfl⟩ := List.mem_map.1 (hperm.mem_iff.2 ht)
  have hname : c.columnName = key := by simpa using List.find?_some hc
  rw [← hname]
  exact (mem_joinColumns_planTable.1 hmem).2

/-! ## Bindings to a key of unknown type -/

theorem exists_literalFor_unknown_eq_error (column : String) (value : FilterValue) :
    ∃ f, literalFor column .unknown value = .error f := by
  cases value <;> exact ⟨_, rfl⟩

/-- Only a filter that asks for nothing has a predicate on a column of unknown type. -/
theorem filter_eq_noOp_of_predicate?_unknown {filter : Filter} {column : String}
    {predicate : Option Predicate} (h : filter.predicate? column .unknown = .ok predicate) :
    filter = .noOp := by
  cases filter with
  | noOp => rfl
  | keep operator value =>
      obtain ⟨f, hf⟩ := exists_literalFor_unknown_eq_error column value
      simp [Filter.predicate?, Filter.comparison?, hf] at h
  | discard operator value =>
      obtain ⟨f, hf⟩ := exists_literalFor_unknown_eq_error column value
      simp [Filter.predicate?, Filter.comparison?, hf] at h

/-- Neither a filter nor an aggregate of numbers compiles on a column of unknown type. -/
theorem exists_compileAxis_eq_error_of_unknown {view : ViewDefinition} {b : AxisBinding}
    (htype : view.columnType? b.column = some .unknown) (axis : Axis) {aggregate : Option Aggregate}
    (h : b.filter ≠ .noOp ∨ ∃ a, aggregate = some a ∧ a.requiresNumber = true) :
    ∃ f, compileAxis axis b view aggregate = .error f := by
  cases hcompile : compileAxis axis b view aggregate with
  | error f => exact ⟨f, rfl⟩
  | ok compiled =>
      exfalso
      have hcolumn : b.columnType axis view = .ok .unknown := by
        simp [AxisBinding.columnType, htype]
      rw [compileAxis] at hcompile
      obtain ⟨type, hok, hcompile⟩ := bind_eq_ok_iff.1 hcompile
      obtain rfl : FieldType.unknown = type := Except.ok.inj (hcolumn.symm.trans hok)
      obtain ⟨_, haggregate, hcompile⟩ := bind_eq_ok_iff.1 hcompile
      obtain ⟨_, _, hcompile⟩ := bind_eq_ok_iff.1 hcompile
      obtain ⟨_, hpredicate, _⟩ := bind_eq_ok_iff.1 hcompile
      rcases h with hfilter | ⟨a, rfl, hnumber⟩
      · exact hfilter (filter_eq_noOp_of_predicate?_unknown hpredicate)
      · simp [checkAggregate, hnumber] at haggregate

/-! ## The view's types and the join's -/

/-- A key is of the type of its first holder in the order of joining. That is the type the join
gives it exactly if this holder knows a type or no holder does; if it knows none, neither a filter
on the key nor a sum over it compiles. -/
theorem columnType?_eq_keyType_iff {plan : JoinPlan} {p : ViewPlanner} {name : String}
    {definition : ViewDefinition} (hplan : planJoin model select tables = .ok plan)
    (hdefine : (p.define name plan.tables).1 = .ok definition) :
    ∃ view first rest order, planView p.kind name plan.tables = .ok view ∧
      definition = view.definition ∧ plan.tables = first :: rest ∧ rest.Perm order ∧
      view.tables.sources = (first :: order).map (·.source) ∧
      ∀ key, (∃ t ∈ plan.tables, key ∈ t.keyNames) →
        ∃ type, firstHeldType? (first :: order) key = some type ∧
          definition.columnType? key = some type ∧
          (type = keyType (places tables) key ↔ type ≠ .unknown ∨
            ∀ t ∈ plan.tables, ∀ c ∈ t.joinColumns, c.columnName = key → c.columnType = .unknown) ∧
          (type = .unknown → ∀ axis b aggregate, b.column = key →
            (b.filter ≠ .noOp ∨ ∃ a, aggregate = some a ∧ a.requiresNumber = true) →
            ∃ f, compileAxis axis b definition aggregate = .error f) := by
  obtain ⟨view, hview, rfl⟩ := define_eq_ok hdefine
  obtain ⟨first, rest, order, htables, hrest, hperm, rfl⟩ := viewOver_of_planJoin hplan hview
  obtain ⟨-, -, rfl⟩ := planJoin_eq_ok_iff.1 hplan
  refine ⟨_, first, rest, order, hview, rfl, htables, hrest,
    sources_viewOver p.kind name first order, fun key hkey => ?_⟩
  dsimp only at hkey ⊢
  obtain ⟨type, hheld, hrole⟩ := exists_firstHeldType? hperm <| by
    obtain ⟨t, ht, hholds⟩ := hkey
    exact ⟨t, hperm.mem_iff.1 ht, hholds⟩
  have hshown := columnType?_viewOver p.kind name hheld
  refine ⟨type, hheld, hshown, ?_, ?_⟩
  · rw [List.forall_mem_map]
    exact eq_keyType_iff model select hrole
  · rintro rfl axis b aggregate rfl hasks
    exact exists_compileAxis_eq_error_of_unknown hshown axis hasks

/-- The first table with the key in the order of names does not know its type, but one that is
joined earlier does. -/
theorem columnType?_eq_keyType_joined_earlier :
    let tables : List TableStats := [.ofColumns "a" [("x", .number)],
      .ofColumns "b" [("y", .unknown)], .ofColumns "c" [("x", .number), ("y", .date)]]
    let p : ViewPlanner := {}
    ∃ plan definition, planJoin { workspace := "w", model := "m" } false tables = .ok plan ∧
      (p.define "v" plan.tables).1 = .ok definition ∧ (∃ t ∈ plan.tables, "y" ∈ t.keyNames) ∧
      keyType (places tables) "y" = .date ∧ definition.columnType? "y" = some .date ∧
      ∃ view : ViewPlan, definition = view.definition ∧
        view.tables.sources.map (·.name) = ["a", "c", "b"] := by
  intro tables p
  have hplanned : (planJoin { workspace := "w", model := "m" } false tables).toOption.any
      (fun plan => (planView p.kind "v" plan.tables).toOption.any fun view =>
        decide ((∃ t ∈ plan.tables, "y" ∈ t.keyNames) ∧
          view.definition.columnType? "y" = some .date ∧
          view.tables.sources.map (·.name) = ["a", "c", "b"])) = true := by
    decide +kernel
  obtain ⟨plan, hplan, hviewed⟩ := exists_ok_of_any hplanned
  obtain ⟨view, hview, hshown⟩ := exists_ok_of_any hviewed
  obtain ⟨hkey, hdate, hsources⟩ := of_decide_eq_true hshown
  have hdefine : (p.define "v" plan.tables).1 = .ok view.definition := by
    rw [ViewPlanner.define, hview]
  obtain ⟨_, _, _, _, -, -, -, -, -, hkeys⟩ := columnType?_eq_keyType_iff hplan hdefine
  obtain ⟨type, -, htype, hiff, -⟩ := hkeys "y" hkey
  obtain rfl : type = .date := Option.some.inj (htype.symm.trans hdate)
  exact ⟨plan, view.definition, hplan, hdefine, hkey, (hiff.2 (Or.inl (by decide))).symm, hdate,
    view, rfl, hsources⟩

/-- A table without rows comes first: the join has the key as a number, the view as unknown, and
the sum over it does not compile. -/
theorem columnType?_unknown_of_first_holder :
    let tables : List TableStats := [.ofColumns "a" [("k", .unknown)],
      .ofColumns "b" [("k", .number)]]
    let p : ViewPlanner := {}
    let axis : AxisBinding := { column := "k" }
    (tables.map (·.tableName)).Nodup ∧ (∀ t ∈ tables, (t.columns.map (·.name)).Nodup) ∧
      ∃ plan definition, planJoin { workspace := "w", model := "m" } false tables = .ok plan ∧
        (p.define "v" plan.tables).1 = .ok definition ∧ (∃ t ∈ plan.tables, "k" ∈ t.keyNames) ∧
        keyType (places tables) "k" = .number ∧ definition.columnType? "k" = some .unknown ∧
        ∃ f, compileBindings .sum { x := axis, y := axis, z := axis } definition = .error f := by
  intro tables p axis
  have hplanned : (planJoin { workspace := "w", model := "m" } false tables).toOption.any
      (fun plan => (p.define "v" plan.tables).1.toOption.any fun definition =>
        decide ((∃ t ∈ plan.tables, "k" ∈ t.keyNames) ∧
          definition.columnType? "k" = some .unknown ∧
          (compileBindings .sum { x := axis, y := axis, z := axis } definition).toOption =
            none)) = true := by
    decide +kernel
  obtain ⟨plan, hplan, hdefined⟩ := exists_ok_of_any hplanned
  obtain ⟨definition, hdefine, hshown⟩ := exists_ok_of_any hdefined
  obtain ⟨hkey, hunknown, hcompile⟩ := of_decide_eq_true hshown
  have herror : ∃ f, compileBindings .sum { x := axis, y := axis, z := axis } definition =
      .error f := by
    cases hc : compileBindings .sum { x := axis, y := axis, z := axis } definition with
    | error f => exact ⟨f, rfl⟩
    | ok query => simp [hc, Except.toOption] at hcompile
  exact ⟨by decide, by decide, plan, definition, hplan, hdefine, hkey, by decide +kernel, hunknown,
    herror⟩

end TabularView
