import Mathlib.Data.List.Nodup
import TabularView.View.Plan

set_option autoImplicit false

/-! # The holders of a key

A table that is joined holds its join columns. The list of keys kept while tables are joined stands
for all columns held so far (`Keeps`): no name occurs twice in it, and looking a name up gives the
key that the columns of that name make, with their tables in the order of joining.

So each table is joined on those of its join columns that an earlier table holds, each compared with
that of its first holder (`tables_viewOver`). -/

namespace TabularView

/-- A table of numbers, all columns of which take part in joins. -/
def JoinTable.ofKeys (name : String) (keys : List String) : JoinTable where
  tableName := name
  backingTableName := "w_m_" ++ name
  fileName := name ++ ".csv"
  columns := keys.zipIdx.map fun (columnName, columnIndex) =>
    { columnIndex, columnName, columnType := .number, isJoinColumn := true
      isSelectedColumn := false }

/-! ## Columns held -/

/-- A join column of a table that has been joined. -/
structure Holding where
  table : String
  column : JoinColumn
deriving DecidableEq, Repr

/-- What a table holds once it is joined. -/
def JoinTable.holdings (t : JoinTable) : List Holding :=
  t.joinColumns.map fun column => ⟨t.tableName, column⟩

/-- What is held under a name. -/
def heldAs (name : String) (held : List Holding) : List Holding :=
  held.filter (·.column.columnName == name)

/-- The key that the columns of a name make: the first of them gives the type. -/
def keyOf? (held : List Holding) (name : String) : Option ViewKey :=
  match heldAs name held with
  | [] => none
  | h :: later =>
    some { name, fieldType := h.column.columnType, first := h.table, others := later.map (·.table) }

/-- A key after one more column of its name is held. -/
def Holding.addTo (h : Holding) : Option ViewKey → ViewKey
  | some k => { k with others := k.others ++ [h.table] }
  | none =>
    { name := h.column.columnName, fieldType := h.column.columnType, first := h.table
      others := [] }

theorem keyOf?_concat (held : List Holding) (h : Holding) (name : String) :
    keyOf? (held ++ [h]) name =
      if h.column.columnName = name then some (h.addTo (keyOf? held name))
      else keyOf? held name := by
  rw [keyOf?, keyOf?, heldAs, heldAs, List.filter_append]
  by_cases hname : h.column.columnName = name
  · rw [if_pos hname, List.filter_cons_of_pos (by simpa using hname), List.filter_nil]
    cases held.filter (·.column.columnName == name) with
    | nil => simp [Holding.addTo, hname]
    | cons first later => simp [Holding.addTo]
  · rw [if_neg hname, List.filter_cons_of_neg (by simpa using hname), List.filter_nil,
      List.append_nil]

/-! ## One more column -/

theorem find?_holdKey (table : String) (column : JoinColumn) (keys : List ViewKey) (name : String) :
    (holdKey table column keys).1.find? (·.name == name) =
      if column.columnName = name then
        some (Holding.addTo { table, column } (keys.find? (·.name == name)))
      else keys.find? (·.name == name) := by
  induction keys with
  | nil =>
      by_cases hname : column.columnName = name
      · simp [holdKey, Holding.addTo, hname]
      · simp [holdKey, hname]
  | cons k rest ih =>
      rw [holdKey]
      by_cases hk : k.name = column.columnName
      · by_cases hname : column.columnName = name
        · simp [hk, hname, Holding.addTo]
        · simp [hk, hname]
      · rw [if_neg hk]
        by_cases hkname : k.name = name
        · have hname : ¬ column.columnName = name := fun h => hk (hkname.trans h.symm)
          simp [hkname, hname]
        · rw [List.find?_cons_of_neg (by simpa using hkname),
            List.find?_cons_of_neg (by simpa using hkname)]
          exact ih

/-- A column is compared with the first one of its name, if there is one. -/
theorem snd_holdKey (table : String) (column : JoinColumn) (keys : List ViewKey) :
    (holdKey table column keys).2 = (keys.find? (·.name == column.columnName)).map fun k =>
      { left := { table, column := column.columnName }
        right := { table := k.first, column := column.columnName } } := by
  induction keys with
  | nil => rfl
  | cons k rest ih =>
      rw [holdKey]
      by_cases hk : k.name = column.columnName
      · simp [hk]
      · rw [if_neg hk, List.find?_cons_of_neg (by simpa using hk)]
        exact ih

theorem mem_names_holdKey {table : String} {column : JoinColumn} {keys : List ViewKey}
    {name : String} : name ∈ (holdKey table column keys).1.map (·.name) ↔
      name = column.columnName ∨ name ∈ keys.map (·.name) := by
  induction keys with
  | nil => simp [holdKey]
  | cons k rest ih =>
      rw [holdKey]
      by_cases hk : k.name = column.columnName
      · simp [hk]
      · rw [if_neg hk, List.map_cons, List.map_cons, List.mem_cons, List.mem_cons, ih]
        exact or_left_comm

theorem nodup_names_holdKey {table : String} {column : JoinColumn} {keys : List ViewKey}
    (h : (keys.map (·.name)).Nodup) : ((holdKey table column keys).1.map (·.name)).Nodup := by
  induction keys with
  | nil => simp [holdKey]
  | cons k rest ih =>
      rw [List.map_cons, List.nodup_cons] at h
      rw [holdKey]
      by_cases hk : k.name = column.columnName
      · rw [if_pos hk, List.map_cons, List.nodup_cons]
        exact h
      · rw [if_neg hk, List.map_cons, List.nodup_cons]
        refine ⟨fun hmem => ?_, ih h.2⟩
        rcases mem_names_holdKey.1 hmem with hname | hmem
        · exact hk hname
        · exact h.1 hmem

/-! ## Keys that stand for what is held -/

/-- The keys are those of the columns held. -/
structure Keeps (held : List Holding) (keys : List ViewKey) : Prop where
  nodup : (keys.map (·.name)).Nodup
  find? : ∀ name, keys.find? (·.name == name) = keyOf? held name

theorem Keeps.nil : Keeps [] [] :=
  ⟨List.nodup_nil, fun _ => rfl⟩

theorem Keeps.holdKey {held : List Holding} {keys : List ViewKey} (h : Keeps held keys)
    (table : String) (column : JoinColumn) :
    Keeps (held ++ [⟨table, column⟩]) (holdKey table column keys).1 := by
  refine ⟨nodup_names_holdKey h.nodup, fun name => ?_⟩
  rw [find?_holdKey, keyOf?_concat, h.find?]

theorem Keeps.holdKeys {held : List Holding} {keys : List ViewKey} (h : Keeps held keys)
    (table : String) (columns : List JoinColumn) :
    Keeps (held ++ columns.map fun column => ⟨table, column⟩) (holdKeys table columns keys).1 := by
  induction columns generalizing held keys with
  | nil => simpa [TabularView.holdKeys] using h
  | cons column rest ih =>
      have hrest := ih (h.holdKey table column)
      rw [List.append_assoc, List.singleton_append] at hrest
      exact hrest

theorem Keeps.joinSources {held : List Holding} {keys : List ViewKey} (h : Keeps held keys)
    (tables : List JoinTable) :
    Keeps (held ++ tables.flatMap (·.holdings)) (joinSources tables keys).1 := by
  induction tables generalizing held keys with
  | nil => simpa [TabularView.joinSources] using h
  | cons t rest ih =>
      have hrest := ih (h.holdKeys t.tableName t.joinColumns)
      rw [List.append_assoc] at hrest
      exact hrest

/-! ## Tables that hold a name -/

theorem hasJoinColumn_iff {t : JoinTable} {name : String} :
    t.hasJoinColumn name = true ↔ name ∈ t.keyNames := by
  simp [JoinTable.hasJoinColumn, JoinTable.keyNames]

theorem mem_keyNames_of_find? {tables : List JoinTable} {name : String} {u : JoinTable}
    (h : tables.find? (·.hasJoinColumn name) = some u) : name ∈ u.keyNames :=
  hasJoinColumn_iff.1 (by simpa using List.find?_some h)

/-- A table has another name than those before it. -/
theorem tableName_ne_of_nodup {earlier rest : List JoinTable} {t : JoinTable}
    (h : ((earlier ++ t :: rest).map (·.tableName)).Nodup) :
    ∀ u ∈ earlier, u.tableName ≠ t.tableName := by
  intro u hu heq
  rw [List.map_append] at h
  exact List.disjoint_of_nodup_append h (List.mem_map_of_mem hu) (by simp [heq])

theorem heldAs_append (name : String) (held later : List Holding) :
    heldAs name (held ++ later) = heldAs name held ++ heldAs name later :=
  List.filter_append ..

/-- A table whose join columns have different names holds a name once or not at all. -/
theorem map_table_heldAs_holdings {t : JoinTable} (h : t.keyNames.Nodup) (name : String) :
    (heldAs name t.holdings).map (·.table) =
      if t.hasJoinColumn name then [t.tableName] else [] := by
  have hcount : (t.joinColumns.filter (·.columnName == name)).length = t.keyNames.count name := by
    rw [JoinTable.keyNames, List.count, List.countP_map, List.countP_eq_length_filter]
    rfl
  have hconst : (heldAs name t.holdings).map (·.table) =
      (t.joinColumns.filter (·.columnName == name)).map fun _ => t.tableName := by
    rw [heldAs, JoinTable.holdings, List.filter_map, List.map_map]
    rfl
  rw [hconst, List.map_const', hcount, h.count]
  simp only [hasJoinColumn_iff]
  split <;> rfl

theorem map_table_heldAs {tables : List JoinTable} (h : ∀ t ∈ tables, t.keyNames.Nodup)
    (name : String) : (heldAs name (tables.flatMap (·.holdings))).map (·.table) =
      (tables.filter (·.hasJoinColumn name)).map (·.tableName) := by
  induction tables with
  | nil => rfl
  | cons t rest ih =>
      rw [List.forall_mem_cons] at h
      rw [List.flatMap_cons, heldAs_append, List.map_append, map_table_heldAs_holdings h.1, ih h.2,
        List.filter_cons]
      split <;> simp

theorem keyOf?_eq_some {held : List Holding} {name : String} {k : ViewKey}
    (h : keyOf? held name = some k) :
    k.name = name ∧ k.holders = (heldAs name held).map (·.table) := by
  rw [keyOf?] at h
  split at h
  · cases h
  · next hheld =>
      obtain rfl := Option.some.inj h
      rw [hheld]
      exact ⟨rfl, rfl⟩

theorem map_first_keyOf? (held : List Holding) (name : String) :
    (keyOf? held name).map (·.first) = ((heldAs name held).map (·.table)).head? := by
  rw [keyOf?]
  cases heldAs name held <;> rfl

/-- The first holder of a key is the first table that has a join column of its name. -/
theorem map_first_keyOf?_holdings {tables : List JoinTable} (h : ∀ t ∈ tables, t.keyNames.Nodup)
    (name : String) : (keyOf? (tables.flatMap (·.holdings)) name).map (·.first) =
      (tables.find? (·.hasJoinColumn name)).map (·.tableName) := by
  rw [map_first_keyOf?, map_table_heldAs h, List.head?_map, List.head?_filter]

/-! ## Conditions -/

/-- The condition that a table has the same value under a name as a holder of it. -/
def JoinTable.equate (t holder : JoinTable) (name : String) : JoinCondition where
  left := { table := t.tableName, column := name }
  right := { table := holder.tableName, column := name }

/-- The conditions on which a table is joined to earlier ones: one for each of its join columns that
they hold, against the first holder. -/
def conditionsOn (earlier : List JoinTable) (t : JoinTable) : List JoinCondition :=
  t.keyNames.filterMap fun name => (earlier.find? (·.hasJoinColumn name)).map (t.equate · name)

/-- A table joined to earlier ones. -/
def JoinTable.joinedTo (earlier : List JoinTable) (t : JoinTable) : JoinedSource where
  source := t.source
  conditions := conditionsOn earlier t

/-- Tables joined one after the other to earlier ones. -/
def joinedAfter (earlier : List JoinTable) : List JoinTable → List JoinedSource
  | [] => []
  | t :: rest => t.joinedTo earlier :: joinedAfter (earlier ++ [t]) rest

/-- Columns of different names are compared with what was held before any of them. -/
theorem snd_holdKeys {held : List Holding} {keys : List ViewKey} (hkeeps : Keeps held keys)
    {table : String} {columns : List JoinColumn} (h : (columns.map (·.columnName)).Nodup) :
    (holdKeys table columns keys).2 = columns.filterMap fun column =>
      ((keyOf? held column.columnName).map (·.first)).map fun first =>
        { left := { table, column := column.columnName }
          right := { table := first, column := column.columnName } } := by
  induction columns generalizing held keys with
  | nil => rfl
  | cons column rest ih =>
      rw [List.map_cons, List.nodup_cons] at h
      have hrest := ih (hkeeps.holdKey table column) h.2
      rw [holdKeys]
      dsimp only
      rw [hrest, snd_holdKey, hkeeps.find?, List.filterMap_cons]
      have hsame : ∀ other ∈ rest,
          keyOf? (held ++ [⟨table, column⟩]) other.columnName = keyOf? held other.columnName := by
        intro other hother
        rw [keyOf?_concat, if_neg]
        intro hname
        exact h.1 (hname ▸ List.mem_map_of_mem hother)
      rw [List.filterMap_congr fun other hother => by rw [hsame other hother]]
      cases keyOf? held column.columnName <;> rfl

theorem holdKeys_joinColumns {earlier : List JoinTable} {keys : List ViewKey}
    (hkeeps : Keeps (earlier.flatMap (·.holdings)) keys)
    (hearlier : ∀ u ∈ earlier, u.keyNames.Nodup) {t : JoinTable} (ht : t.keyNames.Nodup) :
    (holdKeys t.tableName t.joinColumns keys).2 = conditionsOn earlier t := by
  rw [snd_holdKeys hkeeps ht, conditionsOn, JoinTable.keyNames, List.filterMap_map]
  refine List.filterMap_congr fun column _ => ?_
  rw [map_first_keyOf?_holdings hearlier, Option.map_map]
  rfl

theorem snd_joinSources {earlier order : List JoinTable} {keys : List ViewKey}
    (hkeeps : Keeps (earlier.flatMap (·.holdings)) keys)
    (h : ∀ t ∈ earlier ++ order, t.keyNames.Nodup) :
    (joinSources order keys).2 = joinedAfter earlier order := by
  induction order generalizing earlier keys with
  | nil => rfl
  | cons t rest ih =>
      have hsplit : earlier ++ t :: rest = (earlier ++ [t]) ++ rest := by simp
      have hkeeps' : Keeps ((earlier ++ [t]).flatMap (·.holdings))
          (holdKeys t.tableName t.joinColumns keys).1 := by
        rw [List.flatMap_append, List.flatMap_singleton]
        exact hkeeps.holdKeys t.tableName t.joinColumns
      have hrest := ih hkeeps' (hsplit ▸ h)
      rw [joinSources, joinedAfter, JoinTable.joinedTo]
      dsimp only
      rw [hrest, holdKeys_joinColumns hkeeps (fun u hu => h u (by simp [hu])) (h t (by simp))]

/-- The tables of a view with their conditions. -/
theorem tables_viewOver (kind : JoinKind) (name : String) {first : JoinTable}
    {order : List JoinTable} (h : ∀ t ∈ first :: order, t.keyNames.Nodup) :
    (viewOver kind name first order).tables =
      { kind, first := first.source, joined := joinedAfter [first] order } := by
  have hfirst : Keeps ([first].flatMap (·.holdings))
      (holdKeys first.tableName first.joinColumns []).1 := by
    rw [List.flatMap_singleton]
    exact Keeps.nil.holdKeys first.tableName first.joinColumns
  rw [viewOver]
  dsimp only
  rw [snd_joinSources hfirst h]

end TabularView
