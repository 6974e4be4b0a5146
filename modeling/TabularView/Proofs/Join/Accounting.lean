import TabularView.Proofs.Fallible
import TabularView.Proofs.Join.Connection

set_option autoImplicit false

/-! # What becomes of every column

A plan keeps each table with each of its columns at its place, and a column is joined, shown or left
out. Which of these it is depends on the columns of its name, in the order of tables: the first one
with a known type decides, and the others agree with it or not. A column that agrees is joined if
another one does, too; one that disagrees is left out, and reported once (`accounts_planJoin`). -/

namespace TabularView

variable {tables : List TableStats} {p q : Place} {name : String}

/-! ## The order of columns -/

/-- A place holds a column of the tables. -/
def Place.IsIn (tables : List TableStats) (p : Place) : Prop :=
  ∃ t, tables[p.table]? = some t ∧ t.columns[p.index]? = some p.column

/-- A place comes before another one: in an earlier table, or earlier in the same table. -/
def Place.Before (p q : Place) : Prop :=
  p.table < q.table ∨ p.table = q.table ∧ p.index < q.index

theorem Place.Before.asymm (h : p.Before q) : ¬ q.Before p := by
  rintro (hlt | ⟨heq, hlt⟩) <;> rcases h with hlt' | ⟨heq', hlt'⟩ <;> omega

theorem Place.not_before_self (p : Place) : ¬ p.Before p :=
  fun h => h.asymm h

theorem mem_places_iff_isIn : p ∈ places tables ↔ p.IsIn tables :=
  mem_places

theorem pairwise_before_placesOfColumns (table index : Nat) (columns : List Column) :
    (placesOfColumns table index columns).Pairwise Place.Before := by
  induction columns generalizing index with
  | nil => exact .nil
  | cons column rest ih =>
      refine List.pairwise_cons.2 ⟨fun later hlater => ?_, ih (index + 1)⟩
      obtain ⟨htable, hindex, -⟩ := mem_placesOfColumns.1 hlater
      exact .inr ⟨htable.symm, hindex⟩

theorem pairwise_before_placesFrom (first : Nat) (tables : List TableStats) :
    (placesFrom first tables).Pairwise Place.Before := by
  induction tables generalizing first with
  | nil => exact .nil
  | cons t rest ih =>
      refine List.pairwise_append.2
        ⟨pairwise_before_placesOfColumns first 0 t.columns, ih (first + 1), ?_⟩
      intro earlier hearlier later hlater
      have htable := (mem_placesOfColumns.1 hearlier).1
      have hlater := (mem_placesFrom.1 hlater).1
      exact .inl (by omega)

/-- The places are listed in their order. -/
theorem pairwise_before_places (tables : List TableStats) :
    (places tables).Pairwise Place.Before :=
  pairwise_before_placesFrom 0 tables

theorem nodup_places (tables : List TableStats) : (places tables).Nodup := by
  refine (pairwise_before_places tables).imp ?_
  rintro p _ hbefore rfl
  exact p.not_before_self hbefore

/-! ## The column that decides -/

/-- A place decides on the type of a name: it is the first of the name with a known type. -/
structure Place.Decides (tables : List TableStats) (name : String) (p : Place) : Prop where
  isIn : p.IsIn tables
  named : p.column.name = name
  known : p.column.fieldType ≠ .unknown
  first : ∀ q : Place, q.IsIn tables → q.column.name = name → q.column.fieldType ≠ .unknown →
    q = p ∨ p.Before q

theorem mem_placesNamed : p ∈ placesNamed (places tables) name ↔
    p.IsIn tables ∧ p.column.name = name := by
  rw [placesNamed, List.mem_filter, mem_places_iff_isIn, beq_iff_eq]

theorem decides_of_keyPlace? (h : keyPlace? (places tables) name = some p) :
    p.Decides tables name := by
  obtain ⟨hknown, earlier, later, hsplit, hunknown⟩ := List.find?_eq_some_iff_append.1 h
  have hordered : (placesNamed (places tables) name).Pairwise Place.Before :=
    (pairwise_before_places tables).filter _
  obtain ⟨hisIn, hnamed⟩ : p.IsIn tables ∧ p.column.name = name := by
    rw [← mem_placesNamed, hsplit]
    simp
  refine ⟨hisIn, hnamed, by simpa using hknown, fun q hq hqname hqknown => ?_⟩
  have hmem := mem_placesNamed.2 ⟨hq, hqname⟩
  rw [hsplit] at hmem hordered
  rcases List.mem_append.1 hmem with hmem | hmem
  · exact absurd (by simpa using hunknown q hmem) hqknown
  · rcases List.mem_cons.1 hmem with rfl | hmem
    · exact .inl rfl
    · have hrest := (List.pairwise_append.1 hordered).2.1
      exact .inr ((List.pairwise_cons.1 hrest).1 q hmem)

/-- Only one place decides on a name. -/
theorem Place.Decides.eq (hp : p.Decides tables name) (hq : q.Decides tables name) : p = q := by
  rcases hq.first p hp.isIn hp.named hp.known with heq | hbefore
  · exact heq
  · rcases hp.first q hq.isIn hq.named hq.known with heq | hbefore'
    · exact heq.symm
    · exact absurd hbefore' hbefore.asymm

theorem exists_keyPlace?_of_known (hp : p.IsIn tables) (hknown : p.column.fieldType ≠ .unknown) :
    ∃ q, keyPlace? (places tables) p.column.name = some q := by
  rw [keyPlace?, ← Option.isSome_iff_exists, List.find?_isSome]
  exact ⟨p, mem_placesNamed.2 ⟨hp, rfl⟩, by simpa using hknown⟩

/-- A column with a known type has one that decides on its name. -/
theorem exists_decides_of_known (hp : p.IsIn tables) (hknown : p.column.fieldType ≠ .unknown) :
    ∃ q, q.Decides tables p.column.name ∧
      keyPlace? (places tables) p.column.name = some q ∧
      keyType (places tables) p.column.name = q.column.fieldType := by
  obtain ⟨q, hq⟩ := exists_keyPlace?_of_known hp hknown
  exact ⟨q, decides_of_keyPlace? hq, hq, by rw [keyType, hq]⟩

/-! ## Columns that agree -/

/-- A column agrees with its name: its type is not known, or it is the one that is decided. -/
def Place.Agrees (tables : List TableStats) (p : Place) : Prop :=
  p.column.fieldType = .unknown ∨
    ∃ q : Place, q.Decides tables p.column.name ∧ q.column.fieldType = p.column.fieldType

/-- A column disagrees with its name: it has a known type, and another one is decided. -/
def Place.Disagrees (tables : List TableStats) (p : Place) : Prop :=
  p.column.fieldType ≠ .unknown ∧
    ∃ q : Place, q.Decides tables p.column.name ∧ q.column.fieldType ≠ p.column.fieldType

theorem fitsKey_iff_agrees (hp : p.IsIn tables) :
    fitsKey (keyType (places tables) p.column.name) p.column.fieldType = true ↔
      p.Agrees tables := by
  by_cases hknown : p.column.fieldType = .unknown
  · simp [fitsKey, Place.Agrees, hknown]
  · obtain ⟨q, hq, -, htype⟩ := exists_decides_of_known hp hknown
    have hfits : fitsKey (keyType (places tables) p.column.name) p.column.fieldType = true ↔
        p.column.fieldType = q.column.fieldType := by
      simp [fitsKey, htype, hknown]
    rw [hfits]
    constructor
    · exact fun heq => .inr ⟨q, hq, heq.symm⟩
    · rintro (hunknown | ⟨q', hq', heq⟩)
      · exact absurd hunknown hknown
      · rw [hq.eq hq', heq]

theorem not_fitsKey_iff_disagrees (hp : p.IsIn tables) :
    fitsKey (keyType (places tables) p.column.name) p.column.fieldType = false ↔
      p.Disagrees tables := by
  rw [← Bool.not_eq_true, fitsKey_iff_agrees hp, Place.Agrees, Place.Disagrees, not_or]
  refine and_congr_right fun hknown => ?_
  obtain ⟨q, hq, -⟩ := exists_decides_of_known hp hknown
  constructor
  · exact fun hnone => ⟨q, hq, fun heq => hnone ⟨q, hq, heq⟩⟩
  · rintro ⟨q', hq', hne⟩ ⟨q'', hq'', heq⟩
    exact hne (hq'.eq hq'' ▸ heq)

/-- What is decided against a column is decided by an earlier one. -/
theorem Place.Disagrees.before (h : p.Disagrees tables) (hp : p.IsIn tables)
    (hq : q.Decides tables p.column.name) : q.Before p := by
  obtain ⟨hknown, q', hq', hne⟩ := h
  obtain rfl := hq.eq hq'
  rcases hq.first p hp rfl hknown with rfl | hbefore
  · exact absurd rfl hne
  · exact hbefore

/-- A name is a key if two of its columns agree. -/
theorem isKey_iff_agrees (hp : p.IsIn tables) (h : p.Agrees tables) :
    isKey (places tables) p.column.name = true ↔
      ∃ q : Place, q ≠ p ∧ q.IsIn tables ∧ q.column.name = p.column.name ∧ q.Agrees tables := by
  have hmem : ∀ q, q ∈ membersOf (places tables) p.column.name ↔
      q.IsIn tables ∧ q.column.name = p.column.name ∧ q.Agrees tables := by
    intro q
    rw [mem_membersOf, mem_places_iff_isIn]
    refine and_congr_right fun hq => and_congr_right fun hname => ?_
    rw [← hname]
    exact fitsKey_iff_agrees hq
  have hnodup : (membersOf (places tables) p.column.name).Nodup :=
    ((nodup_places tables).filter _).filter _
  have hmember := (hmem p).2 ⟨hp, rfl, h⟩
  have hlength := List.length_erase_of_mem hmember
  have hpositive := List.length_pos_of_mem hmember
  -- the other members are those that are left without this one
  have hothers : isKey (places tables) p.column.name = true ↔
      0 < ((membersOf (places tables) p.column.name).erase p).length := by
    rw [isKey, decide_eq_true_iff, hlength]
    omega
  rw [hothers, List.length_pos_iff_exists_mem]
  simp only [hnodup.mem_erase_iff, hmem]

/-! ## Planned columns -/

/-- The marks of a column in a role: a join column is selected if that is asked for. -/
def JoinColumn.Plays (select : Bool) (c : JoinColumn) : JoinRole → Prop
  | .join => c.isJoinColumn = true ∧ c.isSelectedColumn = select
  | .plain => c.isJoinColumn = false ∧ c.isSelectedColumn = true
  | .excluded => c.isJoinColumn = false ∧ c.isSelectedColumn = false

theorem plays_planColumn (all : List Place) (select : Bool) (column : Column) (index : Nat)
    (role : JoinRole) :
    (planColumn all select column index).Plays select role ↔
      role = roleOf all column.name column.fieldType := by
  simp only [planColumn]
  cases roleOf all column.name column.fieldType <;> cases role <;> simp [JoinColumn.Plays]

/-- A planned column stands for a column of the tables: it has the same index, name, type and width
and plays exactly one role. It is joined if it agrees with its name and another column does, and
left out if it disagrees. -/
structure JoinColumn.StandsFor (select : Bool) (tables : List TableStats) (c : JoinColumn)
    (p : Place) : Prop where
  columnIndex : c.columnIndex = p.index
  columnName : c.columnName = p.column.name
  columnType : c.columnType = p.column.fieldType
  columnLength : c.columnLength = p.column.longestString
  plays : ∃ role, (∀ other, c.Plays select other ↔ other = role) ∧
    (role = .join ↔ p.Agrees tables ∧ ∃ q : Place,
      q ≠ p ∧ q.IsIn tables ∧ q.column.name = p.column.name ∧ q.Agrees tables) ∧
    (role = .excluded ↔ p.Disagrees tables)

theorem standsFor_planColumn (select : Bool) (hp : p.IsIn tables) :
    (planColumn (places tables) select p.column p.index).StandsFor select tables p := by
  refine ⟨rfl, rfl, rfl, rfl, _, plays_planColumn _ select p.column p.index, ?_, ?_⟩
  · rw [role_eq_join_iff, fitsKey_iff_agrees hp]
    exact and_congr_right fun hagrees => isKey_iff_agrees hp hagrees
  · rw [role_eq_excluded_iff, not_fitsKey_iff_disagrees hp]

theorem getElem?_columns_planTable (model : Model) (all : List Place) (select : Bool)
    (t : TableStats) (k : Nat) :
    (planTable model all select t).columns[k]? =
      t.columns[k]?.map fun column => planColumn all select column k := by
  rw [planTable, List.getElem?_map, List.getElem?_zipIdx, Option.map_map]
  simp [Function.comp_def]

/-- A planned table stands for a table: it has the same names and a column for each of its
columns. -/
structure JoinTable.StandsFor (model : Model) (select : Bool) (tables : List TableStats)
    (u : JoinTable) (i : Nat) (t : TableStats) : Prop where
  tableName : u.tableName = t.tableName
  backingTableName : u.backingTableName = model.tableName t.tableName
  fileName : u.fileName = t.fileName
  length : u.columns.length = t.columns.length
  columns : ∀ (k : Nat) (column : Column), t.columns[k]? = some column →
    ∃ c, u.columns[k]? = some c ∧
      c.StandsFor select tables { table := i, index := k, column := column }

theorem standsFor_planTable (model : Model) (select : Bool) {i : Nat} {t : TableStats}
    (ht : tables[i]? = some t) :
    (planTable model (places tables) select t).StandsFor model select tables i t where
  tableName := rfl
  backingTableName := rfl
  fileName := rfl
  length := by simp [planTable]
  columns k column hcolumn :=
    ⟨planColumn (places tables) select column k,
      by rw [getElem?_columns_planTable, hcolumn, Option.map_some],
      standsFor_planColumn (p := ⟨i, k, column⟩) select ⟨t, ht, hcolumn⟩⟩

/-- A plan has each table at its place. -/
theorem exists_standsFor_of_planJoin {model : Model} {select : Bool} {plan : JoinPlan}
    (h : planJoin model select tables = .ok plan) {i : Nat} {t : TableStats}
    (ht : tables[i]? = some t) :
    ∃ u, plan.tables[i]? = some u ∧ u.StandsFor model select tables i t := by
  obtain ⟨-, -, rfl⟩ := planJoin_eq_ok_iff.1 h
  exact ⟨_, by rw [List.getElem?_map, ht, Option.map_some], standsFor_planTable model select ht⟩

/-! ## Reports -/

/-- A problem reports a column that disagrees: it names its place, its type, and the type that is
decided with the table where it is. -/
def Problem.Reports (tables : List TableStats) (problem : Problem) (p : Place) : Prop :=
  ∃ t u : TableStats, ∃ q : Place, tables[p.table]? = some t ∧
    q.Decides tables p.column.name ∧ tables[q.table]? = some u ∧
    problem = {
      fileName := t.fileName
      tableName := some t.tableName
      columnIndex := some p.index
      columnName := some p.column.name
      errorType := .invalidFieldValue
      message := "Column '" ++ p.column.name ++ "' is " ++ p.column.fieldType.name ++
        " here but " ++ q.column.fieldType.name ++ " in table '" ++ u.tableName ++
        "'; excluded from the view" }

theorem reports_conflictProblem (hp : p.IsIn tables) (h : p.Disagrees tables) :
    (conflictProblem tables (places tables) p).Reports tables p := by
  obtain ⟨q, hq, hplace, htype⟩ := exists_decides_of_known hp h.1
  obtain ⟨t, ht, -⟩ := hp
  obtain ⟨u, hu, -⟩ := hq.isIn
  exact ⟨t, u, q, ht, hq, hu, by simp [conflictProblem, ht, hu, hplace, htype]⟩

/-- The places that are left out, name by name. -/
def excludedPlaces (tables : List TableStats) : List Place :=
  (namesOf (places tables)).flatMap (conflictsOf (places tables))

theorem mem_conflictsOf : p ∈ conflictsOf (places tables) name ↔
    p.IsIn tables ∧ p.column.name = name ∧ p.Disagrees tables := by
  rw [conflictsOf, List.mem_filter, mem_placesNamed, and_assoc]
  simp only [Bool.not_eq_true']
  refine and_congr_right fun hp => and_congr_right fun hname => ?_
  rw [← hname]
  exact not_fitsKey_iff_disagrees hp

theorem mem_excludedPlaces : p ∈ excludedPlaces tables ↔ p.IsIn tables ∧ p.Disagrees tables := by
  simp only [excludedPlaces, List.mem_flatMap, mem_conflictsOf]
  constructor
  · rintro ⟨name, -, hp, -, hdisagrees⟩
    exact ⟨hp, hdisagrees⟩
  · rintro ⟨hp, hdisagrees⟩
    exact ⟨p.column.name, mem_namesOf.2 ⟨p, mem_places_iff_isIn.2 hp, rfl⟩, hp, rfl, hdisagrees⟩

theorem nodup_excludedPlaces (tables : List TableStats) : (excludedPlaces tables).Nodup := by
  refine List.nodup_flatMap.2
    ⟨fun name _ => ((nodup_places tables).filter _).filter _, ?_⟩
  refine (nodup_foldl_insertName _ _).imp ?_
  intro name other hne p hp hp'
  exact hne ((mem_conflictsOf.1 hp).2.1.symm.trans (mem_conflictsOf.1 hp').2.1)

/-- A plan has each table with each of its columns at its place, under the marks of exactly one
role. The columns that disagree with their names, and no others, are reported, each once. What such
a column disagrees with comes before it, so the first column of a name is never left out. -/
theorem accounts_planJoin {model : Model} {select : Bool} {plan : JoinPlan}
    (h : planJoin model select tables = .ok plan) :
    plan.tables.length = tables.length ∧
    (∀ (i : Nat) (t : TableStats), tables[i]? = some t →
      ∃ u, plan.tables[i]? = some u ∧ u.StandsFor model select tables i t) ∧
    (∃ excluded : List Place, excluded.Nodup ∧
      (∀ p, p ∈ excluded ↔ p.IsIn tables ∧ p.Disagrees tables) ∧
      List.Forall₂ (Problem.Reports tables) plan.problems excluded) ∧
    (∀ p q : Place, p.IsIn tables → p.Disagrees tables → q.Decides tables p.column.name →
      q.Before p) ∧
    ∀ p : Place, p.IsIn tables →
      (∀ q : Place, q.IsIn tables → q.column.name = p.column.name → ¬ q.Before p) →
      ¬ p.Disagrees tables := by
  have htables := fun i t => exists_standsFor_of_planJoin h (i := i) (t := t)
  obtain ⟨-, -, rfl⟩ := planJoin_eq_ok_iff.1 h
  refine ⟨List.length_map _, htables, ?_, fun p q hp hdisagrees hq => ?_, ?_⟩
  · refine ⟨excludedPlaces tables, nodup_excludedPlaces tables, fun p => mem_excludedPlaces, ?_⟩
    rw [← List.map_flatMap, List.forall₂_map_left_iff]
    refine List.forall₂_same.2 ?_
    intro p hp
    obtain ⟨hisIn, hdisagrees⟩ := mem_excludedPlaces.1 hp
    exact reports_conflictProblem hisIn hdisagrees
  · exact hdisagrees.before hp hq
  · rintro p hp hfirst hdisagrees
    obtain ⟨q, hq, -⟩ := exists_decides_of_known hp hdisagrees.1
    exact hfirst q hq.isIn hq.named (hdisagrees.before hp hq)

/-- A column of no known type is joined under a type that is decided after it. Two columns of other
types are left out, and the reports on them come in the order of names. -/
theorem accounts_planJoin_two_left_out :
    let model : Model := { workspace := "w", model := "m" }
    let tables : List TableStats := [
      .ofColumns "a" [("k", .unknown), ("n", .string)],
      .ofColumns "b" [("n", .number), ("k", .number)],
      .ofColumns "c" [("n", .string), ("k", .date), ("x", .unknown)]]
    ∃ plan, planJoin model true tables = .ok plan ∧
      plan.tables.map (·.columns.map fun c => (c.isJoinColumn, c.isSelectedColumn)) =
        [[(true, true), (true, true)], [(false, false), (true, true)],
          [(true, true), (false, false), (false, true)]] ∧
      plan.problems.map (fun problem => (problem.tableName, problem.columnIndex)) =
        [(some "c", some 1), (some "b", some 0)] ∧
      (∀ (i : Nat) (t : TableStats), tables[i]? = some t →
        ∃ u, plan.tables[i]? = some u ∧ u.StandsFor model true tables i t) ∧
      ∃ excluded : List Place, excluded.length = 2 ∧ excluded.Nodup ∧
        (∀ p, p ∈ excluded ↔ p.IsIn tables ∧ p.Disagrees tables) ∧
        List.Forall₂ (Problem.Reports tables) plan.problems excluded := by
  intro model tables
  have hplanned : (planJoin model true tables).toOption.any (fun plan => decide
      (plan.tables.map (·.columns.map fun c => (c.isJoinColumn, c.isSelectedColumn)) =
        [[(true, true), (true, true)], [(false, false), (true, true)],
          [(true, true), (false, false), (false, true)]] ∧
      plan.problems.map (fun problem => (problem.tableName, problem.columnIndex)) =
        [(some "c", some 1), (some "b", some 0)])) = true := by
    decide +kernel
  obtain ⟨plan, hplan, hshown⟩ := exists_ok_of_any hplanned
  obtain ⟨hmarks, hproblems⟩ := of_decide_eq_true hshown
  obtain ⟨-, htables, ⟨excluded, hnodup, hmem, hreports⟩, -⟩ := accounts_planJoin hplan
  have hlength : plan.problems.length = 2 := by simpa using congrArg List.length hproblems
  exact ⟨plan, hplan, hmarks, hproblems, htables, excluded,
    hreports.length_eq.symm.trans hlength, hnodup, hmem, hreports⟩

end TabularView
