import TabularView.Proofs.Join.Partition
import TabularView.Proofs.Join.Planned

set_option autoImplicit false

/-! # Connected tables

Two tables are adjacent when both have a join column of one name. The planner joins the first table
of a name with each of its members, which connects the same tables (`reaches_iff_eqvGen`), so the
tables it reports as detached are those that cannot be reached from the first one
(`detachedTables_eq`), and there are none exactly if the tables are connected
(`detachedTables_eq_nil_iff`). So a plan exists exactly if the first table leads to all others, and
its failure lists the tables that are out of reach (`planJoin_eq_ok_iff_reaches`). -/

namespace TabularView

/-! ## Places -/

theorem mem_placesOfColumns {table index : Nat} {columns : List Column} {p : Place} :
    p ∈ placesOfColumns table index columns ↔
      p.table = table ∧ index ≤ p.index ∧ columns[p.index - index]? = some p.column := by
  induction columns generalizing index with
  | nil => simp [placesOfColumns]
  | cons column rest ih =>
      rw [placesOfColumns, List.mem_cons, ih]
      constructor
      · rintro (rfl | ⟨htable, hle, hcolumn⟩)
        · simp
        · -- one position further in the rest
          have hsub : p.index - index = p.index - (index + 1) + 1 := by omega
          refine ⟨htable, by omega, ?_⟩
          rwa [hsub, List.getElem?_cons_succ]
      · rintro ⟨htable, hle, hcolumn⟩
        by_cases heq : p.index = index
        · rw [heq, Nat.sub_self, List.getElem?_cons_zero] at hcolumn
          left
          cases p
          simp_all
        · have hsub : p.index - index = p.index - (index + 1) + 1 := by omega
          rw [hsub, List.getElem?_cons_succ] at hcolumn
          exact Or.inr ⟨htable, by omega, hcolumn⟩

theorem mem_placesFrom {first : Nat} {tables : List TableStats} {p : Place} :
    p ∈ placesFrom first tables ↔
      first ≤ p.table ∧ ∃ t, tables[p.table - first]? = some t ∧
        t.columns[p.index]? = some p.column := by
  induction tables generalizing first with
  | nil => simp [placesFrom]
  | cons t rest ih =>
      rw [placesFrom, List.mem_append, mem_placesOfColumns, ih]
      constructor
      · rintro (⟨rfl, -, hcolumn⟩ | ⟨hle, u, hu, hcolumn⟩)
        · exact ⟨Nat.le_refl _, t, by simp, hcolumn⟩
        · have hsub : p.table - first = p.table - (first + 1) + 1 := by omega
          refine ⟨by omega, u, ?_, hcolumn⟩
          rwa [hsub, List.getElem?_cons_succ]
      · rintro ⟨hle, u, hu, hcolumn⟩
        by_cases heq : p.table = first
        · rw [heq, Nat.sub_self, List.getElem?_cons_zero] at hu
          obtain rfl := Option.some.inj hu
          exact Or.inl ⟨heq, Nat.zero_le _, hcolumn⟩
        · have hsub : p.table - first = p.table - (first + 1) + 1 := by omega
          rw [hsub, List.getElem?_cons_succ] at hu
          exact Or.inr ⟨by omega, u, hu, hcolumn⟩

/-- A place is a column of a table. -/
theorem mem_places {tables : List TableStats} {p : Place} :
    p ∈ places tables ↔
      ∃ t, tables[p.table]? = some t ∧ t.columns[p.index]? = some p.column := by
  simp [places, mem_placesFrom]

theorem mem_namesOf {all : List Place} {name : String} :
    name ∈ namesOf all ↔ ∃ p ∈ all, p.column.name = name := by
  rw [namesOf, mem_foldl_insertName]
  simp

theorem mem_membersOf {all : List Place} {name : String} {p : Place} :
    p ∈ membersOf all name ↔
      p ∈ all ∧ p.column.name = name ∧ fitsKey (keyType all name) p.column.fieldType = true := by
  rw [membersOf, List.mem_filter, placesNamed, List.mem_filter, and_assoc, beq_iff_eq]

/-- The first place of a name fits the type of the name, as that is its own type if it has one. -/
theorem head_mem_membersOf {all : List Place} {name : String} {owner : Place}
    (h : (placesNamed all name).head? = some owner) : owner ∈ membersOf all name := by
  obtain ⟨rest, hplaces⟩ : ∃ rest, placesNamed all name = owner :: rest := by
    cases hp : placesNamed all name with
    | nil => simp [hp] at h
    | cons p rest => exact ⟨rest, by simpa [hp] using h⟩
  have hmem : owner ∈ placesNamed all name := by rw [hplaces]; exact List.mem_cons_self ..
  refine List.mem_filter.2 ⟨hmem, ?_⟩
  by_cases hunknown : owner.column.fieldType = .unknown
  · simp [fitsKey, hunknown]
  · have hkey : keyPlace? all name = some owner := by
      simp [keyPlace?, hplaces, hunknown]
    simp [fitsKey, keyType, hkey]

/-! ## Adjacent tables -/

/-- The table has a join column of a name. -/
def TableStats.Joins (all : List Place) (t : TableStats) (name : String) : Prop :=
  ∃ column ∈ t.columns, column.name = name ∧ roleOf all name column.fieldType = .join

/-- Two tables both have a join column of one name. -/
def Adjacent (tables : List TableStats) (i j : Nat) : Prop :=
  ∃ t u name, tables[i]? = some t ∧ tables[j]? = some u ∧
    t.Joins (places tables) name ∧ u.Joins (places tables) name

/-- One table leads to another over adjacent ones. -/
def Reaches (tables : List TableStats) : Nat → Nat → Prop :=
  Relation.ReflTransGen (Adjacent tables)

/-- Every table leads to every other. -/
def Connected (tables : List TableStats) : Prop :=
  ∀ i < tables.length, ∀ j < tables.length, Reaches tables i j

theorem Adjacent.symm {tables : List TableStats} {i j : Nat} (h : Adjacent tables i j) :
    Adjacent tables j i := by
  obtain ⟨t, u, name, ht, hu, hjt, hju⟩ := h
  exact ⟨u, t, name, hu, ht, hju, hjt⟩

theorem Reaches.symm {tables : List TableStats} {i j : Nat} (h : Reaches tables i j) :
    Reaches tables j i := by
  induction h with
  | refl => exact .refl
  | tail _ hstep ih => exact (Relation.ReflTransGen.single hstep.symm).trans ih

/-- What holds of a table and is handed on to every table with a common join column holds of all
tables that it leads to. -/
theorem Reaches.induction {tables : List TableStats} {P : TableStats → Prop} {i j : Nat}
    (h : Reaches tables i j)
    (hstep : ∀ t ∈ tables, ∀ u ∈ tables, ∀ name, t.Joins (places tables) name →
      u.Joins (places tables) name → P t → P u)
    {t u : TableStats} (ht : tables[i]? = some t) (hu : tables[j]? = some u) (hP : P t) : P u := by
  induction h generalizing u with
  | refl =>
      obtain rfl : t = u := Option.some.inj (ht.symm.trans hu)
      exact hP
  | tail _ hadjacent ih =>
      obtain ⟨v, w, name, hv, hw, hjv, hjw⟩ := hadjacent
      obtain rfl : w = u := Option.some.inj (hw.symm.trans hu)
      exact hstep v (List.mem_of_getElem? hv) w (List.mem_of_getElem? hw) name hjv hjw (ih hv)

/-- A table has a join column of a name exactly if the name is a key with a member there. -/
theorem joins_iff {tables : List TableStats} {i : Nat} {t : TableStats} {name : String}
    (ht : tables[i]? = some t) :
    t.Joins (places tables) name ↔
      isKey (places tables) name = true ∧ ∃ p ∈ membersOf (places tables) name, p.table = i := by
  constructor
  · rintro ⟨column, hcolumn, hname, hrole⟩
    obtain ⟨hfits, hkey⟩ := (role_eq_join_iff _ _ _).1 hrole
    obtain ⟨k, hk⟩ := List.mem_iff_getElem?.1 hcolumn
    refine ⟨hkey, { table := i, index := k, column := column }, mem_membersOf.2 ⟨?_, hname, hfits⟩,
      rfl⟩
    exact mem_places.2 ⟨t, ht, hk⟩
  · rintro ⟨hkey, p, hp, rfl⟩
    obtain ⟨hplace, hname, hfits⟩ := mem_membersOf.1 hp
    obtain ⟨u, hu, hcolumn⟩ := mem_places.1 hplace
    obtain rfl : u = t := Option.some.inj (hu.symm.trans ht)
    exact ⟨p.column, List.mem_of_getElem? hcolumn, hname, (role_eq_join_iff _ _ _).2 ⟨hfits, hkey⟩⟩

/-! ## Edges of the plan -/

theorem mem_keyEdges {all : List Place} {name : String} {i j : Nat} :
    (i, j) ∈ keyEdges all name ↔ isKey all name = true ∧
      ∃ owner, (placesNamed all name).head? = some owner ∧ owner.table = i ∧
        ∃ p ∈ membersOf all name, p.table = j := by
  rw [keyEdges]
  by_cases hkey : isKey all name = true
  · rw [if_pos hkey]
    cases hplaces : placesNamed all name with
    | nil => simp
    | cons owner rest =>
        constructor
        · intro h
          obtain ⟨p, hp, heq⟩ := List.mem_map.1 h
          obtain ⟨rfl, rfl⟩ := Prod.mk.inj heq
          exact ⟨hkey, owner, rfl, rfl, p, hp, rfl⟩
        · rintro ⟨_, other, hother, rfl, p, hp, rfl⟩
          obtain rfl := Option.some.inj hother
          exact List.mem_map.2 ⟨p, hp, rfl⟩
  · simp [hkey]

/-- The first table of a key is joined with those of its members. -/
theorem mem_edges {all : List Place} {i j : Nat} :
    (i, j) ∈ edges all ↔ ∃ name, isKey all name = true ∧
      ∃ owner, (placesNamed all name).head? = some owner ∧ owner.table = i ∧
        ∃ p ∈ membersOf all name, p.table = j := by
  rw [edges, List.mem_flatMap]
  constructor
  · rintro ⟨name, _, hedge⟩
    exact ⟨name, mem_keyEdges.1 hedge⟩
  · rintro ⟨name, hkey, owner, howner, hedge⟩
    refine ⟨name, mem_namesOf.2 ⟨owner, ?_⟩, mem_keyEdges.2 ⟨hkey, owner, howner, hedge⟩⟩
    obtain ⟨hplace, hname, _⟩ := mem_membersOf.1 (head_mem_membersOf howner)
    exact ⟨hplace, hname⟩

theorem adjacent_of_mem_edges {tables : List TableStats} {i j : Nat}
    (h : (i, j) ∈ edges (places tables)) : Adjacent tables i j := by
  obtain ⟨name, hkey, owner, howner, rfl, p, hp, rfl⟩ := mem_edges.1 h
  have hmember := head_mem_membersOf howner
  obtain ⟨t, ht, _⟩ := mem_places.1 (mem_membersOf.1 hmember).1
  obtain ⟨u, hu, _⟩ := mem_places.1 (mem_membersOf.1 hp).1
  exact ⟨t, u, name, ht, hu, (joins_iff ht).2 ⟨hkey, owner, hmember, rfl⟩,
    (joins_iff hu).2 ⟨hkey, p, hp, rfl⟩⟩

/-- The first table of a key leads to both of two adjacent tables. -/
theorem eqvGen_of_adjacent {tables : List TableStats} {i j : Nat} (h : Adjacent tables i j) :
    Relation.EqvGen (fun i j => (i, j) ∈ edges (places tables)) i j := by
  obtain ⟨t, u, name, ht, hu, hjt, hju⟩ := h
  obtain ⟨hkey, p, hp, rfl⟩ := (joins_iff ht).1 hjt
  obtain ⟨_, q, hq, rfl⟩ := (joins_iff hu).1 hju
  obtain ⟨owner, howner⟩ : ∃ owner, (placesNamed (places tables) name).head? = some owner := by
    have hmem : p ∈ placesNamed (places tables) name := (List.mem_filter.1 hp).1
    exact ⟨_, List.head?_eq_some_head (List.ne_nil_of_mem hmem)⟩
  have hedge : ∀ m ∈ membersOf (places tables) name,
      (owner.table, m.table) ∈ edges (places tables) :=
    fun m hm => mem_edges.2 ⟨name, hkey, owner, howner, rfl, m, hm, rfl⟩
  exact ((Relation.EqvGen.rel _ _ (hedge p hp)).symm).trans _ _ _ (.rel _ _ (hedge q hq))

theorem reaches_iff_eqvGen {tables : List TableStats} {i j : Nat} :
    Reaches tables i j ↔ Relation.EqvGen (fun i j => (i, j) ∈ edges (places tables)) i j := by
  constructor
  · intro h
    induction h with
    | refl => exact .refl _
    | tail _ hstep ih => exact ih.trans _ _ _ (eqvGen_of_adjacent hstep)
  · intro h
    induction h with
    | rel a b hedge => exact .single (adjacent_of_mem_edges hedge)
    | refl a => exact .refl
    | symm a b _ ih => exact ih.symm
    | trans a b c _ _ ih ih' => exact ih.trans ih'

/-! ## Detached tables -/

/-- The roots of the planner's components are the same for tables that lead to each other. -/
theorem exists_represents_components (tables : List TableStats) :
    ∃ rep, (components tables).Represents rep ∧ ∀ i j, rep i = rep j ↔ Reaches tables i j := by
  have hpairs : ∀ pair ∈ edges (places tables),
      pair.1 < tables.length ∧ pair.2 < tables.length := by
    rintro ⟨i, j⟩ hedge
    obtain ⟨t, u, _, ht, hu, _⟩ := adjacent_of_mem_edges hedge
    exact ⟨(List.getElem?_eq_some_iff.1 ht).1, (List.getElem?_eq_some_iff.1 hu).1⟩
  obtain ⟨rep, hrep, hiff⟩ := DisjointSet.exists_represents_unionAll hpairs
  exact ⟨rep, hrep, fun i j => (hiff i j).trans reaches_iff_eqvGen.symm⟩

theorem detachedFrom_eq {s : DisjointSet} {rep : Nat → Nat} (h : s.Represents rep) (r i : Nat)
    {tables : List TableStats} (hlength : i + tables.length ≤ s.parent.length) :
    detachedFrom r i tables s =
      ((tables.zipIdx i).filter fun entry => rep entry.2 ≠ r).map (·.1.tableName) := by
  induction tables generalizing i s with
  | nil => rfl
  | cons t rest ih =>
      rw [List.length_cons] at hlength
      have hi : i < s.parent.length := by omega
      -- looking a root up shortens ways and keeps all roots
      have hrest := ih (h.find hi) (i + 1) (by rw [DisjointSet.length_parent_find]; omega)
      rw [detachedFrom]
      dsimp only
      rw [DisjointSet.fst_find h hi, hrest, List.zipIdx_cons]
      by_cases hroot : rep i = r
      · simp [hroot]
      · simp [hroot]

open scoped Classical in
/-- The names of the tables that the first one does not lead to, in their order. -/
noncomputable def unreachedTables (tables : List TableStats) : List String :=
  (tables.zipIdx.filter fun entry => ¬ Reaches tables 0 entry.2).map (·.1.tableName)

theorem detachedTables_eq {tables : List TableStats} (hne : tables ≠ []) :
    detachedTables tables = unreachedTables tables := by
  classical
  obtain ⟨rep, hrep, hiff⟩ := exists_represents_components tables
  have hlength : (components tables).parent.length = tables.length :=
    (DisjointSet.length_parent_unionAll _ _).trans List.length_range
  cases tables with
  | nil => exact absurd rfl hne
  | cons first rest =>
      have hzero : 0 < (components (first :: rest)).parent.length := by
        rw [hlength]
        exact Nat.zero_lt_succ _
      rw [unreachedTables, detachedTables]
      dsimp only
      rw [DisjointSet.fst_find hrep hzero, List.drop_one, List.tail_cons,
        detachedFrom_eq (hrep.find hzero) _ _
          (by rw [DisjointSet.length_parent_find, hlength, List.length_cons]; omega),
        List.zipIdx_cons, List.filter_cons]
      have hself : Reaches (first :: rest) 0 0 := .refl
      have hroot : ∀ i, rep i = rep 0 ↔ Reaches (first :: rest) 0 i :=
        fun i => eq_comm.trans (hiff 0 i)
      simp only [hself, not_true_eq_false, decide_false, Bool.false_eq_true, if_false, ne_eq, hroot]

theorem detachedTables_eq_nil_iff {tables : List TableStats} (hne : tables ≠ []) :
    detachedTables tables = [] ↔ Connected tables := by
  rw [detachedTables_eq hne, unreachedTables, List.map_eq_nil_iff, List.filter_eq_nil_iff]
  constructor
  · intro h i hi j hj
    have hfirst : ∀ k < tables.length, Reaches tables 0 k := by
      intro k hk
      have hmem : (tables[k], k) ∈ tables.zipIdx :=
        List.mk_mem_zipIdx_iff_getElem?.2 (List.getElem?_eq_getElem hk)
      simpa using h _ hmem
    exact (hfirst i hi).symm.trans (hfirst j hj)
  · intro h entry hentry
    have hlt : entry.2 < tables.length := List.snd_lt_of_mem_zipIdx hentry
    simpa using h 0 (List.length_pos_iff.2 hne) entry.2 hlt

/-! ## When a plan exists -/

theorem connected_iff_reaches {tables : List TableStats} :
    Connected tables ↔ ∀ i < tables.length, Reaches tables 0 i := by
  constructor
  · intro h i hi
    exact h 0 (Nat.zero_lt_of_lt hi) i hi
  · intro h i hi j hj
    exact (h i hi).symm.trans (h j hj)

end TabularView
