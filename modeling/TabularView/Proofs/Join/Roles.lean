import TabularView.Proofs.Join.Connection

set_option autoImplicit false

/-! # The roles of columns

Two columns that fit the type of their name are joined under it. So a name has either join columns
or one plain column, never both and never two plain ones (`nodup_names_plainColumns`), and as its
first column is never excluded it has one or the other (`joins_or_plain`).

A join column is of the type of its name, or of none that is known
(`fieldType_of_role_eq_join`). -/

namespace TabularView

variable {all : List Place} {tables : List TableStats} {name : String}

/-! ## Plain columns -/

theorem role_eq_plain_iff (all : List Place) (name : String) (type : FieldType) :
    roleOf all name type = .plain ↔
      fitsKey (keyType all name) type = true ∧ isKey all name = false := by
  unfold roleOf
  split
  · simp_all
  · split <;> simp_all

theorem map_column_placesOfColumns (table index : Nat) (columns : List Column) :
    (placesOfColumns table index columns).map (·.column) = columns := by
  induction columns generalizing index with
  | nil => rfl
  | cons column rest ih => rw [placesOfColumns, List.map_cons, ih]

theorem map_column_placesFrom (first : Nat) (tables : List TableStats) :
    (placesFrom first tables).map (·.column) = tables.flatMap (·.columns) := by
  induction tables generalizing first with
  | nil => rfl
  | cons t rest ih =>
      rw [placesFrom, List.map_append, map_column_placesOfColumns, ih, List.flatMap_cons]

/-- The columns that are shown and not joined, table by table. -/
def plainColumns (tables : List TableStats) : List Column :=
  (tables.flatMap (·.columns)).filter fun c =>
    roleOf (places tables) c.name c.fieldType = .plain

theorem mem_plainColumns {c : Column} :
    c ∈ plainColumns tables ↔
      (∃ t ∈ tables, c ∈ t.columns) ∧ roleOf (places tables) c.name c.fieldType = .plain := by
  simp [plainColumns]

/-- A name that is not a key has one member at most, and its plain columns are members. -/
theorem count_name_plainColumns_le (tables : List TableStats) (name : String) :
    ((plainColumns tables).map (·.name)).count name ≤ 1 := by
  have hcount : ((plainColumns tables).map (·.name)).count name =
      (places tables).countP fun p => p.column.name == name &&
        decide (roleOf (places tables) p.column.name p.column.fieldType = .plain) := by
    rw [List.count, List.countP_map, plainColumns, ← map_column_placesFrom 0, List.countP_filter,
      List.countP_map]
    rfl
  rw [hcount]
  cases hkey : isKey (places tables) name with
  | true =>
      -- a key has no plain columns
      have hnone : (places tables).countP (fun p => p.column.name == name &&
          decide (roleOf (places tables) p.column.name p.column.fieldType = .plain)) = 0 := by
        rw [List.countP_eq_zero]
        intro p _ hp
        simp only [Bool.and_eq_true, beq_iff_eq, decide_eq_true_eq] at hp
        obtain ⟨rfl, hplain⟩ := hp
        have hno := ((role_eq_plain_iff _ _ _).1 hplain).2
        rw [hkey] at hno
        cases hno
      omega
  | false =>
      have hmembers : (membersOf (places tables) name).length < 2 := by
        simpa [isKey] using hkey
      have hle : (places tables).countP (fun p => p.column.name == name &&
          decide (roleOf (places tables) p.column.name p.column.fieldType = .plain)) ≤
          (membersOf (places tables) name).length := by
        rw [membersOf, placesNamed, List.filter_filter, ← List.countP_eq_length_filter]
        refine List.countP_mono_left fun p _ hp => ?_
        simp only [Bool.and_eq_true, beq_iff_eq, decide_eq_true_eq] at hp ⊢
        obtain ⟨rfl, hplain⟩ := hp
        exact ⟨((role_eq_plain_iff _ _ _).1 hplain).1, rfl⟩
      omega

/-- No two plain columns have one name. -/
theorem nodup_names_plainColumns (tables : List TableStats) :
    ((plainColumns tables).map (·.name)).Nodup :=
  List.nodup_iff_count_le_one.2 (count_name_plainColumns_le tables)

/-- A key has no plain columns. -/
theorem not_joins_of_mem_plainColumns {c : Column} (h : c ∈ plainColumns tables) {t : TableStats} :
    ¬ t.Joins (places tables) c.name := by
  rintro ⟨column, _, _, hrole⟩
  have hkey := ((role_eq_join_iff _ _ _).1 hrole).2
  have hno := ((role_eq_plain_iff _ _ _).1 (mem_plainColumns.1 h).2).2
  rw [hkey] at hno
  cases hno

/-- Every name has a join column or a plain one. -/
theorem joins_or_plain {t : TableStats} (ht : t ∈ tables) {c : Column} (hc : c ∈ t.columns) :
    (∃ u ∈ tables, u.Joins (places tables) c.name) ∨
      ∃ d ∈ plainColumns tables, d.name = c.name := by
  obtain ⟨i, hi⟩ := List.mem_iff_getElem?.1 ht
  obtain ⟨k, hk⟩ := List.mem_iff_getElem?.1 hc
  have hplace : (⟨i, k, c⟩ : Place) ∈ placesNamed (places tables) c.name :=
    List.mem_filter.2 ⟨mem_places.2 ⟨t, hi, hk⟩, by simp⟩
  -- the first column of the name fits its type
  obtain ⟨owner, howner⟩ : ∃ owner, (placesNamed (places tables) c.name).head? = some owner :=
    ⟨_, List.head?_eq_some_head (List.ne_nil_of_mem hplace)⟩
  obtain ⟨hmem, hname, hfits⟩ := mem_membersOf.1 (head_mem_membersOf howner)
  obtain ⟨u, hu, hcolumn⟩ := mem_places.1 hmem
  have humem : u ∈ tables := List.mem_of_getElem? hu
  have hcmem : owner.column ∈ u.columns := List.mem_of_getElem? hcolumn
  cases hkey : isKey (places tables) c.name with
  | true =>
      exact Or.inl ⟨u, humem, owner.column, hcmem, hname, (role_eq_join_iff _ _ _).2 ⟨hfits, hkey⟩⟩
  | false =>
      refine Or.inr ⟨owner.column, mem_plainColumns.2 ⟨⟨u, humem, hcmem⟩, ?_⟩, hname⟩
      rw [hname]
      exact (role_eq_plain_iff _ _ _).2 ⟨hfits, hkey⟩

/-! ## Types of names -/

/-- A join column is of the type of its name, or of no known type. -/
theorem fieldType_of_role_eq_join {type : FieldType} (h : roleOf all name type = .join) :
    type = keyType all name ∨ type = .unknown := by
  have hfits := ((role_eq_join_iff _ _ _).1 h).1
  simpa [fitsKey] using hfits

end TabularView
