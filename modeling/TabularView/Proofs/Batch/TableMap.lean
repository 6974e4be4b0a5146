import Mathlib.Data.List.Nodup
import TabularView.Batch.TableMap
import TabularView.Proofs.Sorting
import TabularView.Table.Order

set_option autoImplicit false

/-! # Table maps as functions of names

A table map keeps its names in strictly ascending order and each table under its own name
(`TableMap.WellFormed`). Such a map is determined by its look-ups (`ext`), its tables are in the
order of tables already (`sortTables_tables`), and a map built from tables of different names holds
exactly these, in whatever order they came (`find?_ofTables`, `ofTables_eq_of_perm`). -/

namespace TabularView.TableMap

/-! ## Entries in order -/

/-- One name comes before another. -/
abbrev Before (a b : String × TableStats) : Prop :=
  compare a.1 b.1 = .lt

theorem lookup_of_mem {entries : List (String × TableStats)} (h : entries.Pairwise Before)
    {name : String} {t : TableStats} (ht : (name, t) ∈ entries) : lookup name entries = some t := by
  induction entries with
  | nil => simp at ht
  | cons entry rest ih =>
      obtain ⟨key, u⟩ := entry
      obtain ⟨hkey, hrest⟩ := List.pairwise_cons.1 h
      rcases List.mem_cons.1 ht with he | ht
      · obtain ⟨rfl, rfl⟩ := Prod.mk.inj he
        simp [lookup]
      · have hne : key ≠ name := by
          rintro rfl
          have := hkey _ ht
          simp [Before] at this
        rw [lookup, if_neg hne]
        exact ih hrest ht

theorem mem_of_lookup {entries : List (String × TableStats)} {name : String} {t : TableStats}
    (h : lookup name entries = some t) : (name, t) ∈ entries := by
  induction entries with
  | nil => simp [lookup] at h
  | cons entry rest ih =>
      obtain ⟨key, u⟩ := entry
      rw [lookup] at h
      split at h
      · next hkey =>
          obtain rfl := Option.some.inj h
          subst hkey
          exact List.mem_cons_self ..
      · exact List.mem_cons_of_mem _ (ih h)

/-- What comes before the new entry and before all old ones comes before all entries. -/
theorem before_of_mem_put {name : String} {t : TableStats} {a e : String × TableStats}
    {entries : List (String × TableStats)} (hn : Before a (name, t))
    (ha : ∀ e ∈ entries, Before a e) (he : e ∈ put name t entries) : Before a e := by
  induction entries with
  | nil =>
      obtain rfl : e = (name, t) := by simpa [put] using he
      exact hn
  | cons entry rest ih =>
      obtain ⟨key, u⟩ := entry
      have hrest : ∀ e ∈ rest, Before a e := fun e he => ha e (List.mem_cons_of_mem _ he)
      rw [put] at he
      split at he
      · rcases List.mem_cons.1 he with rfl | he
        · exact hn
        · exact ha e he
      · rcases List.mem_cons.1 he with rfl | he
        · exact hn
        · exact hrest e he
      · rcases List.mem_cons.1 he with rfl | he
        · exact ha _ (List.mem_cons_self ..)
        · exact ih hrest he

theorem pairwise_put (name : String) (t : TableStats) {entries : List (String × TableStats)}
    (h : entries.Pairwise Before) : (put name t entries).Pairwise Before := by
  induction entries with
  | nil => simp [put]
  | cons entry rest ih =>
      obtain ⟨key, u⟩ := entry
      obtain ⟨hkey, hrest⟩ := List.pairwise_cons.1 h
      rw [put]
      split
      · next hlt =>
          refine List.pairwise_cons.2 ⟨fun e he => ?_, h⟩
          rcases List.mem_cons.1 he with rfl | he
          · exact hlt
          · exact Std.TransCmp.lt_trans hlt (hkey e he)
      · next heq =>
          obtain rfl : name = key := Std.LawfulEqOrd.eq_of_compare heq
          exact List.pairwise_cons.2 ⟨hkey, hrest⟩
      · next hgt =>
          refine List.pairwise_cons.2 ⟨fun e he => ?_, ih hrest⟩
          exact before_of_mem_put (Std.OrientedCmp.lt_of_gt hgt) hkey he

theorem mem_put {name : String} {t : TableStats} {entries : List (String × TableStats)}
    {e : String × TableStats} (h : e ∈ put name t entries) : e = (name, t) ∨ e ∈ entries := by
  induction entries with
  | nil => exact Or.inl (by simpa [put] using h)
  | cons entry rest ih =>
      obtain ⟨key, u⟩ := entry
      rw [put] at h
      split at h
      · exact List.mem_cons.1 h
      · exact (List.mem_cons.1 h).imp id (List.mem_cons_of_mem _)
      · rcases List.mem_cons.1 h with rfl | h
        · exact Or.inr (List.mem_cons_self ..)
        · exact (ih h).imp id (List.mem_cons_of_mem _)

/-! ## Well-formed maps -/

/-- Names ascend, and every table stands under its own name. -/
structure WellFormed (m : TableMap) : Prop where
  ascending : m.entries.Pairwise Before
  named : ∀ e ∈ m.entries, e.2.tableName = e.1

theorem WellFormed.empty : WellFormed {} :=
  ⟨List.Pairwise.nil, by simp⟩

theorem WellFormed.insert {m : TableMap} (h : m.WellFormed) {name : String} {t : TableStats}
    (ht : t.tableName = name) : (m.insert name t).WellFormed := by
  refine ⟨pairwise_put name t h.ascending, fun e he => ?_⟩
  rcases mem_put he with rfl | he
  · exact ht
  · exact h.named e he

theorem WellFormed.erase {m : TableMap} (h : m.WellFormed) (name : String) :
    (m.erase name).WellFormed :=
  ⟨h.ascending.filter _, fun e he => h.named e (List.mem_filter.1 he).1⟩

theorem WellFormed.find?_eq_some_iff {m : TableMap} (h : m.WellFormed) {name : String}
    {t : TableStats} : m.find? name = some t ↔ t ∈ m.tables ∧ t.tableName = name := by
  constructor
  · intro hf
    have hmem := mem_of_lookup hf
    exact ⟨List.mem_map.2 ⟨(name, t), hmem, rfl⟩, h.named _ hmem⟩
  · rintro ⟨ht, rfl⟩
    obtain ⟨⟨key, u⟩, hmem, rfl⟩ := List.mem_map.1 ht
    rw [h.named _ hmem]
    exact lookup_of_mem h.ascending hmem

/-- A well-formed map is determined by its look-ups. -/
theorem ext {m m' : TableMap} (h : m.WellFormed) (h' : m'.WellFormed)
    (hf : ∀ name, m.find? name = m'.find? name) : m = m' := by
  have hmem : ∀ e, e ∈ m.entries ↔ e ∈ m'.entries := by
    rintro ⟨name, t⟩
    constructor
    · intro he
      exact mem_of_lookup ((hf name).symm.trans (lookup_of_mem h.ascending he))
    · intro he
      exact mem_of_lookup ((hf name).trans (lookup_of_mem h'.ascending he))
  have hnodup : ∀ {n : TableMap}, n.WellFormed → n.entries.Nodup := by
    intro n hn
    refine hn.ascending.imp ?_
    rintro a b hab rfl
    simp [Before] at hab
  have hperm : m.entries.Perm m'.entries :=
    (List.perm_ext_iff_of_nodup (hnodup h) (hnodup h')).2 hmem
  -- two orders of one set of entries, both ascending
  have heq : m.entries = m'.entries := by
    refine hperm.eq_of_pairwise (fun a b _ _ hab hba => ?_) h.ascending h'.ascending
    exact absurd hba (by simp [Before, Std.OrientedCmp.gt_of_lt hab])
  cases m
  cases m'
  exact congrArg TableMap.mk heq

theorem WellFormed.nodup_names {m : TableMap} (h : m.WellFormed) :
    (m.tables.map (·.tableName)).Nodup := by
  have hnames : m.tables.map (·.tableName) = m.entries.map (·.1) := by
    rw [tables, List.map_map]
    exact List.map_congr_left h.named
  rw [hnames, List.Nodup, List.pairwise_map]
  refine h.ascending.imp fun hab he => ?_
  simp [Before, he] at hab

/-- The tables of a map are sorted already. -/
theorem WellFormed.sortTables_tables {m : TableMap} (h : m.WellFormed) :
    sortTables m.tables = m.tables := by
  refine List.mergeSort_of_pairwise ?_
  rw [tables, List.pairwise_map]
  refine List.Pairwise.imp_of_mem ?_ h.ascending
  intro a b ha hb hab
  have hlt : Ord.compare a.2.tableName b.2.tableName = .lt := by
    rw [h.named a ha, h.named b hb]
    exact hab
  simp [TableStats.compare, hlt]

/-! ## Maps built from tables -/

theorem wellFormed_foldl_insert (tables : List TableStats) {m : TableMap} (h : m.WellFormed) :
    (tables.foldl (fun m t => m.insert t.tableName t) m).WellFormed := by
  induction tables generalizing m with
  | nil => exact h
  | cons t rest ih => exact ih (h.insert rfl)

theorem wellFormed_ofTables (tables : List TableStats) : (ofTables tables).WellFormed :=
  wellFormed_foldl_insert tables .empty

/-- Inserting tables changes a look-up only where one of them has the name. -/
theorem find?_foldl_insert (tables : List TableStats) (m : TableMap) (name : String) :
    (tables.foldl (fun m t => m.insert t.tableName t) m).find? name =
      (tables.reverse.find? (·.tableName == name)).or (m.find? name) := by
  induction tables generalizing m with
  | nil => simp
  | cons t rest ih =>
      rw [List.foldl_cons, ih, find?_insert, List.reverse_cons, List.find?_append, Option.or_assoc]
      by_cases hname : name = t.tableName
      · subst hname
        simp
      · simp [hname, Ne.symm hname]

/-- Of several tables with one name the last counts. -/
theorem find?_ofTables (tables : List TableStats) (name : String) :
    (ofTables tables).find? name = tables.reverse.find? (·.tableName == name) := by
  rw [ofTables, find?_foldl_insert]
  simp [find?, lookup]

theorem mem_of_find?_ofTables {tables : List TableStats} {name : String} {t : TableStats}
    (h : (ofTables tables).find? name = some t) : t ∈ tables ∧ t.tableName = name := by
  rw [find?_ofTables] at h
  exact ⟨List.mem_reverse.1 (List.mem_of_find?_eq_some h), by simpa using List.find?_some h⟩

theorem find?_ofTables_eq_some_iff {tables : List TableStats}
    (h : (tables.map (·.tableName)).Nodup) {name : String} {t : TableStats} :
    (ofTables tables).find? name = some t ↔ t ∈ tables ∧ t.tableName = name := by
  refine ⟨mem_of_find?_ofTables, ?_⟩
  rintro ⟨ht, rfl⟩
  cases hf : (ofTables tables).find? t.tableName with
  | none =>
      rw [find?_ofTables, List.find?_eq_none] at hf
      exact absurd (beq_self_eq_true _) (hf t (List.mem_reverse.2 ht))
  | some u =>
      obtain ⟨hu, hname⟩ := mem_of_find?_ofTables hf
      rw [List.inj_on_of_nodup_map h hu ht hname]

/-- Tables of different names make the same map in any order. -/
theorem ofTables_eq_of_perm {tables tables' : List TableStats}
    (h : (tables.map (·.tableName)).Nodup) (hp : tables.Perm tables') :
    ofTables tables = ofTables tables' := by
  have h' : (tables'.map (·.tableName)).Nodup := (hp.map _).nodup_iff.1 h
  refine ext (wellFormed_ofTables _) (wellFormed_ofTables _) fun name => Option.ext fun t => ?_
  rw [find?_ofTables_eq_some_iff h, find?_ofTables_eq_some_iff h', hp.mem_iff]

/-- The tables of a map make the map. -/
theorem ofTables_tables {m : TableMap} (h : m.WellFormed) : ofTables m.tables = m := by
  refine ext (wellFormed_ofTables _) h fun name => Option.ext fun t => ?_
  rw [find?_ofTables_eq_some_iff h.nodup_names, h.find?_eq_some_iff]

end TabularView.TableMap
