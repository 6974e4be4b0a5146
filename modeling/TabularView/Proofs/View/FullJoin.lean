import TabularView.Proofs.View.FromClause
import TabularView.Proofs.View.Projections
import TabularView.Proofs.View.Rows

set_option autoImplicit false

/-! # Full views over one key

Tables that hold one name in common are all compared with the first of them. So a full view brings
the rows with a value together only if the first table has the value: then they make up one
combination (`Spread.met`). If it has not, each of them stays in a combination of its own
(`Spread.apart`), although the view shows all these combinations under the same value. A value is
shown once exactly if the first table has it or no two tables have it
(`showing_fullView_eq_singleton_iff`). -/

namespace TabularView

variable {Value : Type}

/-! ## One name in common -/

/-- All tables hold a name, no two of them hold another one in common. -/
structure ShareOnly (k : String) (tables : List JoinTable) : Prop where
  nodup : ∀ t ∈ tables, t.keyNames.Nodup
  holds : ∀ t ∈ tables, k ∈ t.keyNames
  only : ∀ t ∈ tables, ∀ u ∈ tables, t.tableName ≠ u.tableName →
    ∀ name ∈ t.keyNames, name ∈ u.keyNames → name = k

theorem ShareOnly.of_subset {k : String} {tables tables' : List JoinTable} (h : ShareOnly k tables)
    (hsubset : ∀ t ∈ tables', t ∈ tables) : ShareOnly k tables' where
  nodup t ht := h.nodup t (hsubset t ht)
  holds t ht := h.holds t (hsubset t ht)
  only t ht u hu := h.only t (hsubset t ht) u (hsubset u hu)

theorem ShareOnly.find?_eq_first {k : String} {first : JoinTable} {others : List JoinTable}
    (h : ShareOnly k (first :: others)) :
    (first :: others).find? (·.hasJoinColumn k) = some first :=
  List.find?_cons_of_pos (hasJoinColumn_iff.2 (h.holds first (List.mem_cons_self ..)))

/-- All conditions on a table compare it with the first one. -/
theorem ShareOnly.holds_conditionsOn_iff {k : String} {first t : JoinTable}
    {others : List JoinTable} (h : ShareOnly k (first :: others ++ [t]))
    (hapart : ∀ u ∈ first :: others, u.tableName ≠ t.tableName) (c : Combination Value) :
    (∀ condition ∈ conditionsOn (first :: others) t, condition.Holds c) ↔
      EqNonNull (c.value ⟨t.tableName, k⟩) (c.value ⟨first.tableName, k⟩) := by
  have ht : t ∈ first :: others ++ [t] := by simp
  have hfind := (h.of_subset fun u hu => List.mem_append_left [t] hu).find?_eq_first
  constructor
  · intro hall
    exact hall _ (mem_conditionsOn.2 ⟨k, h.holds t ht, first, hfind, rfl⟩)
  · intro heq condition hcondition
    obtain ⟨name, hname, u, hu, rfl⟩ := mem_conditionsOn.1 hcondition
    have hmem := List.mem_of_find?_eq_some hu
    obtain rfl : name = k := h.only t ht u (List.mem_append_left _ hmem) (hapart u hmem).symm name
      hname (mem_keyNames_of_find? hu)
    obtain rfl : first = u := Option.some.inj (hfind.symm.trans hu)
    exact heq

/-! ## The value of a key -/

/-- The value that a combination has under a name: that of the first table where it is not null. -/
def keyValue (k : String) (tables : List JoinTable) (c : Combination Value) : Option Value :=
  tables.findSome? fun t => c.value ⟨t.tableName, k⟩

theorem keyValue_cons_of_eq_some {k : String} {first : JoinTable} {others : List JoinTable}
    {c : Combination Value} {v : Value} (h : c.value ⟨first.tableName, k⟩ = some v) :
    keyValue k (first :: others) c = some v := by
  rw [keyValue, List.findSome?_cons, h]

theorem keyValue_concat (k : String) (tables : List JoinTable) (t : JoinTable)
    (c : Combination Value) :
    keyValue k (tables ++ [t]) c = (keyValue k tables c).or (c.value ⟨t.tableName, k⟩) := by
  rw [keyValue, List.findSome?_append, List.findSome?_singleton]
  rfl

/-- Rows of other tables have no part in the value. -/
theorem keyValue_put {k : String} {tables : List JoinTable} {table : String}
    (h : ∀ t ∈ tables, t.tableName ≠ table) (c : Combination Value) (row : Row Value) :
    keyValue k tables (c.put table row) = keyValue k tables c := by
  induction tables with
  | nil => rfl
  | cons t rest ih =>
      rw [List.forall_mem_cons] at h
      rw [keyValue, keyValue, List.findSome?_cons, List.findSome?_cons,
        Combination.value_put_of_ne h.1]
      split
      · rfl
      · exact ih h.2

theorem keyValue_empty (k : String) (tables : List JoinTable) :
    keyValue k tables (Combination.empty : Combination Value) = none := by
  rw [keyValue, List.findSome?_eq_none_iff]
  intro t _
  rfl

/-! ## The column of the key -/

/-- A full view shows the first value of a key that is not null. -/
theorem value_expression_full (key : ViewKey) (c : Combination Value) :
    (key.expression .full).value c =
      key.holders.findSome? fun table => c.value ⟨table, key.name⟩ := by
  rw [ViewKey.expression]
  split
  · rw [Expression.value, List.findSome?_map]
    rfl
  · next hfew =>
      have hothers : key.others = [] := by simpa using hfew
      rw [Expression.value, ViewKey.holders, hothers, List.findSome?_singleton]

theorem value_viewOver {name k : String} {first : JoinTable} {order : List JoinTable}
    (h : ShareOnly k (first :: order)) (c : Combination Value) :
    (viewOver .full name first order).value k c = keyValue k (first :: order) c := by
  have hall : (first :: order).filter (·.hasJoinColumn k) = first :: order :=
    List.filter_eq_self.2 fun t ht => hasJoinColumn_iff.2 (h.holds t ht)
  have hfirst := map_first_keyOf?_holdings h.nodup k
  rw [h.find?_eq_first, Option.map_some] at hfirst
  obtain ⟨key, hkey, _⟩ := Option.map_eq_some_iff.1 hfirst
  obtain ⟨hname, hholders⟩ := keyOf?_eq_some hkey
  rw [map_table_heldAs h.nodup, hall] at hholders
  rw [ViewPlan.value, find?_projections_viewOver .full name hkey, Option.bind_some, keyProjection,
    value_expression_full, hholders, List.findSome?_map, hname]
  rfl

/-! ## Rows put apart -/

/-- If rows of tables put apart make up one combination, only one table has a row. -/
theorem eq_of_filterMap_put_perm {tables : List JoinTable} {rows : JoinTable → Option (Row Value)}
    {c : Combination Value} (hnames : (tables.map (·.tableName)).Nodup)
    (h : [c].Perm (tables.filterMap fun t => (rows t).map (Combination.empty.put t.tableName)))
    {t u : JoinTable} (ht : t ∈ tables) (hu : u ∈ tables) (hrow : (rows t).isSome = true)
    (hrow' : (rows u).isSome = true) : t = u := by
  have honly : ∀ w ∈ tables, ∀ row, rows w = some row →
      Combination.empty.put w.tableName row = c := by
    intro w hw row hrow
    exact List.mem_singleton.1 (h.mem_iff.2 (List.mem_filterMap.2 ⟨w, hw, by rw [hrow]; rfl⟩))
  obtain ⟨row, hrow⟩ := Option.isSome_iff_exists.1 hrow
  obtain ⟨row', hrow'⟩ := Option.isSome_iff_exists.1 hrow'
  have hsame := (honly t ht row hrow).trans (honly u hu row' hrow').symm
  refine List.inj_on_of_nodup_map hnames ht hu ?_
  by_contra hne
  have hat := congrFun hsame t.tableName
  rw [Combination.put_self, Combination.put_of_ne hne] at hat
  cases hat

theorem filterMap_put_of_unique {tables : List JoinTable} {rows : JoinTable → Option (Row Value)}
    {t : JoinTable} {row : Row Value} (hnodup : tables.Nodup) (ht : t ∈ tables)
    (hrow : rows t = some row) (hunique : ∀ u ∈ tables, (rows u).isSome = true → u = t) :
    (tables.filterMap fun u => (rows u).map (Combination.empty.put u.tableName)) =
      [Combination.empty.put t.tableName row] := by
  have hnone : ∀ l : List JoinTable, (∀ u ∈ l, u ∈ tables ∧ u ≠ t) →
      (l.filterMap fun u => (rows u).map (Combination.empty.put u.tableName)) = [] := by
    intro l hl
    rw [List.filterMap_eq_nil_iff]
    intro u hu
    obtain ⟨hmem, hne⟩ := hl u hu
    cases hr : rows u with
    | none => rfl
    | some row => exact absurd (hunique u hmem (by rw [hr]; rfl)) hne
  obtain ⟨before, after, rfl⟩ := List.append_of_mem ht
  obtain ⟨_, hafter, hdisjoint⟩ := List.nodup_append.1 hnodup
  rw [List.nodup_cons] at hafter
  rw [List.filterMap_append, List.filterMap_cons, hrow,
    hnone before fun u hu => ⟨by simp [hu], hdisjoint u hu t (by simp)⟩,
    hnone after fun u hu => ⟨by simp [hu], fun heq => hafter.1 (heq ▸ hu)⟩]
  rfl

/-! ## Rows with a value -/

theorem filter_eq_toList_find? {α β : Type} [DecidableEq β] {f : α → β} {l : List α}
    (h : (l.map f).Nodup) (b : β) :
    (l.filter fun a => f a = b) = (l.find? fun a => f a = b).toList := by
  induction l with
  | nil => rfl
  | cons a rest ih =>
      rw [List.map_cons, List.nodup_cons] at h
      by_cases ha : f a = b
      · have hrest : rest.filter (fun a => f a = b) = [] := by
          rw [List.filter_eq_nil_iff]
          intro a' ha'
          have hne : f a' ≠ b := fun hb => h.1 (ha ▸ hb ▸ List.mem_map_of_mem ha')
          simpa using hne
        simp [ha, hrest]
      · simp [ha, ih h.2]

variable [DecidableEq Value]

/-- The first row of a table with a value under a name. -/
def Database.rowWith (db : Database Value) (k : String) (v : Value) (t : JoinTable) :
    Option (Row Value) :=
  (db t.source).find? fun row => row k = some v

/-- A table has a row with a value under a name. -/
def Database.Has (db : Database Value) (k : String) (v : Value) (t : JoinTable) : Prop :=
  ∃ row ∈ db t.source, row k = some v

/-- No two rows of a table have the same value under a name. -/
def Database.Keyed (db : Database Value) (k : String) (tables : List JoinTable) : Prop :=
  ∀ t ∈ tables, ((db t.source).map (· k)).Nodup

instance (db : Database Value) (k : String) (v : Value) (t : JoinTable) :
    Decidable (db.Has k v t) :=
  inferInstanceAs (Decidable (∃ row ∈ db t.source, row k = some v))

instance (db : Database Value) (k : String) (tables : List JoinTable) :
    Decidable (db.Keyed k tables) :=
  inferInstanceAs (Decidable (∀ t ∈ tables, ((db t.source).map (· k)).Nodup))

theorem Database.filter_eq_rowWith {db : Database Value} {k : String} {t : JoinTable}
    (h : ((db t.source).map (· k)).Nodup) (v : Value) :
    ((db t.source).filter fun row => row k = some v) = (db.rowWith k v t).toList :=
  filter_eq_toList_find? h _

theorem Database.apply_of_rowWith {db : Database Value} {k : String} {v : Value} {t : JoinTable}
    {row : Row Value} (h : db.rowWith k v t = some row) : row k = some v := by
  simpa using List.find?_some h

theorem Database.isSome_rowWith_iff {db : Database Value} {k : String} {v : Value} {t : JoinTable} :
    (db.rowWith k v t).isSome = true ↔ db.Has k v t := by
  simp [Database.rowWith, Database.Has]

/-- A combination has the row with a value of each table that has one, and no rows of others. -/
def Together (db : Database Value) (k : String) (v : Value) (tables : List JoinTable)
    (c : Combination Value) : Prop :=
  ∀ t ∈ tables, c t.tableName = db.rowWith k v t

/-- The row of the only table that has a value is all that its combination needs. -/
theorem together_put {db : Database Value} {k : String} {v : Value} {tables : List JoinTable}
    {t : JoinTable} {row : Row Value} (hnames : (tables.map (·.tableName)).Nodup) (ht : t ∈ tables)
    (hrow : db.rowWith k v t = some row)
    (honly : ∀ u ∈ tables, (db.rowWith k v u).isSome = true → u = t) :
    Together db k v tables (Combination.empty.put t.tableName row) := by
  intro u hu
  by_cases hsame : u = t
  · rw [hsame, Combination.put_self, hrow]
  · have hname : u.tableName ≠ t.tableName :=
      fun heq => hsame (List.inj_on_of_nodup_map hnames hu ht heq)
    have hnone : db.rowWith k v u = none :=
      Option.not_isSome_iff_eq_none.1 fun hu' => hsame (honly u hu hu')
    rw [hnone, Combination.put_of_ne hname]
    rfl

/-! ## One more table -/

/-- A combination with the row of a table that has the value of the first one, if there is such a
row. -/
def Combination.meet (db : Database Value) (k : String) (first t : JoinTable)
    (c : Combination Value) : Combination Value :=
  match (c.value ⟨first.tableName, k⟩).bind fun v => db.rowWith k v t with
  | some row => c.put t.tableName row
  | none => c

theorem Combination.meet_of_ne {db : Database Value} {k : String} {first t : JoinTable}
    {name : String} (h : name ≠ t.tableName) (c : Combination Value) :
    c.meet db k first t name = c name := by
  rw [meet]
  cases (c.value ⟨first.tableName, k⟩).bind fun v => db.rowWith k v t with
  | none => rfl
  | some row => exact put_of_ne h c row

section Join

variable {db : Database Value} {k : String} {first t : JoinTable} {others : List JoinTable}

/-- A combination goes with the row of the next table that has the value of the first one. -/
theorem matching_joinedTo (hshare : ShareOnly k (first :: others ++ [t]))
    (hapart : ∀ u ∈ first :: others, u.tableName ≠ t.tableName)
    (hkeyed : ((db t.source).map (· k)).Nodup) (c : Combination Value) :
    (t.joinedTo (first :: others)).matching db c =
      (((c.value ⟨first.tableName, k⟩).bind fun v => db.rowWith k v t).map
        (c.put t.tableName)).toList := by
  have hholds : ∀ row, (∀ condition ∈ conditionsOn (first :: others) t,
      condition.Holds (c.put t.tableName row)) ↔
        EqNonNull (row k) (c.value ⟨first.tableName, k⟩) := by
    intro row
    rw [hshare.holds_conditionsOn_iff hapart, Combination.value_put_self,
      Combination.value_put_of_ne (hapart first (List.mem_cons_self ..))]
  have hrows : ((db t.source).filter fun row => EqNonNull (row k) (c.value ⟨first.tableName, k⟩)) =
      ((c.value ⟨first.tableName, k⟩).bind fun v => db.rowWith k v t).toList := by
    cases hvalue : c.value ⟨first.tableName, k⟩ with
    | none =>
        -- null is equal to nothing, so that no row is found
        rw [Option.bind_none, Option.toList_none, List.filter_eq_nil_iff]
        intro row _
        simp only [decide_eq_true_eq]
        exact fun h => h.2 h.1
    | some v =>
        rw [Option.bind_some, ← Database.filter_eq_rowWith hkeyed]
        refine List.filter_congr fun row _ => decide_eq_decide.2 ⟨fun h => h.1, fun h => ⟨h, ?_⟩⟩
        rw [h]
        exact Option.some_ne_none v
  rw [JoinedSource.matching, List.filter_map, Option.toList_map, ← hrows]
  congr 1
  exact List.filter_congr fun row _ => decide_eq_decide.2 (hholds row)

theorem extend_joinedTo_full (hshare : ShareOnly k (first :: others ++ [t]))
    (hapart : ∀ u ∈ first :: others, u.tableName ≠ t.tableName)
    (hkeyed : ((db t.source).map (· k)).Nodup) (c : Combination Value) :
    (t.joinedTo (first :: others)).extend db .full c = [c.meet db k first t] := by
  rw [JoinedSource.extend, matching_joinedTo hshare hapart hkeyed, Combination.meet]
  cases (c.value ⟨first.tableName, k⟩).bind fun v => db.rowWith k v t <;> rfl

/-- Meeting a table does not change the value that a combination has. -/
theorem keyValue_meet (hapart : ∀ u ∈ first :: others, u.tableName ≠ t.tableName)
    {c : Combination Value} (habsent : c t.tableName = none) :
    keyValue k (first :: (others ++ [t])) (c.meet db k first t) =
      keyValue k (first :: others) c := by
  rw [← List.cons_append, keyValue_concat, Combination.meet]
  cases hbind : (c.value ⟨first.tableName, k⟩).bind fun v => db.rowWith k v t with
  | none =>
      have hnull : c.value ⟨t.tableName, k⟩ = none := by simp [Combination.value, habsent]
      rw [hnull, Option.or_none]
  | some row =>
      obtain ⟨v, hv, _⟩ := Option.bind_eq_some_iff.1 hbind
      rw [keyValue_put hapart, keyValue_cons_of_eq_some hv, Option.some_or]

theorem Together.value_first {v : Value} {c : Combination Value}
    (h : Together db k v (first :: others) c) (hsome : (db.rowWith k v first).isSome = true) :
    c.value ⟨first.tableName, k⟩ = some v := by
  obtain ⟨row, hrow⟩ := Option.isSome_iff_exists.1 hsome
  rw [Combination.value, h first (List.mem_cons_self ..), hrow, Option.bind_some]
  exact Database.apply_of_rowWith hrow

/-- A combination that has the value of the first table gets the row of one more table. -/
theorem Together.meet {v : Value} {c : Combination Value}
    (h : Together db k v (first :: others) c) (hsome : (db.rowWith k v first).isSome = true)
    (hapart : ∀ u ∈ first :: others, u.tableName ≠ t.tableName) (habsent : c t.tableName = none) :
    Together db k v (first :: (others ++ [t])) (c.meet db k first t) := by
  intro u hu
  rw [← List.cons_append] at hu
  rcases List.mem_append.1 hu with hu | hu
  · rw [Combination.meet_of_ne (hapart u hu)]
    exact h u hu
  · obtain rfl := List.mem_singleton.1 hu
    rw [Combination.meet, h.value_first hsome, Option.bind_some]
    cases db.rowWith k v u with
    | none => exact habsent
    | some row => exact Combination.put_self ..

/-! ## All tables -/

/-- How the rows with one value are spread over the combinations of joined tables. -/
structure Spread (db : Database Value) (k : String) (first : JoinTable) (others : List JoinTable)
    (left : List (Combination Value)) : Prop where
  absent : ∀ c ∈ left, ∀ name, (∀ t ∈ first :: others, t.tableName ≠ name) → c name = none
  met : ∀ v, (db.rowWith k v first).isSome = true →
    ∃ c, (left.filter fun c => keyValue k (first :: others) c = some v) = [c] ∧
      Together db k v (first :: others) c
  apart : ∀ v, db.rowWith k v first = none →
    (left.filter fun c => keyValue k (first :: others) c = some v) =
      others.filterMap fun t => (db.rowWith k v t).map (Combination.empty.put t.tableName)

/-- The combinations that have a value of the first table stand for its rows. -/
theorem Spread.exists_iff {left : List (Combination Value)} (h : Spread db k first others left)
    (hother : ∀ u ∈ others, u.tableName ≠ first.tableName) (v : Value) :
    (∃ c ∈ left, c.value ⟨first.tableName, k⟩ = some v) ↔
      (db.rowWith k v first).isSome = true := by
  constructor
  · rintro ⟨c, hc, hv⟩
    by_contra hnone
    -- the combination would be one of the rows put apart, which the first table has no part in
    have hapart := h.apart v (by simpa using hnone)
    have hmem : c ∈ left.filter fun c => keyValue k (first :: others) c = some v :=
      List.mem_filter.2 ⟨hc, decide_eq_true (keyValue_cons_of_eq_some hv)⟩
    rw [hapart] at hmem
    obtain ⟨u, hu, hrow⟩ := List.mem_filterMap.1 hmem
    obtain ⟨row, _, rfl⟩ := Option.map_eq_some_iff.1 hrow
    rw [Combination.value_put_of_ne (hother u hu).symm] at hv
    cases hv
  · intro hsome
    obtain ⟨c, hc, htogether⟩ := h.met v hsome
    have hmem := hc ▸ List.mem_singleton_self c
    exact ⟨c, (List.mem_filter.1 hmem).1, htogether.value_first hsome⟩

theorem Spread.singleton (db : Database Value) {k : String} {first : JoinTable}
    (hkeyed : ((db first.source).map (· k)).Nodup) :
    Spread db k first [] ((db first.source).map (Combination.empty.put first.tableName)) := by
  have hvalue : ∀ row : Row Value,
      keyValue k [first] (Combination.empty.put first.tableName row) = row k := by
    intro row
    rw [keyValue, List.findSome?_singleton, Combination.value_put_self]
  have hfilter : ∀ v, (((db first.source).map (Combination.empty.put first.tableName)).filter
      fun c => keyValue k [first] c = some v) =
        ((db.rowWith k v first).map (Combination.empty.put first.tableName)).toList := by
    intro v
    rw [List.filter_map, Option.toList_map, ← Database.filter_eq_rowWith hkeyed]
    congr 1
    exact List.filter_congr fun row _ => by simp [hvalue]
  constructor
  · intro c hc name hname
    obtain ⟨row, _, rfl⟩ := List.mem_map.1 hc
    rw [Combination.put_of_ne (hname first (List.mem_cons_self ..)).symm]
    rfl
  · intro v hsome
    obtain ⟨row, hrow⟩ := Option.isSome_iff_exists.1 hsome
    refine ⟨Combination.empty.put first.tableName row, by rw [hfilter, hrow]; rfl, ?_⟩
    intro t ht
    rw [List.mem_singleton.1 ht, Combination.put_self, hrow]
  · intro v hnone
    rw [hfilter, hnone]
    rfl

/-- A row with a value goes with a combination exactly if the first table has the value. -/
theorem Spread.exists_holds_iff {left : List (Combination Value)}
    (h : Spread db k first others left)
    (hother : ∀ u ∈ others, u.tableName ≠ first.tableName)
    (hshare : ShareOnly k (first :: others ++ [t]))
    (hapart : ∀ u ∈ first :: others, u.tableName ≠ t.tableName) {row : Row Value} {v : Value}
    (hrow : row k = some v) :
    (∃ c ∈ left, (t.joinedTo (first :: others)).Holds (c.put t.tableName row)) ↔
      (db.rowWith k v first).isSome = true := by
  rw [← h.exists_iff hother v]
  refine exists_congr fun c => and_congr_right fun _ => ?_
  refine (hshare.holds_conditionsOn_iff hapart _).trans ?_
  rw [Combination.value_put_self,
    Combination.value_put_of_ne (hapart first (List.mem_cons_self ..)), hrow]
  exact ⟨fun heq => heq.1.symm, fun heq => ⟨heq.symm, Option.some_ne_none v⟩⟩

/-- The rows with a value that go with no combination: all of them, unless the first table has the
value. -/
theorem Spread.unmatched_eq {left : List (Combination Value)} (h : Spread db k first others left)
    (hother : ∀ u ∈ others, u.tableName ≠ first.tableName)
    (hshare : ShareOnly k (first :: others ++ [t]))
    (hapart : ∀ u ∈ first :: others, u.tableName ≠ t.tableName)
    (hkeyed : ((db t.source).map (· k)).Nodup) (v : Value) :
    (((t.joinedTo (first :: others)).unmatched db left).filter
      fun c => keyValue k (first :: (others ++ [t])) c = some v) =
        if (db.rowWith k v first).isSome then []
        else ((db.rowWith k v t).map (Combination.empty.put t.tableName)).toList := by
  have hvalue : ∀ row : Row Value,
      keyValue k (first :: (others ++ [t])) (Combination.empty.put t.tableName row) = row k := by
    intro row
    rw [← List.cons_append, keyValue_concat, keyValue_put hapart, keyValue_empty,
      Combination.value_put_self, Option.none_or]
  -- a row with the value is kept exactly if no combination has the value of the first table
  have hpick : ∀ row : Row Value,
      (decide (keyValue k (first :: (others ++ [t])) (Combination.empty.put t.tableName row) =
          some v) &&
        left.all fun c => ¬ (t.joinedTo (first :: others)).Holds (c.put t.tableName row)) =
      decide (row k = some v ∧ ¬ (db.rowWith k v first).isSome = true) := by
    intro row
    rw [hvalue, Bool.eq_iff_iff, Bool.and_eq_true, decide_eq_true_eq, decide_eq_true_eq,
      List.all_eq_true]
    refine and_congr_right fun hrow => ?_
    rw [← h.exists_holds_iff hother hshare hapart hrow]
    simp only [decide_eq_true_eq, not_exists, not_and]
  have hrows : ((db t.source).filter fun row =>
      row k = some v ∧ ¬ (db.rowWith k v first).isSome = true) =
        if (db.rowWith k v first).isSome then [] else (db.rowWith k v t).toList := by
    split
    · next hsome => simp [hsome]
    · next hnone => simp [hnone, Database.filter_eq_rowWith hkeyed]
  rw [JoinedSource.unmatched, List.filter_map, List.filter_filter]
  refine (congrArg _ (List.filter_congr fun row _ => hpick row)).trans ?_
  rw [show (t.joinedTo (first :: others)).source = t.source from rfl, hrows, Option.toList_map]
  split <;> rfl

/-- What a full join with one more table does to the spread of rows. -/
theorem Spread.join {left : List (Combination Value)} (h : Spread db k first others left)
    (hother : ∀ u ∈ others, u.tableName ≠ first.tableName)
    (hshare : ShareOnly k (first :: others ++ [t]))
    (hapart : ∀ u ∈ first :: others, u.tableName ≠ t.tableName)
    (hkeyed : ((db t.source).map (· k)).Nodup) :
    Spread db k first (others ++ [t]) ((t.joinedTo (first :: others)).join db .full left) := by
  have hjoin : (t.joinedTo (first :: others)).join db .full left =
      left.map (Combination.meet db k first t) ++
        (t.joinedTo (first :: others)).unmatched db left := by
    rw [JoinedSource.join_full, List.map_eq_flatMap]
    congr 1
    exact List.flatMap_congr fun c _ => extend_joinedTo_full hshare hapart hkeyed c
  have habsent : ∀ c ∈ left, c t.tableName = none := fun c hc => h.absent c hc t.tableName hapart
  -- meeting the table keeps the combinations with a value in their places
  have hfilter : ∀ v, ((left.map (Combination.meet db k first t)).filter
      fun c => keyValue k (first :: (others ++ [t])) c = some v) =
        (left.filter fun c => keyValue k (first :: others) c = some v).map
          (Combination.meet db k first t) := by
    intro v
    rw [List.filter_map]
    congr 1
    refine List.filter_congr fun c hc => ?_
    simp only [Function.comp_apply, keyValue_meet hapart (habsent c hc)]
  rw [hjoin]
  constructor
  · -- only the table joined last has got rows
    intro c hc name hname
    have hne : name ≠ t.tableName := (hname t (by simp)).symm
    rcases List.mem_append.1 hc with hmet | hnew
    · obtain ⟨c', hc', rfl⟩ := List.mem_map.1 hmet
      rw [Combination.meet_of_ne hne]
      exact h.absent c' hc' name fun u hu => hname u (List.mem_append_left [t] hu)
    · obtain ⟨row, _, rfl⟩ := List.mem_map.1 hnew
      exact Combination.put_of_ne hne _ row
  · -- the combination with the value takes the row, and no row is left
    intro v hsome
    obtain ⟨c, hc, htogether⟩ := h.met v hsome
    have hmem := hc ▸ List.mem_singleton_self c
    refine ⟨c.meet db k first t, ?_,
      htogether.meet hsome hapart (habsent c (List.mem_filter.1 hmem).1)⟩
    rw [List.filter_append, hfilter, hc, h.unmatched_eq hother hshare hapart hkeyed v, if_pos hsome]
    rfl
  · intro v hnone
    -- without a value of the first table, a combination meets no row
    have hsame : ∀ c ∈ others.filterMap fun u =>
        (db.rowWith k v u).map (Combination.empty.put u.tableName), c.meet db k first t = c := by
      intro c hc
      obtain ⟨u, hu, hrow⟩ := List.mem_filterMap.1 hc
      obtain ⟨row, _, rfl⟩ := Option.map_eq_some_iff.1 hrow
      rw [Combination.meet, Combination.value_put_of_ne (hother u hu).symm]
      rfl
    rw [List.filter_append, hfilter, h.apart v hnone, List.map_congr_left hsame, List.map_id',
      h.unmatched_eq hother hshare hapart hkeyed v, hnone, if_neg (by simp), List.filterMap_append]
    cases hrow : db.rowWith k v t <;> simp [hrow]

theorem Spread.joinAll {order : List JoinTable} {left : List (Combination Value)}
    (h : Spread db k first others left)
    (hnames : ((first :: others ++ order).map (·.tableName)).Nodup)
    (hshare : ShareOnly k (first :: others ++ order))
    (hkeyed : db.Keyed k (first :: others ++ order)) :
    Spread db k first (others ++ order)
      (joinAll db .full (joinedAfter (first :: others) order) left) := by
  induction order generalizing others left with
  | nil => simpa [joinedAfter, TabularView.joinAll] using h
  | cons t rest ih =>
      have hsplit : first :: others ++ t :: rest = first :: (others ++ [t]) ++ rest := by simp
      have hapart : ∀ u ∈ first :: others, u.tableName ≠ t.tableName :=
        tableName_ne_of_nodup hnames
      have hother : ∀ u ∈ others, u.tableName ≠ first.tableName := by
        intro u hu heq
        rw [List.cons_append, List.map_cons, List.nodup_cons] at hnames
        exact hnames.1 (heq ▸ List.mem_map_of_mem (List.mem_append_left _ hu))
      have hshare' : ShareOnly k (first :: others ++ [t]) :=
        hshare.of_subset fun u hu => by
          rw [hsplit]
          exact List.mem_append_left _ hu
      have hjoined := h.join hother hshare' hapart (hkeyed t (by simp))
      rw [hsplit] at hnames hshare hkeyed
      have hrest := ih hjoined hnames hshare hkeyed
      rw [List.append_assoc, List.singleton_append] at hrest
      exact hrest

end Join

/-! ## What a full view shows -/

variable {name k : String} {first : JoinTable} {rest : List JoinTable} {view : ViewPlan}
  {db : Database Value}

theorem exists_spread_fullView (hshare : ShareOnly k (first :: rest))
    (h : planView .full name (first :: rest) = .ok view) (hkeyed : db.Keyed k (first :: rest)) :
    ∃ order, rest.Perm order ∧ Spread db k first order (view.tables.rows db) ∧
      ∀ c : Combination Value, view.value k c = keyValue k (first :: order) c := by
  obtain ⟨first', rest', order, heq, hnames, horder, rfl⟩ := planView_eq_ok h
  obtain ⟨rfl, rfl⟩ := List.cons.inj heq
  obtain ⟨hperm, -⟩ := joinOrder_eq_ok horder
  have hcons := hperm.cons first
  have hshare' : ShareOnly k (first :: order) := hshare.of_subset fun t ht => hcons.mem_iff.2 ht
  have hkeyed' : db.Keyed k (first :: order) := fun t ht => hkeyed t (hcons.mem_iff.2 ht)
  refine ⟨order, hperm, ?_, value_viewOver hshare'⟩
  rw [tables_viewOver .full name hshare'.nodup]
  exact (Spread.singleton db (hkeyed first (List.mem_cons_self ..))).joinAll
    ((hcons.map _).nodup_iff.1 hnames) hshare' hkeyed'

/-- A value of the first table is shown once, with the rows of all tables that have it. -/
theorem showing_fullView_of_first (hshare : ShareOnly k (first :: rest))
    (h : planView .full name (first :: rest) = .ok view) (hkeyed : db.Keyed k (first :: rest))
    {v : Value} (hsome : (db.rowWith k v first).isSome = true) :
    ∃ c, view.showing db k v = [c] ∧ Together db k v (first :: rest) c := by
  obtain ⟨order, hperm, hspread, hvalue⟩ := exists_spread_fullView hshare h hkeyed
  obtain ⟨c, hc, htogether⟩ := hspread.met v hsome
  refine ⟨c, ?_, fun t ht => htogether t ((hperm.cons first).mem_iff.1 ht)⟩
  simp only [ViewPlan.showing, hvalue]
  exact hc

/-- A value that the first table does not have is shown once for every table that has it. -/
theorem showing_fullView_of_not_first (hshare : ShareOnly k (first :: rest))
    (h : planView .full name (first :: rest) = .ok view) (hkeyed : db.Keyed k (first :: rest))
    {v : Value} (hnone : db.rowWith k v first = none) :
    (view.showing db k v).Perm
      (rest.filterMap fun t => (db.rowWith k v t).map (Combination.empty.put t.tableName)) := by
  obtain ⟨order, hperm, hspread, hvalue⟩ := exists_spread_fullView hshare h hkeyed
  simp only [ViewPlan.showing, hvalue]
  rw [hspread.apart v hnone]
  exact (hperm.filterMap _).symm

/-- A value is shown once, with the rows of all tables that have it, exactly if the first table has
it or no two of the others do. -/
theorem showing_fullView_eq_singleton_iff (hshare : ShareOnly k (first :: rest))
    (h : planView .full name (first :: rest) = .ok view) (hkeyed : db.Keyed k (first :: rest))
    {v : Value} (hoccurs : ∃ t ∈ first :: rest, db.Has k v t) :
    (∃ c, view.showing db k v = [c] ∧ Together db k v (first :: rest) c) ↔
      db.Has k v first ∨ ∀ t ∈ rest, ∀ u ∈ rest, db.Has k v t → db.Has k v u → t = u := by
  simp only [← Database.isSome_rowWith_iff] at hoccurs ⊢
  obtain ⟨_, _, _, -, hnames, -, -⟩ := planView_eq_ok h
  by_cases hfirst : (db.rowWith k v first).isSome = true
  · exact iff_of_true (showing_fullView_of_first hshare h hkeyed hfirst) (Or.inl hfirst)
  have hshown := showing_fullView_of_not_first hshare h hkeyed
    (Option.not_isSome_iff_eq_none.1 hfirst)
  have hrestNames : (rest.map (·.tableName)).Nodup := (List.nodup_cons.1 hnames).2
  constructor
  · -- the one combination shown stands for all tables that have the value
    rintro ⟨c, hc, -⟩
    rw [hc] at hshown
    exact Or.inr fun t ht u hu => eq_of_filterMap_put_perm hrestNames hshown ht hu
  · intro hunique
    have hunique := hunique.resolve_left hfirst
    obtain ⟨t, ht, hsome⟩ := hoccurs
    obtain ⟨row, hrow⟩ := Option.isSome_iff_exists.1 hsome
    have hrest : ∀ u ∈ first :: rest, (db.rowWith k v u).isSome = true → u ∈ rest := by
      intro u hu hu'
      rcases List.mem_cons.1 hu with rfl | hrest
      · exact absurd hu' hfirst
      · exact hrest
    have honly : ∀ u ∈ first :: rest, (db.rowWith k v u).isSome = true → u = t :=
      fun u hu hu' => hunique u (hrest u hu hu') t (hrest t ht hsome) hu' hsome
    rw [filterMap_put_of_unique (hrestNames.of_map _) (hrest t ht hsome) hrow
      fun u hu => honly u (List.mem_cons_of_mem _ hu), List.perm_singleton] at hshown
    exact ⟨_, hshown, together_put hnames ht hrow honly⟩

/-- The value 1 is in all tables, the value 3 in the last one only; both are shown once. -/
theorem showing_fullView_eq_singleton_iff_three :
    let tables : List JoinTable := [.ofKeys "a" ["k"], .ofKeys "b" ["k"], .ofKeys "c" ["k"]]
    let db : Database Nat := fun s =>
      if s.name = "c" then [.ofList [("k", 1)], .ofList [("k", 3)]] else [.ofList [("k", 1)]]
    ShareOnly "k" tables ∧ db.Keyed "k" tables ∧
      ∃ view, planView .full "v" tables = .ok view ∧ ∀ v ∈ [1, 3],
        (∃ t ∈ tables, db.Has "k" v t) ∧
          ∃ c, view.showing db "k" v = [c] ∧ Together db "k" v tables c := by
  intro tables db
  have hshare : ShareOnly "k" tables := ⟨by decide, by decide, by decide⟩
  have hkeyed : db.Keyed "k" tables := by decide
  have hoccurs : ∀ v ∈ [1, 3], ∃ t ∈ tables, db.Has "k" v t := by decide
  have hspread : ∀ v ∈ [1, 3], db.Has "k" v (.ofKeys "a" ["k"]) ∨
      ∀ t ∈ tables.tail, ∀ u ∈ tables.tail, db.Has "k" v t → db.Has "k" v u → t = u := by
    decide
  have hsome : (planView .full "v" tables).toOption.isSome = true := by decide +kernel
  obtain ⟨view, hview⟩ := Option.isSome_iff_exists.1 hsome
  have hview := toOption_eq_some_iff.1 hview
  exact ⟨hshare, hkeyed, view, hview, fun v hv => ⟨hoccurs v hv,
    (showing_fullView_eq_singleton_iff hshare hview hkeyed (hoccurs v hv)).2 (hspread v hv)⟩⟩

/-- A value that only the second and the third table have is shown twice. -/
theorem showing_fullView_twice :
    let tables : List JoinTable := [.ofKeys "a" ["k"], .ofKeys "b" ["k"], .ofKeys "c" ["k"]]
    let db : Database Nat := fun s =>
      if s.name = "a" then [.ofList [("k", 1)]] else [.ofList [("k", 2)]]
    ShareOnly "k" tables ∧ db.Keyed "k" tables ∧
      (∀ t ∈ tables, ∀ row ∈ db t.source, row "k" ≠ none) ∧
      ∃ view, planView .full "v" tables = .ok view ∧ (∃ t ∈ tables, db.Has "k" 2 t) ∧
        (view.showing db "k" 2).length = 2 := by
  intro tables db
  have hshare : ShareOnly "k" tables := ⟨by decide, by decide, by decide⟩
  have hkeyed : db.Keyed "k" tables := by decide
  have hnull : ∀ t ∈ tables, ∀ row ∈ db t.source, row "k" ≠ none := by decide
  have hoccurs : ∃ t ∈ tables, db.Has "k" 2 t := by decide
  have hcount : ((planView .full "v" tables).toOption.map
      fun view => (view.showing db "k" 2).length) = some 2 := by decide +kernel
  obtain ⟨view, hview, htwice⟩ := Option.map_eq_some_iff.1 hcount
  exact ⟨hshare, hkeyed, hnull, view, toOption_eq_some_iff.1 hview, hoccurs, htwice⟩

end TabularView
