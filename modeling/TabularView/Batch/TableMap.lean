import TabularView.Table.Stats

set_option autoImplicit false

/-! # Tables by name

The tables of a model as an ascending list of names with one table each. The lemmas say what each
operation does to a look-up, which is all that a batch needs to know of the list. -/

namespace TabularView

/-- Tables by name, in ascending order of names. -/
structure TableMap where
  entries : List (String × TableStats) := []
deriving DecidableEq, Repr

namespace TableMap

/-! ## On lists of entries -/

/-- The table under a name. -/
def lookup (name : String) : List (String × TableStats) → Option TableStats
  | [] => none
  | (other, t) :: rest => if other = name then some t else lookup name rest

/-- The entries with a table under a name, in place of the one it had. -/
def put (name : String) (t : TableStats) : List (String × TableStats) → List (String × TableStats)
  | [] => [(name, t)]
  | (other, u) :: rest =>
    match compare name other with
    | .lt => (name, t) :: (other, u) :: rest
    | .eq => (name, t) :: rest
    | .gt => (other, u) :: put name t rest

/-- The entries without a name. -/
def remove (name : String) (entries : List (String × TableStats)) : List (String × TableStats) :=
  entries.filter (·.1 ≠ name)

theorem lookup_put (name other : String) (t : TableStats) (entries : List (String × TableStats)) :
    lookup other (put name t entries) = if other = name then some t else lookup other entries := by
  induction entries with
  | nil => simp [put, lookup, eq_comm]
  | cons entry rest ih =>
    obtain ⟨key, u⟩ := entry
    rw [put]
    split
    · simp [lookup, eq_comm]
    · rename_i h
      have hk : name = key := Std.LawfulEqOrd.eq_of_compare h
      subst hk
      by_cases ho : other = name
      · simp [lookup, ho]
      · simp [lookup, ho, Ne.symm ho]
    · rename_i h
      have hk : name ≠ key := by
        intro e
        subst e
        simp at h
      by_cases hko : key = other
      · subst hko
        simp [lookup, Ne.symm hk]
      · simp [lookup, hko, ih]

theorem lookup_remove (name other : String) (entries : List (String × TableStats)) :
    lookup other (remove name entries) = if other = name then none else lookup other entries := by
  induction entries with
  | nil => simp [remove, lookup]
  | cons entry rest ih =>
    obtain ⟨key, u⟩ := entry
    by_cases hk : key = name
    · subst hk
      have hr : remove key ((key, u) :: rest) = remove key rest := by simp [remove]
      rw [hr, ih]
      by_cases ho : other = key
      · simp [ho]
      · simp [ho, lookup, Ne.symm ho]
    · have hr : remove name ((key, u) :: rest) = (key, u) :: remove name rest := by
        simp [remove, hk]
      rw [hr]
      by_cases hko : key = other
      · subst hko
        simp [lookup, hk]
      · simp [lookup, hko, ih]

/-! ## On maps -/

/-- The table under a name. -/
def find? (m : TableMap) (name : String) : Option TableStats :=
  lookup name m.entries

/-- The map with a table under a name. -/
def insert (m : TableMap) (name : String) (t : TableStats) : TableMap :=
  { entries := put name t m.entries }

/-- The map without a name. -/
def erase (m : TableMap) (name : String) : TableMap :=
  { entries := remove name m.entries }

/-- The tables in ascending order of names. -/
def tables (m : TableMap) : List TableStats :=
  m.entries.map (·.2)

/-- The map of tables under their own names; of several with one name the last counts. -/
def ofTables (tables : List TableStats) : TableMap :=
  tables.foldl (fun m t => m.insert t.tableName t) {}

theorem find?_insert (m : TableMap) (name other : String) (t : TableStats) :
    (m.insert name t).find? other = if other = name then some t else m.find? other :=
  lookup_put name other t m.entries

theorem find?_erase (m : TableMap) (name other : String) :
    (m.erase name).find? other = if other = name then none else m.find? other :=
  lookup_remove name other m.entries

end TableMap

end TabularView
