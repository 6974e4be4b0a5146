import TabularView.Proofs.Sorting
import TabularView.Proofs.View.Holders

set_option autoImplicit false

/-! # The columns of a view

The keys come first. No two keys have one name, so that each is shown under its own
(`nameProjections_append`), and looking a name up in the view finds the key that the tables hold
under it (`find?_projections_viewOver`). -/

namespace TabularView

/-- Where no two names are the same, each element is found under its own. -/
theorem find?_of_nodup_map {α : Type} {f : α → String} {l : List α} (h : (l.map f).Nodup) {a : α}
    (ha : a ∈ l) : l.find? (f · == f a) = some a := by
  cases hfind : l.find? (f · == f a) with
  | none => exact absurd (List.find?_eq_none.1 hfind a ha) (by simp)
  | some b =>
      have hname : f b = f a := by simpa using List.find?_some hfind
      rw [List.inj_on_of_nodup_map h (List.mem_of_find?_eq_some hfind) ha hname]

/-- Projections that ask for different names get them if they come first. -/
theorem nameProjections_append {projections : List Projection}
    (h : (projections.map (·.name)).Nodup) (later : List Projection) :
    nameProjections (projections ++ later) = projections ++
      (later.zip (Text.freshen (projections.map (·.name)).reverse (later.map (·.name)))).map
        fun (p, name) => { p with name } := by
  have hsame : ∀ ps : List Projection,
      (ps.zip (ps.map (·.name))).map (fun (p, name) => { p with name }) = ps := by
    intro ps
    induction ps with
    | nil => rfl
    | cons p rest ih => rw [List.map_cons, List.zip_cons_cons, List.map_cons, ih]
  rw [nameProjections, List.map_append, Text.freshen_append h (fun _ _ => List.not_mem_nil),
    List.append_nil, List.zip_append (List.length_map _).symm, List.map_append, hsame]

theorem nameProjections_of_nodup {projections : List Projection}
    (h : (projections.map (·.name)).Nodup) : nameProjections projections = projections := by
  have hnone := nameProjections_append h []
  simpa using hnone

/-- The keys of tables that are joined in this order. -/
def keysOver (first : JoinTable) (order : List JoinTable) : List ViewKey :=
  (joinSources order (holdKeys first.tableName first.joinColumns []).1).1

theorem keeps_keysOver (first : JoinTable) (order : List JoinTable) :
    Keeps ((first :: order).flatMap (·.holdings)) (keysOver first order) :=
  (Keeps.nil.holdKeys first.tableName first.joinColumns).joinSources order

theorem projections_viewOver (kind : JoinKind) (name : String) (first : JoinTable)
    (order : List JoinTable) :
    (viewOver kind name first order).projections = nameProjections
      ((keysOver first order).map (keyProjection kind) ++
        (first :: order).flatMap tableProjections) :=
  rfl

theorem map_name_keyProjection (kind : JoinKind) (keys : List ViewKey) :
    (keys.map (keyProjection kind)).map (·.name) = keys.map (·.name) := by
  rw [List.map_map]
  rfl

/-- Keys are looked up in a view by their names. -/
theorem find?_projections_viewOver (kind : JoinKind) (name : String) {first : JoinTable}
    {order : List JoinTable} {column : String} {key : ViewKey}
    (h : keyOf? ((first :: order).flatMap (·.holdings)) column = some key) :
    (viewOver kind name first order).projections.find? (·.name == column) =
      some (keyProjection kind key) := by
  have hkeeps := keeps_keysOver first order
  have hkey : (keysOver first order).find? (·.name == column) = some key :=
    (hkeeps.find? column).trans h
  rw [projections_viewOver,
    nameProjections_append (by rw [map_name_keyProjection]; exact hkeeps.nodup), List.find?_append,
    List.find?_map]
  rw [show ((·.name == column) ∘ keyProjection kind : ViewKey → Bool) = (·.name == column) from rfl,
    hkey]
  rfl

/-! ## Columns by their index -/

theorem sortByIndex_perm (columns : List JoinColumn) : (sortByIndex columns).Perm columns :=
  List.mergeSort_perm _ _

theorem pairwise_sortByIndex (columns : List JoinColumn) :
    (sortByIndex columns).Pairwise fun a b => a.columnIndex ≤ b.columnIndex := by
  have hsorted := @List.pairwise_mergeSort JoinColumn
    (fun a b => decide (a.columnIndex ≤ b.columnIndex))
    (fun a b c => by simpa using Nat.le_trans) (fun a b => by simpa using Nat.le_total _ _) columns
  exact hsorted.imp of_decide_eq_true

end TabularView
