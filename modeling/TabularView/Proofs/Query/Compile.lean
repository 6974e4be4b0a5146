import TabularView.Proofs.Fallible
import TabularView.Query.Compile

set_option autoImplicit false

/-! # What compiles

An axis compiles if its column is in the view, what is asked of the column fits its type, and its
filter has a value that the column can be compared with (`compileAxis_eq_ok_iff`). What it compiles
to has the column, the scale, the direction and the comparison of the binding. -/

namespace TabularView

variable {view : ViewDefinition} {axis : Axis} {b : AxisBinding} {type : FieldType}

theorem columnType_eq_ok_iff :
    b.columnType axis view = .ok type ↔ view.columnType? b.column = some type := by
  unfold AxisBinding.columnType
  cases view.columnType? b.column with
  | none => simp
  | some found => simp

theorem checkAggregate_eq_ok_iff {column : String} {aggregate : Option Aggregate} {u : Unit} :
    checkAggregate column type aggregate = .ok u ↔
      ∀ a ∈ aggregate, a.requiresNumber = true → type = .number := by
  cases aggregate with
  | none => simp [checkAggregate]
  | some a =>
      by_cases h : a.requiresNumber ∧ type ≠ .number
      · simp [checkAggregate, h]
      · simp only [checkAggregate, h, if_false, true_iff, Option.mem_some_iff]
        rintro _ rfl hnumber
        exact not_not.1 fun htype => h ⟨hnumber, htype⟩

theorem checkInterpolation_eq_ok_iff {column : String} {aggregate : Option Aggregate}
    {interpolation : Interpolation} {u : Unit} :
    checkInterpolation column type aggregate interpolation = .ok u ↔
      (interpolation = .logarithmic → aggregate = some .count ∨ type = .number) := by
  cases interpolation with
  | linear => simp [checkInterpolation]
  | logarithmic =>
      by_cases h : aggregate = some .count ∨ type = .number
      · simp [checkInterpolation, h]
      · simp [checkInterpolation, h]

/-- An axis of a binding with a predicate on its column. -/
def AxisBinding.axisWith (b : AxisBinding) (axis : Axis) (aggregate : Option Aggregate)
    (predicate : Option Predicate) : CompiledAxis where
  axis := axis
  value := {
    column := b.column
    aggregate := aggregate
    logarithmic := b.interpolation = .logarithmic }
  direction := b.direction
  predicate := predicate

theorem compileAxis_eq_ok_iff {aggregate : Option Aggregate} {a : CompiledAxis} :
    compileAxis axis b view aggregate = .ok a ↔
      ∃ type predicate, view.columnType? b.column = some type ∧
        (∀ g ∈ aggregate, g.requiresNumber = true → type = .number) ∧
        (b.interpolation = .logarithmic → aggregate = some .count ∨ type = .number) ∧
        b.filter.predicate? b.column type = .ok predicate ∧
        a = b.axisWith axis aggregate predicate := by
  simp only [compileAxis, bind_eq_ok_iff, columnType_eq_ok_iff, checkAggregate_eq_ok_iff,
    checkInterpolation_eq_ok_iff]
  constructor
  · rintro ⟨type, htype, -, haggregate, -, hscale, predicate, hpredicate, ha⟩
    exact ⟨type, predicate, htype, haggregate, hscale, hpredicate, (Except.ok.inj ha).symm⟩
  · rintro ⟨type, predicate, htype, haggregate, hscale, hpredicate, rfl⟩
    exact ⟨type, htype, (), haggregate, (), hscale, predicate, hpredicate, rfl⟩

theorem compileBindings_eq_ok_iff {aggregate : Aggregate} {b : AxisBindings} {q : GlyphQuery} :
    compileBindings aggregate b view = .ok q ↔
      compileAxis .x b.x view none = .ok q.x ∧ compileAxis .y b.y view none = .ok q.y ∧
        compileAxis .z b.z view (some (b.aggregate.getD aggregate)) = .ok q.z ∧
        q.view = view.name := by
  simp only [compileBindings, bind_eq_ok_iff]
  constructor
  · rintro ⟨x, hx, y, hy, z, hz, hq⟩
    obtain rfl := Except.ok.inj hq
    exact ⟨hx, hy, hz, rfl⟩
  · rintro ⟨hx, hy, hz, hview⟩
    refine ⟨q.x, hx, q.y, hy, q.z, hz, ?_⟩
    rw [← hview]

/-- The values that a column can be compared with: texts with texts, finite numbers with numbers,
and texts that are dates with dates. -/
theorem literalFor_eq_ok_iff {column : String} {value : FilterValue} {literal : SqlLiteral} :
    literalFor column type value = .ok literal ↔
      (∃ s, value = .string s ∧ type = .string ∧ literal = .text s) ∨
      (∃ x, value = .number x ∧ type = .number ∧ x.isFinite = true ∧ literal = .number x) ∨
      (∃ n, value = .integer n ∧ type = .number ∧ literal = .integer n) ∨
      (∃ s t, value = .string s ∧ type = .date ∧ readDate? (Text.trim s) = some t ∧
        literal = .timestamp t) := by
  unfold literalFor
  cases value with
  | string s =>
      cases type with
      | string => simp [@eq_comm _ literal]
      | number => simp
      | date => cases hdate : readDate? (Text.trim s) <;> simp [hdate, @eq_comm _ literal]
      | unknown => simp
  | number x =>
      cases type with
      | number => cases hfinite : x.isFinite <;> simp [hfinite, @eq_comm _ literal]
      | _ => simp
  | integer n => cases type <;> simp [@eq_comm _ literal]

theorem predicate?_eq_ok_iff {filter : Filter} {column : String} {predicate : Option Predicate} :
    filter.predicate? column type = .ok predicate ↔
      (filter.comparison? = none ∧ predicate = none) ∨
        ∃ operator value literal, filter.comparison? = some (operator, value) ∧
          literalFor column type value = .ok literal ∧
          predicate = some { column, operator, literal } := by
  unfold Filter.predicate?
  cases hcomparison : filter.comparison? with
  | none => simp [eq_comm]
  | some comparison =>
      obtain ⟨operator, value⟩ := comparison
      cases hliteral : literalFor column type value with
      | error f => simp [hliteral]
      | ok literal => simp [hliteral, eq_comm]

end TabularView
