import TabularView.Proofs.Field.DateMeaning
import TabularView.Proofs.Query.Compile

set_option autoImplicit false

/-! # Which bindings compile

An axis is well typed if its column is in the view, if a sum, an average or a logarithm is asked of
numbers alone, and if the filter compares the column with a value of its type. Bindings compile
exactly if all their axes are well typed; otherwise the failure names the column of the first axis
that is not (`compileBindings_accepts_iff`). -/

namespace TabularView

/-! ## Filters -/

/-- A value that a column of a type can be compared with: texts with texts, integers and finite
numbers with numbers, texts that are dates with dates. -/
inductive FilterValue.Suits : FieldType → FilterValue → Prop
  | text (s : String) : Suits .string (.string s)
  | integer (n : Int) : Suits .number (.integer n)
  | number {x : Binary64} : x.isFinite = true → Suits .number (.number x)
  | date {s : String} : Checker.date.accepts (Text.trim s) = true → Suits .date (.string s)

/-- A filter that a column of a type can have. -/
inductive Filter.Suits (type : FieldType) : Filter → Prop
  | noOp : Suits type .noOp
  | keep (operator : Operator) {value : FilterValue} :
      value.Suits type → Suits type (.keep operator value)
  | discard (operator : Operator) {value : FilterValue} :
      value.Suits type → Suits type (.discard operator value)

theorem exists_literalFor_eq_ok_iff {column : String} {type : FieldType} {value : FilterValue} :
    (∃ literal, literalFor column type value = .ok literal) ↔ value.Suits type := by
  simp only [literalFor_eq_ok_iff]
  constructor
  · rintro ⟨literal, ⟨s, rfl, rfl, -⟩ | ⟨x, rfl, rfl, hfinite, -⟩ | ⟨n, rfl, rfl, -⟩ |
      ⟨s, t, rfl, rfl, hdate, -⟩⟩
    · exact .text s
    · exact .number hfinite
    · exact .integer n
    · exact .date (Checker.accepts_date_iff.2 ⟨t, hdate⟩)
  · intro h
    cases h with
    | text s => exact ⟨_, .inl ⟨s, rfl, rfl, rfl⟩⟩
    | integer n => exact ⟨_, .inr (.inr (.inl ⟨n, rfl, rfl, rfl⟩))⟩
    | number hfinite => exact ⟨_, .inr (.inl ⟨_, rfl, rfl, hfinite, rfl⟩)⟩
    | date haccepts =>
        obtain ⟨t, hdate⟩ := Checker.accepts_date_iff.1 haccepts
        exact ⟨_, .inr (.inr (.inr ⟨_, t, rfl, rfl, hdate, rfl⟩))⟩

theorem exists_predicate?_eq_ok_iff {filter : Filter} {column : String} {type : FieldType} :
    (∃ predicate, filter.predicate? column type = .ok predicate) ↔ filter.Suits type := by
  have hvalue : ∀ {operator value}, filter.comparison? = some (operator, value) →
      ((∃ predicate, filter.predicate? column type = .ok predicate) ↔ value.Suits type) := by
    intro operator value hcomparison
    rw [← @exists_literalFor_eq_ok_iff column]
    simp only [predicate?_eq_ok_iff, hcomparison]
    constructor
    · rintro ⟨predicate, ⟨hnone, -⟩ | ⟨operator, value, literal, hsome, hliteral, -⟩⟩
      · cases hnone
      · cases hsome
        exact ⟨literal, hliteral⟩
    · rintro ⟨literal, hliteral⟩
      exact ⟨_, .inr ⟨operator, value, literal, rfl, hliteral, rfl⟩⟩
  cases filter with
  | noOp => exact iff_of_true ⟨none, rfl⟩ .noOp
  | keep operator value =>
      refine (hvalue rfl).trans ⟨.keep operator, fun h => ?_⟩
      cases h
      assumption
  | discard operator value =>
      refine (hvalue rfl).trans ⟨.discard operator, fun h => ?_⟩
      cases h
      assumption

/-! ## Axes -/

theorem Aggregate.requiresNumber_iff {a : Aggregate} :
    a.requiresNumber = true ↔ a = .sum ∨ a = .avg := by
  cases a <;> simp [requiresNumber]

/-- The axes that are looked at before an axis. -/
def Axis.before : Axis → List Axis
  | .x => []
  | .y => [.x]
  | .z => [.x, .y]

namespace AxisBindings

variable (b : AxisBindings) (default : Aggregate) (view : ViewDefinition)

/-- What an axis shows. -/
def on : Axis → AxisBinding
  | .x => b.x
  | .y => b.y
  | .z => b.z

/-- The aggregate of the third axis. -/
def effective : Aggregate :=
  b.aggregate.getD default

/-- The aggregate of an axis. -/
def aggregateOn : Axis → Option Aggregate
  | .z => some (b.effective default)
  | _ => none

/-- The view has the column of an axis, in a type for which all can be done that is asked: only
numbers are summed and averaged, only they and counts have logarithms, and the filter compares with
a value of the type. -/
structure IsTyped (axis : Axis) (type : FieldType) : Prop where
  column : view.columnType? (b.on axis).column = some type
  aggregate : axis = .z → b.effective default = .sum ∨ b.effective default = .avg → type = .number
  interpolation : (b.on axis).interpolation = .logarithmic →
    type = .number ∨ axis = .z ∧ b.effective default = .count
  filter : (b.on axis).filter.Suits type

/-- The axis is well typed. -/
def IsWellTyped (axis : Axis) : Prop :=
  ∃ type, b.IsTyped default view axis type

/-- The axis after its check. -/
def compileOn (axis : Axis) : Except Failure CompiledAxis :=
  compileAxis axis (b.on axis) view (b.aggregateOn default axis)

variable {b default view}

theorem mem_aggregateOn_iff {axis : Axis} {a : Aggregate} :
    a ∈ b.aggregateOn default axis ↔ axis = .z ∧ b.effective default = a := by
  cases axis <;> simp [aggregateOn]

/-- An axis compiles exactly if it is well typed. -/
theorem exists_compileOn_eq_ok_iff {axis : Axis} :
    (∃ a, b.compileOn default view axis = .ok a) ↔ b.IsWellTyped default view axis := by
  have haggregate : ∀ type : FieldType,
      (∀ g ∈ b.aggregateOn default axis, g.requiresNumber = true → type = .number) ↔
        (axis = .z → b.effective default = .sum ∨ b.effective default = .avg → type = .number) := by
    intro type
    simp only [mem_aggregateOn_iff, ← Aggregate.requiresNumber_iff]
    exact ⟨fun h haxis => h _ ⟨haxis, rfl⟩, fun h g hg => hg.2 ▸ h hg.1⟩
  have hcount : ∀ type : FieldType,
      (b.aggregateOn default axis = some .count ∨ type = .number) ↔
        (type = .number ∨ axis = .z ∧ b.effective default = .count) := by
    intro type
    rw [or_comm, ← Option.mem_def, mem_aggregateOn_iff]
  simp only [compileOn, compileAxis_eq_ok_iff, haggregate, hcount]
  constructor
  · rintro ⟨-, type, predicate, hcolumn, hsum, hscale, hpredicate, -⟩
    exact ⟨type, hcolumn, hsum, hscale, exists_predicate?_eq_ok_iff.1 ⟨predicate, hpredicate⟩⟩
  · rintro ⟨type, hcolumn, hsum, hscale, hfilter⟩
    obtain ⟨predicate, hpredicate⟩ := exists_predicate?_eq_ok_iff.2 hfilter
    exact ⟨_, type, predicate, hcolumn, hsum, hscale, hpredicate, rfl⟩

/-- Bindings are compiled axis by axis. -/
theorem compileBindings_eq : compileBindings default b view = (do
    let x ← b.compileOn default view .x
    let y ← b.compileOn default view .y
    let z ← b.compileOn default view .z
    .ok { view := view.name, x, y, z }) :=
  rfl

end AxisBindings

/-! ## Failures -/

theorem exists_fault_of_literalFor {column : String} {type : FieldType} {value : FilterValue}
    {f : Failure} (h : literalFor column type value = .error f) :
    ∃ fault, f = .invalidValue column fault := by
  unfold literalFor at h
  split at h <;> (try split at h) <;> cases h <;> exact ⟨_, rfl⟩

/-- An axis fails to compile with a failure about its column. -/
theorem exists_fault_of_compileAxis {axis : Axis} {b : AxisBinding} {view : ViewDefinition}
    {aggregate : Option Aggregate} {f : Failure}
    (h : compileAxis axis b view aggregate = .error f) :
    ∃ fault, f = .invalidValue b.column fault := by
  rcases bind_eq_error_iff.1 h with htype | ⟨type, -, h⟩
  · unfold AxisBinding.columnType at htype
    split at htype <;> cases htype
    exact ⟨_, rfl⟩
  rcases bind_eq_error_iff.1 h with haggregate | ⟨-, -, h⟩
  · unfold checkAggregate at haggregate
    split at haggregate
    · split at haggregate <;> cases haggregate
      exact ⟨_, rfl⟩
    · cases haggregate
  rcases bind_eq_error_iff.1 h with hscale | ⟨-, -, h⟩
  · unfold checkInterpolation at hscale
    split at hscale
    · cases hscale
    · split at hscale <;> cases hscale
      exact ⟨_, rfl⟩
  rcases bind_eq_error_iff.1 h with hfilter | ⟨predicate, -, h⟩
  · unfold Filter.predicate? at hfilter
    split at hfilter
    · cases hfilter
    · split at hfilter
      · cases hfilter
      · next hliteral =>
          cases hfilter
          exact exists_fault_of_literalFor hliteral
  · cases h

/-! ## Bindings -/

/-- Bindings compile exactly if every axis is well typed. If one is not, the failure is one of an
invalid value and names the column of the first such axis. -/
theorem compileBindings_accepts_iff (default : Aggregate) (b : AxisBindings)
    (view : ViewDefinition) :
    ((∃ q, compileBindings default b view = .ok q) ↔ ∀ axis, b.IsWellTyped default view axis) ∧
    ∀ axis, (∀ earlier ∈ axis.before, b.IsWellTyped default view earlier) →
      ¬ b.IsWellTyped default view axis →
      ∃ f, compileBindings default b view = .error f ∧ f.kind = .invalidFieldValue ∧
        f.column? = some (b.on axis).column := by
  have herror : ∀ axis, ¬ b.IsWellTyped default view axis →
      ∃ f, b.compileOn default view axis = .error f ∧ f.kind = .invalidFieldValue ∧
        f.column? = some (b.on axis).column := by
    intro axis hnot
    rw [← AxisBindings.exists_compileOn_eq_ok_iff] at hnot
    cases hcompiled : b.compileOn default view axis with
    | ok a => exact absurd ⟨a, hcompiled⟩ hnot
    | error f =>
        obtain ⟨fault, rfl⟩ := exists_fault_of_compileAxis hcompiled
        exact ⟨_, rfl, rfl, rfl⟩
  rw [AxisBindings.compileBindings_eq]
  simp only [← AxisBindings.exists_compileOn_eq_ok_iff] at herror ⊢
  constructor
  · constructor
    · rintro ⟨q, hq⟩ axis
      obtain ⟨x, hx, hq⟩ := bind_eq_ok_iff.1 hq
      obtain ⟨y, hy, hq⟩ := bind_eq_ok_iff.1 hq
      obtain ⟨z, hz, -⟩ := bind_eq_ok_iff.1 hq
      cases axis with
      | x => exact ⟨x, hx⟩
      | y => exact ⟨y, hy⟩
      | z => exact ⟨z, hz⟩
    · intro h
      obtain ⟨x, hx⟩ := h .x
      obtain ⟨y, hy⟩ := h .y
      obtain ⟨z, hz⟩ := h .z
      exact ⟨{ view := view.name, x, y, z },
        bind_eq_ok_iff.2 ⟨x, hx, bind_eq_ok_iff.2 ⟨y, hy, bind_eq_ok_iff.2 ⟨z, hz, rfl⟩⟩⟩⟩
  · intro axis hbefore hnot
    obtain ⟨f, hf, hkind, hcolumn⟩ := herror axis hnot
    refine ⟨f, ?_, hkind, hcolumn⟩
    cases axis with
    | x => exact bind_eq_error_iff.2 (.inl hf)
    | y =>
        obtain ⟨x, hx⟩ := hbefore .x (by decide)
        exact bind_eq_error_iff.2 (.inr ⟨x, hx, bind_eq_error_iff.2 (.inl hf)⟩)
    | z =>
        obtain ⟨x, hx⟩ := hbefore .x (by decide)
        obtain ⟨y, hy⟩ := hbefore .y (by decide)
        exact bind_eq_error_iff.2 (.inr ⟨x, hx, bind_eq_error_iff.2 (.inr ⟨y, hy,
          bind_eq_error_iff.2 (.inl hf)⟩)⟩)

/-- A view of orders. -/
def ordersView : ViewDefinition where
  name := "orders"
  statement := ""
  columns := [⟨"region", .string⟩, ⟨"day", .date⟩, ⟨"amount", .number⟩]

/-- Amounts by region and by the logarithm of the day, with a sum over a column that is missing. -/
def ordersBindings : AxisBindings where
  x := ⟨"region", .linear, .ascending, .keep .equal (.string "Ohio")⟩
  y := ⟨"day", .logarithmic, .ascending, .noOp⟩
  z := ⟨"total", .linear, .ascending, .noOp⟩

/-- Two axes are not well typed, and the failure is about the first of them. -/
theorem compileBindings_accepts_iff_orders :
    ∃ f, compileBindings .sum ordersBindings ordersView = .error f ∧ f.kind = .invalidFieldValue ∧
      f.column? = some "day" := by
  have hx : ordersBindings.IsWellTyped .sum ordersView .x :=
    ⟨.string, rfl, fun h => (nomatch h), fun h => (nomatch h), .keep .equal (.text "Ohio")⟩
  have hy : ¬ ordersBindings.IsWellTyped .sum ordersView .y := by
    rintro ⟨type, hcolumn, -, hscale, -⟩
    cases hcolumn
    rcases hscale rfl with htype | ⟨haxis, -⟩
    · cases htype
    · cases haxis
  refine (compileBindings_accepts_iff .sum ordersBindings ordersView).2 .y (fun earlier h => ?_) hy
  rwa [List.mem_singleton.1 h]

end TabularView
