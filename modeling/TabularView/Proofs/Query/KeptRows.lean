import Mathlib.Data.String.Basic
import TabularView.Proofs.Query.Condition
import TabularView.Proofs.View.Rows

set_option autoImplicit false

/-! # The rows that a query keeps

An engine takes a row if all predicates of the condition are true of it. A comparison with null, or
of values of different types, is neither true nor false, and a conjunction is unknown if one part is
and none is false.

Of a row whose filtered columns have values of their types the condition is true exactly if each
axis asks for the row: if its filter is to keep the rows that compare with a value, and this one
does, or to discard them, and this one does not (`compileBindings_keeps_asked`). -/

namespace TabularView

open Sql (Token)

/-! ## Values -/

/-- A value of a column; texts, numbers and dates each have a domain of their own. -/
inductive Cell (S N D : Type)
  | text (value : S)
  | number (value : N)
  | date (value : D)

/-- What an engine takes literals for. -/
structure Meaning (S N D : Type) where
  text : String → S
  number : Binary64 → N
  integer : Int → N
  date : Instant → D

variable {S N D : Type}

/-- The type of the columns that hold a value. -/
def Cell.type : Cell S N D → FieldType
  | .text _ => .string
  | .number _ => .number
  | .date _ => .date

/-- The value that a literal stands for. -/
def Meaning.literal (m : Meaning S N D) : SqlLiteral → Cell S N D
  | .text s => .text (m.text s)
  | .number x => .number (m.number x)
  | .integer n => .number (m.integer n)
  | .timestamp t => .date (m.date t)

variable [LinearOrder S] [LinearOrder N] [LinearOrder D]

/-! ## What an engine keeps -/

/-- How values of one type are ordered; values of different types are not. -/
def Cell.compare? : Cell S N D → Cell S N D → Option Ordering
  | .text a, .text b => some (compare a b)
  | .number a, .number b => some (compare a b)
  | .date a, .date b => some (compare a b)
  | _, _ => none

/-- Whether both are true, as far as that is known. -/
def bothTrue : Option Bool → Option Bool → Option Bool
  | some true, some true => some true
  | some false, _ => some false
  | _, some false => some false
  | _, _ => none

/-- Whether a predicate is true of a row, as far as that is known. -/
def Predicate.truth (m : Meaning S N D) (row : Row (Cell S N D)) (p : Predicate) : Option Bool := do
  let cell ← row p.column
  let order ← cell.compare? (m.literal p.literal)
  some (p.operator.holds order)

/-- Whether all predicates are true of a row. -/
def allTrue (m : Meaning S N D) (row : Row (Cell S N D)) : List Predicate → Option Bool
  | [] => some true
  | p :: rest => bothTrue (p.truth m row) (allTrue m row rest)

/-- Whether a row is kept by the condition in these tokens. -/
def keeps (m : Meaning S N D) (row : Row (Cell S N D)) (ts : List Token) : Option Bool :=
  (conditions? ts).bind (allTrue m row)

theorem bothTrue_eq_true_iff {a b : Option Bool} :
    bothTrue a b = some true ↔ a = some true ∧ b = some true := by
  cases a with
  | none => cases b with
    | none => decide
    | some b => cases b <;> decide
  | some a => cases a <;> cases b with
    | none => decide
    | some b => cases b <;> decide

theorem allTrue_eq_true_iff {m : Meaning S N D} {row : Row (Cell S N D)} {ps : List Predicate} :
    allTrue m row ps = some true ↔ ∀ p ∈ ps, p.truth m row = some true := by
  induction ps with
  | nil => simp [allTrue]
  | cons p rest ih => rw [allTrue, bothTrue_eq_true_iff, ih, List.forall_mem_cons]

/-! ## What is asked -/

/-- Two values compare in this way. -/
def Operator.Relates {α : Type} [LinearOrder α] (op : Operator) (a b : α) : Prop :=
  match op with
  | .equal => a = b
  | .notEqual => a ≠ b
  | .greaterThan => b < a
  | .greaterThanEqual => b ≤ a
  | .lessThan => a < b
  | .lessThanEqual => a ≤ b

theorem Operator.holds_compare {α : Type} [LinearOrder α] (op : Operator) (a b : α) :
    op.holds (compare a b) = true ↔ op.Relates a b := by
  rcases lt_trichotomy a b with h | rfl | h
  · have hcompare : compare a b = .lt := compare_lt_iff_lt.2 h
    cases op <;> simp [holds, Relates, hcompare, h, h.ne, h.le, h.not_gt, h.not_ge]
  · cases op <;> simp [holds, Relates]
  · have hcompare : compare a b = .gt := compare_gt_iff_gt.2 h
    cases op <;> simp [holds, Relates, hcompare, h, h.ne', h.le, h.not_gt, h.not_ge]

/-- A value of a column compares with the value of a filter. The text of a date stands for the
instant that it is read as. -/
def Cell.Compares (m : Meaning S N D) (op : Operator) (cell : Cell S N D) (value : FilterValue) :
    Prop :=
  match cell, value with
  | .text a, .string s => op.Relates a (m.text s)
  | .number a, .number x => op.Relates a (m.number x)
  | .number a, .integer n => op.Relates a (m.integer n)
  | .date a, .string s => ∃ t, readDate? (Text.trim s) = some t ∧ op.Relates a (m.date t)
  | _, _ => False

/-- An axis asks for a row. -/
def AxisBinding.Asks (m : Meaning S N D) (row : Row (Cell S N D)) (b : AxisBinding) : Prop :=
  match b.filter with
  | .noOp => True
  | .keep op value => ∃ cell, row b.column = some cell ∧ cell.Compares m op value
  | .discard op value => ¬ ∃ cell, row b.column = some cell ∧ cell.Compares m op value

/-- If the axis is filtered, the row has a value in its column, and one of the column's type. -/
def AxisBinding.Fits (view : ViewDefinition) (row : Row (Cell S N D)) (b : AxisBinding) : Prop :=
  b.filter ≠ .noOp → ∃ cell, row b.column = some cell ∧ view.columnType? b.column = some cell.type

/-- The literal of a value is ordered against a cell so that a comparison holds exactly if the cell
compares with the value. -/
theorem exists_compare? (m : Meaning S N D) {cell : Cell S N D} {column : String}
    {value : FilterValue} {literal : SqlLiteral}
    (h : literalFor column cell.type value = .ok literal) :
    ∃ order, cell.compare? (m.literal literal) = some order ∧
      ∀ op : Operator, op.holds order = true ↔ cell.Compares m op value := by
  rcases literalFor_eq_ok_iff.1 h with ⟨s, rfl, htype, rfl⟩ | ⟨x, rfl, htype, -, rfl⟩ |
    ⟨n, rfl, htype, rfl⟩ | ⟨s, t, rfl, htype, hdate, rfl⟩
  -- a cell of another type than the value's is excluded by the type of the column
  all_goals cases cell <;> try cases htype
  · exact ⟨_, rfl, fun op => op.holds_compare _ _⟩
  · exact ⟨_, rfl, fun op => op.holds_compare _ _⟩
  · exact ⟨_, rfl, fun op => op.holds_compare _ _⟩
  · refine ⟨_, rfl, fun op => (op.holds_compare _ _).trans ?_⟩
    simp [Cell.Compares, hdate]

omit [LinearOrder S] [LinearOrder N] [LinearOrder D] in
theorem noOp_iff_comparison?_eq_none {filter : Filter} :
    filter = .noOp ↔ filter.comparison? = none := by
  cases filter <;> simp [Filter.comparison?]

/-- The predicate of a compiled axis is true of the rows that the axis asks for. -/
theorem truth_iff_asks {m : Meaning S N D} {row : Row (Cell S N D)} {axis : Axis} {b : AxisBinding}
    {view : ViewDefinition} {aggregate : Option Aggregate} {a : CompiledAxis}
    (h : compileAxis axis b view aggregate = .ok a) (hfits : b.Fits view row) :
    (∀ p ∈ a.predicate, p.truth m row = some true) ↔ b.Asks m row := by
  obtain ⟨type, predicate, htype, -, -, hpredicate, rfl⟩ := compileAxis_eq_ok_iff.1 h
  show (∀ p ∈ predicate, p.truth m row = some true) ↔ b.Asks m row
  obtain ⟨column, interpolation, direction, filter⟩ := b
  rcases predicate?_eq_ok_iff.1 hpredicate with ⟨hnone, rfl⟩ |
    ⟨operator, value, literal, hsome, hliteral, rfl⟩
  · obtain rfl := noOp_iff_comparison?_eq_none.2 hnone
    simp [AxisBinding.Asks]
  · have hfilter : filter ≠ .noOp := by
      rintro rfl
      cases hsome
    obtain ⟨cell, hrow, hcell⟩ := hfits hfilter
    obtain rfl : type = cell.type := Option.some.inj (htype.symm.trans hcell)
    -- the cell has the type of the literal, so the comparison is known to hold or not to
    obtain ⟨order, hcompare, hholds⟩ := exists_compare? m hliteral
    have htruth : Predicate.truth m row { column, operator, literal } =
        some (operator.holds order) := by
      simp only [Predicate.truth, hrow, hcompare, Option.bind_eq_bind, Option.bind_some]
    simp only [Option.mem_some_iff, forall_eq', htruth, Option.some.injEq]
    cases filter with
    | noOp => exact absurd rfl hfilter
    | keep op v =>
        obtain ⟨rfl, rfl⟩ := Prod.mk.inj (Option.some.inj hsome)
        simp [AxisBinding.Asks, hrow, hholds]
    | discard op v =>
        obtain ⟨rfl, rfl⟩ := Prod.mk.inj (Option.some.inj hsome)
        simp [AxisBinding.Asks, hrow, op.holds_negate, ← hholds]

/-! ## The query -/

theorem isReadable_of_compileAxis {axis : Axis} {b : AxisBinding} {view : ViewDefinition}
    {aggregate : Option Aggregate} {a : CompiledAxis}
    (h : compileAxis axis b view aggregate = .ok a) : ∀ p ∈ a.predicate, p.literal.IsReadable := by
  obtain ⟨type, predicate, -, -, -, hpredicate, rfl⟩ := compileAxis_eq_ok_iff.1 h
  show ∀ p ∈ predicate, p.literal.IsReadable
  rcases predicate?_eq_ok_iff.1 hpredicate with ⟨-, rfl⟩ |
    ⟨operator, value, literal, hsome, hliteral, rfl⟩
  · exact fun _ hp => nomatch hp
  · intro p hp
    obtain rfl := Option.some.inj hp
    rcases literalFor_eq_ok_iff.1 hliteral with ⟨s, -, -, rfl⟩ | ⟨x, rfl, -, hfinite, rfl⟩ |
      ⟨n, -, -, rfl⟩ | ⟨s, t, -, -, hdate, rfl⟩
    · trivial
    · exact hfinite
    · trivial
    · exact nanos_lt_of_readDate? hdate

theorem predicate_eq_none_iff {axis : Axis} {b : AxisBinding} {view : ViewDefinition}
    {aggregate : Option Aggregate} {a : CompiledAxis}
    (h : compileAxis axis b view aggregate = .ok a) : a.predicate = none ↔ b.filter = .noOp := by
  obtain ⟨type, predicate, -, -, -, hpredicate, rfl⟩ := compileAxis_eq_ok_iff.1 h
  show predicate = none ↔ b.filter = .noOp
  rw [noOp_iff_comparison?_eq_none]
  rcases predicate?_eq_ok_iff.1 hpredicate with ⟨hnone, rfl⟩ | ⟨_, _, _, hsome, -, rfl⟩
  · simp [hnone]
  · simp [hsome]

theorem GlyphQuery.forall_mem_predicates_iff {q : GlyphQuery} {P : Predicate → Prop} :
    (∀ p ∈ q.predicates, P p) ↔
      (∀ p ∈ q.x.predicate, P p) ∧ (∀ p ∈ q.y.predicate, P p) ∧ ∀ p ∈ q.z.predicate, P p := by
  simp only [predicates, axes, List.mem_filterMap, List.mem_cons, List.not_mem_nil, or_false,
    exists_eq_or_imp, exists_eq_left, Option.mem_def, or_imp, forall_and]

theorem GlyphQuery.predicates_eq_nil_iff {q : GlyphQuery} :
    q.predicates = [] ↔ q.x.predicate = none ∧ q.y.predicate = none ∧ q.z.predicate = none := by
  simp [predicates, axes, List.filterMap_eq_nil_iff]

namespace AxisBindings

variable {b : AxisBindings}

/-- No axis is filtered. -/
def IsUnfiltered (b : AxisBindings) : Prop :=
  b.x.filter = .noOp ∧ b.y.filter = .noOp ∧ b.z.filter = .noOp

/-- The row has values of their types in all columns that are filtered. -/
def Fits (view : ViewDefinition) (row : Row (Cell S N D)) (b : AxisBindings) : Prop :=
  b.x.Fits view row ∧ b.y.Fits view row ∧ b.z.Fits view row

/-- All axes ask for the row. -/
def Asks (m : Meaning S N D) (row : Row (Cell S N D)) (b : AxisBindings) : Prop :=
  b.x.Asks m row ∧ b.y.Asks m row ∧ b.z.Asks m row

end AxisBindings

section Compiled

variable {aggregate : Aggregate} {b : AxisBindings} {view : ViewDefinition} {q : GlyphQuery}

theorem isReadable_of_compileBindings (h : compileBindings aggregate b view = .ok q) :
    q.IsReadable := by
  obtain ⟨hx, hy, hz, -⟩ := compileBindings_eq_ok_iff.1 h
  exact GlyphQuery.forall_mem_predicates_iff.2 ⟨isReadable_of_compileAxis hx,
    isReadable_of_compileAxis hy, isReadable_of_compileAxis hz⟩

theorem predicates_eq_nil_iff_isUnfiltered (h : compileBindings aggregate b view = .ok q) :
    q.predicates = [] ↔ b.IsUnfiltered := by
  obtain ⟨hx, hy, hz, -⟩ := compileBindings_eq_ok_iff.1 h
  rw [GlyphQuery.predicates_eq_nil_iff, predicate_eq_none_iff hx, predicate_eq_none_iff hy,
    predicate_eq_none_iff hz]
  rfl

/-- The predicates of a query are all true of a row exactly if all axes ask for it. -/
theorem allTrue_predicates_iff {m : Meaning S N D} {row : Row (Cell S N D)}
    (h : compileBindings aggregate b view = .ok q) (hfits : b.Fits view row) :
    allTrue m row q.predicates = some true ↔ b.Asks m row := by
  obtain ⟨hx, hy, hz, -⟩ := compileBindings_eq_ok_iff.1 h
  obtain ⟨hfitsx, hfitsy, hfitsz⟩ := hfits
  rw [allTrue_eq_true_iff, GlyphQuery.forall_mem_predicates_iff, truth_iff_asks hx hfitsx,
    truth_iff_asks hy hfitsy, truth_iff_asks hz hfitsz]
  rfl

end Compiled

/-! ## Keeping and discarding -/

/-- The filter that keeps what this one keeps or discards. -/
def Filter.asKept : Filter → Filter
  | .discard operator value => .keep operator value
  | filter => filter

/-- The binding that keeps what this one keeps or discards. -/
def AxisBinding.asKept (b : AxisBinding) : AxisBinding :=
  { b with filter := b.filter.asKept }

/-- The bindings that keep what these keep or discard. -/
def AxisBindings.asKept (b : AxisBindings) : AxisBindings :=
  { b with x := b.x.asKept, y := b.y.asKept, z := b.z.asKept }

variable {f : Failure} {axis : Axis} {view : ViewDefinition}

theorem predicate?_asKept_eq_error_iff {filter : Filter} {column : String} {type : FieldType} :
    filter.asKept.predicate? column type = .error f ↔
      filter.predicate? column type = .error f := by
  cases filter with
  | noOp => rfl
  | keep operator value => rfl
  | discard operator value =>
      simp only [Filter.predicate?, Filter.asKept, Filter.comparison?]
      cases literalFor column type value <;> simp

theorem compileAxis_asKept_eq_error_iff {b : AxisBinding} {aggregate : Option Aggregate} :
    compileAxis axis b.asKept view aggregate = .error f ↔
      compileAxis axis b view aggregate = .error f := by
  have hcolumn : b.asKept.columnType axis view = b.columnType axis view := rfl
  have hfilter : b.asKept.filter = b.filter.asKept := rfl
  simp only [compileAxis, bind_eq_error_iff, hcolumn, hfilter, predicate?_asKept_eq_error_iff,
    reduceCtorEq, and_false, exists_false, or_false]
  rfl

theorem compileBindings_asKept_eq_error_iff {aggregate : Aggregate} {b : AxisBindings} :
    compileBindings aggregate b.asKept view = .error f ↔
      compileBindings aggregate b view = .error f := by
  unfold compileBindings
  refine bind_eq_error_congr (fun _ => compileAxis_asKept_eq_error_iff) fun _ _ => ?_
  refine bind_eq_error_congr (fun _ => compileAxis_asKept_eq_error_iff) fun _ _ => ?_
  refine bind_eq_error_congr (fun _ => compileAxis_asKept_eq_error_iff) fun _ _ => ?_
  simp

/-- The condition of a query, and that of its bounds, is true of a row with values of their types in
the filtered columns exactly if each axis asks for the row, and without a filter there is no
condition. Whether a filter keeps rows or discards them makes no difference to how the bindings
fail. -/
theorem compileBindings_keeps_asked (aggregate : Aggregate) (b : AxisBindings)
    (view : ViewDefinition) :
    (∀ q, compileBindings aggregate b view = .ok q →
      (whereClause? (Sql.tokens q.text) = none ↔ b.IsUnfiltered) ∧
      (whereClause? (Sql.tokens q.boundsText) = none ↔ b.IsUnfiltered) ∧
      ∀ (S N D : Type) [LinearOrder S] [LinearOrder N] [LinearOrder D] (m : Meaning S N D)
        (row : Row (Cell S N D)), b.Fits view row →
        (keeps m row (Sql.tokens q.text) = some true ↔ b.Asks m row) ∧
        (keeps m row (Sql.tokens q.boundsText) = some true ↔ b.Asks m row)) ∧
    ∀ b', b'.asKept = b.asKept → ∀ f,
      compileBindings aggregate b' view = .error f ↔
        compileBindings aggregate b view = .error f := by
  constructor
  · intro q hcompiled
    have hread := isReadable_of_compileBindings hcompiled
    have hnone : q.condition? = none ↔ b.IsUnfiltered := by
      rw [← predicates_eq_nil_iff_isUnfiltered hcompiled]
      simp [GlyphQuery.condition?]
    obtain ⟨htext, hbounds⟩ := GlyphQuery.conditions?_text hread
    refine ⟨?_, ?_, ?_⟩
    · rwa [GlyphQuery.whereClause?_text hread]
    · rwa [GlyphQuery.whereClause?_boundsText hread]
    · intro S N D _ _ _ m row hfits
      have htrue : allTrue m row q.predicates = some true ↔ b.Asks m row :=
        allTrue_predicates_iff hcompiled hfits
      exact ⟨by rwa [keeps, htext], by rwa [keeps, hbounds]⟩
  · intro b' hb f
    rw [← @compileBindings_asKept_eq_error_iff _ _ _ b', hb, compileBindings_asKept_eq_error_iff]

/-- Literals stand for what they are written for: an instant for its nanoseconds since the start of
1970. -/
def exactMeaning : Meaning String ℚ ℤ where
  text := id
  number
    | .finite negative mantissa exponent _ =>
      (if negative then -1 else 1) * mantissa * 2 ^ exponent
    | _ => 0
  integer n := n
  date t := t.seconds * 10 ^ 9 + t.nanos

/-- A view with a column of each type. -/
def salesView : ViewDefinition where
  name := "sales"
  statement := ""
  columns := [⟨"region", .string⟩, ⟨"day", .date⟩, ⟨"amount", .number⟩]

/-- The number one and a half. -/
def oneAndAHalf : Binary64 :=
  .finite false (3 * 2 ^ 51) (-52) (by decide)

/-- All rows but those from Ohio, from the end of January on, with amounts below one and a half. -/
def salesBindings : AxisBindings where
  x := ⟨"region", .linear, .ascending, .discard .equal (.string "Ohio")⟩
  y := ⟨"day", .linear, .ascending, .keep .greaterThanEqual (.string " 2024-01-31 ")⟩
  z := ⟨"amount", .linear, .ascending, .keep .lessThan (.number oneAndAHalf)⟩

/-- A row of the view. -/
def salesRow (region : String) (seconds : ℤ) (amount : ℚ) : Row (Cell String ℚ ℤ) :=
  Row.ofList
    [("region", .text region), ("day", .date (seconds * 10 ^ 9)), ("amount", .number amount)]

/-- A row that is asked for is kept, and one from Ohio is not; to keep the rows from Ohio instead
would compile as well. -/
theorem compileBindings_keeps_sales :
    ∃ q, compileBindings .sum salesBindings salesView = .ok q ∧
      whereClause? (Sql.tokens q.text) ≠ none ∧
      keeps exactMeaning (salesRow "Utah" 1706659200 1) (Sql.tokens q.text) = some true ∧
      keeps exactMeaning (salesRow "Ohio" 1706659200 1) (Sql.tokens q.boundsText) ≠ some true ∧
      ∀ f, compileBindings .sum salesBindings.asKept salesView ≠ .error f := by
  have hcompiled : ∃ q, compileBindings .sum salesBindings salesView = .ok q := ⟨_, rfl⟩
  obtain ⟨q, hq⟩ := hcompiled
  have hfits : ∀ region seconds amount,
      salesBindings.Fits salesView (salesRow region seconds amount) := by
    intro region seconds amount
    exact ⟨fun _ => ⟨_, rfl, rfl⟩, fun _ => ⟨_, rfl, rfl⟩, fun _ => ⟨_, rfl, rfl⟩⟩
  obtain ⟨hkept, hfail⟩ := compileBindings_keeps_asked .sum salesBindings salesView
  obtain ⟨hclause, -, hrows⟩ := hkept q hq
  have hutah := hrows String ℚ ℤ exactMeaning _ (hfits "Utah" 1706659200 1)
  have hohio := hrows String ℚ ℤ exactMeaning _ (hfits "Ohio" 1706659200 1)
  refine ⟨q, hq, ?_, ?_, ?_, ?_⟩
  · exact fun hnone => absurd (hclause.1 hnone).1 (by decide)
  · refine hutah.1.2 ⟨?_, ?_, ?_⟩
    · rintro ⟨cell, hcell, hcompares⟩
      obtain rfl := Option.some.inj hcell
      have hregion : "Utah" = "Ohio" := hcompares
      exact absurd hregion (by decide)
    · refine ⟨_, rfl, ⟨1706659200, 0⟩, by decide, ?_⟩
      simp [Operator.Relates, exactMeaning]
    · refine ⟨_, rfl, ?_⟩
      norm_num [Cell.Compares, Operator.Relates, exactMeaning, oneAndAHalf]
  · intro hkeep
    exact (hohio.2.1 hkeep).1 ⟨_, rfl, rfl⟩
  · intro f hf
    rw [hfail salesBindings.asKept rfl, hq] at hf
    cases hf

end TabularView
